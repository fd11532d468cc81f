import MobileCore.AccessManagement
import MobileCore.FunctionRepository
import MobileCore.HttpMessages
import MobileCore.SubscriptionIdentifiers

namespace MobileCore.UnifiedDataManagement

open CppText FlatObjects HttpConnections SimplifiedAka SubscriptionIdentifiers WireJson
open AccessManagement (UdmAnswer udmHostHeader)
open FunctionRepository (nextWord path splitPath)
open SessionManagement (HttpMessage)

/-- The random bytes of one authentication vector. -/
structure Draws where
  rnd : Vector UInt8 16
  autn : Vector UInt8 16
  kausf : Vector UInt8 32

def authData (plmn : Plmn) (draws : Draws) (suci xresStar : Str) : Str :=
  obj [(lit "authType", str (lit "5G_AKA")),
    (lit "supi", str (supiFromSuci plmn suci)),
    (lit "rand", str (toHex draws.rnd.toList)),
    (lit "autn", str (toHex draws.autn.toList)),
    (lit "xresStar", str xresStar),
    (lit "kausf", str (toHex draws.kausf.toList))]

/-- `none` where the conversion of a key or a challenge throws. -/
def handleAuthDataRequest (plmn : Plmn) (draws : Draws) (suci : Str) : Option Str :=
  let k := kFor (msinFromSuci suci)
  (byteXor (toHex draws.rnd.toList) k).map fun xresStar =>
    httpBuild (lit "HTTP/1.1 200 OK") (authData plmn draws suci xresStar) []

def amData (supi : Str) : Str :=
  obj [(lit "supi", str supi),
    (lit "nssai", lit "\x7b\"defaultSingleNssais\":[\x7b\"sst\":1,\"sd\":\"000001\"\x7d]\x7d"),
    (lit "subscribedUeAmbr", lit "\x7b\"uplink\":\"100Mbps\",\"downlink\":\"200Mbps\"\x7d")]

def handleSdmRequest (supi : Str) : Str := httpBuild (lit "HTTP/1.1 200 OK") (amData supi) []

def handleRequest (plmn : Plmn) (draws : Draws) (req : HttpMessage) : Option Str :=
  let id := (splitPath (path req)).getD 2 []
  if (find (lit "/security-information/generate-auth-data") (path req)).isSome then
    handleAuthDataRequest plmn draws id
  else if (find (lit "/am-data") (path req)).isSome then some (handleSdmRequest id)
  else some (httpBuild (lit "HTTP/1.1 404 Not Found") (lit "\x7b\x7d") [])

/-- How a call of the UDM ends when the UDM reads the text. -/
def answer (plmn : Plmn) (draws : Draws) (text : Str) : UdmAnswer :=
  match httpRecv HttpMessages.maxSize text with
  | .message req =>
    match handleRequest plmn draws req with
    | some resp =>
      match httpRecv HttpMessages.maxSize resp with
      | .message msg => .received true msg.body
      | .closed => .received false []
      | .thrown => .malformed
    | none => .received false []
  | _ => .received false []

section Messages

theorem httpBuild_messages (startLine body extraHeader : Str) :
    httpBuild startLine body extraHeader = HttpMessages.httpBuild startLine body extraHeader := by
  have hcrlf : lit "\r\n" = HttpMessages.crlf := rfl
  have htype : lit "Content-Type: application/json\r\n" =
      lit "Content-Type: application/json" ++ HttpMessages.crlf := rfl
  rw [httpBuild, HttpMessages.httpBuild, HttpMessages.headerLines, hcrlf, htype]
  by_cases hextra : extraHeader = []
  · rw [if_pos (by simp [hextra]), if_pos hextra]
    simp
  · rw [if_neg (by simp [hextra]), if_neg hextra]
    simp

theorem httpRecv_built {startLine extraHeader : Str} (body : Str)
    (hstart : HttpMessages.Plain startLine) (hextra : HttpMessages.Plain extraHeader)
    (hbody : body.length < 2 ^ 32) :
    httpRecv HttpMessages.maxSize (httpBuild startLine body extraHeader) =
      .message { startLine, body } := by
  have hbytes := HttpMessages.byteByByte_bytes (httpBuild startLine body extraHeader)
  have hlines : HttpMessages.headerLines body extraHeader ≠ [] :=
    List.append_ne_nil_of_right_ne_nil _ (List.cons_ne_nil _ _)
  obtain ⟨msg, s, hreceived, -, hline, hbody, -⟩ := HttpMessages.httpRecv_lines hstart
    (HttpMessages.plain_headerLines body hextra) hlines hbody
    (HttpMessages.contentLength_headerLines body extraHeader)
    (by rw [hbytes, httpBuild_messages, HttpMessages.httpBuild_eq, List.append_nil])
  have hoff := HttpMessages.httpRecv_received
    (HttpMessages.byteByByte (httpBuild startLine body extraHeader))
  rw [hbytes, hreceived] at hoff
  rw [← hoff, HttpMessages.Outcome.received, ← hline, ← hbody]

/-- A text that can stand between two slashes of a path and in quotes. -/
def Segment (s : Str) : Prop := ∀ c ∈ s, isSpace c = false ∧ c ≠ 34 ∧ c ≠ 47

instance (s : Str) : Decidable (Segment s) := List.decidableBAll _ s

def Spaceless (s : Str) : Prop := ∀ c ∈ s, isSpace c = false

instance (s : Str) : Decidable (Spaceless s) := List.decidableBAll _ s

theorem segment_append {s t : Str} : Segment (s ++ t) ↔ Segment s ∧ Segment t := by
  constructor
  · intro h
    exact ⟨fun c hc => h c (List.mem_append_left t hc), fun c hc => h c (List.mem_append_right s hc)⟩
  · rintro ⟨hs, ht⟩ c hc
    rcases List.mem_append.mp hc with hc | hc
    · exact hs c hc
    · exact ht c hc

theorem Segment.quoteless {s : Str} (h : Segment s) : Quoteless s :=
  fun hquote => (h 34 hquote).2.1 rfl

theorem Segment.plain {s : Str} (h : Segment s) : HttpMessages.Plain s := by
  constructor
  · intro hcr
    exact absurd (h 13 hcr).1 (by decide)
  · intro hlf
    exact absurd (h 10 hlf).1 (by decide)

theorem segment_natText (n : Nat) : Segment (natText n) := by
  intro c hc
  obtain ⟨hlow, -⟩ := natText_digits n c hc
  have hother (b : UInt8) (hb : b < 48) : c ≠ b := by
    rintro rfl
    exact absurd (UInt8.lt_of_lt_of_le hb hlow) (UInt8.lt_irrefl _)
  refine ⟨?_, hother 34 (by decide), hother 47 (by decide)⟩
  rw [isSpace, Bool.or_eq_false_iff, beq_eq_false_iff_ne, Bool.and_eq_false_iff]
  refine ⟨hother 32 (by decide), .inr (decide_eq_false ?_)⟩
  intro hhigh
  exact absurd (UInt8.le_trans hlow hhigh) (by decide)

theorem segment_intText (n : Int) : Segment (intText n) := by
  cases n with
  | ofNat n => exact segment_natText n
  | negSucc n =>
      intro c hc
      rcases List.mem_cons.mp hc with rfl | hc
      · decide
      · exact segment_natText (n + 1) c hc

theorem segment_msin (n : Int) : Segment (msin n) := by
  rw [msin, padLeft, segment_append]
  refine ⟨?_, segment_intText n⟩
  intro c hc
  rw [List.eq_of_mem_replicate hc]
  decide

theorem Segment.of_mem {s t : Str} (ht : Segment t) (h : ∀ c ∈ s, c ∈ t) : Segment s :=
  fun c hc => ht c (h c hc)

theorem segment_toHex (v : List UInt8) : Segment (toHex v) := by
  have hall : ∀ n < 16, isSpace (hexDigit n) = false ∧ hexDigit n ≠ 34 ∧ hexDigit n ≠ 47 := by
    decide
  intro c hc
  obtain ⟨b, -, hc⟩ := List.mem_flatMap.mp hc
  have hb : b.toNat < 256 := b.toNat_lt
  rcases List.mem_pair.mp hc with rfl | rfl
  · exact hall _ (by omega)
  · exact hall _ (by omega)

end Messages

section Paths

theorem nextWord_word {word : Str} (hword : Spaceless word) (hne : word ≠ [])
    (rest : Str) : nextWord (word ++ 32 :: rest) = (word, 32 :: rest) := by
  have hall : ∀ c ∈ word, (!isSpace c) = true := by
    intro c hc
    rw [hword c hc]
    rfl
  have hfront : (word ++ 32 :: rest).dropWhile isSpace = word ++ 32 :: rest := by
    obtain ⟨c, word, rfl⟩ := List.exists_cons_of_ne_nil hne
    rw [List.cons_append, List.dropWhile_cons_of_neg]
    rw [hword c List.mem_cons_self]
    exact Bool.false_ne_true
  have hstop : (32 :: rest).takeWhile (fun c => !isSpace c) = [] := rfl
  have hback : (32 :: rest).dropWhile (fun c => !isSpace c) = 32 :: rest := rfl
  rw [nextWord, hfront, List.takeWhile_append_of_pos hall, List.dropWhile_append_of_pos hall, hstop,
    hback, List.append_nil]

theorem nextWord_blank (rest : Str) : nextWord (32 :: rest) = nextWord rest := by
  rw [nextWord, List.dropWhile_cons_of_pos (by decide)]
  rfl

theorem path_eq (method : Str) {target : Str} (hmethod : Spaceless method)
    (hne : method ≠ []) (htarget : Spaceless target) (hne' : target ≠ [])
    (version body : Str) :
    path { startLine := method ++ 32 :: (target ++ 32 :: version), body } = target := by
  rw [path, nextWord_word hmethod hne, nextWord_blank, nextWord_word htarget hne']

theorem splitPath_slash (rest : Str) : splitPath (47 :: rest) = splitPath rest := by
  have hnone : (47 : UInt8) ∉ [] := List.not_mem_nil
  rw [splitPath, ← List.nil_append (47 :: rest), List.splitOn_append_cons_self_of_not_mem hnone]
  rfl

theorem splitPath_part {part : Str} (hpart : 47 ∉ part) (hne : part ≠ []) (rest : Str) :
    splitPath (part ++ 47 :: rest) = part :: splitPath rest := by
  rw [splitPath, List.splitOn_append_cons_self_of_not_mem hpart, List.filter_cons_of_pos, splitPath]
  rw [Bool.not_eq_true', List.isEmpty_eq_false_iff]
  exact hne

theorem splitPath_subscriber (first second : Str) {id : Str} (hfirst : 47 ∉ first) (hne : first ≠ [])
    (hsecond : 47 ∉ second) (hne' : second ≠ []) (hid : 47 ∉ id) (hne'' : id ≠ []) (rest : Str) :
    (splitPath (47 :: (first ++ 47 :: (second ++ 47 :: (id ++ 47 :: rest))))).getD 2 [] = id := by
  rw [splitPath_slash, splitPath_part hfirst hne, splitPath_part hsecond hne', splitPath_part hid hne'']
  rfl

end Paths

section Lengths

theorem length_members_le (kv : List (Str × Str)) :
    (members kv).length ≤ (kv.map fun m => m.1.length + m.2.length + 4).sum := by
  have hquote : (lit "\"").length = 1 := rfl
  have hcolon : (lit "\":").length = 2 := rfl
  have hcomma : (lit ",").length = 1 := rfl
  induction kv with
  | nil => exact Nat.le_refl 0
  | cons m kv ih =>
      rw [List.map_cons, List.sum_cons]
      cases kv with
      | nil =>
          simp only [members, List.length_append, hquote, hcolon]
          omega
      | cons m' kv =>
          simp only [members, List.length_append, hquote, hcolon, hcomma]
          omega

theorem length_obj_le (kv : List (Str × Str)) :
    (obj kv).length ≤ (kv.map fun m => m.1.length + m.2.length + 4).sum + 2 := by
  have hopen : (lit "\x7b").length = 1 := rfl
  have hclose : (lit "\x7d").length = 1 := rfl
  have hmembers := length_members_le kv
  rw [obj, List.length_append, List.length_append, hopen, hclose]
  omega

theorem length_str (s : Str) : (str s).length = s.length + 2 := by
  have hquote : (lit "\"").length = 1 := rfl
  rw [str, List.length_append, List.length_append, hquote]
  omega

theorem length_toHex (v : List UInt8) : (toHex v).length = 2 * v.length := by
  induction v with
  | nil => rfl
  | cons b v ih =>
      show (toHex v).length + 1 + 1 = _
      rw [ih, List.length_cons]
      omega

/-- The text of an `int` has a sign and ten digits at most. -/
theorem length_intText_le {n : Int} (hlow : -2 ^ 31 ≤ n) (hhigh : n < 2 ^ 31) :
    (intText n).length ≤ 11 := by
  cases n with
  | ofNat n =>
      have hn : n < 2 ^ 31 := Int.ofNat_lt.mp hhigh
      have hdigits : (natText n).length ≤ 10 := length_natText_le (by decide) (by omega)
      exact Nat.le_succ_of_le hdigits
  | negSucc n =>
      have hdigits : (natText (n + 1)).length ≤ 10 := length_natText_le (by decide) (by omega)
      exact Nat.succ_le_succ hdigits

theorem length_msin_le {n : Int} (hlow : -2 ^ 31 ≤ n) (hhigh : n < 2 ^ 31) :
    (msin n).length ≤ 11 := by
  have htext := length_intText_le hlow hhigh
  rw [msin, padLeft, List.length_append, List.length_replicate]
  omega

theorem length_msinFromSuci_le (s : Str) : (msinFromSuci s).length ≤ s.length := by
  rw [msinFromSuci, afterLast]
  split
  · rw [Option.getD_some, List.length_reverse]
    exact (List.takeWhile_sublist _).length_le.trans_eq List.length_reverse
  · exact Nat.zero_le _

end Lengths

/-- A home network whose codes can stand in the texts that name it. -/
structure Network extends Plmn where
  mcc_segment : Segment mcc
  mnc_segment : Segment mnc
  short : mcc.length + mnc.length ≤ 1000

namespace Network

variable (net : Network)

theorem domain_segment : Segment (plmnDomain net.toPlmn) := by
  have hmnc : Segment (if net.mnc.length = 2 then lit "0" ++ net.mnc else net.mnc) := by
    split
    · exact segment_append.mpr ⟨by decide, net.mnc_segment⟩
    · exact net.mnc_segment
  rw [plmnDomain, segment_append, segment_append, segment_append]
  exact ⟨⟨⟨by decide, hmnc⟩, by decide⟩, net.mcc_segment⟩

theorem length_domain_le : (plmnDomain net.toPlmn).length ≤ 1020 := by
  have hshort := net.short
  have hfront : (lit "mnc").length = 3 := rfl
  have hgap : (lit ".mcc").length = 4 := rfl
  have hzero : (lit "0").length = 1 := rfl
  rw [plmnDomain]
  split
  · simp only [List.length_append, hfront, hgap, hzero]
    omega
  · simp only [List.length_append, hfront, hgap]
    omega

theorem host_plain : HttpMessages.Plain (udmHostHeader net.toPlmn) := by
  rw [udmHostHeader]
  have hfront : HttpMessages.Plain (lit "Host: udm.5gc.") := ⟨by decide, by decide⟩
  have hback : HttpMessages.Plain (lit ".3gppnetwork.org") := ⟨by decide, by decide⟩
  exact HttpMessages.plain_append (HttpMessages.plain_append hfront net.domain_segment.plain) hback

theorem suci_segment (n : Int) : Segment (suci net.toPlmn n) := by
  rw [suci, segment_append, segment_append, segment_append, segment_append, segment_append]
  exact ⟨⟨⟨⟨⟨by decide, net.mcc_segment⟩, by decide⟩, net.mnc_segment⟩, by decide⟩, segment_msin n⟩

theorem length_suci_le {n : Int} (hlow : -2 ^ 31 ≤ n) (hhigh : n < 2 ^ 31) :
    (suci net.toPlmn n).length ≤ 1040 := by
  have hshort := net.short
  have hmsin := length_msin_le hlow hhigh
  have hfront : (lit "suci-0-").length = 7 := rfl
  have hgap : (lit "-").length = 1 := rfl
  have hback : (lit "-0000-0-0-").length = 10 := rfl
  simp only [suci, List.length_append, hfront, hgap, hback]
  omega

end Network

/-- The first byte of what is searched for can only stand behind a text that lacks it. -/
theorem infix_skip {c : UInt8} {x front text : Str} (hfront : c ∉ front) :
    c :: x <:+: front ++ text ↔ c :: x <:+: text := by
  induction front with
  | nil => rfl
  | cons d front ih =>
      have hd : c ≠ d := fun heq => hfront (heq ▸ List.mem_cons_self)
      rw [List.cons_append, List.infix_cons_iff, ih fun hc => hfront (List.mem_cons_of_mem d hc)]
      constructor
      · rintro (hstart | hinfix)
        · exact absurd (List.cons_prefix_cons.mp hstart).1 hd
        · exact hinfix
      · exact Or.inr

def authDataRequest (plmn : Plmn) (suci : Str) : Str :=
  httpBuild (lit "POST /nudm-ueau/v2/" ++ suci ++
      lit "/security-information/generate-auth-data HTTP/1.1")
    (obj [(lit "servingNetworkName", str (lit "5G:" ++ plmnDomain plmn ++ lit ".3gppnetwork.org"))])
    (udmHostHeader plmn)

def amDataRequest (plmn : Plmn) (supi : Str) : Str :=
  httpBuild (lit "GET /nudm-sdm/v2/" ++ supi ++ lit "/am-data HTTP/1.1") [] (udmHostHeader plmn)

section Answers

variable (net : Network) (draws : Draws) {id : Str}

theorem httpRecv_authDataRequest (hid : Segment id) :
    httpRecv HttpMessages.maxSize (authDataRequest net.toPlmn id) =
      .message
        { startLine := lit "POST" ++ 32 :: ((lit "/nudm-ueau/v2/" ++ id ++
            lit "/security-information/generate-auth-data") ++ 32 :: lit "HTTP/1.1")
          body := obj [(lit "servingNetworkName",
            str (lit "5G:" ++ plmnDomain net.toPlmn ++ lit ".3gppnetwork.org"))] } := by
  have hline : lit "POST /nudm-ueau/v2/" ++ id ++
      lit "/security-information/generate-auth-data HTTP/1.1" =
      lit "POST" ++ 32 :: ((lit "/nudm-ueau/v2/" ++ id ++
        lit "/security-information/generate-auth-data") ++ 32 :: lit "HTTP/1.1") := by
    simp [lit]
  have hplain : HttpMessages.Plain (lit "POST /nudm-ueau/v2/" ++ id ++
      lit "/security-information/generate-auth-data HTTP/1.1") := by
    apply HttpMessages.plain_append (HttpMessages.plain_append _ hid.plain)
    · exact ⟨by decide, by decide⟩
    · exact ⟨by decide, by decide⟩
  rw [authDataRequest, httpRecv_built _ hplain net.host_plain, hline]
  refine (length_obj_le _).trans_lt ?_
  have hdomain := net.length_domain_le
  have hkey : (lit "servingNetworkName").length = 18 := rfl
  have hfront : (lit "5G:").length = 3 := rfl
  have hback : (lit ".3gppnetwork.org").length = 16 := rfl
  simp only [List.map_cons, List.map_nil, List.sum_cons, List.sum_nil, length_str,
    List.length_append, hkey, hfront, hback]
  omega

theorem spaceless_target (front back : Str) (hfront : Spaceless front)
    (hid : Segment id) (hback : Spaceless back) : Spaceless (front ++ id ++ back) := by
  intro c hc
  rcases List.mem_append.mp hc with hc | hc
  · rcases List.mem_append.mp hc with hc | hc
    · exact hfront c hc
    · exact (hid c hc).1
  · exact hback c hc

theorem length_authData_le (id x : Str) :
    (authData net.toPlmn draws id x).length ≤ 1400 + id.length + x.length := by
  have hshort := net.short
  have hmsin := length_msinFromSuci_le id
  have hprefix : (lit "imsi-").length = 5 := rfl
  have hkeys : (lit "authType").length = 8 ∧ (lit "supi").length = 4 ∧ (lit "rand").length = 4 ∧
      (lit "autn").length = 4 ∧ (lit "xresStar").length = 8 ∧ (lit "kausf").length = 5 ∧
      (lit "5G_AKA").length = 6 := by decide
  obtain ⟨h₁, h₂, h₃, h₄, h₅, h₆, h₇⟩ := hkeys
  refine (length_obj_le _).trans ?_
  simp only [List.map_cons, List.map_nil, List.sum_cons, List.sum_nil, length_str, length_toHex,
    Vector.length_toList, supiFromSuci, List.length_append, hprefix, h₁, h₂, h₃, h₄, h₅, h₆, h₇]
  omega

theorem mem_of_mem_msinFromSuci {s : Str} {c : UInt8} (h : c ∈ msinFromSuci s) : c ∈ s := by
  rw [msinFromSuci, afterLast] at h
  split at h
  · rw [Option.getD_some, List.mem_reverse] at h
    exact List.mem_reverse.mp ((List.takeWhile_sublist _).subset h)
  · cases h

theorem supiFromSuci_segment (hid : Segment id) : Segment (supiFromSuci net.toPlmn id) := by
  rw [supiFromSuci, segment_append, segment_append, segment_append]
  exact ⟨⟨⟨by decide, net.mcc_segment⟩, net.mnc_segment⟩,
    hid.of_mem fun c => mem_of_mem_msinFromSuci⟩

theorem length_supiFromSuci_le (id : Str) :
    (supiFromSuci net.toPlmn id).length ≤ 1005 + id.length := by
  have hshort := net.short
  have hmsin := length_msinFromSuci_le id
  have hprefix : (lit "imsi-").length = 5 := rfl
  simp only [supiFromSuci, List.length_append, hprefix]
  omega

theorem look_pass {k key s : Str} (kv : List (Str × Str)) (hk : FlatObjects.Plain k)
    (hkey : Quoteless key) (hs : Quoteless s) (hne : key ≠ k) :
    look k ((key, str s) :: kv) = look k kv := by
  rw [look_plain kv hk hkey (.quoted s hs), if_neg hne]

theorem look_found {k s : Str} (kv : List (Str × Str)) (hk : FlatObjects.Plain k)
    (hs : Quoteless s) : look k ((k, str s) :: kv) = s := by
  rw [look_plain kv hk hk.1 (.quoted s hs), if_pos rfl]

theorem get_authData {x : Str} (hid : Segment id) (hx : Quoteless x) :
    get (authData net.toPlmn draws id x) (lit "supi") = supiFromSuci net.toPlmn id ∧
      get (authData net.toPlmn draws id x) (lit "rand") = toHex draws.rnd.toList ∧
      get (authData net.toPlmn draws id x) (lit "autn") = toHex draws.autn.toList ∧
      get (authData net.toPlmn draws id x) (lit "xresStar") = x := by
  have hsupi := (supiFromSuci_segment net hid).quoteless
  have hrnd := (segment_toHex draws.rnd.toList).quoteless
  have hautn := (segment_toHex draws.autn.toList).quoteless
  simp only [authData, get_obj]
  refine ⟨?_, ?_, ?_, ?_⟩
  · rw [look_pass _ (by decide) (by decide) (by decide) (by decide), look_found _ (by decide) hsupi]
  · rw [look_pass _ (by decide) (by decide) (by decide) (by decide),
      look_pass _ (by decide) (by decide) hsupi (by decide), look_found _ (by decide) hrnd]
  · rw [look_pass _ (by decide) (by decide) (by decide) (by decide),
      look_pass _ (by decide) (by decide) hsupi (by decide),
      look_pass _ (by decide) (by decide) hrnd (by decide), look_found _ (by decide) hautn]
  · rw [look_pass _ (by decide) (by decide) (by decide) (by decide),
      look_pass _ (by decide) (by decide) hsupi (by decide),
      look_pass _ (by decide) (by decide) hrnd (by decide),
      look_pass _ (by decide) (by decide) hautn (by decide), look_found _ (by decide) hx]

theorem answer_authDataRequest (hid : Segment id) (hne : id ≠ []) (hlength : id.length ≤ 1040) :
    answer net.toPlmn draws (authDataRequest net.toPlmn id) =
      .received true (authData net.toPlmn draws id (toHex (xorBytes draws.rnd.toList sharedKey))) := by
  have htarget := spaceless_target (lit "/nudm-ueau/v2/")
    (lit "/security-information/generate-auth-data") (by decide) hid (by decide)
  have hslash : 47 ∉ id := fun hc => (hid 47 hc).2.2 rfl
  have hpath := path_eq (lit "POST") (by decide) (by decide) htarget (by simp [lit])
    (lit "HTTP/1.1") (obj [(lit "servingNetworkName",
      str (lit "5G:" ++ plmnDomain net.toPlmn ++ lit ".3gppnetwork.org"))])
  have hsubscriber : (splitPath (lit "/nudm-ueau/v2/" ++ id ++
      lit "/security-information/generate-auth-data")).getD 2 [] = id := by
    rw [List.append_assoc]
    exact splitPath_subscriber (lit "nudm-ueau") (lit "v2") (by decide)
      (by decide) (by decide) (by decide) hslash hne
      (lit "security-information/generate-auth-data")
  have hfind : (find (lit "/security-information/generate-auth-data") (lit "/nudm-ueau/v2/" ++ id ++
      lit "/security-information/generate-auth-data")).isSome = true := by
    rw [find_isSome_iff]
    exact (List.suffix_append _ _).isInfix
  rw [answer, httpRecv_authDataRequest net hid]
  dsimp only
  rw [handleRequest, hpath, if_pos hfind, hsubscriber, handleAuthDataRequest, byteXor_kFor,
    Option.map_some]
  dsimp only
  rw [httpRecv_built _ ⟨by decide, by decide⟩ ⟨by decide, by decide⟩]
  have hbody := length_authData_le net draws id (toHex (xorBytes draws.rnd.toList sharedKey))
  have hxor : (xorBytes draws.rnd.toList sharedKey).length = 16 := by
    rw [xorBytes, List.length_mapIdx, Vector.length_toList]
  rw [length_toHex, hxor] at hbody
  omega

theorem answer_amDataRequest {c : UInt8} {rest : Str} (hid : Segment id) (hhead : id = c :: rest)
    (hc : c ≠ 115) (hlength : id.length ≤ 4000) :
    answer net.toPlmn draws (amDataRequest net.toPlmn id) = .received true (amData id) := by
  have htarget := spaceless_target (lit "/nudm-sdm/v2/") (lit "/am-data") (by decide) hid (by decide)
  have hslash : 47 ∉ id := fun hc => (hid 47 hc).2.2 rfl
  have hpath := path_eq (lit "GET") (by decide) (by decide) htarget (by simp [lit])
    (lit "HTTP/1.1") []
  have hline : lit "GET /nudm-sdm/v2/" ++ id ++ lit "/am-data HTTP/1.1" =
      lit "GET" ++ 32 :: ((lit "/nudm-sdm/v2/" ++ id ++ lit "/am-data") ++ 32 :: lit "HTTP/1.1") := by
    simp [lit]
  have hplain : HttpMessages.Plain (lit "GET /nudm-sdm/v2/" ++ id ++ lit "/am-data HTTP/1.1") := by
    apply HttpMessages.plain_append (HttpMessages.plain_append _ hid.plain)
    · exact ⟨by decide, by decide⟩
    · exact ⟨by decide, by decide⟩
  have hsubscriber : (splitPath (lit "/nudm-sdm/v2/" ++ id ++ lit "/am-data")).getD 2 [] = id := by
    rw [List.append_assoc]
    exact splitPath_subscriber (lit "nudm-sdm") (lit "v2") (by decide)
      (by decide) (by decide) (by decide) hslash (by simp [hhead]) (lit "am-data")
  have hother : ¬(find (lit "/security-information/generate-auth-data")
      (lit "/nudm-sdm/v2/" ++ id ++ lit "/am-data")).isSome = true := by
    rw [find_isSome_iff]
    have hneedle : lit "/security-information/generate-auth-data" =
        47 :: lit "security-information/generate-auth-data" := rfl
    have hfront : lit "/nudm-sdm/v2/" ++ id ++ lit "/am-data" =
        47 :: (lit "nudm-sdm" ++ 47 :: (lit "v2" ++ 47 :: (id ++ lit "/am-data"))) := by
      simp [lit]
    have hstart (c : UInt8) (hc : c ≠ 115) (text : Str) :
        ¬lit "security-information/generate-auth-data" <+: c :: text := by
      intro hprefix
      exact hc (List.cons_prefix_cons.mp hprefix).1.symm
    rw [hneedle, hfront, List.infix_cons_iff, infix_skip (by decide), List.infix_cons_iff,
      infix_skip (by decide), List.infix_cons_iff, infix_skip hslash, List.cons_prefix_cons,
      List.cons_prefix_cons, List.cons_prefix_cons]
    rintro (⟨-, h⟩ | ⟨-, h⟩ | ⟨-, h⟩ | h)
    · exact hstart 110 (by decide) _ h
    · exact hstart 118 (by decide) _ h
    · rw [hhead] at h
      exact hstart c hc _ h
    · exact absurd h (by decide)
  have hfind : (find (lit "/am-data") (lit "/nudm-sdm/v2/" ++ id ++ lit "/am-data")).isSome = true := by
    rw [find_isSome_iff]
    exact (List.suffix_append _ _).isInfix
  rw [answer, amDataRequest, httpRecv_built _ hplain net.host_plain (by decide), hline]
  dsimp only
  rw [handleRequest, hpath, if_neg hother, if_pos hfind, hsubscriber, handleSdmRequest]
  dsimp only
  rw [httpRecv_built _ ⟨by decide, by decide⟩ ⟨by decide, by decide⟩]
  refine (length_obj_le _).trans_lt ?_
  have hkeys : (lit "supi").length = 4 ∧ (lit "nssai").length = 5 ∧
      (lit "subscribedUeAmbr").length = 16 := by decide
  obtain ⟨h₁, h₂, h₃⟩ := hkeys
  have hvalues : (lit "\x7b\"defaultSingleNssais\":[\x7b\"sst\":1,\"sd\":\"000001\"\x7d]\x7d").length = 49 ∧
      (lit "\x7b\"uplink\":\"100Mbps\",\"downlink\":\"200Mbps\"\x7d").length = 41 := by decide
  obtain ⟨h₄, h₅⟩ := hvalues
  simp only [List.map_cons, List.map_nil, List.sum_cons, List.sum_nil, length_str, h₁, h₂, h₃, h₄, h₅]
  omega

end Answers

end MobileCore.UnifiedDataManagement
