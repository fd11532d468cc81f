import MobileCore.FlatObjects
import MobileCore.PfcpMessages

/-!
# The SMF

Its SBI server handles one request a connection: it gives out the next address of the pool, asks
the UPF for a session and answers with the SM context. Requests are as `httpRecv` leaves them.
-/

namespace MobileCore.SessionManagement

open MobileCore.CppText
open MobileCore.FlatObjects
open MobileCore.PfcpMessages
open MobileCore.WireJson

/-- The parts of a request that the SMF looks at. -/
structure HttpMessage where
  startLine : Str
  body : Str
deriving DecidableEq

structure State where
  alive : Bool := true
  ueIpCounter : UInt32 := 2
  pfcpSeq : UInt32 := 1
deriving DecidableEq

/-- What the SMF sends, to the UPF and to its client, and its end. -/
inductive Event where
  | n4Request (pkt : List UInt8)
  | badRequest (text : Str)
  | created (location body text : Str)
  | crashed
deriving DecidableEq

/-- `PcapWriter::IP_SMF`. -/
def smfIp : UInt32 := 0x0A010003

/-- The text that `allocateUeIp` prints for the counter's value. -/
def ueIpText (n : UInt32) : Str :=
  lit "10.45." ++ natText ((n >>> 8) &&& 0xFF).toNat ++ lit "." ++ natText (n &&& 0xFF).toNat

def allocateUeIp (s : State) : Str × State :=
  (ueIpText s.ueIpCounter, { s with ueIpCounter := s.ueIpCounter + 1 })

def setupN4Session (s : State) (pduSessionId : UInt32) : List UInt8 × State :=
  let cpSeid : UInt64 := 0x0000000100000000 ||| pduSessionId.toUInt64
  (buildSessionEstReq smfIp cpSeid s.pfcpSeq 1 1, { s with pfcpSeq := s.pfcpSeq + 1 })

def smContextRef (supi : Str) : Str :=
  lit "/nsmf-pdusession/v1/sm-contexts/ue-" ++ supi.drop (supi.length - 5)

def isCreate (req : HttpMessage) : Bool :=
  (find (lit "POST") req.startLine).isSome && (find (lit "sm-contexts") req.startLine).isSome

/-- The PDU session id of a request, one when it has none; `none` where `stoi` throws. -/
def pduSessionId (req : HttpMessage) : Option Int :=
  let text := get req.body (lit "pduSessionId")
  if text.isEmpty then some 1 else stoi text

def contextBody (supi dnn ueIp : Str) (psi : Int) : Str :=
  obj [(lit "smContextRef", str (smContextRef supi)),
    (lit "ueIpAddress", str ueIp),
    (lit "pduSessionId", num psi),
    (lit "dnn", str (if dnn.isEmpty then lit "internet" else dnn)),
    (lit "upfIp", str (lit "10.1.0.4")),
    (lit "upfTeid", str (lit "0x00000101"))]

def handleOne (s : State) (req : HttpMessage) : State × List Event :=
  if !isCreate req then
    (s, [.badRequest (httpBuild (lit "HTTP/1.1 400 Bad Request")
      (lit "\x7b\"problem\":\"only POST /nsmf-pdusession/v1/sm-contexts supported\"\x7d") [])])
  else
    let supi := get req.body (lit "supi")
    let dnn := get req.body (lit "dnn")
    match pduSessionId req with
    | none => ({ s with alive := false }, [.crashed])
    | some psi =>
      let (ueIp, s) := allocateUeIp s
      let (pkt, s) := setupN4Session s (UInt32.ofInt psi)
      let ref := smContextRef supi
      let body := contextBody supi dnn ueIp psi
      (s, [.n4Request pkt,
        .created ref body (lit "HTTP/1.1 201 Created\r\n" ++ lit "Location: " ++ ref ++
          lit "\r\n" ++ lit "Content-Type: application/json\r\n" ++ lit "Content-Length: " ++
          natText body.length ++ lit "\r\n" ++ lit "\r\n" ++ body)])

/-- What a request does to the pool: it takes the next address and answers with it, or takes
none. -/
theorem handleOne_allocates (s : State) (req : HttpMessage) :
    (∃ supi dnn psi location text pkt, isCreate req = true ∧
      (handleOne s req).1.ueIpCounter = s.ueIpCounter + 1 ∧
      (handleOne s req).2 =
        [.n4Request pkt, .created location (contextBody supi dnn (ueIpText s.ueIpCounter) psi) text]) ∨
    ((handleOne s req).1.ueIpCounter = s.ueIpCounter ∧
      ∀ location body text, .created location body text ∉ (handleOne s req).2) := by
  rw [handleOne]
  cases hcreate : isCreate req with
  | false =>
      right
      exact ⟨rfl, by simp⟩
  | true =>
      cases hpsi : pduSessionId req with
      | none =>
          right
          exact ⟨rfl, by simp⟩
      | some psi =>
          left
          exact ⟨_, _, psi, _, _, _, rfl, rfl, rfl⟩

/-- The address in an answer is found behind the SM context, whatever the SUPI ends in. -/
theorem get_contextBody (supi dnn ueIp : Str) (psi : Int) (h : Quoteless ueIp) :
    get (contextBody supi dnn ueIp psi) (lit "ueIpAddress") = ueIp := by
  have hplain : Plain (lit "ueIpAddress") := by decide
  have hhead (x : Str) : ¬lit "ueIpAddress" ++ [34, 58] <+:
      lit "/nsmf-pdusession/v1/sm-contexts/ue-" ++ x := by
    intro hfront
    exact absurd (List.cons_prefix_cons.mp hfront).1 (by decide)
  have hshort : (supi.drop (supi.length - 5)).length ≤ (lit "ueIpAddress").length := by
    rw [List.length_drop]
    show supi.length - (supi.length - 5) ≤ 11
    omega
  rw [contextBody, get_obj, smContextRef, look_short_end _ hplain (by decide) (by decide)
    (by decide) hhead hshort, look_plain _ hplain (by decide) (.quoted ueIp h), if_pos rfl]

theorem octet_eq (n : UInt32) :
    ((n >>> 8) &&& 0xFF).toNat = n.toNat / 256 % 256 ∧ (n &&& 0xFF).toNat = n.toNat % 256 := by
  have hmask (m : Nat) : m &&& 255 = m % 256 := Nat.and_two_pow_sub_one_eq_mod m 8
  constructor
  · rw [UInt32.toNat_and, UInt32.toNat_shiftRight]
    exact (hmask _).trans (by rw [Nat.shiftRight_eq_div_pow]; rfl)
  · rw [UInt32.toNat_and]
    exact hmask _

theorem ueIpText_quoteless (n : UInt32) : Quoteless (ueIpText n) := by
  have hdigits (k : Nat) : (34 : UInt8) ∉ natText k := not_mem_natText k 34 (.inl (by decide))
  have hfront : (34 : UInt8) ∉ lit "10.45." := by decide
  have hdot : (34 : UInt8) ∉ lit "." := by decide
  simp only [Quoteless, ueIpText, List.mem_append, not_or]
  exact ⟨⟨⟨hfront, hdigits _⟩, hdot⟩, hdigits _⟩

theorem ueIpText_injective {n m : UInt32} (hn : n < 65536) (hm : m < 65536)
    (h : ueIpText n = ueIpText m) : n = m := by
  have hdot (k : Nat) : (46 : UInt8) ∉ natText k := not_mem_natText k 46 (.inl (by decide))
  simp only [ueIpText, List.append_assoc] at h
  obtain ⟨hhi, _, hlo⟩ := (List.append_cons_inj_of_notMem (hdot _) (hdot _)).mp
    (List.append_cancel_left h)
  have hhigh := natText_injective hhi
  have hlow := natText_injective hlo
  rw [(octet_eq n).1, (octet_eq m).1] at hhigh
  rw [(octet_eq n).2, (octet_eq m).2] at hlow
  apply UInt32.toNat_inj.mp
  have hn' : n.toNat < 65536 := UInt32.lt_iff_toNat_lt.mp hn
  have hm' : m.toNat < 65536 := UInt32.lt_iff_toNat_lt.mp hm
  omega

end MobileCore.SessionManagement
