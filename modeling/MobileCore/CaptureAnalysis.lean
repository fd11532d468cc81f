import MobileCore.CaptureFile

/-!
# Analysis of a capture file

Without pyshark the analyzer looks for SIP in the text of each packet, and tells the other protocols
by bytes at fixed offsets.
-/

namespace MobileCore.CaptureAnalysis

open CaptureFile CaptureFrames ConnectionKeys CppText
open CaptureStreams (Segment Writer buildIPTCP ensureTcpHandshake nextSeq peerSeq putU32 transmit)

/-- Decoding as ASCII, with a replacement character for every other byte. -/
def decodeAscii (bytes : Str) : List Char :=
  bytes.map fun b => if b < 128 then Char.ofNat b.toNat else '\uFFFD'

/-- What comes after the first 42 bytes. -/
def extractTextHeuristic (data : Str) : List Char := decodeAscii (data.drop 42)

def isIn (needle : String) (text : List Char) : Bool := needle.toList <:+: text

/-- The digits of a match of `SIP/2\.0 (\d{3})` at the front; such a text has no digits but those
of ASCII. -/
def codeAt (text : List Char) : Option (List Char) :=
  let code := (text.drop 8).take 3
  if "SIP/2.0 ".toList <+: text ∧ code.length = 3 ∧ code.all Char.isDigit = true then some code
  else none

/-- The digits of the first match. -/
def searchCode : List Char → Option (List Char)
  | [] => codeAt []
  | c :: rest => (codeAt (c :: rest)).or (searchCode rest)

inductive Severity where
  | warn
  | info
  | err
deriving DecidableEq, Repr

structure Finding where
  severity : Severity
  title : String
  detail : String
  packetNum : Nat := 0
  fix : String := ""
deriving DecidableEq, Repr

def emptyFinding : Finding :=
  ⟨.warn, "Empty or unreadable PCAP", "No packets found. Check file path and format.", 0, ""⟩

def summaryFinding (packets : List Packet) : Finding :=
  ⟨.info, "PCAP summary", "PCAP contains " ++ toString packets.length ++ " packets, " ++
    toString (packets.map Packet.origLen).sum ++ " bytes total", 0, ""⟩

def diameterFinding : Finding :=
  ⟨.info, "Diameter packets detected", "S6a/Cx/Gx Diameter messages present. " ++
    "Install pyshark+tshark for detailed field analysis.", 0, ""⟩

def gtpFinding : Finding :=
  ⟨.info, "GTPv2 packets detected", "GTP-C (port 2123/2125) messages present.", 0, ""⟩

def pfcpFinding : Finding :=
  ⟨.info, "PFCP packets detected", "PFCP (N4, port 8805) messages present.", 0, ""⟩

def sipFinding : Finding :=
  ⟨.info, "SIP packets detected", "IMS/VoLTE SIP messages present.", 0, ""⟩

def sipDetail (code : String) : String :=
  match code with
  | "401" => "Digest auth challenge — normal if followed by re-REGISTER."
  | "403" => "Forbidden — check IMS-AKA credentials."
  | "404" => "Not found — IMPU not registered."
  | "488" => "Not Acceptable — codec mismatch in SDP. Check AMR-WB (IR.92)."
  | code => "SIP error " ++ code ++ "."

def sipErrorFinding (pktNum : Nat) (code : List Char) : Finding :=
  ⟨if ("401".toList).isPrefixOf code then .warn else .err,
    "SIP " ++ String.ofList code ++ " response at packet #" ++ toString pktNum,
    sipDetail (String.ofList code), pktNum, ""⟩

structure Marks where
  sipErrors : List (Nat × List Char) := []
  hasDiameter : Bool := false
  hasGtp : Bool := false
  hasPfcp : Bool := false
  hasSip : Bool := false

def failureIn (text : List Char) : Bool := isIn "SIP/2.0 4" text || isIn "SIP/2.0 5" text

def listedCode (text : List Char) : Option (List Char) :=
  if failureIn text then searchCode text else none

/-- The byte that is taken for the protocol, and the length that a UDP packet has. -/
def takenForUdp (data : Str) : Bool :=
  42 < data.length && (data.drop 9).take 1 == [0x11] && 50 < data.length

def inspect (marks : Marks) (pkt : Packet × Nat) : Marks :=
  let data := pkt.1.data
  let text := extractTextHeuristic data
  let dstPort := BigEndian.number ((data.drop 36).take 2)
  { sipErrors := marks.sipErrors ++ ((listedCode text).map (pkt.2 + 1, ·)).toList
    hasDiameter := marks.hasDiameter || takenForUdp data && (dstPort == 3868 || dstPort == 3869)
    hasGtp := marks.hasGtp || takenForUdp data && (dstPort == 2123 || dstPort == 2125)
    hasPfcp := marks.hasPfcp || takenForUdp data && dstPort == 8805
    hasSip := marks.hasSip || failureIn text || isIn "SIP/2.0" text }

def analyzeWithoutPyshark (file : Str) : List Finding :=
  let packets := readPcapRaw file
  if packets.isEmpty then [emptyFinding]
  else
    let marks := packets.zipIdx.foldl inspect {}
    [summaryFinding packets] ++ (if marks.hasDiameter then [diameterFinding] else []) ++
      (if marks.hasGtp then [gtpFinding] else []) ++
      (if marks.hasPfcp then [pfcpFinding] else []) ++
      (if marks.hasSip then [sipFinding] else []) ++
      marks.sipErrors.map fun e => sipErrorFinding e.1 e.2

/-- The status line of a response that fails: the version, a code of 4xx or 5xx, and a space. -/
def statusFailure (sipText : Str) : Option (List Char) :=
  let code := (sipText.drop 8).take 3
  if lit "SIP/2.0 " <+: sipText ∧ (code.head? = some 52 ∨ code.head? = some 53) ∧
      code.length = 3 ∧ code.all (fun b => 48 ≤ b ∧ b ≤ 57) = true ∧ sipText[11]? = some 32 then
    some (decodeAscii code)
  else none

inductive Protocol where
  | s1ap
  | gtpv2
  | diameter
  | sip
deriving DecidableEq, Repr

def protocolOf : Call → Protocol
  | .s1ap _ _ _ => .s1ap
  | .gtpv2 _ _ _ _ _ => .gtpv2
  | .diameter _ _ _ _ _ _ => .diameter
  | .sip _ _ _ => .sip

def messageFailure : Message → Option (List Char)
  | .sip sipText => statusFailure sipText
  | _ => none

/-- The SIP messages that fail, with the numbers of their packets. -/
def failures (frames : List Frame) : List Finding :=
  frames.zipIdx.filterMap fun f =>
    (f.1.carries.bind messageFailure).map fun code => sipErrorFinding (f.2 + 1) code

/-- The analysis of the file says what the calls wrote. -/
structure Agrees (times : Nat → UInt32 × UInt32) (pktId : UInt32) (calls : List Call) : Prop where
  recovered : (readPcapRaw (captureFile times pktId calls)).map Packet.data =
    (captured (openFile pktId) calls).map Frame.bytes
  gtpv2 : gtpFinding ∈ analyzeWithoutPyshark (captureFile times pktId calls) ↔
    ∃ call ∈ calls, protocolOf call = .gtpv2
  diameter : diameterFinding ∈ analyzeWithoutPyshark (captureFile times pktId calls) ↔
    ∃ call ∈ calls, protocolOf call = .diameter
  sip : sipFinding ∈ analyzeWithoutPyshark (captureFile times pktId calls) ↔
    ∃ call ∈ calls, protocolOf call = .sip
  errors : (analyzeWithoutPyshark (captureFile times pktId calls)).filter (·.packetNum != 0) =
    failures (captured (openFile pktId) calls)

/-- The text that S1AP and SIP calls give to the writer. -/
def textOf : Call → List Char
  | .s1ap _ _ payload => decodeAscii payload
  | .sip sipText _ _ => decodeAscii sipText
  | _ => []

def callFailure : Call → Option (List Char)
  | .sip sipText _ _ => statusFailure sipText
  | _ => none

/-- No frame is too long for a record, there is no GTPv2 and no Diameter, SIP is written if and only
if some text names it, and no text would be listed but those of responses that fail. -/
structure Clear (pktId : UInt32) (calls : List Call) : Prop where
  short : ∀ frame ∈ captured (openFile pktId) calls, frame.bytes.length < 2 ^ 32
  known : ∀ call ∈ calls, protocolOf call = .s1ap ∨ protocolOf call = .sip
  named : (∃ call ∈ calls, protocolOf call = .sip) ↔ ∃ call ∈ calls, isIn "SIP/2.0" (textOf call)
  quiet : ∀ call ∈ calls, (callFailure call).isSome ∨ listedCode (textOf call) = none

section Texts

/-- The letters of what is looked for. -/
def InPattern (c : Char) : Prop := c ∈ "SIP/2.0 ".toList ∨ c.isDigit = true

instance (c : Char) : Decidable (InPattern c) := inferInstanceAs (Decidable (_ ∨ _))

theorem codeAt_iff (text code : List Char) : codeAt text = some code ↔
    ∃ rest, text = ("SIP/2.0 ".toList ++ code) ++ rest ∧ code.length = 3 ∧
      ∀ c ∈ code, c.isDigit = true := by
  have hversion : "SIP/2.0 ".toList.length = 8 := by decide
  rw [codeAt]
  constructor
  · intro h
    split at h
    · rename_i hmatch
      rw [List.all_eq_true] at hmatch
      obtain ⟨⟨rest, rfl⟩, hlength, hdigits⟩ := hmatch
      obtain rfl := Option.some.inj h
      rw [List.drop_left' hversion] at hlength hdigits ⊢
      exact ⟨rest.drop 3, by rw [List.append_assoc, List.take_append_drop], hlength, hdigits⟩
    · cases h
  · rintro ⟨rest, rfl, hlength, hdigits⟩
    have hcode : ((("SIP/2.0 ".toList ++ code) ++ rest).drop 8).take 3 = code := by
      rw [List.append_assoc, List.drop_left' hversion, List.take_left' hlength]
    have hstart : "SIP/2.0 ".toList <+: ("SIP/2.0 ".toList ++ code) ++ rest := by
      rw [List.append_assoc]
      exact List.prefix_append _ _
    rw [hcode, if_pos ⟨hstart, hlength, List.all_eq_true.mpr hdigits⟩]

theorem inPattern_of_mem {code : List Char} (hdigits : ∀ c ∈ code, c.isDigit = true) :
    ∀ c ∈ "SIP/2.0 ".toList ++ code, InPattern c := by
  intro c hc
  rcases List.mem_append.mp hc with hversion | hcode
  · exact Or.inl hversion
  · exact Or.inr (hdigits c hcode)

theorem codeAt_gap {g : Char} (hg : ¬InPattern g) (front back : List Char) :
    codeAt (front ++ g :: back) = codeAt front := by
  apply Option.ext
  intro code
  rw [codeAt_iff, codeAt_iff]
  constructor
  · rintro ⟨rest, htext, hlength, hdigits⟩
    rcases List.append_eq_append_iff.mp htext with ⟨mid, hmatch, hgap⟩ | ⟨mid, hfront, -⟩
    · cases mid with
      | nil =>
          rw [List.append_nil] at hmatch
          exact ⟨[], by rw [List.append_nil, hmatch], hlength, hdigits⟩
      | cons c mid =>
          obtain ⟨rfl, -⟩ := List.cons.inj hgap
          have hmem : g ∈ "SIP/2.0 ".toList ++ code := by
            rw [hmatch]
            exact List.mem_append_right front List.mem_cons_self
          exact absurd (inPattern_of_mem hdigits g hmem) hg
    · exact ⟨mid, hfront, hlength, hdigits⟩
  · rintro ⟨rest, rfl, hlength, hdigits⟩
    exact ⟨rest ++ g :: back, List.append_assoc _ _ _, hlength, hdigits⟩

theorem codeAt_short {text : List Char} (h : text.length < 11) : codeAt text = none := by
  rw [Option.eq_none_iff_forall_ne_some]
  intro code hcode
  obtain ⟨rest, rfl, hlength, -⟩ := (codeAt_iff _ code).mp hcode
  have hversion : "SIP/2.0 ".toList.length = 8 := by decide
  rw [List.length_append, List.length_append, hversion, hlength] at h
  omega

theorem searchCode_short {text : List Char} (h : text.length < 11) : searchCode text = none := by
  induction text with
  | nil => exact codeAt_short h
  | cons c rest ih =>
      have hrest := ih (by rw [List.length_cons] at h; omega)
      rw [searchCode, codeAt_short h, hrest]
      rfl

theorem searchCode_gap {g : Char} (hg : ¬InPattern g) (front back : List Char) :
    searchCode (front ++ g :: back) = (searchCode front).or (searchCode back) := by
  induction front with
  | nil =>
      have hhead : codeAt (g :: back) = codeAt [] := codeAt_gap hg [] back
      exact congrArg (Option.or · (searchCode back)) hhead
  | cons c front ih =>
      have hhead := codeAt_gap hg (c :: front) back
      rw [List.cons_append] at hhead
      rw [List.cons_append, searchCode, hhead, ih, searchCode, Option.or_assoc]

/-- Whatever follows, nothing is found in front of it. -/
structure Skipped (front : List Char) : Prop where
  infix_iff : ∀ needle ∈ ["SIP/2.0", "SIP/2.0 4", "SIP/2.0 5"], ∀ back,
    needle.toList <:+: front ++ back ↔ needle.toList <:+: back
  code : ∀ back, searchCode (front ++ back) = searchCode back

theorem Skipped.append {front back : List Char} (h : Skipped front) (h' : Skipped back) :
    Skipped (front ++ back) := by
  constructor
  · intro needle hneedle rest
    rw [List.append_assoc, h.infix_iff needle hneedle, h'.infix_iff needle hneedle]
  · intro rest
    rw [List.append_assoc, h.code, h'.code]

theorem needle_letters : ∀ needle ∈ ["SIP/2.0", "SIP/2.0 4", "SIP/2.0 5"],
    7 ≤ needle.toList.length ∧ ∀ c ∈ needle.toList, InPattern c := by
  have hletters : ∀ needle ∈ ["SIP/2.0", "SIP/2.0 4", "SIP/2.0 5"],
      7 ≤ needle.toList.length ∧
        needle.toList.all (fun c => decide (InPattern c)) = true := by decide
  simpa only [List.all_eq_true, decide_eq_true_eq] using hletters

theorem skipped_block {front gap : List Char} (hshort : front.length < 7) (hgap : gap ≠ [])
    (hother : ∀ c ∈ gap, ¬InPattern c) : Skipped (front ++ gap) := by
  constructor
  · intro needle hneedle back
    obtain ⟨hlength, hletters⟩ := needle_letters needle hneedle
    rw [infix_separated hgap fun c hc hmem => hother c hc (hletters c hmem)]
    refine ⟨fun h => h.resolve_left fun hfound => ?_, Or.inr⟩
    have hle := hfound.length_le
    omega
  · intro back
    induction gap generalizing front with
    | nil => exact absurd rfl hgap
    | cons g gap ih =>
        have hg := hother g List.mem_cons_self
        rw [List.append_assoc, List.cons_append, searchCode_gap hg,
          searchCode_short (Nat.lt_trans hshort (by decide)), Option.none_or]
        cases gap with
        | nil => rfl
        | cons g' gap =>
            exact ih (by decide : ([] : List Char).length < 7) (List.cons_ne_nil g' gap) fun c hc =>
              hother c (List.mem_cons_of_mem g hc)

theorem infix_trailing {needle : String} (hneedle : needle ∈ ["SIP/2.0", "SIP/2.0 4", "SIP/2.0 5"])
    {gap : List Char} (hother : ∀ c ∈ gap, ¬InPattern c) (text : List Char) :
    needle.toList <:+: text ++ gap ↔ needle.toList <:+: text := by
  obtain ⟨hlength, hletters⟩ := needle_letters needle hneedle
  cases gap with
  | nil => rw [List.append_nil]
  | cons g gap =>
      have hsplit : needle.toList <:+: text ++ (g :: gap) ++ [] ↔
          needle.toList <:+: text ∨ needle.toList <:+: [] :=
        infix_separated (List.cons_ne_nil g gap) fun c hc hmem => hother c hc (hletters c hmem)
      rw [List.append_nil] at hsplit
      rw [hsplit]
      refine ⟨fun h => h.resolve_right fun hfound => ?_, Or.inl⟩
      have hle := hfound.length_le
      rw [List.length_nil] at hle
      omega

theorem searchCode_trailing {gap : List Char} (hother : ∀ c ∈ gap, ¬InPattern c)
    (text : List Char) : searchCode (text ++ gap) = searchCode text := by
  induction gap generalizing text with
  | nil => rw [List.append_nil]
  | cons g gap ih =>
      have hrest := ih (fun c hc => hother c (List.mem_cons_of_mem g hc)) []
      have hempty := searchCode_short (by decide : ([] : List Char).length < 11)
      rw [List.nil_append, hempty] at hrest
      rw [searchCode_gap (hother g List.mem_cons_self), hrest, Option.or_none]

end Texts

section Frames

theorem decodeAscii_append (front back : Str) :
    decodeAscii (front ++ back) = decodeAscii front ++ decodeAscii back := List.map_append

theorem length_decodeAscii (bytes : Str) : (decodeAscii bytes).length = bytes.length :=
  List.length_map _

/-- The text of a frame shows what the text of its message shows. -/
structure Shows (text message : List Char) : Prop where
  infix_iff : ∀ needle ∈ ["SIP/2.0", "SIP/2.0 4", "SIP/2.0 5"],
    needle.toList <:+: text ↔ needle.toList <:+: message
  code : searchCode text = searchCode message

theorem Skipped.shows {front : List Char} (h : Skipped front) (message : List Char) :
    Shows (front ++ message) message :=
  ⟨fun needle hneedle => h.infix_iff needle hneedle message, h.code message⟩

theorem Shows.trailing {text message gap : List Char} (h : Shows text (message ++ gap))
    (hother : ∀ c ∈ gap, ¬InPattern c) : Shows text message :=
  ⟨fun needle hneedle => (h.infix_iff needle hneedle).trans (infix_trailing hneedle hother message),
    h.code.trans (searchCode_trailing hother message)⟩

/-- Bytes of the headers that no pattern has. -/
def silent : List UInt8 := [0x00, 0x02, 0x03, 0x10, 0x12, 0x18, 0xFF]

theorem not_inPattern_of_silent {gap : Str} (h : ∀ b ∈ gap, b ∈ silent) :
    ∀ c ∈ decodeAscii gap, ¬InPattern c := by
  have hsilent :
      silent.all (fun b => (decodeAscii [b]).all fun c => decide ¬InPattern c) = true := by
    decide
  simp only [List.all_eq_true, decide_eq_true_eq] at hsilent
  intro c hc
  obtain ⟨b, hb, rfl⟩ := List.mem_map.mp hc
  exact hsilent b (h b hb) _ (List.mem_singleton_self _)

theorem skipped_bytes {front gap : Str} (hshort : front.length < 7) (hgap : gap ≠ [])
    (hsilent : ∀ b ∈ gap, b ∈ silent) : Skipped (decodeAscii (front ++ gap)) := by
  rw [decodeAscii_append]
  apply skipped_block
  · rw [length_decodeAscii]
    exact hshort
  · exact fun hnil => hgap (List.map_eq_nil_iff.mp hnil)
  · exact not_inPattern_of_silent hsilent

/-- In front of the payload of a segment stand the acknowledgement, the data offset, the flags, and
six bytes. -/
theorem shows_tcpFrame (ipId : UInt16) {s : Segment} (hflags : s.flags ∈ silent) :
    Shows (extractTextHeuristic (tcpFrame ipId s)) (decodeAscii s.payload) := by
  have htext : (tcpFrame ipId s).drop 42 =
      (putU32 s.ack ++ [0x50]) ++ [s.flags, 0xFF, 0xFF, 0, 0, 0, 0] ++ s.payload := by
    have hheader : tcpHeader s = (putU16 s.src.port ++ putU16 s.dst.port ++ putU32 s.seq) ++
        ((putU32 s.ack ++ [0x50]) ++ [s.flags, 0xFF, 0xFF, 0, 0, 0, 0]) := rfl
    rw [tcpFrame_eq, hheader, List.append_assoc, ← List.append_assoc, List.drop_left']
    rw [List.length_append, length_lowerHeaders]
    rfl
  have hsilent : ∀ b ∈ [s.flags, 0xFF, 0xFF, 0, 0, 0, 0], b ∈ silent := by
    simp only [List.forall_mem_cons]
    refine ⟨hflags, by decide, by decide, by decide, by decide, by decide, by decide, ?_⟩
    exact fun _ h => absurd h List.not_mem_nil
  have hshort : (putU32 s.ack ++ [0x50]).length < 7 := by
    rw [List.length_append]
    exact (by decide : 4 + 1 < 7)
  rw [extractTextHeuristic, htext, decodeAscii_append]
  exact (skipped_bytes hshort (List.cons_ne_nil _ _) hsilent).shows _

theorem drop_buildIPSCTP_text (ipId : UInt16) (tsn : UInt32) (ssn : UInt16) (src dst : Endpoint)
    (payload : Str) :
    (buildIPSCTP ipId tsn ssn src dst payload 18).drop 42 =
      ([] ++ [0, 0, 0, 0, 0x00, 0x03]) ++
        ((putU16 (UInt16.ofNat (16 + payload.length)) ++ putU32 tsn) ++ [0, 0]) ++
        (putU16 ssn ++ [0, 0, 0, 18]) ++
        (payload ++ List.replicate (DiameterAvps.padding (16 + payload.length)) 0) := by
  obtain ⟨front, hheader, hfront⟩ : ∃ front : Str,
      sctpHeader src dst = front ++ [0, 0, 0, 0] ∧ front.length = 8 := ⟨_, rfl, rfl⟩
  have hstream : putU16 0 = [0, 0] := by decide
  have hppid : putU32 18 = [0, 0, 0, 18] := by decide
  rw [buildIPSCTP_eq, sctpFront, hheader, ← List.append_assoc _ front, List.append_assoc,
    List.drop_left']
  · simp only [chunkHeader, hstream, hppid, List.append_assoc, List.cons_append, List.nil_append]
  · rw [List.length_append, length_lowerHeaders, hfront]

/-- Behind the checksum the header of a chunk has its length and TSN, its number in the stream, and
the protocol, with zeros before and after. -/
theorem shows_buildIPSCTP (ipId : UInt16) (tsn : UInt32) (ssn : UInt16) (src dst : Endpoint)
    (payload : Str) :
    Shows (extractTextHeuristic (buildIPSCTP ipId tsn ssn src dst payload 18))
      (decodeAscii payload) := by
  have hchecksum : Skipped (decodeAscii ([] ++ [0, 0, 0, 0, 0x00, 0x03])) :=
    skipped_bytes (by decide) (List.cons_ne_nil _ _) (by simp [silent])
  have hlength : (putU16 (UInt16.ofNat (16 + payload.length)) ++ putU32 tsn).length < 7 := by
    rw [List.length_append]
    exact (by decide : 2 + 4 < 7)
  have hnumbers : Skipped (decodeAscii
      ((putU16 (UInt16.ofNat (16 + payload.length)) ++ putU32 tsn) ++ [0, 0])) :=
    skipped_bytes hlength (List.cons_ne_nil _ _) (by simp [silent])
  have hstream : Skipped (decodeAscii (putU16 ssn ++ [0, 0, 0, 18])) :=
    skipped_bytes (by rw [length_putU16]; decide) (List.cons_ne_nil _ _) (by simp [silent])
  have hpadding : ∀ b ∈ List.replicate (DiameterAvps.padding (16 + payload.length)) (0 : UInt8),
      b ∈ silent := by
    intro b hb
    rw [List.eq_of_mem_replicate hb]
    decide
  rw [extractTextHeuristic, drop_buildIPSCTP_text]
  rw [decodeAscii_append, decodeAscii_append, decodeAscii_append ([] ++ _),
    decodeAscii_append payload]
  exact (((hchecksum.append hnumbers).append hstream).shows _).trailing
    (not_inPattern_of_silent hpadding)

theorem push_data : ((0x18 : UInt8) &&& 0x08 != 0) = true := by decide

theorem mem_transmit {w : Writer} {client server src dst : Endpoint} {payload : Str} {s : Segment}
    (h : s ∈ (transmit w client server src dst payload).2) :
    s.flags ∈ silent ∧ s.payload = if s.push then payload else [] := by
  have hquiet : ∀ flags ∈ ([0x02, 0x12, 0x10] : List UInt8),
      flags ∈ silent ∧ (flags &&& 0x08 != 0) = false := by
    simp only [List.forall_mem_cons]
    exact ⟨by decide, by decide, by decide, fun _ h => absurd h List.not_mem_nil⟩
  simp only [transmit, List.mem_append, List.mem_singleton] at h
  rcases h with h | rfl
  · rw [ensureTcpHandshake] at h
    split at h
    · cases h
    · have hhandshake : s.flags ∈ ([0x02, 0x12, 0x10] : List UInt8) ∧ s.payload = [] := by
        simp only [List.mem_cons, List.not_mem_nil, or_false] at h
        rcases h with rfl | rfl | rfl
        · exact ⟨List.mem_cons_self, rfl⟩
        · exact ⟨List.mem_cons_of_mem _ List.mem_cons_self, rfl⟩
        · exact ⟨List.mem_cons_of_mem _ (List.mem_cons_of_mem _ List.mem_cons_self), rfl⟩
      obtain ⟨hflags, hpush⟩ := hquiet s.flags hhandshake.1
      rw [Segment.push, hpush]
      exact ⟨hflags, hhandshake.2⟩
  · exact ⟨(by decide : (0x18 : UInt8) ∈ silent), (if_pos push_data).symm⟩

/-- The message that a call writes. -/
def messageOf (w : PcapWriter) : Call → Message
  | .s1ap _ _ payload => .s1ap payload
  | .gtpv2 msgType teid _ _ ieData => .gtpv2 (gtpMessage msgType teid w.pktId ieData)
  | .diameter cmd app isRequest src dst avpData =>
    .diameter (diameterPayload w cmd app isRequest src.ip dst.ip avpData).2
  | .sip sipText _ _ => .sip sipText

def payloadOf : Message → Str
  | .s1ap payload => payload
  | .gtpv2 gtp => gtp
  | .diameter frame => frame
  | .sip sipText => sipText

/-- A frame of a message, or of the handshake before it. -/
structure Carries (f : Frame) (m : Message) : Prop where
  lower : ∃ rest, f.bytes = buildEthernet ++ rest
  shows : f.carries = none ∧ Shows (extractTextHeuristic f.bytes) [] ∨
    f.carries = some m ∧ Shows (extractTextHeuristic f.bytes) (decodeAscii (payloadOf m))

theorem carries_segmentFrames {w : Writer} {client server src dst : Endpoint} {m : Message}
    {pktId : UInt32} {f : Frame}
    (h : f ∈ segmentFrames pktId m (transmit w client server src dst (payloadOf m)).2) :
    Carries f m := by
  obtain ⟨i, hi, rfl⟩ := List.mem_mapIdx.mp h
  obtain ⟨hflags, hpayload⟩ := mem_transmit (List.getElem_mem hi)
  have hshows := shows_tcpFrame (pktId + UInt32.ofNat i).toUInt16 hflags
  rw [hpayload] at hshows
  constructor
  · exact ⟨_, by rw [tcpFrame_eq, lowerHeaders, List.append_assoc]⟩
  · dsimp only
    split at hshows
    · rename_i hpush
      exact Or.inr ⟨if_pos hpush, hshows⟩
    · rename_i hpush
      exact Or.inl ⟨if_neg hpush, hshows⟩

theorem carries_write {w : PcapWriter} {call : Call} {f : Frame} (h : f ∈ (write w call).2) :
    Carries f (messageOf w call) := by
  cases call with
  | s1ap srcIp dstIp payload =>
      obtain rfl := List.mem_singleton.mp h
      constructor
      · exact ⟨_, by rw [buildIPSCTP_eq, sctpFront, lowerHeaders, List.append_assoc,
          List.append_assoc]⟩
      · exact Or.inr ⟨rfl, shows_buildIPSCTP _ _ _ _ _ payload⟩
  | gtpv2 msgType teid srcIp dstIp ieData =>
      obtain rfl := List.mem_singleton.mp h
      constructor
      · exact ⟨_, by rw [buildIPUDP_eq, lowerHeaders, List.append_assoc]⟩
      · refine Or.inr ⟨rfl, ?_⟩
        rw [extractTextHeuristic, drop_buildIPUDP]
        exact ⟨fun _ _ => Iff.rfl, rfl⟩
  | diameter cmd app isRequest src dst avpData => exact carries_segmentFrames h
  | sip sipText src dst => exact carries_segmentFrames h

theorem exists_carries (w : PcapWriter) (call : Call) :
    ∃ f ∈ (write w call).2, f.carries = some (messageOf w call) := by
  have hstream (pktId : UInt32) (client server src dst : Endpoint) (m : Message) :
      ∃ f ∈ segmentFrames pktId m (transmit w.tcp client server src dst (payloadOf m)).2,
        f.carries = some m := by
    have hdata : buildIPTCP src dst (payloadOf m) 0x18
        (nextSeq (ensureTcpHandshake w.tcp client server).1 src dst)
        (peerSeq (ensureTcpHandshake w.tcp client server).1 src dst) ∈
          (transmit w.tcp client server src dst (payloadOf m)).2 :=
      List.mem_append_right _ (List.mem_singleton_self _)
    obtain ⟨i, hi, hget⟩ := List.getElem_of_mem hdata
    refine ⟨_, List.mem_mapIdx.mpr ⟨i, hi, rfl⟩, ?_⟩
    rw [hget]
    exact if_pos push_data
  cases call with
  | s1ap srcIp dstIp payload => exact ⟨_, List.mem_singleton_self _, rfl⟩
  | gtpv2 msgType teid srcIp dstIp ieData => exact ⟨_, List.mem_singleton_self _, rfl⟩
  | diameter cmd app isRequest src dst avpData => exact hstream _ _ _ _ _ (.diameter _)
  | sip sipText src dst => exact hstream _ _ _ _ _ (.sip sipText)

theorem mem_captured {w : PcapWriter} {calls : List Call} {f : Frame}
    (h : f ∈ captured w calls) : ∃ call ∈ calls, ∃ w', f ∈ (write w' call).2 := by
  induction calls generalizing w with
  | nil => cases h
  | cons call calls ih =>
      rcases List.mem_append.mp h with h | h
      · exact ⟨call, List.mem_cons_self, w, h⟩
      · obtain ⟨call', hcall, w', hf⟩ := ih h
        exact ⟨call', List.mem_cons_of_mem call hcall, w', hf⟩

theorem subset_captured (w : PcapWriter) {calls : List Call} {call : Call} (h : call ∈ calls) :
    ∃ w', (write w' call).2 ⊆ captured w calls := by
  induction calls generalizing w with
  | nil => cases h
  | cons call' calls ih =>
      rcases List.mem_cons.mp h with rfl | h
      · exact ⟨w, List.subset_append_left _ _⟩
      · obtain ⟨w', hsubset⟩ := ih (write w call').1 h
        exact ⟨w', fun f hf => List.mem_append_right _ (hsubset hf)⟩

end Frames

section Findings

theorem not_takenForUdp {f : Frame} {m : Message} (h : Carries f m) :
    takenForUdp f.bytes = false := by
  obtain ⟨rest, hrest⟩ := h.lower
  have hbyte : (f.bytes.drop 9).take 1 = [0x01] := by
    rw [hrest]
    rfl
  have hother : (([0x01] : Str) == [0x11]) = false := by decide
  rw [takenForUdp, hbyte, hother, Bool.and_false, Bool.false_and]

theorem isIn_of_failureIn {text : List Char} (h : failureIn text = true) :
    isIn "SIP/2.0" text = true := by
  have hfour : "SIP/2.0".toList <:+: "SIP/2.0 4".toList := by decide
  have hfive : "SIP/2.0".toList <:+: "SIP/2.0 5".toList := by decide
  simp only [failureIn, isIn, Bool.or_eq_true, decide_eq_true_eq] at h ⊢
  rcases h with h | h
  · exact hfour.trans h
  · exact hfive.trans h

theorem filterMap_cons_toList {α β : Type*} (p : α → Option β) (x : α) (xs : List α) :
    (x :: xs).filterMap p = (p x).toList ++ xs.filterMap p := by
  cases hx : p x with
  | none => rw [List.filterMap_cons_none hx, Option.toList_none, List.nil_append]
  | some y => rw [List.filterMap_cons_some hx, Option.toList_some, List.singleton_append]

theorem foldl_inspect {packets : List (Packet × Nat)}
    (h : ∀ pkt ∈ packets, takenForUdp pkt.1.data = false) (marks : Marks) :
    packets.foldl inspect marks =
      { marks with
        sipErrors := marks.sipErrors ++ packets.filterMap fun pkt =>
          (listedCode (extractTextHeuristic pkt.1.data)).map (pkt.2 + 1, ·)
        hasSip := marks.hasSip || packets.any fun pkt =>
          isIn "SIP/2.0" (extractTextHeuristic pkt.1.data) } := by
  induction packets generalizing marks with
  | nil =>
      rw [List.foldl_nil, List.filterMap_nil, List.append_nil, List.any_nil, Bool.or_false]
  | cons pkt packets ih =>
      have hudp := h pkt List.mem_cons_self
      have hsip : (failureIn (extractTextHeuristic pkt.1.data) ||
          isIn "SIP/2.0" (extractTextHeuristic pkt.1.data)) =
            isIn "SIP/2.0" (extractTextHeuristic pkt.1.data) := by
        cases hfailure : failureIn (extractTextHeuristic pkt.1.data) with
        | true => rw [isIn_of_failureIn hfailure, Bool.or_true]
        | false => exact Bool.false_or _
      rw [List.foldl_cons, ih fun pkt' hpkt => h pkt' (List.mem_cons_of_mem pkt hpkt)]
      simp only [inspect, hudp, Bool.false_and, Bool.or_false, Bool.or_assoc, List.any_cons, hsip,
        List.append_assoc, filterMap_cons_toList]

def errorsOf (packets : List Packet) : List Finding :=
  packets.zipIdx.filterMap fun pkt =>
    (listedCode (extractTextHeuristic pkt.1.data)).map fun code => sipErrorFinding (pkt.2 + 1) code

def namesSip (packets : List Packet) : Bool :=
  packets.any fun pkt => isIn "SIP/2.0" (extractTextHeuristic pkt.data)

theorem analyze_eq {file : Str} (h : ∀ pkt ∈ readPcapRaw file, takenForUdp pkt.data = false) :
    analyzeWithoutPyshark file =
      if (readPcapRaw file).isEmpty then [emptyFinding]
      else summaryFinding (readPcapRaw file) ::
        ((if namesSip (readPcapRaw file) then [sipFinding] else []) ++
          errorsOf (readPcapRaw file)) := by
  have hudp : ∀ pkt ∈ (readPcapRaw file).zipIdx, takenForUdp pkt.1.data = false := fun pkt hpkt =>
    h pkt.1 (List.fst_mem_of_mem_zipIdx hpkt)
  have hany : (readPcapRaw file).zipIdx.any (fun pkt =>
      isIn "SIP/2.0" (extractTextHeuristic pkt.1.data)) = namesSip (readPcapRaw file) := by
    have hmap := List.any_map (f := Prod.fst) (l := (readPcapRaw file).zipIdx)
      (p := fun pkt : Packet => isIn "SIP/2.0" (extractTextHeuristic pkt.data))
    rw [List.zipIdx_map_fst] at hmap
    exact hmap.symm
  have herrors : (((readPcapRaw file).zipIdx.filterMap fun pkt =>
      (listedCode (extractTextHeuristic pkt.1.data)).map (pkt.2 + 1, ·)).map fun e =>
        sipErrorFinding e.1 e.2) = errorsOf (readPcapRaw file) := by
    rw [List.map_filterMap, errorsOf]
    simp only [Option.map_map]
    rfl
  simp only [analyzeWithoutPyshark, foldl_inspect hudp, hany]
  split
  · rfl
  · simp only [List.nil_append, Bool.false_or, herrors]
    rfl

theorem packetNum_errorsOf {packets : List Packet} {e : Finding} (h : e ∈ errorsOf packets) :
    e.packetNum ≠ 0 := by
  obtain ⟨pkt, -, hpkt⟩ := List.mem_filterMap.mp h
  obtain ⟨code, -, rfl⟩ := Option.map_eq_some_iff.mp hpkt
  exact Nat.succ_ne_zero _

section Reports

variable {file : Str} (h : ∀ pkt ∈ readPcapRaw file, takenForUdp pkt.data = false)

include h

theorem mem_analyze {e : Finding} (he : e.packetNum = 0) :
    e ∈ analyzeWithoutPyshark file ↔
      readPcapRaw file = [] ∧ e = emptyFinding ∨
        readPcapRaw file ≠ [] ∧ (e = summaryFinding (readPcapRaw file) ∨
          namesSip (readPcapRaw file) = true ∧ e = sipFinding) := by
  have herror : e ∉ errorsOf (readPcapRaw file) := fun hmem => packetNum_errorsOf hmem he
  rw [analyze_eq h]
  by_cases hempty : readPcapRaw file = []
  · simp [hempty]
  · rw [if_neg (by rwa [List.isEmpty_iff])]
    cases namesSip (readPcapRaw file) <;> simp [hempty, herror]

theorem not_mem_gtpFinding : gtpFinding ∉ analyzeWithoutPyshark file := by
  rw [mem_analyze h rfl]
  simp [gtpFinding, emptyFinding, summaryFinding, sipFinding]

theorem not_mem_diameterFinding : diameterFinding ∉ analyzeWithoutPyshark file := by
  rw [mem_analyze h rfl]
  simp [diameterFinding, emptyFinding, summaryFinding, sipFinding]

theorem mem_sipFinding :
    sipFinding ∈ analyzeWithoutPyshark file ↔ namesSip (readPcapRaw file) = true := by
  have hsome : namesSip (readPcapRaw file) = true → readPcapRaw file ≠ [] := by
    intro hnames hempty
    rw [hempty] at hnames
    cases hnames
  rw [mem_analyze h rfl]
  simp only [sipFinding, emptyFinding, summaryFinding, Finding.mk.injEq, String.reduceEq,
    false_and, and_false, false_or, and_true, reduceCtorEq]
  exact ⟨And.right, fun hnames => ⟨hsome hnames, hnames⟩⟩

theorem filter_analyze :
    (analyzeWithoutPyshark file).filter (·.packetNum != 0) = errorsOf (readPcapRaw file) := by
  have herrors : (errorsOf (readPcapRaw file)).filter (·.packetNum != 0) =
      errorsOf (readPcapRaw file) := by
    rw [List.filter_eq_self]
    intro e he
    exact bne_iff_ne.mpr (packetNum_errorsOf he)
  rw [analyze_eq h]
  split
  · rename_i hempty
    rw [List.isEmpty_iff.mp hempty]
    rfl
  · rw [List.filter_cons_of_neg (by simp [summaryFinding]), List.filter_append, herrors]
    split <;> rfl

end Reports

end Findings

section Agreement

theorem Shows.listedCode_eq {text message : List Char} (h : Shows text message) :
    listedCode text = listedCode message := by
  have hfailure : failureIn text = failureIn message :=
    congrArg₂ or (decide_eq_decide.mpr (h.infix_iff "SIP/2.0 4" (by decide)))
      (decide_eq_decide.mpr (h.infix_iff "SIP/2.0 5" (by decide)))
  rw [listedCode, listedCode, hfailure, h.code]

theorem Shows.isIn_eq {text message : List Char} (h : Shows text message) :
    isIn "SIP/2.0" text = isIn "SIP/2.0" message :=
  decide_eq_decide.mpr (h.infix_iff "SIP/2.0" (by decide))

def listedMessage (m : Message) : Option (List Char) := listedCode (decodeAscii (payloadOf m))

theorem Carries.listed {f : Frame} {m : Message} (h : Carries f m) :
    listedCode (extractTextHeuristic f.bytes) = f.carries.bind listedMessage := by
  rcases h.shows with ⟨hnone, hshows⟩ | ⟨hsome, hshows⟩
  · rw [hshows.listedCode_eq, hnone]
    decide
  · rw [hshows.listedCode_eq, hsome, Option.bind_some, listedMessage]

theorem Carries.named {f : Frame} {m : Message} (h : Carries f m) :
    isIn "SIP/2.0" (extractTextHeuristic f.bytes) = true ↔
      ∃ m', f.carries = some m' ∧ isIn "SIP/2.0" (decodeAscii (payloadOf m')) = true := by
  rcases h.shows with ⟨hnone, hshows⟩ | ⟨hsome, hshows⟩
  · have hempty : isIn "SIP/2.0" [] = false := by decide
    rw [hshows.isIn_eq, hnone, hempty]
    simp
  · rw [hshows.isIn_eq, hsome]
    simp

theorem sipErrorFinding_injective {n : Nat} {a b : List Char}
    (h : sipErrorFinding n a = sipErrorFinding n b) : a = b := by
  have htitle := congrArg (fun e => e.title.toList) h
  simp only [sipErrorFinding, String.toList_append, String.toList_ofList,
    List.append_assoc] at htitle
  exact List.append_cancel_right (List.append_cancel_left htitle)

theorem numbered_eq_iff {α : Type*} (p q : α → Option (List Char)) (xs : List α) (k : Nat) :
    ((xs.zipIdx k).filterMap fun x => (p x.1).map (sipErrorFinding (x.2 + 1))) =
        ((xs.zipIdx k).filterMap fun x => (q x.1).map (sipErrorFinding (x.2 + 1))) ↔
      ∀ x ∈ xs, p x = q x := by
  have hlater (p : α → Option (List Char)) (xs : List α) (k : Nat) (e : Finding)
      (he : e ∈ (xs.zipIdx k).filterMap fun x => (p x.1).map (sipErrorFinding (x.2 + 1))) :
      k < e.packetNum := by
    obtain ⟨x, hx, hfinding⟩ := List.mem_filterMap.mp he
    obtain ⟨code, -, rfl⟩ := Option.map_eq_some_iff.mp hfinding
    exact Nat.lt_succ_of_le (List.le_snd_of_mem_zipIdx hx)
  induction xs generalizing k with
  | nil => simp
  | cons x xs ih =>
      have htail := propext (ih (k + 1))
      rw [List.zipIdx_cons, filterMap_cons_toList, filterMap_cons_toList, List.forall_mem_cons,
        ← htail]
      cases hp : p x with
      | none =>
          cases hq : q x with
          | none => simp
          | some b =>
              refine iff_of_false (fun h => ?_) (by simp)
              have hhead := hlater p xs (k + 1) (sipErrorFinding (k + 1) b) (by
                rw [Option.map_none, Option.toList_none, List.nil_append] at h
                rw [h]
                exact List.mem_cons_self)
              exact Nat.lt_irrefl _ hhead
      | some a =>
          cases hq : q x with
          | none =>
              refine iff_of_false (fun h => ?_) (by simp)
              have hhead := hlater q xs (k + 1) (sipErrorFinding (k + 1) a) (by
                rw [Option.map_none, Option.toList_none, List.nil_append] at h
                rw [← h]
                exact List.mem_cons_self)
              exact Nat.lt_irrefl _ hhead
          | some b =>
              simp only [Option.map_some, Option.toList_some, List.singleton_append,
                List.cons.injEq, Option.some.injEq]
              exact and_congr_left' ⟨sipErrorFinding_injective, congrArg _⟩

theorem errorsOf_recovered {packets : List Packet} {frames : List Frame}
    (h : packets.map Packet.data = frames.map Frame.bytes) :
    errorsOf packets = frames.zipIdx.filterMap fun f =>
      (listedCode (extractTextHeuristic f.1.bytes)).map (sipErrorFinding (f.2 + 1)) := by
  have hpackets : errorsOf packets = (packets.map Packet.data).zipIdx.filterMap fun x =>
      (listedCode (extractTextHeuristic x.1)).map (sipErrorFinding (x.2 + 1)) := by
    rw [List.zipIdx_map, List.filterMap_map]
    rfl
  rw [hpackets, h, List.zipIdx_map, List.filterMap_map]
  rfl

theorem namesSip_recovered {packets : List Packet} {frames : List Frame}
    (h : packets.map Packet.data = frames.map Frame.bytes) :
    namesSip packets = frames.any fun f => isIn "SIP/2.0" (extractTextHeuristic f.bytes) := by
  have hpackets : namesSip packets =
      (packets.map Packet.data).any fun data => isIn "SIP/2.0" (extractTextHeuristic data) := by
    rw [List.any_map]
    rfl
  rw [hpackets, h, List.any_map]
  rfl

theorem takenForUdp_recovered {packets : List Packet} {frames : List Frame}
    (h : packets.map Packet.data = frames.map Frame.bytes)
    (hframes : ∀ f ∈ frames, takenForUdp f.bytes = false) :
    ∀ pkt ∈ packets, takenForUdp pkt.data = false := by
  intro pkt hpkt
  have hdata : pkt.data ∈ frames.map Frame.bytes := h ▸ List.mem_map_of_mem hpkt
  obtain ⟨f, hf, hbytes⟩ := List.mem_map.mp hdata
  rw [← hbytes]
  exact hframes f hf

theorem decodeAscii_digit {b : UInt8} (h : 48 ≤ b ∧ b ≤ 57) :
    ∀ c ∈ decodeAscii [b], c.isDigit = true := by
  have hdigits : ∀ n < 10, (decodeAscii [UInt8.ofNat (48 + n)]).all Char.isDigit = true := by decide
  simp only [List.all_eq_true] at hdigits
  obtain ⟨hlow, hhigh⟩ := h
  rw [UInt8.le_iff_toNat_le] at hlow hhigh
  have hlow' : 48 ≤ b.toNat := hlow
  have hhigh' : b.toNat ≤ 57 := hhigh
  have hb : b = UInt8.ofNat (48 + (b.toNat - 48)) := by
    rw [Nat.add_sub_cancel' hlow', UInt8.ofNat_toNat]
  rw [hb]
  exact hdigits _ (by omega)

theorem searchCode_of_codeAt {text code : List Char} (h : codeAt text = some code) :
    searchCode text = some code := by
  cases text with
  | nil => exact h
  | cons c rest => rw [searchCode, h, Option.some_or]

theorem failureIn_of_head {code rest : List Char}
    (h : code.head? = some '4' ∨ code.head? = some '5') :
    failureIn (("SIP/2.0 ".toList ++ code) ++ rest) = true := by
  have hfour : "SIP/2.0 4".toList = "SIP/2.0 ".toList ++ ['4'] := by decide
  have hfive : "SIP/2.0 5".toList = "SIP/2.0 ".toList ++ ['5'] := by decide
  have hfound (c : Char) (hc : code.head? = some c) :
      "SIP/2.0 ".toList ++ [c] <:+: ("SIP/2.0 ".toList ++ code) ++ rest := by
    obtain ⟨tail, rfl⟩ := List.head?_eq_some_iff.mp hc
    refine ⟨[], tail ++ rest, ?_⟩
    simp only [List.nil_append, List.append_assoc, List.cons_append]
  rw [failureIn, Bool.or_eq_true, isIn, isIn, decide_eq_true_eq, decide_eq_true_eq, hfour, hfive]
  exact h.imp (hfound '4') (hfound '5')

theorem listedCode_of_statusFailure {sipText : Str} {code : List Char}
    (h : statusFailure sipText = some code) : listedCode (decodeAscii sipText) = some code := by
  rw [statusFailure] at h
  split at h
  · rename_i hline
    simp only [List.all_eq_true, decide_eq_true_eq] at hline
    obtain ⟨⟨rest, rfl⟩, hhead, hlength, hdigits, -⟩ := hline
    obtain rfl := Option.some.inj h
    have hversion : (lit "SIP/2.0 ").length = 8 := by decide
    have hletters : decodeAscii (lit "SIP/2.0 ") = "SIP/2.0 ".toList := by decide
    rw [List.drop_left' hversion] at hhead hlength hdigits ⊢
    have htext : decodeAscii (lit "SIP/2.0 " ++ rest) =
        ("SIP/2.0 ".toList ++ decodeAscii (rest.take 3)) ++ decodeAscii (rest.drop 3) := by
      rw [decodeAscii_append, hletters, List.append_assoc, ← decodeAscii_append,
        List.take_append_drop]
    have hcode : codeAt (decodeAscii (lit "SIP/2.0 " ++ rest)) =
        some (decodeAscii (rest.take 3)) := by
      refine (codeAt_iff _ _).mpr ⟨_, htext, ?_, ?_⟩
      · rw [length_decodeAscii, hlength]
      · intro c hc
        obtain ⟨b, hb, rfl⟩ := List.mem_map.mp hc
        exact decodeAscii_digit (hdigits b hb) _ (List.mem_singleton_self _)
    have hfailure : failureIn (decodeAscii (lit "SIP/2.0 " ++ rest)) = true := by
      rw [htext]
      apply failureIn_of_head
      rw [decodeAscii, List.head?_map]
      rcases hhead with hhead | hhead
      · rw [hhead]
        exact Or.inl (by decide)
      · rw [hhead]
        exact Or.inr (by decide)
    rw [listedCode, if_pos hfailure, searchCode_of_codeAt hcode]
  · cases h

theorem listed_eq_failure_iff {w : PcapWriter} {call : Call}
    (h : protocolOf call = .s1ap ∨ protocolOf call = .sip) :
    listedMessage (messageOf w call) = messageFailure (messageOf w call) ↔
      (callFailure call).isSome ∨ listedCode (textOf call) = none := by
  cases call with
  | s1ap srcIp dstIp payload =>
      show listedCode (decodeAscii payload) = none ↔
        (none : Option (List Char)).isSome ∨ listedCode (decodeAscii payload) = none
      simp
  | gtpv2 msgType teid srcIp dstIp ieData => rcases h with h | h <;> cases h
  | diameter cmd app isRequest src dst avpData => rcases h with h | h <;> cases h
  | sip sipText src dst =>
      show listedCode (decodeAscii sipText) = statusFailure sipText ↔
        (statusFailure sipText).isSome ∨ listedCode (decodeAscii sipText) = none
      cases hfailure : statusFailure sipText with
      | none => simp
      | some code => simp [listedCode_of_statusFailure hfailure]

theorem forall_captured_iff (w : PcapWriter) (calls : List Call) (P : Option Message → Prop)
    (hnone : P none) (Q : Call → Prop) (h : ∀ w' call, call ∈ calls →
      (P (some (messageOf w' call)) ↔ Q call)) :
    (∀ f ∈ captured w calls, P f.carries) ↔ ∀ call ∈ calls, Q call := by
  constructor
  · intro hall call hcall
    obtain ⟨w', hsubset⟩ := subset_captured w hcall
    obtain ⟨f, hf, hcarries⟩ := exists_carries w' call
    have hP := hall f (hsubset hf)
    rw [hcarries] at hP
    exact (h w' call hcall).mp hP
  · intro hall f hf
    obtain ⟨call, hcall, w', hwritten⟩ := mem_captured hf
    rcases (carries_write hwritten).shows with ⟨hcarries, -⟩ | ⟨hcarries, -⟩
    · rw [hcarries]
      exact hnone
    · rw [hcarries]
      exact (h w' call hcall).mpr (hall call hcall)

variable {times : Nat → UInt32 × UInt32} {pktId : UInt32} {calls : List Call}

theorem carries_captured {f : Frame} (h : f ∈ captured (openFile pktId) calls) :
    ∃ m, Carries f m := by
  obtain ⟨call, -, w, hf⟩ := mem_captured h
  exact ⟨messageOf w call, carries_write hf⟩

theorem named_captured_iff
    (hknown : ∀ call ∈ calls, protocolOf call = .s1ap ∨ protocolOf call = .sip) :
    ((captured (openFile pktId) calls).any fun f =>
        isIn "SIP/2.0" (extractTextHeuristic f.bytes)) = true ↔
      ∃ call ∈ calls, isIn "SIP/2.0" (textOf call) = true := by
  have hcalls : (∀ f ∈ captured (openFile pktId) calls, ¬∃ m, f.carries = some m ∧
      isIn "SIP/2.0" (decodeAscii (payloadOf m)) = true) ↔
        ∀ call ∈ calls, ¬isIn "SIP/2.0" (textOf call) = true := by
    refine forall_captured_iff (openFile pktId) calls
      (fun carried => ¬∃ m, carried = some m ∧ isIn "SIP/2.0" (decodeAscii (payloadOf m)) = true)
      (by simp) _ fun w call hcall => ?_
    have htext : decodeAscii (payloadOf (messageOf w call)) = textOf call := by
      have hprotocol := hknown call hcall
      cases call with
      | s1ap srcIp dstIp payload => rfl
      | gtpv2 msgType teid srcIp dstIp ieData => rcases hprotocol with h | h <;> cases h
      | diameter cmd app isRequest src dst avpData => rcases hprotocol with h | h <;> cases h
      | sip sipText src dst => rfl
    simp [htext]
  have hframes : (∀ f ∈ captured (openFile pktId) calls,
      ¬isIn "SIP/2.0" (extractTextHeuristic f.bytes) = true) ↔
        ∀ f ∈ captured (openFile pktId) calls, ¬∃ m, f.carries = some m ∧
          isIn "SIP/2.0" (decodeAscii (payloadOf m)) = true := by
    refine forall₂_congr fun f hf => ?_
    obtain ⟨m, hm⟩ := carries_captured hf
    rw [hm.named]
  have hboth := not_congr (hframes.trans hcalls)
  push Not at hboth
  rw [List.any_eq_true]
  exact hboth

theorem errors_iff (hknown : ∀ call ∈ calls, protocolOf call = .s1ap ∨ protocolOf call = .sip) :
    ((captured (openFile pktId) calls).zipIdx.filterMap fun f =>
        (listedCode (extractTextHeuristic f.1.bytes)).map (sipErrorFinding (f.2 + 1))) =
        failures (captured (openFile pktId) calls) ↔
      ∀ call ∈ calls, (callFailure call).isSome ∨ listedCode (textOf call) = none := by
  rw [failures, numbered_eq_iff (fun f : Frame => listedCode (extractTextHeuristic f.bytes))
    (fun f : Frame => f.carries.bind messageFailure)]
  have hframes : (∀ f ∈ captured (openFile pktId) calls,
      listedCode (extractTextHeuristic f.bytes) = f.carries.bind messageFailure) ↔
        ∀ f ∈ captured (openFile pktId) calls,
          f.carries.bind listedMessage = f.carries.bind messageFailure := by
    refine forall₂_congr fun f hf => ?_
    obtain ⟨m, hm⟩ := carries_captured hf
    rw [hm.listed]
  rw [hframes]
  exact forall_captured_iff (openFile pktId) calls
    (fun carried => carried.bind listedMessage = carried.bind messageFailure) rfl _
    fun w call hcall => listed_eq_failure_iff (hknown call hcall)

/-- The analysis agrees with the calls exactly when they are clear to it. -/
theorem agrees_iff (times : Nat → UInt32 × UInt32) (pktId : UInt32) (calls : List Call) :
    Agrees times pktId calls ↔ Clear pktId calls := by
  have hudp (hrecovered : (readPcapRaw (captureFile times pktId calls)).map Packet.data =
      (captured (openFile pktId) calls).map Frame.bytes) :
      ∀ pkt ∈ readPcapRaw (captureFile times pktId calls), takenForUdp pkt.data = false := by
    refine takenForUdp_recovered hrecovered fun f hf => ?_
    obtain ⟨m, hm⟩ := carries_captured hf
    exact not_takenForUdp hm
  constructor
  · rintro ⟨hrecovered, hgtp, hdiameter, hsip, herrors⟩
    have hpackets := hudp hrecovered
    have hknown : ∀ call ∈ calls, protocolOf call = .s1ap ∨ protocolOf call = .sip := by
      intro call hcall
      cases hprotocol : protocolOf call with
      | s1ap => exact Or.inl rfl
      | gtpv2 => exact absurd (hgtp.mpr ⟨call, hcall, hprotocol⟩) (not_mem_gtpFinding hpackets)
      | diameter =>
          exact absurd (hdiameter.mpr ⟨call, hcall, hprotocol⟩) (not_mem_diameterFinding hpackets)
      | sip => exact Or.inr rfl
    constructor
    · exact (packets_captureFile_iff times pktId calls).mp hrecovered
    · exact hknown
    · rw [← hsip, mem_sipFinding hpackets, namesSip_recovered hrecovered,
        named_captured_iff hknown]
    · rw [filter_analyze hpackets, errorsOf_recovered hrecovered] at herrors
      exact (errors_iff hknown).mp herrors
  · rintro ⟨hshort, hknown, hnamed, hquiet⟩
    have hrecovered := (packets_captureFile_iff times pktId calls).mpr hshort
    have hpackets := hudp hrecovered
    have hnone (p : Protocol) (hs1ap : p ≠ .s1ap) (hsip : p ≠ .sip) :
        ¬∃ call ∈ calls, protocolOf call = p := by
      rintro ⟨call, hcall, rfl⟩
      exact (hknown call hcall).elim hs1ap hsip
    constructor
    · exact hrecovered
    · exact iff_of_false (not_mem_gtpFinding hpackets) (hnone .gtpv2 (by decide) (by decide))
    · exact iff_of_false (not_mem_diameterFinding hpackets)
        (hnone .diameter (by decide) (by decide))
    · rw [mem_sipFinding hpackets, namesSip_recovered hrecovered, named_captured_iff hknown]
      exact hnamed.symm
    · rw [filter_analyze hpackets, errorsOf_recovered hrecovered]
      exact (errors_iff hknown).mpr hquiet

/-- A single GTPv2 message is not reported. -/
theorem not_agrees_gtpv2 :
    ¬Agrees (fun _ => (0, 0)) 1 [.gtpv2 .createSessionReq 0 0x0A000003 0x0A000005 []] := by
  rintro ⟨hrecovered, hgtp, -, -, -⟩
  have hreported := hgtp.mpr ⟨_, List.mem_singleton_self _, rfl⟩
  refine not_mem_gtpFinding (takenForUdp_recovered hrecovered fun f hf => ?_) hreported
  obtain ⟨m, hm⟩ := carries_captured hf
  exact not_takenForUdp hm

end Agreement

end MobileCore.CaptureAnalysis
