import Mathlib.Data.List.Basic
import Mathlib.Logic.Function.Basic
import MobileCore.CppText
import MobileCore.LabelledRuns

/-!
# The SIP messages in the capture of the IMS simulator

The operator's commands write requests and responses straight to the capture file. The builders
take the numbers of the two parties, so what a response says depends on whose number it was given.
Chaos mode is off, and the nodes of the network write nothing, as no command sends to them. The
sequence and call numbers are `Nat` where the source has `int`: they stay below 2^31.
-/

namespace MobileCore.SipCapture

open MobileCore.CppText
open MobileCore.LabelledRuns

def IMS_DOMAIN : Str := lit "ims.mnc010.mcc404.3gppnetwork.org"

inductive Party where
  | A | B | C
deriving DecidableEq

def Party.id : Party → Str
  | .A => lit "A"
  | .B => lit "B"
  | .C => lit "C"

def Party.impu : Party → Str
  | .A => lit "sip:+919000000001@" ++ IMS_DOMAIN
  | .B => lit "sip:+919000000002@" ++ IMS_DOMAIN
  | .C => lit "sip:+919000000003@" ++ IMS_DOMAIN

def Party.ip : Party → Str
  | .A => lit "10.0.0.1"
  | .B => lit "10.0.0.2"
  | .C => lit "10.0.0.3"

section Messages

structure SipMessage where
  start : Str
  headers : List (Str × Str)
  body : Str := []
deriving DecidableEq

def SipMessage.text (m : SipMessage) : Str :=
  m.start ++ lit "\r\n" ++
    m.headers.flatMap (fun h => h.1 ++ lit ": " ++ h.2 ++ lit "\r\n") ++ lit "\r\n" ++ m.body

def SipMessage.header (m : SipMessage) (name : Str) : Option Str := m.headers.lookup name

def SipMessage.isResponse (m : SipMessage) : Bool := (lit "SIP/2.0").isPrefixOf m.start

def SipMessage.method (m : SipMessage) : Str := m.start.takeWhile (· != 32)

def cseqText (cseq : Nat) (method : Str) : Str := natText cseq ++ 32 :: method

def regId (cseq : Nat) (ue_ip : Str) : Str := lit "reg-" ++ natText cseq ++ lit "@" ++ ue_ip

def accessNetwork : Str := lit "3GPP-E-UTRAN-FDD; utran-cell-id-3gpp=404010001"

def contact (user ip : Str) : Str := lit "<sip:" ++ user ++ lit "@" ++ ip ++ lit ":5060>"

def via (ip branch : Str) (cseq : Nat) : Str :=
  lit "SIP/2.0/TCP " ++ ip ++ lit ":5060;branch=z9hG4bK" ++ branch ++ natText cseq

def tagged (uri tag : Str) (cseq : Nat) : Str := uri ++ lit ";tag=" ++ tag ++ natText cseq

def buildRegister (impu ue_ip : Str) (cseq : Nat) (expires : Nat := 3600) : SipMessage where
  start := lit "REGISTER sip:" ++ IMS_DOMAIN ++ lit " SIP/2.0"
  headers :=
    [(lit "Via", via ue_ip (lit "reg") cseq),
     (lit "Max-Forwards", lit "70"),
     (lit "From", tagged impu (lit "reg") cseq),
     (lit "To", impu),
     (lit "Call-ID", regId cseq ue_ip),
     (lit "CSeq", cseqText cseq (lit "REGISTER")),
     (lit "Contact", contact (lit "ue") ue_ip ++ lit ";expires=" ++ natText expires),
     (lit "Expires", natText expires),
     (lit "P-Access-Network-Info", accessNetwork),
     (lit "Authorization", lit "Digest username=\"" ++ impu ++ lit "\", realm=\"" ++ IMS_DOMAIN ++
       lit "\", nonce=\"\", uri=\"sip:" ++ IMS_DOMAIN ++ lit "\""),
     (lit "Content-Length", lit "0")]

def build200Register (impu ue_ip : Str) (cseq : Nat) : SipMessage where
  start := lit "SIP/2.0 200 OK"
  headers :=
    [(lit "Via", via ue_ip (lit "reg") cseq),
     (lit "From", tagged impu (lit "reg") cseq),
     (lit "To", impu ++ lit ";tag=scscf001"),
     (lit "Call-ID", regId cseq ue_ip),
     (lit "CSeq", cseqText cseq (lit "REGISTER")),
     (lit "Contact", contact (lit "ue") ue_ip ++ lit ";expires=3600"),
     (lit "P-Associated-URI", lit "<tel:+919000000001>"),
     (lit "Service-Route", lit "<sip:scscf." ++ IMS_DOMAIN ++ lit ";lr>"),
     (lit "Content-Length", lit "0")]

def sdpOffer (from_ip : Str) (rtp_port : Nat) : Str :=
  lit "v=0\r\no=ue 12345 67890 IN IP4 " ++ from_ip ++ lit "\r\ns=VoLTE Call\r\nc=IN IP4 " ++
    from_ip ++ lit "\r\nt=0 0\r\nm=audio " ++ natText rtp_port ++
    lit " RTP/AVP 98 99\r\na=rtpmap:98 AMR-WB/16000\r\na=rtpmap:99 AMR/8000\r\n" ++
    lit "a=sendrecv\r\nm=video " ++ natText (rtp_port + 2) ++
    lit " RTP/AVP 100\r\na=rtpmap:100 H264/90000\r\na=sendrecv\r\n"

def buildInvite (from_impu to_impu from_ip call_id : Str) (cseq : Nat) (rtp_port : Nat := 50000) :
    SipMessage where
  start := lit "INVITE " ++ to_impu ++ lit " SIP/2.0"
  headers :=
    [(lit "Via", via from_ip (lit "inv") cseq),
     (lit "Max-Forwards", lit "70"),
     (lit "From", tagged from_impu (lit "inv") cseq),
     (lit "To", to_impu),
     (lit "Call-ID", call_id),
     (lit "CSeq", cseqText cseq (lit "INVITE")),
     (lit "Contact", contact (lit "ue") from_ip),
     (lit "P-Preferred-Identity", from_impu),
     (lit "P-Access-Network-Info", accessNetwork),
     (lit "Supported", lit "100rel,precondition"),
     (lit "Content-Type", lit "application/sdp"),
     (lit "Content-Length", natText (sdpOffer from_ip rtp_port).length)]
  body := sdpOffer from_ip rtp_port

def build100Trying (from_impu to_impu call_id : Str) (cseq : Nat) : SipMessage where
  start := lit "SIP/2.0 100 Trying"
  headers :=
    [(lit "From", from_impu),
     (lit "To", to_impu),
     (lit "Call-ID", call_id),
     (lit "CSeq", cseqText cseq (lit "INVITE")),
     (lit "Content-Length", lit "0")]

def build180Ringing (from_impu to_impu call_id : Str) (cseq : Nat) : SipMessage where
  start := lit "SIP/2.0 180 Ringing"
  headers :=
    [(lit "From", from_impu),
     (lit "To", tagged to_impu (lit "callee") cseq),
     (lit "Call-ID", call_id),
     (lit "CSeq", cseqText cseq (lit "INVITE")),
     (lit "Contact", contact (lit "ue-b") (lit "10.0.0.2")),
     (lit "Content-Length", lit "0")]

def sdpAnswer (callee_ip : Str) (callee_rtp_port : Nat) : Str :=
  lit "v=0\r\no=ue-b 11111 22222 IN IP4 " ++ callee_ip ++ lit "\r\ns=VoLTE Call\r\nc=IN IP4 " ++
    callee_ip ++ lit "\r\nt=0 0\r\nm=audio " ++ natText callee_rtp_port ++
    lit " RTP/AVP 98\r\na=rtpmap:98 AMR-WB/16000\r\na=sendrecv\r\nm=video " ++
    natText (callee_rtp_port + 2) ++
    lit " RTP/AVP 100\r\na=rtpmap:100 H264/90000\r\na=sendrecv\r\n"

def build200Invite (from_impu to_impu callee_ip call_id : Str) (cseq : Nat)
    (callee_rtp_port : Nat := 60000) : SipMessage where
  start := lit "SIP/2.0 200 OK"
  headers :=
    [(lit "From", from_impu),
     (lit "To", tagged to_impu (lit "callee") cseq),
     (lit "Call-ID", call_id),
     (lit "CSeq", cseqText cseq (lit "INVITE")),
     (lit "Contact", contact (lit "ue-b") callee_ip),
     (lit "Content-Type", lit "application/sdp"),
     (lit "Content-Length", natText (sdpAnswer callee_ip callee_rtp_port).length)]
  body := sdpAnswer callee_ip callee_rtp_port

def buildAck (from_impu to_impu call_id : Str) (cseq : Nat) : SipMessage where
  start := lit "ACK " ++ to_impu ++ lit " SIP/2.0"
  headers :=
    [(lit "From", from_impu),
     (lit "To", tagged to_impu (lit "callee") cseq),
     (lit "Call-ID", call_id),
     (lit "CSeq", cseqText cseq (lit "ACK")),
     (lit "Content-Length", lit "0")]

def buildBye (from_impu to_impu call_id : Str) (cseq : Nat) : SipMessage where
  start := lit "BYE " ++ to_impu ++ lit " SIP/2.0"
  headers :=
    [(lit "From", from_impu),
     (lit "To", to_impu),
     (lit "Call-ID", call_id),
     (lit "CSeq", cseqText cseq (lit "BYE")),
     (lit "Content-Length", lit "0")]

def build603 (from_impu to_impu call_id : Str) (cseq : Nat) (reason : Str) : SipMessage where
  start := lit "SIP/2.0 603 Decline"
  headers :=
    [(lit "From", from_impu),
     (lit "To", to_impu),
     (lit "Call-ID", call_id),
     (lit "CSeq", cseqText cseq (lit "INVITE")),
     (lit "Reason", lit "SIP;cause=603;text=\"" ++ reason ++ lit " barring active\""),
     (lit "Content-Length", lit "0")]

end Messages

section Commands

/-- A message in the capture, with the addresses it is sent between. -/
structure Packet where
  sip : SipMessage
  src_ip : Nat
  dst_ip : Nat
deriving DecidableEq

def IP_UE : Nat := 0x0A000001
def IP_PCSCF : Nat := 0x0A000008
def IP_SCSCF : Nat := 0x0A000009
def IP_MTAS : Nat := 0x0A00000A

structure UeIdentity where
  registered : Bool := false
  cseq : Nat := 1

structure State where
  ues : Party → UeIdentity := fun _ => {}
  call_seq : Nat := 1

def State.advance (s : State) (p : Party) : State :=
  { s with ues := Function.update s.ues p { s.ues p with cseq := (s.ues p).cseq + 1 } }

def doRegister (s : State) (p : Party) : State × List Packet :=
  let sip := buildRegister p.impu p.ip (s.ues p).cseq
  let s := s.advance p
  let ok200 := build200Register p.impu p.ip (s.ues p).cseq
  ({ s with ues := Function.update s.ues p { s.ues p with registered := true } },
    [⟨sip, IP_UE, IP_PCSCF⟩, ⟨sip, IP_PCSCF, IP_SCSCF⟩, ⟨ok200, IP_SCSCF, IP_PCSCF⟩,
      ⟨ok200, IP_PCSCF, IP_UE⟩])

def callId (caller callee : Party) (seq : Nat) : Str :=
  lit "call-" ++ caller.id ++ callee.id ++ lit "-" ++ natText seq

def doCall (s : State) (caller callee : Party) : State × List Packet :=
  if !(s.ues caller).registered then (s, [])
  else if !(s.ues callee).registered then (s, [])
  else
    let call_id := callId caller callee s.call_seq
    let cseq := (s.ues callee).cseq
    let invite := buildInvite caller.impu callee.impu caller.ip call_id (s.ues caller).cseq
    let trying := build100Trying caller.impu callee.impu call_id cseq
    let ring180 := build180Ringing caller.impu callee.impu call_id cseq
    let ok200inv := build200Invite caller.impu callee.impu callee.ip call_id cseq
    ((({ s with call_seq := s.call_seq + 1 }.advance caller).advance callee),
      [⟨invite, IP_UE, IP_PCSCF⟩, ⟨invite, IP_PCSCF, IP_SCSCF⟩, ⟨invite, IP_SCSCF, IP_MTAS⟩,
        ⟨trying, IP_MTAS, IP_SCSCF⟩, ⟨trying, IP_SCSCF, IP_PCSCF⟩, ⟨trying, IP_PCSCF, IP_UE⟩,
        ⟨ring180, 0x7F000002, IP_PCSCF⟩, ⟨ring180, IP_PCSCF, IP_SCSCF⟩, ⟨ring180, IP_SCSCF, IP_UE⟩,
        ⟨ok200inv, 0x7F000002, IP_SCSCF⟩, ⟨ok200inv, IP_SCSCF, IP_PCSCF⟩,
        ⟨ok200inv, IP_PCSCF, IP_UE⟩,
        ⟨buildAck caller.impu callee.impu call_id cseq, IP_UE, IP_PCSCF⟩])

def doConference (s : State) : State × List Packet :=
  let s := { s with call_seq := s.call_seq + 1 }
  let conf_id := lit "conf-" ++ natText s.call_seq ++ lit "@" ++ IMS_DOMAIN
  (s,
    [⟨buildInvite Party.A.impu Party.B.impu Party.A.ip conf_id 10, IP_SCSCF, 0x7F000002⟩,
      ⟨buildInvite Party.A.impu Party.C.impu Party.A.ip conf_id 11, IP_SCSCF, 0x7F000003⟩])

def doCallWait (s : State) : State × List Packet :=
  let cw_id := lit "cw-" ++ natText s.call_seq
  ({ s with call_seq := s.call_seq + 1 },
    [⟨buildInvite Party.C.impu Party.A.impu Party.C.ip cw_id 5, IP_UE + 2, IP_PCSCF⟩])

def doBarring (s : State) : State × List Packet :=
  let barr_id := lit "barr-" ++ natText s.call_seq
  let intl_impu := lit "sip:+442071234567@ims.local"
  ({ s with call_seq := s.call_seq + 1 },
    [⟨buildInvite Party.A.impu intl_impu Party.A.ip barr_id 20, IP_UE, IP_PCSCF⟩,
      ⟨build603 Party.A.impu intl_impu barr_id 20 (lit "OIB"), IP_SCSCF, IP_UE⟩])

def byeId (caller callee : Party) : Str :=
  lit "call-" ++ caller.id ++ callee.id ++ lit "-bye"

def doBye (s : State) (caller callee : Party) : State × List Packet :=
  let bye := buildBye caller.impu callee.impu (byeId caller callee) (s.ues caller).cseq
  ((s.advance caller).advance callee, [⟨bye, IP_UE, IP_PCSCF⟩, ⟨bye, IP_PCSCF, IP_SCSCF⟩])

/-- A line of the operator, its words in upper case. -/
inductive Command where
  | status
  | reg (who : Str)
  | call (a b : Str)
  | conf
  | wait
  | barr
  | bye
  | other (line : Str)

def party? (who : Str) : Option Party :=
  if who = lit "A" then some .A
  else if who = lit "B" then some .B
  else if who = lit "C" then some .C
  else none

def State.also (out : State × List Packet) (f : State → State × List Packet) :
    State × List Packet :=
  ((f out.1).1, out.2 ++ (f out.1).2)

def next (s : State) : Command → State × List Packet
  | .reg who =>
      if who = lit "ALL" then
        State.also (State.also (doRegister s .A) (doRegister · .B)) (doRegister · .C)
      else
        match party? who with
        | some p => doRegister s p
        | none => (s, [])
  | .call a b =>
      match party? a, party? b with
      | some caller, some callee => doCall s caller callee
      | _, _ => (s, [])
  | .conf => doConference s
  | .wait => doCallWait s
  | .barr => doBarring s
  | .bye => doBye s .A .B
  | .status | .other _ => (s, [])

def captured (s : State) : List Command → List Packet
  | [] => []
  | c :: rest => (next s c).2 ++ captured (next s c).1 rest

end Commands

/-- Two messages of one transaction, as far as Call-ID, CSeq and From tell. -/
def SameTransaction (q m : SipMessage) : Prop :=
  q.header (lit "Call-ID") = m.header (lit "Call-ID") ∧
    q.header (lit "CSeq") = m.header (lit "CSeq") ∧ q.header (lit "From") = m.header (lit "From")

instance (q m : SipMessage) : Decidable (SameTransaction q m) :=
  inferInstanceAs (Decidable (_ ∧ _ ∧ _))

/-- A response answers an earlier request, and a BYE ends a call that an earlier INVITE set up. -/
def Justified (before : List Packet) (p : Packet) : Prop :=
  (p.sip.isResponse = true →
      ∃ q ∈ before, q.sip.isResponse = false ∧ SameTransaction q.sip p.sip) ∧
    (p.sip.method = lit "BYE" →
      ∃ q ∈ before, q.sip.method = lit "INVITE" ∧
        q.sip.header (lit "Call-ID") = p.sip.header (lit "Call-ID"))

/-- Every message of the capture has what it belongs to before it. -/
def Consistent (capture : List Packet) : Prop := Backed Justified capture

def Command.Answered : Command → Prop
  | .reg who => who = lit "ALL" ∨ (party? who).isSome = true
  | .barr | .bye => True
  | _ => False

section Identifiers

theorem number_split {a b : Nat} {c : UInt8} (hc : c < 48 ∨ 57 < c) {x y : Str}
    (h : natText a ++ c :: x = natText b ++ c :: y) : a = b ∧ x = y := by
  have hall (n : Nat) : ∀ d ∈ natText n, (d != c) = true := by
    intro d hd
    have hne : d ≠ c := fun heq => not_mem_natText n c hc (heq ▸ hd)
    simpa using hne
  have hfront (n : Nat) (z : Str) : (natText n ++ c :: z).takeWhile (· != c) = natText n := by
    rw [List.takeWhile_append_of_pos (hall n), List.takeWhile_cons_of_neg (by simp),
      List.append_nil]
  have hnumber : natText a = natText b := by
    rw [← hfront a x, h, hfront]
  rw [hnumber] at h
  exact ⟨natText_injective hnumber, (List.cons.inj (List.append_cancel_left h)).2⟩

theorem cseqText_inj {a b : Nat} {x y : Str} (h : cseqText a x = cseqText b y) :
    a = b ∧ x = y :=
  number_split (.inl (by decide)) h

theorem regId_inj {a b : Nat} {x y : Str} (h : regId a x = regId b y) : a = b ∧ x = y := by
  simp only [regId, List.append_assoc] at h
  exact number_split (c := 64) (.inr (by decide)) (List.append_cancel_left h)

theorem ip_inj {p q : Party} (h : p.ip = q.ip) : p = q := by
  cases p <;> cases q <;> first | rfl | exact absurd h (by decide)

theorem callId_ne_byeId (a b c d : Party) (n : Nat) : callId a b n ≠ byeId c d := by
  intro h
  have hid (p : Party) : p.id.length = 1 := by
    cases p <;> rfl
  have hlength : (lit "call-" ++ a.id ++ b.id).length = (lit "call-" ++ c.id ++ d.id).length := by
    simp only [List.length_append, hid]
  have hdash : lit "-bye" = lit "-" ++ lit "bye" := rfl
  rw [callId, byeId, hdash, List.append_assoc] at h
  have hnumber : natText n = lit "bye" :=
    List.append_cancel_left (List.append_inj h hlength).2
  have hmem : 98 ∈ lit "bye" := by decide
  have hdigit := (natText_digits n 98 (hnumber ▸ hmem)).2
  exact absurd hdigit (by decide)

def SetUp (id : Str) : Prop := (∀ n ip, id ≠ regId n ip) ∧ ∀ a b, id ≠ byeId a b

theorem setUp_callId (a b : Party) (n : Nat) : SetUp (callId a b n) := by
  refine ⟨?_, fun c d => callId_ne_byeId a b c d n⟩
  intro m ip h
  exact absurd (List.cons.inj h).1 (by decide)

theorem setUp_of_letters {c d : UInt8} (hc : c ≠ 114) (hd : c ≠ 99 ∨ d ≠ 97) (rest : Str) :
    SetUp (c :: d :: rest) := by
  constructor
  · intro n ip h
    exact hc (List.cons.inj h).1
  · intro a b h
    obtain ⟨hfirst, htail⟩ := List.cons.inj h
    rcases hd with hd | hd
    · exact hd hfirst
    · exact hd (List.cons.inj htail).1

end Identifiers

/-- What is known of a message that was written before a state of the session. -/
structure Sound (s : State) (m : SipMessage) : Prop where
  registers : m.isResponse = false → ∀ n p, m.header (lit "Call-ID") = some (regId n (Party.ip p)) →
    n < (s.ues p).cseq
  calls : m.method = lit "INVITE" → ∀ a b, m.header (lit "Call-ID") ≠ some (byeId a b)
  tags : m.isResponse = false → ∀ n, m.header (lit "CSeq") = some (cseqText n (lit "INVITE")) →
    ∀ uri, 59 ∉ uri → m.header (lit "From") ≠ some uri

theorem Sound.mono {s s' : State} {m : SipMessage} (h : Sound s m)
    (hcseq : ∀ p, (s.ues p).cseq ≤ (s'.ues p).cseq) : Sound s' m where
  registers hm n p hid := Nat.lt_of_lt_of_le (h.registers hm n p hid) (hcseq p)
  calls := h.calls
  tags := h.tags

theorem method_of_response {m : SipMessage} (h : m.isResponse = true) :
    m.method.head? = some 83 := by
  obtain ⟨rest, hstart⟩ := List.isPrefixOf_iff_prefix.mp h
  rw [SipMessage.method, ← hstart]
  rfl

theorem sound_response (s : State) {m : SipMessage} (h : m.isResponse = true) : Sound s m where
  registers hm := by
    rw [h] at hm
    cases hm
  calls hm := by
    have hhead := method_of_response h
    rw [hm] at hhead
    exact absurd hhead (by decide)
  tags hm := by
    rw [h] at hm
    cases hm

theorem not_invite {n m : Nat} {method : Str} (h : method ≠ lit "INVITE") :
    some (cseqText n method) ≠ some (cseqText m (lit "INVITE")) := by
  intro heq
  exact h (cseqText_inj (Option.some.inj heq)).2

theorem sound_register {s : State} {p : Party} {n : Nat} (h : n < (s.ues p).cseq) :
    Sound s (buildRegister p.impu p.ip n) where
  registers _ m q hid := by
    obtain ⟨rfl, hip⟩ := regId_inj (Option.some.inj hid)
    rw [← ip_inj hip]
    exact h
  calls hm := absurd (List.cons.inj hm).1 (by decide)
  tags _ _ hcseq := (not_invite (by decide) hcseq).elim

theorem sound_invite (s : State) {id : Str} (hid : SetUp id) (from_impu to_impu from_ip : Str)
    (n : Nat) : Sound s (buildInvite from_impu to_impu from_ip id n) where
  registers _ m p heq := absurd (Option.some.inj heq) (hid.1 m p.ip)
  calls _ a b heq := absurd (Option.some.inj heq) (hid.2 a b)
  tags _ m _ uri huri heq := by
    refine huri ((Option.some.inj heq) ▸ ?_)
    rw [tagged, List.append_assoc, List.append_assoc]
    exact List.mem_append_right _ (List.mem_append_left _ List.mem_cons_self)

theorem sound_ack (s : State) {id : Str} (hid : SetUp id) (from_impu to_impu : Str) (n : Nat) :
    Sound s (buildAck from_impu to_impu id n) where
  registers _ m p heq := absurd (Option.some.inj heq) (hid.1 m p.ip)
  calls hm := absurd (List.cons.inj hm).1 (by decide)
  tags _ _ hcseq := (not_invite (by decide) hcseq).elim

theorem sound_bye (s : State) (from_impu to_impu : Str) (a b : Party) (n : Nat) :
    Sound s (buildBye from_impu to_impu (byeId a b) n) where
  registers _ m p heq := absurd (List.cons.inj (Option.some.inj heq)).1 (by decide)
  calls hm := absurd (List.cons.inj hm).1 (by decide)
  tags _ _ hcseq := (not_invite (by decide) hcseq).elim

/-- What a command writes is sound in the state that it leads to. -/
structure Writes (s : State) (out : State × List Packet) : Prop where
  grows : ∀ p, (s.ues p).cseq ≤ (out.1.ues p).cseq
  sound : ∀ q ∈ out.2, Sound out.1 q.sip

theorem writes_nothing (s : State) : Writes s (s, []) where
  grows _ := Nat.le_refl _
  sound _ hq := by cases hq

theorem Writes.also {s : State} {out : State × List Packet} {f : State → State × List Packet}
    (h : Writes s out) (hf : Writes out.1 (f out.1)) : Writes s (State.also out f) where
  grows p := Nat.le_trans (h.grows p) (hf.grows p)
  sound q hq := by
    rcases List.mem_append.mp hq with hq | hq
    · exact (h.sound q hq).mono hf.grows
    · exact hf.sound q hq

theorem advance_grows (s : State) (p q : Party) : (s.ues q).cseq ≤ ((s.advance p).ues q).cseq := by
  rw [State.advance]
  by_cases h : q = p
  · subst h
    simp
  · simp [Function.update_of_ne h]

theorem doRegister_cseq (s : State) (p q : Party) :
    ((doRegister s p).1.ues q).cseq = ((s.advance p).ues q).cseq := by
  rw [doRegister]
  by_cases h : q = p
  · subst h
    simp
  · simp [Function.update_of_ne h]

theorem writes_doRegister (s : State) (p : Party) : Writes s (doRegister s p) where
  grows q := by
    rw [doRegister_cseq]
    exact advance_grows s p q
  sound := by
    have hregister : Sound (doRegister s p).1 (buildRegister p.impu p.ip (s.ues p).cseq) := by
      apply sound_register
      rw [doRegister_cseq]
      simp [State.advance]
    have hok : ∀ n, Sound (doRegister s p).1 (build200Register p.impu p.ip n) :=
      fun n => sound_response _ rfl
    intro q hq
    simp only [doRegister, List.mem_cons, List.not_mem_nil, or_false] at hq
    rcases hq with rfl | rfl | rfl | rfl
    · exact hregister
    · exact hregister
    · exact hok _
    · exact hok _

theorem writes_doCall (s : State) (caller callee : Party) : Writes s (doCall s caller callee) := by
  rw [doCall]
  split
  · exact writes_nothing s
  · split
    · exact writes_nothing s
    · constructor
      · intro q
        exact Nat.le_trans (advance_grows { s with call_seq := s.call_seq + 1 } caller q)
          (advance_grows _ callee q)
      · intro q hq
        have hid := setUp_callId caller callee s.call_seq
        simp only [List.mem_cons, List.not_mem_nil, or_false] at hq
        rcases hq with rfl | rfl | rfl | rfl | rfl | rfl | rfl | rfl | rfl | rfl | rfl | rfl | rfl
        · exact sound_invite _ hid _ _ _ _
        · exact sound_invite _ hid _ _ _ _
        · exact sound_invite _ hid _ _ _ _
        · exact sound_response _ rfl
        · exact sound_response _ rfl
        · exact sound_response _ rfl
        · exact sound_response _ rfl
        · exact sound_response _ rfl
        · exact sound_response _ rfl
        · exact sound_response _ rfl
        · exact sound_response _ rfl
        · exact sound_response _ rfl
        · exact sound_ack _ hid _ _ _

theorem writes_doConference (s : State) : Writes s (doConference s) where
  grows _ := Nat.le_refl _
  sound q hq := by
    have hid : ∀ n, SetUp (lit "conf-" ++ natText n ++ lit "@" ++ IMS_DOMAIN) :=
      fun n => setUp_of_letters (by decide) (.inr (by decide)) _
    simp only [doConference, List.mem_cons, List.not_mem_nil, or_false] at hq
    rcases hq with rfl | rfl
    · exact sound_invite _ (hid _) _ _ _ _
    · exact sound_invite _ (hid _) _ _ _ _

theorem writes_doCallWait (s : State) : Writes s (doCallWait s) where
  grows _ := Nat.le_refl _
  sound q hq := by
    rw [List.mem_singleton.mp hq]
    exact sound_invite _ (setUp_of_letters (by decide) (.inr (by decide)) _) _ _ _ _

theorem writes_doBarring (s : State) : Writes s (doBarring s) where
  grows _ := Nat.le_refl _
  sound q hq := by
    simp only [doBarring, List.mem_cons, List.not_mem_nil, or_false] at hq
    rcases hq with rfl | rfl
    · exact sound_invite _ (setUp_of_letters (by decide) (.inl (by decide)) _) _ _ _ _
    · exact sound_response _ rfl

theorem writes_doBye (s : State) (caller callee : Party) : Writes s (doBye s caller callee) where
  grows p := Nat.le_trans (advance_grows s caller p) (advance_grows _ callee p)
  sound q hq := by
    simp only [doBye, List.mem_cons, List.not_mem_nil, or_false] at hq
    rcases hq with rfl | rfl
    · exact sound_bye _ _ _ _ _ _
    · exact sound_bye _ _ _ _ _ _

theorem writes_next (s : State) (c : Command) : Writes s (next s c) := by
  cases c with
  | status => exact writes_nothing s
  | reg who =>
      rw [next]
      split
      · exact ((writes_doRegister s .A).also (writes_doRegister _ .B)).also (writes_doRegister _ .C)
      · split
        · exact writes_doRegister s _
        · exact writes_nothing s
  | call a b =>
      rw [next]
      split
      · exact writes_doCall s _ _
      · exact writes_nothing s
  | conf => exact writes_doConference s
  | wait => exact writes_doCallWait s
  | barr => exact writes_doBarring s
  | bye => exact writes_doBye s .A .B
  | other line => exact writes_nothing s

section Inconsistent

variable {s : State} {before : List Packet} (hbefore : ∀ q ∈ before, Sound s q.sip)

include hbefore

theorem doRegister_unjustified (p : Party) (more : List Packet) :
    ¬Consistent (before ++ ((doRegister s p).2 ++ more)) := by
  intro h
  let sip := buildRegister p.impu p.ip (s.ues p).cseq
  let ok200 := build200Register p.impu p.ip ((s.advance p).ues p).cseq
  have hnumber : ((s.advance p).ues p).cseq = (s.ues p).cseq + 1 := by simp [State.advance]
  have hback := (h (before ++ [⟨sip, IP_UE, IP_PCSCF⟩, ⟨sip, IP_PCSCF, IP_SCSCF⟩])
    ⟨ok200, IP_SCSCF, IP_PCSCF⟩ (⟨ok200, IP_PCSCF, IP_UE⟩ :: more)
    (by simp [doRegister, sip, ok200])).1
  obtain ⟨q, hq, hrequest, hid, hcseq, _⟩ := hback rfl
  rcases List.mem_append.mp hq with hq | hq
  · have hearlier := (hbefore q hq).registers hrequest _ p hid
    omega
  · have hsip : q.sip = sip := by
      simp only [List.mem_cons, List.not_mem_nil, or_false] at hq
      rcases hq with rfl | rfl <;> rfl
    rw [hsip] at hcseq
    have hsame := (cseqText_inj (Option.some.inj hcseq)).1
    omega

theorem doBarring_unjustified (more : List Packet) :
    ¬Consistent (before ++ ((doBarring s).2 ++ more)) := by
  intro h
  obtain ⟨invite, refusal, hout, hresponse, hcseq', hfrom', hinvite⟩ :
      ∃ invite refusal : Packet, (doBarring s).2 = [invite, refusal] ∧
        refusal.sip.isResponse = true ∧
        refusal.sip.header (lit "CSeq") = some (cseqText 20 (lit "INVITE")) ∧
        refusal.sip.header (lit "From") = some Party.A.impu ∧
        Sound (doBarring s).1 invite.sip := by
    refine ⟨_, _, rfl, rfl, rfl, rfl, ?_⟩
    exact (writes_doBarring s).sound _ List.mem_cons_self
  obtain ⟨q, hq, hrequest, _, hcseq, hfrom⟩ :=
    (h (before ++ [invite]) refusal more (by simp [hout])).1 hresponse
  have hsound : Sound (doBarring s).1 q.sip := by
    rcases List.mem_append.mp hq with hq | hq
    · exact (hbefore q hq).mono fun p => Nat.le_refl _
    · rw [List.mem_singleton.mp hq]
      exact hinvite
  exact hsound.tags hrequest 20 (hcseq.trans hcseq') Party.A.impu (by decide) (hfrom.trans hfrom')

theorem doBye_unjustified (caller callee : Party) (more : List Packet) :
    ¬Consistent (before ++ ((doBye s caller callee).2 ++ more)) := by
  intro h
  obtain ⟨bye, second, hout, hmethod, hid'⟩ : ∃ bye second : Packet,
      (doBye s caller callee).2 = [bye, second] ∧ bye.sip.method = lit "BYE" ∧
        bye.sip.header (lit "Call-ID") = some (byeId caller callee) :=
    ⟨_, _, rfl, rfl, rfl⟩
  obtain ⟨q, hq, hinvite, hid⟩ := (h before bye (second :: more) (by simp [hout])).2 hmethod
  exact (hbefore q hq).calls hinvite caller callee (hid.trans hid')

theorem answered_unjustified {c : Command} (hc : c.Answered) (more : List Packet) :
    ¬Consistent (before ++ ((next s c).2 ++ more)) := by
  cases c with
  | reg who =>
      rw [next]
      split
      · simp only [State.also, List.append_assoc]
        exact doRegister_unjustified hbefore .A _
      · rename_i hall
        obtain ⟨p, hp⟩ := Option.isSome_iff_exists.mp (hc.resolve_left hall)
        rw [hp]
        exact doRegister_unjustified hbefore p more
  | barr => exact doBarring_unjustified hbefore more
  | bye => exact doBye_unjustified hbefore .A .B more
  | status | call | conf | wait | other => exact hc.elim

/-- After any messages a session that writes a response or a BYE is not consistent. -/
theorem unanswered_of_consistent (cmds : List Command)
    (h : Consistent (before ++ captured s cmds)) : ∀ c ∈ cmds, ¬c.Answered := by
  induction cmds generalizing s before with
  | nil =>
      intro c hc
      cases hc
  | cons c cmds ih =>
      have hwrites := writes_next s c
      have hsound : ∀ q ∈ before ++ (next s c).2, Sound (next s c).1 q.sip := by
        intro q hq
        rcases List.mem_append.mp hq with hq | hq
        · exact (hbefore q hq).mono hwrites.grows
        · exact hwrites.sound q hq
      have hrest : Consistent (before ++ (next s c).2 ++ captured (next s c).1 cmds) := by
        rw [List.append_assoc]
        exact h
      rw [List.forall_mem_cons]
      exact ⟨fun hc => answered_unjustified hbefore hc _ h, ih hsound hrest⟩

end Inconsistent

def Unregistered (s : State) : Prop := ∀ p, (s.ues p).registered = false

theorem next_unanswered {s : State} (hs : Unregistered s) {c : Command} (hc : ¬c.Answered) :
    Unregistered (next s c).1 ∧
      ∀ q ∈ (next s c).2, q.sip.isResponse = false ∧ q.sip.method = lit "INVITE" := by
  have hnothing : ∀ q ∈ ([] : List Packet), q.sip.isResponse = false ∧
      q.sip.method = lit "INVITE" := by
    intro q hq
    cases hq
  cases c with
  | status => exact ⟨hs, hnothing⟩
  | other line => exact ⟨hs, hnothing⟩
  | barr => exact absurd trivial hc
  | bye => exact absurd trivial hc
  | reg who =>
      obtain ⟨hall, hnone⟩ := not_or.mp hc
      have hparty : party? who = none := by simpa using hnone
      rw [next, if_neg hall, hparty]
      exact ⟨hs, hnothing⟩
  | call a b =>
      rw [next]
      split
      · rename_i caller callee _ _
        rw [doCall, hs caller]
        exact ⟨hs, hnothing⟩
      · exact ⟨hs, hnothing⟩
  | conf =>
      refine ⟨hs, ?_⟩
      intro q hq
      simp only [next, doConference, List.mem_cons, List.not_mem_nil, or_false] at hq
      rcases hq with rfl | rfl
      · exact ⟨rfl, rfl⟩
      · exact ⟨rfl, rfl⟩
  | wait =>
      refine ⟨hs, ?_⟩
      intro q hq
      rw [List.mem_singleton.mp hq]
      exact ⟨rfl, rfl⟩

theorem consistent_of_unanswered {s : State} {before : List Packet} (hs : Unregistered s)
    (hbefore : Consistent before) (cmds : List Command) (h : ∀ c ∈ cmds, ¬c.Answered) :
    Consistent (before ++ captured s cmds) := by
  induction cmds generalizing s before with
  | nil => simpa [captured] using hbefore
  | cons c cmds ih =>
      obtain ⟨hc, hrest⟩ := List.forall_mem_cons.mp h
      obtain ⟨hs', hout⟩ := next_unanswered hs hc
      rw [captured, ← List.append_assoc]
      apply ih hs' _ hrest
      apply Backed.append_of_forall hbefore
      intro q hq front
      obtain ⟨hrequest, hmethod⟩ := hout q hq
      constructor
      · intro hresponse
        rw [hrequest] at hresponse
        cases hresponse
      · intro hbye
        rw [hmethod] at hbye
        exact absurd hbye (by decide)

/-- The capture of a session is consistent exactly if the session writes no response and no BYE. -/
theorem captured_consistent_iff (cmds : List Command) :
    Consistent (captured {} cmds) ↔ ∀ c ∈ cmds, ¬c.Answered := by
  have hempty : ∀ q ∈ ([] : List Packet), Sound {} q.sip := by
    intro q hq
    cases hq
  constructor
  · intro h
    exact unanswered_of_consistent hempty cmds h
  · intro h
    exact consistent_of_unanswered (fun _ => rfl) (Backed.nil Justified) cmds h

/-- The first registration is answered with another number than it has. -/
theorem first_registration_inconsistent :
    ¬∀ cmds : List Command, Consistent (captured {} cmds) := by
  intro h
  obtain ⟨q, hq, hrequest, hid, _⟩ := (h [.reg (lit "A")]
    [⟨buildRegister Party.A.impu Party.A.ip 1, IP_UE, IP_PCSCF⟩,
      ⟨buildRegister Party.A.impu Party.A.ip 1, IP_PCSCF, IP_SCSCF⟩]
    ⟨build200Register Party.A.impu Party.A.ip 2, IP_SCSCF, IP_PCSCF⟩
    [⟨build200Register Party.A.impu Party.A.ip 2, IP_PCSCF, IP_UE⟩] rfl).1 rfl
  have hsip : q.sip = buildRegister Party.A.impu Party.A.ip 1 := by
    simp only [List.mem_cons, List.not_mem_nil, or_false] at hq
    rcases hq with rfl | rfl <;> rfl
  rw [hsip] at hid
  exact absurd hid (by decide)

end MobileCore.SipCapture
