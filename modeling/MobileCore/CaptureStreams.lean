import MobileCore.ConnectionKeys
import MobileCore.CppText
import MobileCore.LabelledRuns
import MobileCore.LastWrite

/-!
# Captured TCP streams

The capture writer invents a TCP connection around the messages it writes: a handshake before
the first message of a connection, then one segment a message, numbered from the state under the
key of the connection.
-/

namespace MobileCore.CaptureStreams

open ConnectionKeys CppText LabelledRuns LastWrite

def IP_MME : UInt32 := 0x0A000003
def IP_HSS : UInt32 := 0x0A000004
def IP_SGW : UInt32 := 0x0A000005
def IP_PGW : UInt32 := 0x0A000006
def IP_PCRF : UInt32 := 0x0A000007
def IP_PCSCF : UInt32 := 0x0A000008
def IP_SCSCF : UInt32 := 0x0A000009
def IP_MTAS : UInt32 := 0x0A00000A

def PORT_SIP : UInt16 := 5060

inductive DiameterCmd where
  | creditControl
  | authInfo
  | updateLocation
  | serverAssignment
deriving DecidableEq, Repr

def DiameterCmd.code : DiameterCmd → UInt32
  | .creditControl => 272
  | .authInfo => 318
  | .updateLocation => 316
  | .serverAssignment => 301

inductive DiameterApp where
  | s6a
  | gx
  | cx
deriving DecidableEq, Repr

def DiameterApp.id : DiameterApp → UInt32
  | .s6a => 16777251
  | .gx => 16777238
  | .cx => 16777216

/-- A TCP segment in the file; the Ethernet and IP headers around it carry no stream state. -/
structure Segment where
  src : Endpoint
  dst : Endpoint
  seq : UInt32
  ack : UInt32
  flags : UInt8
  payload : Str
deriving DecidableEq, Repr

def buildIPTCP (src dst : Endpoint) (payload : Str) (tcpFlags : UInt8) (seqNum ackNum : UInt32) :
    Segment :=
  ⟨src, dst, seqNum, if tcpFlags ≠ 0x02 then ackNum else 0, tcpFlags, payload⟩

structure ConnSeq where
  clientSeq : UInt32
  serverSeq : UInt32
deriving DecidableEq, Repr

/-- A key without an entry reads as the default entry, as the source's `operator[]` makes it. -/
structure Writer where
  tcpStarted : UInt64 → Bool
  connSeq : UInt64 → ConnSeq

def opened : Writer := ⟨fun _ => false, fun _ => ⟨1000, 2000⟩⟩

def ensureTcpHandshake (w : Writer) (src dst : Endpoint) : Writer × List Segment :=
  let key := connKey src dst
  if w.tcpStarted key then (w, [])
  else
    (⟨Function.update w.tcpStarted key true, Function.update w.connSeq key ⟨1001, 2001⟩⟩,
      [buildIPTCP src dst [] 0x02 1000 0, buildIPTCP dst src [] 0x12 2000 1001,
        buildIPTCP src dst [] 0x10 1001 2001])

def isClient (src dst : Endpoint) : Bool := src.rank ≤ dst.rank

def nextSeq (w : Writer) (src dst : Endpoint) : UInt32 :=
  let cs := w.connSeq (connKey src dst)
  if isClient src dst then cs.clientSeq else cs.serverSeq

def peerSeq (w : Writer) (src dst : Endpoint) : UInt32 :=
  let cs := w.connSeq (connKey src dst)
  if isClient src dst then cs.serverSeq else cs.clientSeq

def advanceSeq (w : Writer) (src dst : Endpoint) (bytes : UInt32) : Writer :=
  let cs := w.connSeq (connKey src dst)
  let cs' :=
    if isClient src dst then { cs with clientSeq := cs.clientSeq + bytes }
    else { cs with serverSeq := cs.serverSeq + bytes }
  { w with connSeq := Function.update w.connSeq (connKey src dst) cs' }

/-- The common part of the writers: a handshake on one pair, then the message on another. -/
def transmit (w : Writer) (client server src dst : Endpoint) (payload : Str) :
    Writer × List Segment :=
  let (w', handshake) := ensureTcpHandshake w client server
  (advanceSeq w' src dst (UInt32.ofNat payload.length),
    handshake ++ [buildIPTCP src dst payload 0x18 (nextSeq w' src dst) (peerSeq w' src dst)])

def diamIdentity (ip : UInt32) : Str :=
  if ip = IP_MME then lit "mme.epc.mnc001.mcc001.3gppnetwork.org"
  else if ip = IP_HSS then lit "hss.epc.mnc001.mcc001.3gppnetwork.org"
  else if ip = IP_SGW then lit "sgw.epc.mnc001.mcc001.3gppnetwork.org"
  else if ip = IP_PGW then lit "pgw.epc.mnc001.mcc001.3gppnetwork.org"
  else if ip = IP_PCRF then lit "pcrf.epc.mnc001.mcc001.3gppnetwork.org"
  else if ip = IP_PCSCF then lit "pcscf.ims.mnc001.mcc001.3gppnetwork.org"
  else if ip = IP_SCSCF then lit "scscf.ims.mnc001.mcc001.3gppnetwork.org"
  else if ip = IP_MTAS then lit "mtas.ims.mnc001.mcc001.3gppnetwork.org"
  else lit "node.epc.mnc001.mcc001.3gppnetwork.org"

def diamRealm (ip : UInt32) : Str :=
  if ip = IP_PCSCF ∨ ip = IP_SCSCF ∨ ip = IP_MTAS then lit "ims.mnc001.mcc001.3gppnetwork.org"
  else lit "epc.mnc001.mcc001.3gppnetwork.org"

def putU32 (x : UInt32) : Str :=
  [(x >>> 24).toUInt8, (x >>> 16).toUInt8, (x >>> 8).toUInt8, x.toUInt8]

/-- The low three bytes of a length or a code. -/
def putU24 (x : UInt32) : Str := [(x >>> 16).toUInt8, (x >>> 8).toUInt8, x.toUInt8]

def addAvpStr (v : Str) (code : UInt32) (s : Str) : Str :=
  let v' := v ++ (putU32 code ++ (0x40 :: putU24 (UInt32.ofNat (8 + s.length))) ++ s)
  v' ++ List.replicate ((4 - v'.length % 4) % 4) 0

/-- The AVPs of a message without any of its own; `sid` is drawn from the packet counter. -/
def defaultAvps (srcIp dstIp sid : UInt32) : Str :=
  let v := addAvpStr [] 263 (diamIdentity srcIp ++ (lit ";" ++ natText sid.toNat))
  addAvpStr (addAvpStr (addAvpStr v 264 (diamIdentity srcIp)) 296 (diamRealm srcIp)) 283
    (diamRealm dstIp)

def diameterFrame (cmd : DiameterCmd) (app : DiameterApp) (isRequest : Bool) (id : UInt32)
    (avps : Str) : Str :=
  0x01 :: (putU24 (20 + UInt32.ofNat avps.length) ++ (if isRequest then 0xC0 else 0x40) ::
    (putU24 cmd.code ++ (putU32 app.id ++ (putU32 id ++ (putU32 id ++ avps)))))

def writeDiameter (w : Writer) (cmd : DiameterCmd) (app : DiameterApp) (isRequest : Bool)
    (src dst : Endpoint) (avpData : Str) (sid id : UInt32) : Writer × List Segment :=
  let avps := if avpData.isEmpty then defaultAvps src.ip dst.ip sid else avpData
  transmit w src dst src dst (diameterFrame cmd app isRequest id avps)

def writeSIP (w : Writer) (sipText : Str) (src dst : Endpoint) : Writer × List Segment :=
  transmit w ⟨src.ip, PORT_SIP⟩ ⟨dst.ip, PORT_SIP⟩ src dst sipText

/-- A call of the writer. The two numbers that Diameter takes from the packet counter, which other
frames and threads advance as well, come with the call. -/
inductive Call where
  | diameter (cmd : DiameterCmd) (app : DiameterApp) (isRequest : Bool) (src dst : Endpoint)
      (avpData : Str) (sid id : UInt32)
  | sip (sipText : Str) (src dst : Endpoint)
deriving DecidableEq, Repr

def write (w : Writer) : Call → Writer × List Segment
  | .diameter cmd app isRequest src dst avpData sid id =>
    writeDiameter w cmd app isRequest src dst avpData sid id
  | .sip sipText src dst => writeSIP w sipText src dst

def capture (calls : List Call) : Writer × List Segment :=
  calls.foldl (fun c call => ((write c.1 call).1, c.2 ++ (write c.1 call).2)) (opened, [])

def Call.src : Call → Endpoint
  | .diameter _ _ _ src _ _ _ _ => src
  | .sip _ src _ => src

def Call.dst : Call → Endpoint
  | .diameter _ _ _ _ dst _ _ _ => dst
  | .sip _ _ dst => dst

/-- The endpoint whose SYN a call writes when it finds the key not started. -/
def Call.client : Call → Endpoint
  | .diameter _ _ _ src _ _ _ _ => src
  | .sip _ src _ => ⟨src.ip, PORT_SIP⟩

def Call.server : Call → Endpoint
  | .diameter _ _ _ _ dst _ _ _ => dst
  | .sip _ _ dst => ⟨dst.ip, PORT_SIP⟩

def Segment.syn (s : Segment) : Bool := s.flags &&& 0x02 != 0

def Segment.push (s : Segment) : Bool := s.flags &&& 0x08 != 0

def Segment.next (s : Segment) : UInt32 :=
  s.seq + UInt32.ofNat s.payload.length + if s.syn then 1 else 0

def sent (src dst : Endpoint) (s : Segment) : Bool := s.src = src ∧ s.dst = dst

/-- The next sequence number of a direction, once it has its SYN. -/
def nextOf (file : List Segment) (src dst : Endpoint) : Option UInt32 :=
  (lastWhere (sent src dst) file).map Segment.next

/-- A SYN opens its direction, any other segment continues it, and data acknowledges what the
peer has sent. -/
def StreamStep (before : List Segment) (s : Segment) : Prop :=
  nextOf before s.src s.dst = (if s.syn then none else some s.seq) ∧
    (s.push = true → nextOf before s.dst s.src = some s.ack)

def Consistent (file : List Segment) : Prop := Backed StreamStep file

/-- The file has the SYN of a pair, from the endpoint that the numbering takes for the client. -/
def OpenedByClient (file : List Segment) (src dst : Endpoint) : Prop :=
  ∃ e ∈ file, e.flags = 0x02 ∧ s(e.src, e.dst) = s(src, dst) ∧ isClient e.src e.dst = true

/-- A handshake has two different ends, and the connection of the data was opened, before or by
this call, by the endpoint that the numbering takes for the client. -/
def WellOpened (c : Writer × List Segment) (call : Call) : Prop :=
  let fresh := c.1.tcpStarted (connKey call.client call.server) = false
  (fresh → call.client ≠ call.server) ∧
    (OpenedByClient c.2 call.src call.dst ∨
      fresh ∧ s(call.client, call.server) = s(call.src, call.dst) ∧
        isClient call.client call.server = true)

theorem nextOf_snoc (file : List Segment) (s : Segment) (src dst : Endpoint) :
    nextOf (file ++ [s]) src dst =
      if s.src = src ∧ s.dst = dst then some s.next else nextOf file src dst := by
  simp only [nextOf, lastWhere_snoc, sent, decide_eq_true_eq]
  split <;> rfl

theorem nextOf_eq_none {file : List Segment} {src dst : Endpoint}
    (h : ∀ s ∈ file, ¬ (s.src = src ∧ s.dst = dst)) : nextOf file src dst = none := by
  have hmiss : lastWhere (sent src dst) file = none :=
    (lastWhere_eq_none _ file).mpr fun s hs => decide_eq_false (h s hs)
  rw [nextOf, hmiss, Option.map_none]

theorem exists_of_nextOf {file : List Segment} {src dst : Endpoint} {n : UInt32}
    (h : nextOf file src dst = some n) : ∃ s ∈ file, s.src = src ∧ s.dst = dst := by
  by_contra hnone
  rw [nextOf_eq_none fun s hs hsent => hnone ⟨s, hs, hsent⟩] at h
  cases h

theorem nextOf_snoc_other (file : List Segment) {s : Segment} {a b : Endpoint}
    (h : s(s.src, s.dst) ≠ s(a, b)) : nextOf (file ++ [s]) a b = nextOf file a b := by
  rw [nextOf_snoc, if_neg]
  rintro ⟨rfl, rfl⟩
  exact h rfl

theorem isClient_swap {a b : Endpoint} (h : a ≠ b) : isClient b a = !isClient a b := by
  have htotal : a.rank ≤ b.rank → ¬ b.rank ≤ a.rank := fun hab hba =>
    h (rank_injective (UInt64.le_antisymm hab hba))
  have hor := UInt64.le_total a.rank b.rank
  simp only [isClient]
  by_cases hab : a.rank ≤ b.rank
  · simp [hab, htotal hab]
  · simp [hab, hor.resolve_left hab]

theorem peerSeq_eq (w : Writer) {a b : Endpoint} (h : a ≠ b) : peerSeq w a b = nextSeq w b a := by
  simp only [peerSeq, nextSeq, isClient_swap h, connKey_comm b a]
  cases isClient a b <;> rfl

theorem nextSeq_advanceSeq_self (w : Writer) (a b : Endpoint) (n : UInt32) :
    nextSeq (advanceSeq w a b n) a b = nextSeq w a b + n := by
  simp only [nextSeq, advanceSeq, Function.update_self]
  split <;> rfl

theorem nextSeq_advanceSeq_peer (w : Writer) {a b : Endpoint} (n : UInt32) (h : a ≠ b) :
    nextSeq (advanceSeq w a b n) b a = nextSeq w b a := by
  simp only [nextSeq, advanceSeq, connKey_comm b a, Function.update_self, isClient_swap h]
  cases isClient a b <;> rfl

theorem connSeq_advanceSeq_other (w : Writer) {a b : Endpoint} (n : UInt32) {key : UInt64}
    (h : key ≠ connKey a b) : (advanceSeq w a b n).connSeq key = w.connSeq key :=
  Function.update_of_ne h _ _

/-- What a pair of endpoints is to the writer: its key is taken, by this pair only, and its SYN is
in the file. -/
structure Registered (started : UInt64 → Bool) (file : List Segment) : Prop where
  started : ∀ s ∈ file, started (connKey s.src s.dst) = true
  distinct : ∀ s ∈ file, s.src ≠ s.dst
  oneKey : ∀ s ∈ file, ∀ t ∈ file, connKey s.src s.dst = connKey t.src t.dst →
    s(s.src, s.dst) = s(t.src, t.dst)
  syn : ∀ s ∈ file, ∃ e ∈ file, e.flags = 0x02 ∧ s(e.src, e.dst) = s(s.src, s.dst)

/-- The state under the key of a pair has the next numbers of both directions. -/
def Kept (w : Writer) (file : List Segment) (a b : Endpoint) : Prop :=
  nextOf file a b = some (nextSeq w a b) ∧ nextOf file b a = some (nextSeq w b a)

/-- The state after a handshake from the wrong end has the two numbers the wrong way round. -/
def Crossed (w : Writer) (file : List Segment) (a b : Endpoint) : Prop :=
  nextOf file a b = some 1001 ∧ nextOf file b a = some 2001 ∧
    w.connSeq (connKey a b) = ⟨1001, 2001⟩

def Numbered (w : Writer) (file : List Segment) (client server : Endpoint) : Prop :=
  if isClient client server then Kept w file client server else Crossed w file client server

structure Tracks (w : Writer) (file : List Segment) : Prop where
  registered : Registered w.tcpStarted file
  numbered : ∀ e ∈ file, e.flags = 0x02 → Numbered w file e.src e.dst

theorem ne_of_pair {a b c d : Endpoint} (h : s(a, b) = s(c, d)) (hne : c ≠ d) : a ≠ b := by
  rintro rfl
  rcases Sym2.eq_iff.mp h with ⟨rfl, rfl⟩ | ⟨rfl, rfl⟩
  · exact hne rfl
  · exact hne rfl

theorem Registered.snoc {started : UInt64 → Bool} {file : List Segment} {s t : Segment}
    (h : Registered started file) (ht : t ∈ file) (hpair : s(s.src, s.dst) = s(t.src, t.dst)) :
    Registered started (file ++ [s]) := by
  have hold : ∀ r ∈ file ++ [s], ∃ r' ∈ file, s(r.src, r.dst) = s(r'.src, r'.dst) := by
    intro r hr
    rcases List.mem_append.mp hr with hr | hr
    · exact ⟨r, hr, rfl⟩
    · obtain rfl := List.mem_singleton.mp hr
      exact ⟨t, ht, hpair⟩
  constructor
  · intro r hr
    obtain ⟨r', hr', hsame⟩ := hold r hr
    rw [connKey_of_pair hsame]
    exact h.started r' hr'
  · intro r hr
    obtain ⟨r', hr', hsame⟩ := hold r hr
    exact ne_of_pair hsame (h.distinct r' hr')
  · intro r hr q hq hkey
    obtain ⟨r', hr', hsame⟩ := hold r hr
    obtain ⟨q', hq', hsame'⟩ := hold q hq
    rw [connKey_of_pair hsame, connKey_of_pair hsame'] at hkey
    rw [hsame, hsame']
    exact h.oneKey r' hr' q' hq' hkey
  · intro r hr
    obtain ⟨r', hr', hsame⟩ := hold r hr
    obtain ⟨e, he, hsyn, hpair'⟩ := h.syn r' hr'
    exact ⟨e, List.mem_append_left _ he, hsyn, hpair'.trans hsame.symm⟩

theorem Registered.snoc_syn {started : UInt64 → Bool} {file : List Segment} {s : Segment}
    (h : Registered started file) (hfree : started (connKey s.src s.dst) = false)
    (hne : s.src ≠ s.dst) (hsyn : s.flags = 0x02) :
    Registered (Function.update started (connKey s.src s.dst) true) (file ++ [s]) := by
  have hother : ∀ r ∈ file, connKey r.src r.dst ≠ connKey s.src s.dst := by
    intro r hr hkey
    have htaken := h.started r hr
    rw [hkey, hfree] at htaken
    cases htaken
  constructor
  · intro r hr
    rcases List.mem_append.mp hr with hr | hr
    · rw [Function.update_of_ne (hother r hr)]
      exact h.started r hr
    · obtain rfl := List.mem_singleton.mp hr
      exact Function.update_self _ _ _
  · intro r hr
    rcases List.mem_append.mp hr with hr | hr
    · exact h.distinct r hr
    · obtain rfl := List.mem_singleton.mp hr
      exact hne
  · intro r hr q hq hkey
    rcases List.mem_append.mp hr with hrOld | hrNew
    · rcases List.mem_append.mp hq with hqOld | hqNew
      · exact h.oneKey r hrOld q hqOld hkey
      · obtain rfl := List.mem_singleton.mp hqNew
        exact absurd hkey (hother r hrOld)
    · obtain rfl := List.mem_singleton.mp hrNew
      rcases List.mem_append.mp hq with hqOld | hqNew
      · exact absurd hkey.symm (hother q hqOld)
      · obtain rfl := List.mem_singleton.mp hqNew
        rfl
  · intro r hr
    rcases List.mem_append.mp hr with hr | hr
    · obtain ⟨e, he, hflags, hpair⟩ := h.syn r hr
      exact ⟨e, List.mem_append_left _ he, hflags, hpair⟩
    · obtain rfl := List.mem_singleton.mp hr
      exact ⟨r, List.mem_append_right _ (List.mem_singleton_self r), hsyn, rfl⟩

theorem Numbered.snoc_other {w w' : Writer} {file : List Segment} {a b : Endpoint} {s : Segment}
    (h : Numbered w file a b) (hpair : s(s.src, s.dst) ≠ s(a, b))
    (hconn : w'.connSeq (connKey a b) = w.connSeq (connKey a b)) :
    Numbered w' (file ++ [s]) a b := by
  have hpair' : s(s.src, s.dst) ≠ s(b, a) := by rwa [Sym2.eq_swap (a := b)]
  simp only [Numbered, Kept, Crossed, nextSeq, connKey_comm b a, hconn,
    nextOf_snoc_other file hpair, nextOf_snoc_other file hpair'] at h ⊢
  exact h

theorem Crossed.ne {w : Writer} {file : List Segment} {a b : Endpoint} (h : Crossed w file a b)
    (hne : a ≠ b) (hclient : isClient a b = false) :
    nextOf file a b ≠ some (nextSeq w a b) ∧ nextOf file b a ≠ some (nextSeq w b a) := by
  obtain ⟨hab, hba, hconn⟩ := h
  simp only [nextSeq, connKey_comm b a, hconn, isClient_swap hne, hclient, hab, hba]
  decide

def synOf (a b : Endpoint) : Segment := ⟨a, b, 1000, 0, 0x02, []⟩

def synAckOf (a b : Endpoint) : Segment := ⟨b, a, 2000, 1001, 0x12, []⟩

def ackOf (a b : Endpoint) : Segment := ⟨a, b, 1001, 2001, 0x10, []⟩

def handshaken (w : Writer) (a b : Endpoint) : Writer :=
  ⟨Function.update w.tcpStarted (connKey a b) true,
    Function.update w.connSeq (connKey a b) ⟨1001, 2001⟩⟩

theorem connSeq_handshaken_self (w : Writer) (a b : Endpoint) :
    (handshaken w a b).connSeq (connKey a b) = ⟨1001, 2001⟩ :=
  Function.update_self _ _ _

theorem connSeq_handshaken_other (w : Writer) {a b : Endpoint} {key : UInt64}
    (h : key ≠ connKey a b) : (handshaken w a b).connSeq key = w.connSeq key :=
  Function.update_of_ne h _ _

theorem ensureTcpHandshake_free {w : Writer} {a b : Endpoint}
    (hfree : w.tcpStarted (connKey a b) = false) :
    ensureTcpHandshake w a b = (handshaken w a b, [synOf a b, synAckOf a b, ackOf a b]) := by
  simp [ensureTcpHandshake, hfree, buildIPTCP, handshaken, synOf, synAckOf, ackOf]

theorem ensureTcpHandshake_started {w : Writer} {a b : Endpoint}
    (hstarted : w.tcpStarted (connKey a b) = true) : ensureTcpHandshake w a b = (w, []) :=
  if_pos hstarted

theorem synOf_syn (a b : Endpoint) : (synOf a b).syn = true :=
  (by decide : ((0x02 : UInt8) &&& 0x02 != 0) = true)

theorem synAckOf_syn (a b : Endpoint) : (synAckOf a b).syn = true :=
  (by decide : ((0x12 : UInt8) &&& 0x02 != 0) = true)

theorem ackOf_syn (a b : Endpoint) : (ackOf a b).syn = false :=
  (by decide : ((0x10 : UInt8) &&& 0x02 != 0) = false)

theorem synOf_push (a b : Endpoint) : (synOf a b).push = false :=
  (by decide : ((0x02 : UInt8) &&& 0x08 != 0) = false)

theorem synAckOf_push (a b : Endpoint) : (synAckOf a b).push = false :=
  (by decide : ((0x12 : UInt8) &&& 0x08 != 0) = false)

theorem ackOf_push (a b : Endpoint) : (ackOf a b).push = false :=
  (by decide : ((0x10 : UInt8) &&& 0x08 != 0) = false)

theorem synAckOf_flags (a b : Endpoint) : (synAckOf a b).flags ≠ 0x02 :=
  (by decide : (0x12 : UInt8) ≠ 0x02)

theorem ackOf_flags (a b : Endpoint) : (ackOf a b).flags ≠ 0x02 :=
  (by decide : (0x10 : UInt8) ≠ 0x02)

theorem synOf_next (a b : Endpoint) : (synOf a b).next = 1001 := by
  rw [Segment.next, synOf_syn]
  exact (by decide : (1000 : UInt32) + UInt32.ofNat 0 + 1 = 1001)

theorem synAckOf_next (a b : Endpoint) : (synAckOf a b).next = 2001 := by
  rw [Segment.next, synAckOf_syn]
  exact (by decide : (2000 : UInt32) + UInt32.ofNat 0 + 1 = 2001)

theorem ackOf_next (a b : Endpoint) : (ackOf a b).next = 1001 := by
  rw [Segment.next, ackOf_syn]
  exact (by decide : (1001 : UInt32) + UInt32.ofNat 0 + 0 = 1001)

theorem streamStep_of_not_push {before : List Segment} {s : Segment} (hpush : s.push = false)
    (h : nextOf before s.src s.dst = if s.syn then none else some s.seq) :
    StreamStep before s := by
  refine ⟨h, fun hdata => ?_⟩
  rw [hpush] at hdata
  cases hdata

section Handshake

variable {w : Writer} {file : List Segment} {a b : Endpoint}

theorem Tracks.free (h : Tracks w file) (hfree : w.tcpStarted (connKey a b) = false) :
    ∀ s ∈ file, connKey s.src s.dst ≠ connKey a b := by
  intro s hs hkey
  have htaken := h.registered.started s hs
  rw [hkey, hfree] at htaken
  cases htaken

theorem Tracks.free_nextOf (h : Tracks w file) (hfree : w.tcpStarted (connKey a b) = false) :
    nextOf file a b = none ∧ nextOf file b a = none := by
  constructor
  · apply nextOf_eq_none
    rintro s hs ⟨rfl, rfl⟩
    exact h.free hfree s hs rfl
  · apply nextOf_eq_none
    rintro s hs ⟨rfl, rfl⟩
    exact h.free hfree s hs (connKey_comm _ _)

theorem nextOf_handshake (file : List Segment) (hne : a ≠ b) :
    nextOf (file ++ [synOf a b] ++ [synAckOf a b] ++ [ackOf a b]) a b = some 1001 ∧
      nextOf (file ++ [synOf a b] ++ [synAckOf a b] ++ [ackOf a b]) b a = some 2001 := by
  have hcross : ¬ ((ackOf a b).src = b ∧ (ackOf a b).dst = a) := fun h => hne h.1
  constructor
  · rw [nextOf_snoc, if_pos ⟨rfl, rfl⟩, ackOf_next]
  · rw [nextOf_snoc, if_neg hcross, nextOf_snoc, if_pos ⟨rfl, rfl⟩, synAckOf_next]

theorem numbered_handshake (w : Writer) (file : List Segment) (hne : a ≠ b) :
    Numbered (handshaken w a b) (file ++ [synOf a b] ++ [synAckOf a b] ++ [ackOf a b]) a b := by
  obtain ⟨hab, hba⟩ := nextOf_handshake file hne
  have hconn := connSeq_handshaken_self w a b
  cases hclient : isClient a b with
  | true =>
      have hseq : nextSeq (handshaken w a b) a b = 1001 := by
        simp only [nextSeq, hclient, hconn, if_true]
      have hpeer : nextSeq (handshaken w a b) b a = 2001 := by
        simp [nextSeq, connKey_comm b a, isClient_swap hne, hclient, hconn]
      rw [Numbered, if_pos hclient]
      exact ⟨hab.trans (congrArg some hseq.symm), hba.trans (congrArg some hpeer.symm)⟩
  | false =>
      rw [Numbered, hclient]
      exact ⟨hab, hba, hconn⟩

theorem Tracks.handshake (h : Tracks w file) (hfree : w.tcpStarted (connKey a b) = false)
    (hne : a ≠ b) :
    Tracks (handshaken w a b) (file ++ [synOf a b] ++ [synAckOf a b] ++ [ackOf a b]) := by
  constructor
  · have hsyn : synOf a b ∈ file ++ [synOf a b] :=
      List.mem_append_right _ (List.mem_singleton_self _)
    have hfirst : Registered (handshaken w a b).tcpStarted (file ++ [synOf a b]) :=
      h.registered.snoc_syn (s := synOf a b) hfree hne rfl
    have hsecond := hfirst.snoc (s := synAckOf a b) hsyn Sym2.eq_swap
    exact hsecond.snoc (List.mem_append_left _ hsyn) rfl
  · intro e he hflags
    simp only [List.append_assoc, List.mem_append, List.mem_singleton] at he
    rcases he with he | rfl | rfl | rfl
    · have hkey := h.free hfree e he
      have hother : s(a, b) ≠ s(e.src, e.dst) := fun heq => hkey (connKey_of_pair heq.symm)
      have hother' : s(b, a) ≠ s(e.src, e.dst) := fun heq => hother (Sym2.eq_swap.trans heq)
      have hconn := connSeq_handshaken_other w hkey
      have hfirst : Numbered (handshaken w a b) (file ++ [synOf a b]) e.src e.dst :=
        (h.numbered e he hflags).snoc_other hother hconn
      have hsecond : Numbered (handshaken w a b) (file ++ [synOf a b] ++ [synAckOf a b])
          e.src e.dst := hfirst.snoc_other hother' rfl
      exact hsecond.snoc_other hother rfl
    · exact numbered_handshake w file hne
    · exact absurd hflags (synAckOf_flags a b)
    · exact absurd hflags (ackOf_flags a b)

theorem Tracks.consistent_handshake (h : Tracks w file)
    (hfree : w.tcpStarted (connKey a b) = false) (hne : a ≠ b) (hfile : Consistent file) :
    Consistent (file ++ [synOf a b] ++ [synAckOf a b] ++ [ackOf a b]) := by
  obtain ⟨hab, hba⟩ := h.free_nextOf hfree
  have hsynCross : ¬ ((synOf a b).src = b ∧ (synOf a b).dst = a) := fun h => hne h.1
  have hackCross : ¬ ((synAckOf a b).src = (ackOf a b).src ∧
      (synAckOf a b).dst = (ackOf a b).dst) := fun h => hne h.2
  refine Backed.snoc (Backed.snoc (Backed.snoc hfile ?_) ?_) ?_
  · apply streamStep_of_not_push (synOf_push a b)
    rw [synOf_syn]
    exact hab
  · apply streamStep_of_not_push (synAckOf_push a b)
    rw [synAckOf_syn, nextOf_snoc]
    exact (if_neg hsynCross).trans hba
  · apply streamStep_of_not_push (ackOf_push a b)
    rw [ackOf_syn, nextOf_snoc, if_neg hackCross, nextOf_snoc, if_pos ⟨rfl, rfl⟩, synOf_next]
    rfl

theorem not_consistent_handshake_self (file : List Segment) (a : Endpoint) :
    ¬ Consistent (file ++ [synOf a a] ++ [synAckOf a a]) := by
  intro hfile
  have hsecond := hfile.last.1
  rw [synAckOf_syn, nextOf_snoc, if_pos ⟨rfl, rfl⟩] at hsecond
  cases hsecond

end Handshake

def dataOf (w : Writer) (src dst : Endpoint) (payload : Str) : Segment :=
  buildIPTCP src dst payload 0x18 (nextSeq w src dst) (peerSeq w src dst)

section Data

variable {w : Writer} {file : List Segment} {src dst : Endpoint}

theorem dataOf_syn (w : Writer) (src dst : Endpoint) (payload : Str) :
    (dataOf w src dst payload).syn = false :=
  (by decide : ((0x18 : UInt8) &&& 0x02 != 0) = false)

theorem dataOf_flags (w : Writer) (src dst : Endpoint) (payload : Str) :
    (dataOf w src dst payload).flags ≠ 0x02 :=
  (by decide : (0x18 : UInt8) ≠ 0x02)

theorem dataOf_ack (w : Writer) (src dst : Endpoint) (payload : Str) :
    (dataOf w src dst payload).ack = peerSeq w src dst := by
  have hflags : (0x18 : UInt8) ≠ 0x02 := by decide
  simp only [dataOf, buildIPTCP, if_pos hflags]

theorem dataOf_next (w : Writer) (src dst : Endpoint) (payload : Str) :
    (dataOf w src dst payload).next = nextSeq w src dst + UInt32.ofNat payload.length := by
  rw [Segment.next, dataOf_syn]
  exact UInt32.add_zero _

theorem Tracks.kept (h : Tracks w file) (hopen : OpenedByClient file src dst) :
    src ≠ dst ∧ Kept w file src dst := by
  obtain ⟨e, he, hflags, hpair, hclient⟩ := hopen
  have hnumbered := h.numbered e he hflags
  have hne := h.registered.distinct e he
  rw [Numbered, if_pos hclient] at hnumbered
  rcases Sym2.eq_iff.mp hpair with ⟨rfl, rfl⟩ | ⟨rfl, rfl⟩
  · exact ⟨hne, hnumbered⟩
  · exact ⟨hne.symm, hnumbered.symm⟩

theorem Tracks.streamStep_data (h : Tracks w file) (hopen : OpenedByClient file src dst)
    (payload : Str) : StreamStep file (dataOf w src dst payload) := by
  obtain ⟨hne, hseq, hpeer⟩ := h.kept hopen
  constructor
  · rw [dataOf_syn]
    exact hseq
  · intro _
    rw [dataOf_ack, peerSeq_eq w hne]
    exact hpeer

theorem Kept.data (h : Kept w file src dst) (hne : src ≠ dst) (payload : Str) :
    Kept (advanceSeq w src dst (UInt32.ofNat payload.length))
      (file ++ [dataOf w src dst payload]) src dst := by
  have hcross : ¬ ((dataOf w src dst payload).src = dst ∧ (dataOf w src dst payload).dst = src) :=
    fun hback => hne hback.1
  constructor
  · rw [nextOf_snoc, if_pos ⟨rfl, rfl⟩, dataOf_next, nextSeq_advanceSeq_self]
  · rw [nextOf_snoc, if_neg hcross, nextSeq_advanceSeq_peer w _ hne]
    exact h.2

/-- A SYN of a pair that the other end has opened is no second opening. -/
theorem Tracks.client_of_kept (h : Tracks w file) (hkept : Kept w file src dst) {e : Segment}
    (he : e ∈ file) (hflags : e.flags = 0x02) (hpair : s(e.src, e.dst) = s(src, dst)) :
    isClient e.src e.dst = true := by
  have hnumbered := h.numbered e he hflags
  cases hclient : isClient e.src e.dst with
  | true => rfl
  | false =>
      rw [Numbered, hclient] at hnumbered
      obtain ⟨hforth, hback⟩ := Crossed.ne hnumbered (h.registered.distinct e he) hclient
      rcases Sym2.eq_iff.mp hpair with ⟨rfl, rfl⟩ | ⟨rfl, rfl⟩
      · exact absurd hkept.1 hforth
      · exact absurd hkept.1 hback

theorem Tracks.data (h : Tracks w file) (hopen : OpenedByClient file src dst) (payload : Str) :
    Tracks (advanceSeq w src dst (UInt32.ofNat payload.length))
      (file ++ [dataOf w src dst payload]) := by
  obtain ⟨hne, hkept⟩ := h.kept hopen
  obtain ⟨o, ho, _, hopair, _⟩ := hopen
  constructor
  · exact h.registered.snoc ho hopair.symm
  · intro e he hflags
    rcases List.mem_append.mp he with he | he
    · by_cases hpair : s(e.src, e.dst) = s(src, dst)
      · have hclient := h.client_of_kept hkept he hflags hpair
        have hkept' := hkept.data hne payload
        rw [Numbered, if_pos hclient]
        rcases Sym2.eq_iff.mp hpair with ⟨rfl, rfl⟩ | ⟨rfl, rfl⟩
        · exact hkept'
        · exact hkept'.symm
      · have hkey : connKey e.src e.dst ≠ connKey src dst := by
          intro hsame
          rw [← connKey_of_pair hopair] at hsame
          exact hpair ((h.registered.oneKey e he o ho hsame).trans hopair)
        exact (h.numbered e he hflags).snoc_other (fun hsame => hpair hsame.symm)
          (connSeq_advanceSeq_other w _ hkey)
    · obtain rfl := List.mem_singleton.mp he
      exact absurd hflags (dataOf_flags w src dst payload)

/-- Data that is in order goes on a connection that the client of the numbering has opened. -/
theorem Tracks.opened_of_streamStep (h : Tracks w file) {payload : Str}
    (hstep : StreamStep file (dataOf w src dst payload)) : OpenedByClient file src dst := by
  have hseq : nextOf file src dst = some (nextSeq w src dst) := by
    have hfirst := hstep.1
    rw [dataOf_syn] at hfirst
    exact hfirst
  obtain ⟨t, ht, rfl, rfl⟩ := exists_of_nextOf hseq
  obtain ⟨e, he, hflags, hpair⟩ := h.registered.syn t ht
  have hne := h.registered.distinct e he
  cases hclient : isClient e.src e.dst with
  | true => exact ⟨e, he, hflags, hpair, hclient⟩
  | false =>
      have hnumbered := h.numbered e he hflags
      rw [Numbered, hclient] at hnumbered
      obtain ⟨hforth, hback⟩ := Crossed.ne hnumbered hne hclient
      rcases Sym2.eq_iff.mp hpair with ⟨hsrc, hdst⟩ | ⟨hsrc, hdst⟩
      · rw [← hsrc, ← hdst] at hseq
        exact absurd hseq hforth
      · rw [← hsrc, ← hdst] at hseq
        exact absurd hseq hback

end Data

theorem write_eq (w : Writer) (call : Call) :
    ∃ payload, write w call = transmit w call.client call.server call.src call.dst payload := by
  cases call with
  | diameter cmd app isRequest src dst avpData sid id => exact ⟨_, rfl⟩
  | sip sipText src dst => exact ⟨_, rfl⟩

theorem write_started {w : Writer} {call : Call}
    (hstarted : w.tcpStarted (connKey call.client call.server) = true) :
    ∃ payload, write w call =
      (advanceSeq w call.src call.dst (UInt32.ofNat payload.length),
        [dataOf w call.src call.dst payload]) := by
  obtain ⟨payload, hwrite⟩ := write_eq w call
  refine ⟨payload, hwrite.trans ?_⟩
  simp only [transmit, ensureTcpHandshake_started hstarted]
  rfl

theorem write_free {w : Writer} {call : Call}
    (hfree : w.tcpStarted (connKey call.client call.server) = false) :
    ∃ payload, write w call =
      (advanceSeq (handshaken w call.client call.server) call.src call.dst
          (UInt32.ofNat payload.length),
        [synOf call.client call.server, synAckOf call.client call.server,
          ackOf call.client call.server,
          dataOf (handshaken w call.client call.server) call.src call.dst payload]) := by
  obtain ⟨payload, hwrite⟩ := write_eq w call
  refine ⟨payload, hwrite.trans ?_⟩
  simp only [transmit, ensureTcpHandshake_free hfree]
  rfl

theorem openedByClient_handshake (file : List Segment) (client server src dst : Endpoint) :
    OpenedByClient (file ++ [synOf client server] ++ [synAckOf client server] ++
        [ackOf client server]) src dst ↔
      OpenedByClient file src dst ∨
        s(client, server) = s(src, dst) ∧ isClient client server = true := by
  constructor
  · rintro ⟨e, he, hflags, hpair, hclient⟩
    simp only [List.append_assoc, List.mem_append, List.mem_singleton] at he
    rcases he with he | rfl | rfl | rfl
    · exact Or.inl ⟨e, he, hflags, hpair, hclient⟩
    · exact Or.inr ⟨hpair, hclient⟩
    · exact absurd hflags (synAckOf_flags client server)
    · exact absurd hflags (ackOf_flags client server)
  · rintro (⟨e, he, hflags, hpair, hclient⟩ | ⟨hpair, hclient⟩)
    · exact ⟨e, by simp [he], hflags, hpair, hclient⟩
    · exact ⟨synOf client server, by simp, rfl, hpair, hclient⟩

theorem Tracks.written {w : Writer} {file : List Segment} {call : Call} (h : Tracks w file)
    (hfile : Consistent file) (hopen : WellOpened (w, file) call) :
    Tracks (write w call).1 (file ++ (write w call).2) ∧
      Consistent (file ++ (write w call).2) := by
  obtain ⟨hends, hopened⟩ := hopen
  cases hkey : w.tcpStarted (connKey call.client call.server) with
  | true =>
      obtain ⟨payload, hwrite⟩ := write_started hkey
      have hclient : OpenedByClient file call.src call.dst := by
        rcases hopened with hold | ⟨hfree, _⟩
        · exact hold
        · cases hkey.symm.trans hfree
      rw [hwrite]
      exact ⟨h.data hclient payload, hfile.snoc (h.streamStep_data hclient payload)⟩
  | false =>
      obtain ⟨payload, hwrite⟩ := write_free hkey
      have hne := hends hkey
      have h' := h.handshake hkey hne
      have hclient := (openedByClient_handshake file call.client call.server call.src call.dst).mpr
        (hopened.imp_right And.right)
      have hdata := h'.data hclient payload
      have hsteps := (h.consistent_handshake hkey hne hfile).snoc
        (h'.streamStep_data hclient payload)
      rw [hwrite]
      simp only [List.append_assoc, List.cons_append, List.nil_append] at hdata hsteps ⊢
      exact ⟨hdata, hsteps⟩

/-- Only a well opened call keeps the streams in order. -/
theorem Tracks.wellOpened {w : Writer} {file : List Segment} {call : Call} (h : Tracks w file)
    (hfile : Consistent (file ++ (write w call).2)) : WellOpened (w, file) call := by
  cases hkey : w.tcpStarted (connKey call.client call.server) with
  | true =>
      obtain ⟨payload, hwrite⟩ := write_started hkey
      rw [hwrite] at hfile
      refine ⟨fun hfree => ?_, Or.inl (h.opened_of_streamStep hfile.last)⟩
      cases hkey.symm.trans hfree
  | false =>
      obtain ⟨payload, hwrite⟩ := write_free hkey
      have hsteps : Consistent (file ++ [synOf call.client call.server] ++
          [synAckOf call.client call.server] ++ [ackOf call.client call.server] ++
          [dataOf (handshaken w call.client call.server) call.src call.dst payload]) := by
        rw [hwrite] at hfile
        simpa only [List.append_assoc, List.cons_append, List.nil_append] using hfile
      have hne : call.client ≠ call.server := by
        intro hself
        rw [← hself] at hsteps
        exact not_consistent_handshake_self file call.client hsteps.of_append.of_append
      have hopened := (h.handshake hkey hne).opened_of_streamStep hsteps.last
      rcases (openedByClient_handshake file _ _ _ _).mp hopened with hold | hnew
      · exact ⟨fun _ => hne, Or.inl hold⟩
      · exact ⟨fun _ => hne, Or.inr ⟨hkey, hnew⟩⟩

theorem capture_snoc (calls : List Call) (call : Call) :
    capture (calls ++ [call]) = ((write (capture calls).1 call).1,
      (capture calls).2 ++ (write (capture calls).1 call).2) := by
  simp only [capture, List.foldl_append, List.foldl_cons, List.foldl_nil]

theorem tracks_opened : Tracks opened [] := by
  constructor
  · constructor <;> simp
  · simp

theorem tracks_capture (calls : List Call)
    (h : Backed (fun before call => WellOpened (capture before) call) calls) :
    Tracks (capture calls).1 (capture calls).2 ∧ Consistent (capture calls).2 := by
  induction calls using List.reverseRecOn with
  | nil => exact ⟨tracks_opened, Backed.nil StreamStep⟩
  | append_singleton calls call ih =>
      obtain ⟨htracks, hfile⟩ := ih h.of_append
      rw [capture_snoc]
      exact htracks.written hfile h.last

/-- The streams of a file are in order exactly when every call finds or makes a connection that
the client of the numbering opens. -/
theorem capture_consistent_iff (calls : List Call) :
    Consistent (capture calls).2 ↔
      Backed (fun before call => WellOpened (capture before) call) calls := by
  constructor
  · intro h
    induction calls using List.reverseRecOn with
    | nil => exact Backed.nil _
    | append_singleton calls call ih =>
        rw [capture_snoc] at h
        have hbefore := ih h.of_append
        exact hbefore.snoc ((tracks_capture calls hbefore).1.wellOpened h)
  · intro h
    exact (tracks_capture calls h).2

/-- The HSS speaks first: its SYN takes 1000 and its first message 2001. -/
theorem hss_speaks_first :
    ¬ Consistent (capture [.diameter .authInfo .s6a true ⟨IP_HSS, 3868⟩ ⟨IP_MME, 3868⟩
      [1, 2, 3, 4] 1 2]).2 := by
  intro hfile
  have hstep := (hfile [synOf ⟨IP_HSS, 3868⟩ ⟨IP_MME, 3868⟩, synAckOf ⟨IP_HSS, 3868⟩ ⟨IP_MME, 3868⟩,
    ackOf ⟨IP_HSS, 3868⟩ ⟨IP_MME, 3868⟩] _ [] rfl).1
  exact absurd hstep (by decide)

end MobileCore.CaptureStreams
