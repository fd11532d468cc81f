import Mathlib.Data.List.Forall2
import MobileCore.SipFrames

/-!
# The IMS with payloads on its links

The nodes as they are: each reads the fields that it looks for and passes the payload itself on.
A send puts a whole payload on a link; `PayloadUplink` has the connection that the phones' threads
share byte by byte.
-/

namespace MobileCore.SipLinks

open CppText LabelledRuns LastWrite SipFrames SipPhones TlvMessages
open CallSessionControl (CallState Input ScscfNode cfgOf conferenceInvite invokeMtas nonEmptyOr
  notifiesCallee setCall)

abbrev Payload := List UInt8

/-- What a node sends: a payload as it came, a message of its own, or the S-CSCF's request to the
HSS, which takes a number too. -/
inductive Sent where
  | forward (payload : Payload)
  | frame (msg : SipMessage) (order : List SipTag)
  | sar (impu impi : Str)

/-- The payloads of what a node sends on its SIP link, its own numbered from `seq` on. -/
def payloads (seq : UInt32) : List Sent → List Payload
  | [] => []
  | .forward payload :: rest => payload :: payloads seq rest
  | .frame msg order :: rest => (write msg order seq).udpPayload :: payloads (seq + 1) rest
  | .sar _ _ :: rest => payloads (seq + 1) rest

def Sent.numbered : Sent → Bool
  | .forward _ => false
  | _ => true

/-- The thread of a phone's connection keeps what it read of the payload. -/
inductive UeThread where
  | receiving
  | forwarding (payload : Payload) (msg : SipMessage)
  | cleaningUp (callId : Str)

structure UeSession where
  impu : Str := []
  ip : Str := []
  registered : Bool := false
  thread : UeThread := .receiving

inductive ScscfThread where
  | receiving
  | notifying (target : Str) (payload : Payload) (msg : SipMessage)

structure PcscfNode where
  ueByImpu : Table Str Nat := ∅
  callToCaller : Table Str Str := ∅
  callToCallee : Table Str Str := ∅
  callInviteDelivered : Finset Str := ∅
  scscfThread : ScscfThread := .receiving
  nextSeq : UInt32 := 1

structure Conn where
  ue : Ue := {}
  uplink : List Payload := []
  downlink : List Payload := []
  session : UeSession := {}

structure State where
  conns : Nat → Conn := fun _ => {}
  pcscf : PcscfNode := {}
  toScscf : List Payload := []
  toPcscf : List Payload := []
  scscf : ScscfNode := {}
  scscfSeq : UInt32 := 1

/-- `wrote` is a message that a node puts into a frame of its own. -/
inductive Event where
  | registered (impu : Str)
  | callerMapped (callId caller : Str)
  | callerErased (callId : Str)
  | delivered (n : Nat) (payload : Payload)
  | undelivered (target : Str) (payload : Payload)
  | wrote (msg : SipMessage) (order : List SipTag)

def wrote : List Sent → List Event
  | [] => []
  | .frame msg order :: rest => .wrote msg order :: wrote rest
  | _ :: rest => wrote rest

def State.modify (s : State) (n : Nat) (f : Conn → Conn) : State :=
  { s with conns := Function.update s.conns n (f (s.conns n)) }

theorem State.modify_conns (s : State) (n : Nat) (f : Conn → Conn) (m : Nat) :
    (s.modify n f).conns m = if m = n then f (s.conns n) else s.conns m :=
  Function.update_apply ..

section Pcscf

/-- The critical section in which a phone's thread handles what it read. -/
def handleFromUe (s : State) (n : Nat) (msg : SipMessage) : State × List Event :=
  match msg.type with
  | .register =>
    let s := s.modify n fun c =>
      { c with session := { c.session with impu := msg.impu, ip := msg.contact } }
    ({ s with pcscf := { s.pcscf with ueByImpu := s.pcscf.ueByImpu.insert msg.impu n } },
      [.registered msg.impu])
  | .invite =>
    let callerImpu := nonEmptyOr msg.sipFrom (s.conns n).session.impu
    ({ s with
        pcscf := { s.pcscf with
          callToCaller := s.pcscf.callToCaller.insert msg.callId callerImpu
          callToCallee := s.pcscf.callToCallee.insert msg.callId msg.sipTo } },
      [.callerMapped msg.callId callerImpu])
  | _ => (s, [])

def cleanUp (p : PcscfNode) (callId : Str) : PcscfNode :=
  { p with
    callToCaller := p.callToCaller.erase callId
    callToCallee := p.callToCallee.erase callId
    callInviteDelivered := p.callInviteDelivered.erase callId }

def sendToUe (s : State) (impu : Str) (payload : Payload) : State × List Event :=
  match s.pcscf.ueByImpu.lookup impu with
  | some n =>
    (s.modify n fun c => { c with downlink := c.downlink ++ [payload] }, [.delivered n payload])
  | none => (s, [.undelivered impu payload])

/-- A payload without a target is dropped. -/
def deliver (s : State) (target : Str) (payload : Payload) : State × List Event :=
  if target = [] then (s, [.undelivered target payload]) else sendToUe s target payload

def callerOf (p : PcscfNode) (callId : Str) : Str := (p.callToCaller.lookup callId).getD []

def calleeOf (p : PcscfNode) (callId : Str) : Str := (p.callToCallee.lookup callId).getD []

def enterInvite (p : PcscfNode) (msg : SipMessage) : PcscfNode × List Event :=
  let p := { p with callInviteDelivered := insert msg.callId p.callInviteDelivered }
  let callee (p : PcscfNode) : PcscfNode :=
    if p.callToCallee.lookup msg.callId = none ∧ msg.sipTo ≠ [] then
      { p with callToCallee := p.callToCallee.insert msg.callId msg.sipTo }
    else p
  if p.callToCaller.lookup msg.callId = none ∧ msg.sipFrom ≠ [] then
    (callee { p with callToCaller := p.callToCaller.insert msg.callId msg.sipFrom },
      [.callerMapped msg.callId msg.sipFrom])
  else (callee p, [])

def ring (msg : SipMessage) : SipMessage :=
  { type := .ringing180, callId := msg.callId, sipFrom := msg.sipFrom, sipTo := msg.sipTo,
    reason := lit "INVITE" }

def routeInvite (s : State) (payload : Payload) (msg : SipMessage) : State × List Event :=
  if msg.callId ∈ s.pcscf.callInviteDelivered then sendToUe s msg.sipTo payload
  else
    let (p, entered) := enterInvite s.pcscf msg
    let (s₁, toCallee) := sendToUe { s with pcscf := p } msg.sipTo payload
    let seq := s₁.pcscf.nextSeq
    let s₁ := { s₁ with pcscf := { s₁.pcscf with nextSeq := seq + 1 } }
    let (s₂, toCaller) := sendToUe s₁ msg.sipFrom (write (ring msg) ringOrder seq).udpPayload
    (s₂, entered ++ (toCallee ++ (.wrote (ring msg) ringOrder :: toCaller)))

def route200Ok (s : State) (payload : Payload) (msg : SipMessage) : State × List Event :=
  if msg.reason = lit "REGISTER" then
    let target := nonEmptyOr msg.sipFrom msg.sipTo
    let s := match s.pcscf.ueByImpu.lookup target with
      | some n => s.modify n fun c => { c with session := { c.session with registered := true } }
      | none => s
    deliver s target payload
  else
    let target := nonEmptyOr (callerOf s.pcscf msg.callId) msg.sipFrom
    if notifiesCallee msg.reason then
      ({ s with pcscf := { s.pcscf with scscfThread := .notifying target payload msg } }, [])
    else deliver s target payload

def handleFromScscf (s : State) (payload : Payload) (msg : SipMessage) : State × List Event :=
  match msg.type with
  | .invite => routeInvite s payload msg
  | .trying100 | .progress183 | .ringing180 =>
    deliver s (nonEmptyOr (callerOf s.pcscf msg.callId) msg.sipFrom) payload
  | .ok200 => route200Ok s payload msg
  | .ack => deliver s (nonEmptyOr (calleeOf s.pcscf msg.callId) msg.sipTo) payload
  | _ =>
    deliver s (nonEmptyOr (callerOf s.pcscf msg.callId) (nonEmptyOr msg.sipFrom msg.sipTo)) payload

def notify (s : State) (target : Str) (payload : Payload) (msg : SipMessage) :
    State × List Event :=
  let s := { s with pcscf := { s.pcscf with scscfThread := .receiving } }
  let (s₁, toCallee) := deliver s (calleeOf s.pcscf msg.callId) payload
  let (s₂, toTarget) := deliver s₁ target payload
  (s₂, toCallee ++ toTarget)

end Pcscf

section Scscf

def sendSipResponse (type : SipMsgType) (callId sipFrom sipTo : Str) (reason : String) : Sent :=
  let msg : SipMessage := { type, callId, sipFrom, sipTo, reason := lit reason }
  .frame msg (responseOrder msg)

def handleRegister (node : ScscfNode) (msg : SipMessage) : ScscfNode × List Sent :=
  ({ node with
      registry := node.registry.insert msg.impu
        { impu := msg.impu, impi := msg.impi, contact := msg.contact, registered := true } },
    [.sar msg.impu msg.impi,
      sendSipResponse .ok200 (lit "reg-" ++ msg.impu) msg.impu msg.impu "REGISTER"])

/-- `toImpu` is the first To of the payload. -/
def handleReInvite (node : ScscfNode) (cs : CallState) (payload : Payload) (msg : SipMessage)
    (toImpu : Str) : ScscfNode × List Sent :=
  let answer := sendSipResponse .ok200 msg.callId cs.callerImpu cs.calleeImpu
  if contains msg.sdp "inactive" || contains msg.sdp "sendonly" then
    (setCall node { cs with onHold := true } msg.callId,
      [.forward payload, answer "re-INVITE-HOLD"])
  else if contains msg.sdp "conf" then
    (setCall node { cs with inConference := true } msg.callId,
      (if toImpu = [] then []
        else [.frame (conferenceInvite cs { msg with sipTo := toImpu }) conferenceOrder]) ++
        [answer "CONFERENCE"])
  else if contains msg.sdp "video" && contains msg.sdp "H264" then
    (node, [.forward payload,
      answer (if contains msg.sdp "port=0" then "VIDEO-REMOVE" else "VIDEO-ADD")])
  else
    (setCall node { cs with onHold := false } msg.callId,
      [.forward payload, answer "re-INVITE-RESUME"])

def handleInvite (node : ScscfNode) (payload : Payload) (msg : SipMessage) :
    Option (ScscfNode × List Sent) :=
  match node.calls.lookup msg.callId with
  | some cs =>
    (readFirst .sipTo (MessageReader.create payload).toCursor).map
      (handleReInvite node cs payload msg)
  | none =>
    let response type := sendSipResponse type msg.callId msg.sipFrom msg.sipTo
    if invokeMtas node msg.sipTo then
      some (setCall node ⟨msg.sipFrom, msg.sipTo, msg.callId, false, false⟩ msg.callId,
        [response .trying100 "INVITE", .forward payload, response .progress183 "INVITE"])
    else some (node, [response .trying100 "INVITE", response .ok200 "BARRED"])

def forwardKnown (node : ScscfNode) (payload : Payload) (callId : Str) : List Sent :=
  if (node.calls.lookup callId).isSome then [.forward payload] else []

def handleAck (node : ScscfNode) (payload : Payload) : Option (ScscfNode × List Sent) :=
  (readFirst .callId (MessageReader.create payload).toCursor).map fun callId =>
    (node, forwardKnown node payload callId)

def handleBye (node : ScscfNode) (payload : Payload) (msg : SipMessage) : ScscfNode × List Sent :=
  ({ node with calls := node.calls.erase msg.callId },
    [sendSipResponse .ok200 msg.callId msg.sipFrom [] "BYE", .forward payload])

def handleUpdate (node : ScscfNode) (payload : Payload) (msg : SipMessage) :
    ScscfNode × List Sent :=
  (node, forwardKnown node payload msg.callId ++
    [sendSipResponse .ok200 msg.callId msg.sipFrom [] "UPDATE"])

/-- `none` where a read throws and the thread ends. -/
def scscfHandle (node : ScscfNode) (payload : Payload) : Option (ScscfNode × List Sent) :=
  match typeOfCode (MessageReader.create payload).msgType with
  | some .register => (Handler.scscfRegister.read payload).map (handleRegister node)
  | some .invite => (Handler.scscfInvite.read payload).bind (handleInvite node payload)
  | some .ack => handleAck node payload
  | some .ok200 => (Handler.scscf200Ok.read payload).map fun _ => (node, [.forward payload])
  | some .bye => (Handler.scscfBye.read payload).map (handleBye node payload)
  | some .cancel => (Handler.scscfUpdate.read payload).map (handleUpdate node payload)
  | _ => some (node, [])

end Scscf

section Steps

variable (label : Nat → UeLabel)

/-- What a phone does, the fields of its messages in the order in which it writes them. -/
def phoneStep (s : State) (n : Nat) (out : Outcome) (order : List SipTag) : State × List Event :=
  let outs := out.2.map fun msg => Sent.frame msg order
  (s.modify n fun c => { c with ue := out.1, uplink := c.uplink ++ payloads c.ue.nextSeq outs },
    wrote outs)

def setThread (s : State) (n : Nat) (thread : UeThread) : State :=
  s.modify n fun c => { c with session := { c.session with thread := thread } }

def step : Machine State Input Event
  | s, .command n cmd =>
    some (phoneStep s n (processCommand (cfgOf label n) (s.conns n).ue cmd) (commandOrder cmd))
  | s, .ueReceive n =>
    match (s.conns n).downlink with
    | payload :: rest =>
      (Handler.ueIncoming.read payload).map fun msg =>
        phoneStep (s.modify n fun c => { c with downlink := rest }) n
          (handleIncoming (cfgOf label n) (s.conns n).ue msg) ackOrder
    | [] => none
  | s, .pcscfRead n =>
    match (s.conns n).session.thread, (s.conns n).uplink with
    | .receiving, payload :: rest =>
      (Handler.pcscfFromUe.read payload).map fun msg =>
        let s := s.modify n fun c => { c with uplink := rest }
        handleFromUe (setThread s n (.forwarding payload msg)) n msg
    | _, _ => none
  | s, .pcscfForward n =>
    match (s.conns n).session.thread with
    | .forwarding payload msg =>
      let thread := if msg.type = .bye then .cleaningUp msg.callId else .receiving
      some (setThread { s with toScscf := s.toScscf ++ [payload] } n thread, [])
    | _ => none
  | s, .pcscfCleanUp n =>
    match (s.conns n).session.thread with
    | .cleaningUp callId =>
      some (setThread { s with pcscf := cleanUp s.pcscf callId } n .receiving,
        [.callerErased callId])
    | _ => none
  | s, .pcscfReceive =>
    match s.pcscf.scscfThread, s.toPcscf with
    | .receiving, payload :: rest =>
      (Handler.pcscfFromScscf.read payload).map (handleFromScscf { s with toPcscf := rest } payload)
    | _, _ => none
  | s, .pcscfNotify =>
    match s.pcscf.scscfThread with
    | .notifying target payload msg => some (notify s target payload msg)
    | .receiving => none
  | s, .scscfReceive =>
    match s.toScscf with
    | payload :: rest =>
      (scscfHandle s.scscf payload).map fun r =>
        ({ s with
            toScscf := rest
            scscf := r.1
            toPcscf := s.toPcscf ++ payloads s.scscfSeq r.2
            scscfSeq := s.scscfSeq + UInt32.ofNat (r.2.countP Sent.numbered) },
          wrote r.2)
    | [] => none
  | s, .setBarred impu true =>
    some ({ s with scscf := { s.scscf with barred := insert impu s.scscf.barred } }, [])
  | s, .setBarred impu false =>
    some ({ s with scscf := { s.scscf with barred := s.scscf.barred.erase impu } }, [])

def init : State := {}

end Steps

end MobileCore.SipLinks
