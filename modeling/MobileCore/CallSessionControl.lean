import Mathlib.Data.Finset.Basic
import MobileCore.LabelledRuns
import MobileCore.LastWrite
import MobileCore.SipPhones

/-!
# The P-CSCF and the S-CSCF

At the P-CSCF each phone's connection has a thread of its own and one more thread reads from the
S-CSCF; a critical section and a send of a phone's thread are separate steps. The S-CSCF is one
thread. Every link keeps its order, and a send puts a whole message on it; on the connection to the
S-CSCF, which the phones' threads share without a lock, `SharedUplink` writes it byte by byte.
-/

namespace MobileCore.CallSessionControl

open MobileCore.LabelledRuns
open MobileCore.LastWrite
open MobileCore.CppText
open MobileCore.SipPhones

/-- What the thread of a phone's connection has still to do for the message it read. -/
inductive UeThread where
  | receiving
  | forwarding (msg : SipMessage)
  | cleaningUp (callId : Str)
deriving DecidableEq

structure UeSession where
  impu : Str := []
  ip : Str := []
  registered : Bool := false
  thread : UeThread := .receiving

/-- The thread that reads from the S-CSCF looks the callee up after the caller. -/
inductive ScscfThread where
  | receiving
  | notifying (target : Str) (msg : SipMessage)
deriving DecidableEq

structure PcscfNode where
  ueByImpu : Table Str Nat := ∅
  callToCaller : Table Str Str := ∅
  callToCallee : Table Str Str := ∅
  callInviteDelivered : Finset Str := ∅
  scscfThread : ScscfThread := .receiving

structure ImsSubscriber where
  impu : Str
  impi : Str
  contact : Str
  scscfName : Str := []
  registered : Bool := false

structure CallState where
  callerImpu : Str
  calleeImpu : Str
  callId : Str
  onHold : Bool
  inConference : Bool

/-- `barred` is the state of the MTAS. -/
structure ScscfNode where
  registry : Table Str ImsSubscriber := ∅
  calls : Table Str CallState := ∅
  barred : Finset Str := ∅

structure Conn where
  ue : Ue := {}
  uplink : List SipMessage := []
  downlink : List SipMessage := []
  session : UeSession := {}

structure State where
  conns : Nat → Conn := fun _ => {}
  pcscf : PcscfNode := {}
  toScscf : List SipMessage := []
  toPcscf : List SipMessage := []
  scscf : ScscfNode := {}

inductive Input where
  | command (n : Nat) (cmd : Command)
  | ueReceive (n : Nat)
  | pcscfRead (n : Nat)
  | pcscfForward (n : Nat)
  | pcscfCleanUp (n : Nat)
  | pcscfReceive
  | pcscfNotify
  | scscfReceive
  | setBarred (impu : Str) (barred : Bool)

/-- `callerMapped` and `callerErased` are the changes of `call_to_caller_`. -/
inductive Event where
  | registered (impu : Str)
  | callerMapped (callId caller : Str)
  | callerErased (callId : Str)
  | delivered (n : Nat) (msg : SipMessage)
  | undelivered (target : Str) (msg : SipMessage)
deriving DecidableEq

def State.modify (s : State) (n : Nat) (f : Conn → Conn) : State :=
  { s with conns := Function.update s.conns n (f (s.conns n)) }

def nonEmptyOr (text fallback : Str) : Str := if text = [] then fallback else text

section Pcscf

/-- The critical section in which a phone's thread handles a message. -/
def handleFromUe (s : State) (n : Nat) (msg : SipMessage) : State × List Event :=
  match msg.type with
  | .register =>
    let s := s.modify n fun c =>
      { c with session := { c.session with impu := msg.impu, ip := msg.contact } }
    ({ s with pcscf := { s.pcscf with ueByImpu := s.pcscf.ueByImpu.insert msg.impu n } },
      [.registered msg.impu])
  | .invite =>
    let callerImpu := nonEmptyOr msg.sipFrom (s.conns n).session.impu
    ({ s with
        pcscf := { s.pcscf with
          callToCaller := s.pcscf.callToCaller.insert msg.callId callerImpu
          callToCallee := s.pcscf.callToCallee.insert msg.callId msg.sipTo } },
      [.callerMapped msg.callId callerImpu])
  | _ => (s, [])

def cleanUp (p : PcscfNode) (callId : Str) : PcscfNode :=
  { p with
    callToCaller := p.callToCaller.erase callId
    callToCallee := p.callToCallee.erase callId
    callInviteDelivered := p.callInviteDelivered.erase callId }

def sendToUe (s : State) (impu : Str) (msg : SipMessage) : State × List Event :=
  match s.pcscf.ueByImpu.lookup impu with
  | some n => (s.modify n fun c => { c with downlink := c.downlink ++ [msg] }, [.delivered n msg])
  | none => (s, [.undelivered impu msg])

/-- A message without a target is dropped. -/
def deliver (s : State) (target : Str) (msg : SipMessage) : State × List Event :=
  if target = [] then (s, [.undelivered target msg]) else sendToUe s target msg

def callerOf (p : PcscfNode) (callId : Str) : Str := (p.callToCaller.lookup callId).getD []

def calleeOf (p : PcscfNode) (callId : Str) : Str := (p.callToCallee.lookup callId).getD []

/-- An initial INVITE is entered where no phone's INVITE has entered the Call-ID. -/
def enterInvite (p : PcscfNode) (msg : SipMessage) : PcscfNode × List Event :=
  let p := { p with callInviteDelivered := insert msg.callId p.callInviteDelivered }
  let callee (p : PcscfNode) : PcscfNode :=
    if p.callToCallee.lookup msg.callId = none ∧ msg.sipTo ≠ [] then
      { p with callToCallee := p.callToCallee.insert msg.callId msg.sipTo }
    else p
  if p.callToCaller.lookup msg.callId = none ∧ msg.sipFrom ≠ [] then
    (callee { p with callToCaller := p.callToCaller.insert msg.callId msg.sipFrom },
      [.callerMapped msg.callId msg.sipFrom])
  else (callee p, [])

def ring (msg : SipMessage) : SipMessage :=
  { type := .ringing180, callId := msg.callId, sipFrom := msg.sipFrom, sipTo := msg.sipTo,
    reason := lit "INVITE", origin := msg.origin }

def routeInvite (s : State) (msg : SipMessage) : State × List Event :=
  if msg.callId ∈ s.pcscf.callInviteDelivered then sendToUe s msg.sipTo msg
  else
    let (p, entered) := enterInvite s.pcscf msg
    let (s₁, toCallee) := sendToUe { s with pcscf := p } msg.sipTo msg
    let (s₂, toCaller) := sendToUe s₁ msg.sipFrom (ring msg)
    (s₂, entered ++ (toCallee ++ toCaller))

/-- The answers that the callee hears of too. -/
def notifiesCallee (reason : Str) : Bool :=
  reason = lit "re-INVITE-HOLD" || reason = lit "re-INVITE-RESUME" ||
    reason = lit "VIDEO-ADD" || reason = lit "VIDEO-REMOVE"

def route200Ok (s : State) (msg : SipMessage) : State × List Event :=
  if msg.reason = lit "REGISTER" then
    let target := nonEmptyOr msg.sipFrom msg.sipTo
    let s := match s.pcscf.ueByImpu.lookup target with
      | some n => s.modify n fun c => { c with session := { c.session with registered := true } }
      | none => s
    deliver s target msg
  else
    let target := nonEmptyOr (callerOf s.pcscf msg.callId) msg.sipFrom
    if notifiesCallee msg.reason then
      ({ s with pcscf := { s.pcscf with scscfThread := .notifying target msg } }, [])
    else deliver s target msg

def handleFromScscf (s : State) (msg : SipMessage) : State × List Event :=
  match msg.type with
  | .invite => routeInvite s msg
  | .trying100 | .progress183 | .ringing180 =>
    deliver s (nonEmptyOr (callerOf s.pcscf msg.callId) msg.sipFrom) msg
  | .ok200 => route200Ok s msg
  | .ack => deliver s (nonEmptyOr (calleeOf s.pcscf msg.callId) msg.sipTo) msg
  | _ =>
    deliver s
      (nonEmptyOr (callerOf s.pcscf msg.callId) (nonEmptyOr msg.sipFrom msg.sipTo)) msg

def notify (s : State) (target : Str) (msg : SipMessage) : State × List Event :=
  let s := { s with pcscf := { s.pcscf with scscfThread := .receiving } }
  let (s₁, toCallee) := deliver s (calleeOf s.pcscf msg.callId) msg
  let (s₂, toTarget) := deliver s₁ target msg
  (s₂, toCallee ++ toTarget)

end Pcscf

section Scscf

def sendSipResponse (req : SipMessage) (type : SipMsgType) (callId sipFrom sipTo : Str)
    (reason : String) : SipMessage :=
  { type, callId, sipFrom, sipTo, reason := lit reason, origin := req.origin }

def handleRegister (node : ScscfNode) (msg : SipMessage) : ScscfNode × List SipMessage :=
  let sub : ImsSubscriber :=
    { impu := msg.impu, impi := msg.impi, contact := msg.contact, registered := true }
  ({ node with registry := node.registry.insert msg.impu sub },
    [sendSipResponse msg .ok200 (lit "reg-" ++ msg.impu) msg.impu msg.impu "REGISTER"])

def setCall (node : ScscfNode) (cs : CallState) (callId : Str) : ScscfNode :=
  { node with calls := node.calls.insert callId cs }

def conferenceInvite (cs : CallState) (msg : SipMessage) : SipMessage :=
  { type := .invite, sipFrom := cs.callerImpu, sipTo := msg.sipTo,
    callId := msg.callId ++ lit "-conf",
    sdp := lit "audio:50000/AMR-WB/16000;conf;a=sendrecv", origin := msg.origin }

def handleReInvite (node : ScscfNode) (cs : CallState) (msg : SipMessage) :
    ScscfNode × List SipMessage :=
  let answer := sendSipResponse msg .ok200 msg.callId cs.callerImpu cs.calleeImpu
  if contains msg.sdp "inactive" || contains msg.sdp "sendonly" then
    (setCall node { cs with onHold := true } msg.callId, [msg, answer "re-INVITE-HOLD"])
  else if contains msg.sdp "conf" then
    (setCall node { cs with inConference := true } msg.callId,
      (if msg.sipTo = [] then [] else [conferenceInvite cs msg]) ++ [answer "CONFERENCE"])
  else if contains msg.sdp "video" && contains msg.sdp "H264" then
    (node, [msg, answer (if contains msg.sdp "port=0" then "VIDEO-REMOVE" else "VIDEO-ADD")])
  else (setCall node { cs with onHold := false } msg.callId, [msg, answer "re-INVITE-RESUME"])

/-- Of the MTAS services only the barring of the callee can refuse a call. -/
def invokeMtas (node : ScscfNode) (callee : Str) : Bool := callee ∉ node.barred

def handleInvite (node : ScscfNode) (msg : SipMessage) : ScscfNode × List SipMessage :=
  match node.calls.lookup msg.callId with
  | some cs => handleReInvite node cs msg
  | none =>
    let response type := sendSipResponse msg type msg.callId msg.sipFrom msg.sipTo
    if invokeMtas node msg.sipTo then
      (setCall node ⟨msg.sipFrom, msg.sipTo, msg.callId, false, false⟩ msg.callId,
        [response .trying100 "INVITE", msg, response .progress183 "INVITE"])
    else (node, [response .trying100 "INVITE", response .ok200 "BARRED"])

def forwardKnown (node : ScscfNode) (msg : SipMessage) : List SipMessage :=
  if (node.calls.lookup msg.callId).isSome then [msg] else []

/-- The answer is addressed to the From of the BYE. -/
def handleBye (node : ScscfNode) (msg : SipMessage) : ScscfNode × List SipMessage :=
  ({ node with calls := node.calls.erase msg.callId },
    [sendSipResponse msg .ok200 msg.callId msg.sipFrom [] "BYE", msg])

def handleUpdate (node : ScscfNode) (msg : SipMessage) : ScscfNode × List SipMessage :=
  (node, forwardKnown node msg ++ [sendSipResponse msg .ok200 msg.callId msg.sipFrom [] "UPDATE"])

def storedParties (node : ScscfNode) (callId : Str) : Option (Str × Str) :=
  (node.calls.lookup callId).map fun cs => (cs.callerImpu, cs.calleeImpu)

def scscfHandle (node : ScscfNode) (msg : SipMessage) : ScscfNode × List SipMessage :=
  match msg.type with
  | .register => handleRegister node msg
  | .invite => handleInvite node msg
  | .ack => (node, forwardKnown node msg)
  | .ok200 => (node, [msg])
  | .bye => handleBye node msg
  | .cancel => handleUpdate node msg
  | _ => (node, [])

end Scscf

section Steps

variable (label : Nat → UeLabel)

def cfgOf (n : Nat) : UeConfig := ueConfigs (label n)

def phoneStep (s : State) (n : Nat) (out : Outcome) : State :=
  s.modify n fun c =>
    { c with ue := out.1, uplink := c.uplink ++ out.2.map fun msg => { msg with origin := n } }

def setThread (s : State) (n : Nat) (thread : UeThread) : State :=
  s.modify n fun c => { c with session := { c.session with thread := thread } }

def step : Machine State Input Event
  | s, .command n cmd =>
    some (phoneStep s n (processCommand (cfgOf label n) (s.conns n).ue cmd), [])
  | s, .ueReceive n =>
    match (s.conns n).downlink with
    | msg :: rest =>
      let s := s.modify n fun c => { c with downlink := rest }
      some (phoneStep s n (handleIncoming (cfgOf label n) (s.conns n).ue msg), [])
    | [] => none
  | s, .pcscfRead n =>
    match (s.conns n).session.thread, (s.conns n).uplink with
    | .receiving, msg :: rest =>
      let s := s.modify n fun c => { c with uplink := rest }
      some (handleFromUe (setThread s n (.forwarding msg)) n msg)
    | _, _ => none
  | s, .pcscfForward n =>
    match (s.conns n).session.thread with
    | .forwarding msg =>
      let thread := if msg.type = .bye then .cleaningUp msg.callId else .receiving
      some (setThread { s with toScscf := s.toScscf ++ [msg] } n thread, [])
    | _ => none
  | s, .pcscfCleanUp n =>
    match (s.conns n).session.thread with
    | .cleaningUp callId =>
      some (setThread { s with pcscf := cleanUp s.pcscf callId } n .receiving,
        [.callerErased callId])
    | _ => none
  | s, .pcscfReceive =>
    match s.pcscf.scscfThread, s.toPcscf with
    | .receiving, msg :: rest => some (handleFromScscf { s with toPcscf := rest } msg)
    | _, _ => none
  | s, .pcscfNotify =>
    match s.pcscf.scscfThread with
    | .notifying target msg => some (notify s target msg)
    | .receiving => none
  | s, .scscfReceive =>
    match s.toScscf with
    | msg :: rest =>
      let (node, out) := scscfHandle s.scscf msg
      some ({ s with toScscf := rest, scscf := node, toPcscf := s.toPcscf ++ out }, [])
    | [] => none
  | s, .setBarred impu true =>
    some ({ s with scscf := { s.scscf with barred := insert impu s.scscf.barred } }, [])
  | s, .setBarred impu false =>
    some ({ s with scscf := { s.scscf with barred := s.scscf.barred.erase impu } }, [])

def init : State := {}

end Steps

section Schedules

def threePhones (n : Nat) : UeLabel := if n = 0 then .a else if n = 1 then .b else .c

/-- A command whose message reaches the S-CSCF and is handled there. -/
def signalled (n : Nat) (cmd : Command) : List Input :=
  [.command n cmd, .pcscfRead n, .pcscfForward n, .scscfReceive]

def registration (n : Nat) : List Input := signalled n .register ++ [.pcscfReceive, .ueReceive n]

/-- A text that may stand behind the literal. The letters follow each other, so that each finds a
tail of what the one before it finds. -/
def behind : UeLabel → Str
  | .a => lit "ging"
  | .b => lit "ing"
  | .c => lit "ng"

def callSetup : List Input :=
  signalled 0 (.call (lit "B") (behind .a)) ++
    [.pcscfReceive, .pcscfReceive, .pcscfReceive, .ueReceive 1] ++
    signalled 1 .accept ++
    [.pcscfReceive, .ueReceive 0, .ueReceive 0, .ueReceive 0, .ueReceive 0,
      .pcscfRead 0, .pcscfForward 0, .scscfReceive, .pcscfReceive, .ueReceive 1]

def establishedCall : List Input := registration 0 ++ registration 1 ++ callSetup

def callAB : Str := behind .a ++ lit "B-2"

end Schedules

section Frames

theorem scscfHandle_registry (node : ScscfNode) (msg : SipMessage) :
    (scscfHandle node msg).1.registry =
      if msg.type = .register then
        node.registry.insert msg.impu
          { impu := msg.impu, impi := msg.impi, contact := msg.contact, registered := true }
      else node.registry := by
  have hreInvite (cs : CallState) : (handleReInvite node cs msg).1.registry = node.registry := by
    unfold handleReInvite
    dsimp only
    split
    · rfl
    split
    · rfl
    split <;> rfl
  cases htype : msg.type with
  | invite =>
      rw [scscfHandle, htype, if_neg (by simp)]
      dsimp only
      rw [handleInvite]
      split
      · exact hreInvite _
      · dsimp only
        split <;> rfl
  | _ => simp [scscfHandle, htype, handleRegister, handleBye, handleUpdate]

theorem State.modify_conns (s : State) (n m : Nat) (f : Conn → Conn) :
    (s.modify n f).conns m = if m = n then f (s.conns n) else s.conns m :=
  Function.update_apply s.conns n _ m

theorem modify_modify (s : State) (n : Nat) (f g : Conn → Conn) :
    (s.modify n f).modify n g = s.modify n fun c => g (f c) := by
  simp [State.modify]

theorem setThread_conns (s : State) (n : Nat) (thread : UeThread) (m : Nat) :
    ((setThread s n thread).conns m).ue = (s.conns m).ue ∧
      ((setThread s n thread).conns m).uplink = (s.conns m).uplink ∧
      ((setThread s n thread).conns m).downlink = (s.conns m).downlink := by
  rw [setThread, State.modify_conns]
  split
  · rename_i hm
    rw [hm]
    exact ⟨rfl, rfl, rfl⟩
  · exact ⟨rfl, rfl, rfl⟩

/-- The P-CSCF's tables for phones and calls may have changed, and a session's identity. -/
structure Enters (s s' : State) : Prop where
  toScscf : s'.toScscf = s.toScscf
  toPcscf : s'.toPcscf = s.toPcscf
  scscf : s'.scscf = s.scscf
  delivered : s'.pcscf.callInviteDelivered = s.pcscf.callInviteDelivered
  scscfThread : s'.pcscf.scscfThread = s.pcscf.scscfThread
  ue : ∀ n, (s'.conns n).ue = (s.conns n).ue
  uplink : ∀ n, (s'.conns n).uplink = (s.conns n).uplink
  downlink : ∀ n, (s'.conns n).downlink = (s.conns n).downlink
  thread : ∀ n, (s'.conns n).session.thread = (s.conns n).session.thread

theorem handleFromUe_enters (s : State) (n : Nat) (msg : SipMessage) :
    Enters s (handleFromUe s n msg).1 := by
  unfold handleFromUe
  split
  · have hconn (m : Nat) := s.modify_conns n m fun c =>
      { c with session := { c.session with impu := msg.impu, ip := msg.contact } }
    refine ⟨rfl, rfl, rfl, rfl, rfl, fun m => ?_, fun m => ?_, fun m => ?_, fun m => ?_⟩ <;>
      dsimp only <;> rw [hconn] <;> split <;> rename_i hm
    · rw [hm]
    · rfl
    · rw [hm]
    · rfl
    · rw [hm]
    · rfl
    · rw [hm]
    · rfl
  · exact ⟨rfl, rfl, rfl, rfl, rfl, fun _ => rfl, fun _ => rfl, fun _ => rfl, fun _ => rfl⟩
  · exact ⟨rfl, rfl, rfl, rfl, rfl, fun _ => rfl, fun _ => rfl, fun _ => rfl, fun _ => rfl⟩

/-- Only links to registered phones have grown. -/
structure Delivers (s s' : State) : Prop where
  pcscf : s'.pcscf = s.pcscf
  toScscf : s'.toScscf = s.toScscf
  toPcscf : s'.toPcscf = s.toPcscf
  scscf : s'.scscf = s.scscf
  ue : ∀ n, (s'.conns n).ue = (s.conns n).ue
  uplink : ∀ n, (s'.conns n).uplink = (s.conns n).uplink
  thread : ∀ n, (s'.conns n).session.thread = (s.conns n).session.thread
  downlink : ∀ n, (s'.conns n).downlink = (s.conns n).downlink ∨
    ∃ impu, s.pcscf.ueByImpu.lookup impu = some n

theorem Delivers.refl (s : State) : Delivers s s :=
  ⟨rfl, rfl, rfl, rfl, fun _ => rfl, fun _ => rfl, fun _ => rfl, fun _ => Or.inl rfl⟩

theorem Delivers.trans {s₁ s₂ s₃ : State} (h₁ : Delivers s₁ s₂) (h₂ : Delivers s₂ s₃) :
    Delivers s₁ s₃ where
  pcscf := h₂.pcscf.trans h₁.pcscf
  toScscf := h₂.toScscf.trans h₁.toScscf
  toPcscf := h₂.toPcscf.trans h₁.toPcscf
  scscf := h₂.scscf.trans h₁.scscf
  ue n := (h₂.ue n).trans (h₁.ue n)
  uplink n := (h₂.uplink n).trans (h₁.uplink n)
  thread n := (h₂.thread n).trans (h₁.thread n)
  downlink n := by
    rcases h₂.downlink n with hsame | hknown
    · rw [hsame]
      exact h₁.downlink n
    · rw [h₁.pcscf] at hknown
      exact Or.inr hknown

theorem delivers_modify (s : State) (n : Nat) (f : Conn → Conn)
    (hue : (f (s.conns n)).ue = (s.conns n).ue)
    (huplink : (f (s.conns n)).uplink = (s.conns n).uplink)
    (hthread : (f (s.conns n)).session.thread = (s.conns n).session.thread)
    (hdownlink : (f (s.conns n)).downlink = (s.conns n).downlink ∨
      ∃ impu, s.pcscf.ueByImpu.lookup impu = some n) : Delivers s (s.modify n f) := by
  have hconns := fun m => s.modify_conns n m f
  refine ⟨rfl, rfl, rfl, rfl, fun m => ?_, fun m => ?_, fun m => ?_, fun m => ?_⟩ <;>
    rw [hconns m] <;> split <;> rename_i hm
  · rw [hue, hm]
  · rfl
  · rw [huplink, hm]
  · rfl
  · rw [hthread, hm]
  · rfl
  · rw [hm]
    exact hdownlink
  · exact Or.inl rfl

theorem sendToUe_delivers (s : State) (impu : Str) (msg : SipMessage) :
    Delivers s (sendToUe s impu msg).1 := by
  unfold sendToUe
  split
  · rename_i n hknown
    exact delivers_modify s n (fun c => { c with downlink := c.downlink ++ [msg] }) rfl rfl rfl
      (Or.inr ⟨impu, hknown⟩)
  · exact Delivers.refl s

theorem deliver_delivers (s : State) (target : Str) (msg : SipMessage) :
    Delivers s (deliver s target msg).1 := by
  unfold deliver
  split
  · exact Delivers.refl s
  · exact sendToUe_delivers s target msg

/-- What the thread that reads from the S-CSCF changes at the P-CSCF. -/
inductive RxSection (p : PcscfNode) (msg : SipMessage) : PcscfNode → Prop
  | unchanged : RxSection p msg p
  | entered : msg.type = .invite → msg.callId ∉ p.callInviteDelivered →
      RxSection p msg (enterInvite p msg).1
  | answered (target : Str) : msg.type = .ok200 → notifiesCallee msg.reason = true →
      RxSection p msg { p with scscfThread := .notifying target msg }

theorem routeInvite_delivers (s : State) (msg : SipMessage) (htype : msg.type = .invite) :
    ∃ p, RxSection s.pcscf msg p ∧ Delivers { s with pcscf := p } (routeInvite s msg).1 := by
  unfold routeInvite
  split
  · exact ⟨s.pcscf, .unchanged, sendToUe_delivers s msg.sipTo msg⟩
  · rename_i hnew
    exact ⟨_, .entered htype hnew,
      (sendToUe_delivers _ msg.sipTo msg).trans (sendToUe_delivers _ msg.sipFrom (ring msg))⟩

theorem route200Ok_delivers (s : State) (msg : SipMessage) (htype : msg.type = .ok200) :
    ∃ p, RxSection s.pcscf msg p ∧ Delivers { s with pcscf := p } (route200Ok s msg).1 := by
  unfold route200Ok
  split
  · refine ⟨s.pcscf, .unchanged, ?_⟩
    dsimp only
    split
    · exact (delivers_modify s _ _ rfl rfl rfl (Or.inl rfl)).trans (deliver_delivers _ _ msg)
    · exact deliver_delivers s _ msg
  · dsimp only
    split
    · rename_i hnotifies
      exact ⟨_, .answered _ htype hnotifies, Delivers.refl _⟩
    · exact ⟨s.pcscf, .unchanged, deliver_delivers s _ msg⟩

theorem handleFromScscf_delivers (s : State) (msg : SipMessage) :
    ∃ p, RxSection s.pcscf msg p ∧ Delivers { s with pcscf := p } (handleFromScscf s msg).1 := by
  unfold handleFromScscf
  split
  · exact routeInvite_delivers s msg (by assumption)
  · exact ⟨s.pcscf, .unchanged, deliver_delivers s _ msg⟩
  · exact ⟨s.pcscf, .unchanged, deliver_delivers s _ msg⟩
  · exact ⟨s.pcscf, .unchanged, deliver_delivers s _ msg⟩
  · exact route200Ok_delivers s msg (by assumption)
  · exact ⟨s.pcscf, .unchanged, deliver_delivers s _ msg⟩
  · exact ⟨s.pcscf, .unchanged, deliver_delivers s _ msg⟩

theorem notify_delivers (s : State) (target : Str) (msg : SipMessage) :
    Delivers { s with pcscf := { s.pcscf with scscfThread := .receiving } }
      (notify s target msg).1 :=
  (deliver_delivers _ _ msg).trans (deliver_delivers _ target msg)

theorem enterInvite_ueByImpu (p : PcscfNode) (msg : SipMessage) :
    (enterInvite p msg).1.ueByImpu = p.ueByImpu := by
  unfold enterInvite
  dsimp only
  split <;> split <;> rfl

theorem enterInvite_scscfThread (p : PcscfNode) (msg : SipMessage) :
    (enterInvite p msg).1.scscfThread = p.scscfThread := by
  unfold enterInvite
  dsimp only
  split <;> split <;> rfl

theorem enterInvite_delivered (p : PcscfNode) (msg : SipMessage) :
    (enterInvite p msg).1.callInviteDelivered = insert msg.callId p.callInviteDelivered := by
  unfold enterInvite
  dsimp only
  split <;> split <;> rfl

theorem RxSection.ueByImpu {p p' : PcscfNode} {msg : SipMessage} (h : RxSection p msg p') :
    p'.ueByImpu = p.ueByImpu := by
  cases h with
  | unchanged => rfl
  | entered _ _ => exact enterInvite_ueByImpu p msg
  | answered target _ _ => rfl

theorem routeInvite_pcscf (s : State) (msg : SipMessage) :
    (routeInvite s msg).1.pcscf =
      if msg.callId ∈ s.pcscf.callInviteDelivered then s.pcscf else (enterInvite s.pcscf msg).1 := by
  rw [routeInvite]
  split
  · exact (sendToUe_delivers s msg.sipTo msg).pcscf
  · exact ((sendToUe_delivers _ msg.sipTo msg).trans
      (sendToUe_delivers _ msg.sipFrom (ring msg))).pcscf

theorem modify_thread (s : State) (n : Nat) (f : Conn → Conn)
    (hf : (f (s.conns n)).session.thread = (s.conns n).session.thread) (m : Nat) :
    ((s.modify n f).conns m).session.thread = (s.conns m).session.thread := by
  rw [State.modify_conns]
  split
  · rename_i hm
    rw [hf, hm]
  · rfl

theorem phoneStep_thread (s : State) (n : Nat) (out : Outcome) (m : Nat) :
    ((phoneStep s n out).conns m).session.thread = (s.conns m).session.thread :=
  modify_thread s n
    (fun c => { c with ue := out.1, uplink := c.uplink ++ out.2.map fun msg => { msg with origin := n } })
    rfl m

theorem setThread_thread (s : State) (n : Nat) (thread : UeThread) (m : Nat) :
    ((setThread s n thread).conns m).session.thread =
      if m = n then thread else (s.conns m).session.thread := by
  rw [setThread, State.modify_conns]
  split <;> rfl

end Frames

section Inversion

inductive StepCases (label : Nat → UeLabel) (s : State) : Input → State → List Event → Prop
  | command (n : Nat) (cmd : Command) : StepCases label s (.command n cmd)
      (phoneStep s n (processCommand (cfgOf label n) (s.conns n).ue cmd)) []
  | ueReceive {n : Nat} {msg : SipMessage} {rest : List SipMessage}
      (hdownlink : (s.conns n).downlink = msg :: rest) : StepCases label s (.ueReceive n)
      (phoneStep (s.modify n fun c => { c with downlink := rest }) n
        (handleIncoming (cfgOf label n) (s.conns n).ue msg)) []
  | pcscfRead {n : Nat} {msg : SipMessage} {rest : List SipMessage}
      (hthread : (s.conns n).session.thread = .receiving)
      (huplink : (s.conns n).uplink = msg :: rest) : StepCases label s (.pcscfRead n)
      (handleFromUe (setThread (s.modify n fun c => { c with uplink := rest }) n (.forwarding msg))
        n msg).1
      (handleFromUe (setThread (s.modify n fun c => { c with uplink := rest }) n (.forwarding msg))
        n msg).2
  | pcscfForward {n : Nat} {msg : SipMessage}
      (hthread : (s.conns n).session.thread = .forwarding msg) : StepCases label s (.pcscfForward n)
      (setThread { s with toScscf := s.toScscf ++ [msg] } n
        (if msg.type = .bye then .cleaningUp msg.callId else .receiving)) []
  | pcscfCleanUp {n : Nat} {callId : Str}
      (hthread : (s.conns n).session.thread = .cleaningUp callId) :
      StepCases label s (.pcscfCleanUp n)
      (setThread { s with pcscf := cleanUp s.pcscf callId } n .receiving) [.callerErased callId]
  | pcscfReceive {msg : SipMessage} {rest : List SipMessage}
      (hthread : s.pcscf.scscfThread = .receiving) (htoPcscf : s.toPcscf = msg :: rest) :
      StepCases label s .pcscfReceive (handleFromScscf { s with toPcscf := rest } msg).1
      (handleFromScscf { s with toPcscf := rest } msg).2
  | pcscfNotify {target : Str} {msg : SipMessage}
      (hthread : s.pcscf.scscfThread = .notifying target msg) :
      StepCases label s .pcscfNotify (notify s target msg).1 (notify s target msg).2
  | scscfReceive {msg : SipMessage} {rest : List SipMessage} (htoScscf : s.toScscf = msg :: rest) :
      StepCases label s .scscfReceive
      { s with
        toScscf := rest
        scscf := (scscfHandle s.scscf msg).1
        toPcscf := s.toPcscf ++ (scscfHandle s.scscf msg).2 } []
  | setBarred (impu : Str) (barred : Bool) : StepCases label s (.setBarred impu barred)
      { s with scscf := { s.scscf with
          barred := if barred then insert impu s.scscf.barred else s.scscf.barred.erase impu } } []

theorem step_cases {label : Nat → UeLabel} {s s' : State} {i : Input} {es : List Event}
    (h : step label s i = some (s', es)) : StepCases label s i s' es := by
  cases i with
  | command n cmd =>
      obtain ⟨rfl, rfl⟩ := Prod.ext_iff.mp (Option.some.inj h)
      exact .command n cmd
  | ueReceive n =>
      simp only [step] at h
      split at h
      · rename_i msg rest hdownlink
        rw [State.modify_conns, if_pos rfl] at h
        obtain ⟨rfl, rfl⟩ := Prod.ext_iff.mp (Option.some.inj h)
        exact .ueReceive hdownlink
      · cases h
  | pcscfRead n =>
      simp only [step] at h
      split at h
      · rename_i msg rest hthread huplink
        obtain ⟨rfl, rfl⟩ := Prod.ext_iff.mp (Option.some.inj h)
        exact .pcscfRead hthread huplink
      · cases h
  | pcscfForward n =>
      simp only [step] at h
      split at h
      · rename_i msg hthread
        obtain ⟨rfl, rfl⟩ := Prod.ext_iff.mp (Option.some.inj h)
        exact .pcscfForward hthread
      · cases h
  | pcscfCleanUp n =>
      simp only [step] at h
      split at h
      · rename_i callId hthread
        obtain ⟨rfl, rfl⟩ := Prod.ext_iff.mp (Option.some.inj h)
        exact .pcscfCleanUp hthread
      · cases h
  | pcscfReceive =>
      simp only [step] at h
      split at h
      · rename_i msg rest hthread htoPcscf
        obtain ⟨rfl, rfl⟩ := Prod.ext_iff.mp (Option.some.inj h)
        exact .pcscfReceive hthread htoPcscf
      · cases h
  | pcscfNotify =>
      simp only [step] at h
      split at h
      · rename_i target msg hthread
        obtain ⟨rfl, rfl⟩ := Prod.ext_iff.mp (Option.some.inj h)
        exact .pcscfNotify hthread
      · cases h
  | scscfReceive =>
      simp only [step] at h
      split at h
      · rename_i msg rest htoScscf
        obtain ⟨rfl, rfl⟩ := Prod.ext_iff.mp (Option.some.inj h)
        exact .scscfReceive htoScscf
      · cases h
  | setBarred impu barred =>
      cases barred with
      | true =>
          obtain ⟨rfl, rfl⟩ := Prod.ext_iff.mp (Option.some.inj h)
          exact .setBarred impu true
      | false =>
          obtain ⟨rfl, rfl⟩ := Prod.ext_iff.mp (Option.some.inj h)
          exact .setBarred impu false

end Inversion

section Responses

def responses : List (SipMsgType × String) :=
  [(.trying100, "INVITE"), (.progress183, "INVITE")] ++
    ["REGISTER", "BARRED", "re-INVITE-HOLD", "CONFERENCE", "VIDEO-REMOVE", "VIDEO-ADD",
      "re-INVITE-RESUME", "UPDATE"].map fun reason => (.ok200, reason)

/-- What the S-CSCF sends for a message. -/
inductive Sends (msg : SipMessage) : SipMessage → Prop
  | forwarded : Sends msg msg
  | conference (cs : CallState) : msg.type = .invite → Sends msg (conferenceInvite cs msg)
  | response {type : SipMsgType} {reason : String} (callId sipFrom sipTo : Str) :
      (type, reason) ∈ responses → Sends msg (sendSipResponse msg type callId sipFrom sipTo reason)
  | byeAnswered : msg.type = .bye →
      Sends msg (sendSipResponse msg .ok200 msg.callId msg.sipFrom [] "BYE")

theorem forwardKnown_sends {node : ScscfNode} {msg out : SipMessage}
    (h : out ∈ forwardKnown node msg) : Sends msg out := by
  unfold forwardKnown at h
  split at h
  · rw [List.mem_singleton.mp h]
    exact .forwarded
  · cases h

theorem handleReInvite_sends {node : ScscfNode} {cs : CallState} {msg out : SipMessage}
    (htype : msg.type = .invite) (h : out ∈ (handleReInvite node cs msg).2) : Sends msg out := by
  unfold handleReInvite at h
  dsimp only at h
  split at h
  · rcases List.mem_pair.mp h with rfl | rfl
    · exact .forwarded
    · exact .response _ _ _ (by decide)
  split at h
  · rcases List.mem_append.mp h with hconf | hok
    · split at hconf
      · cases hconf
      · rw [List.mem_singleton.mp hconf]
        exact .conference cs htype
    · rw [List.mem_singleton.mp hok]
      exact .response _ _ _ (by decide)
  split at h
  · rcases List.mem_pair.mp h with rfl | rfl
    · exact .forwarded
    · split
      · exact .response _ _ _ (by decide)
      · exact .response _ _ _ (by decide)
  · rcases List.mem_pair.mp h with rfl | rfl
    · exact .forwarded
    · exact .response _ _ _ (by decide)

theorem handleInvite_sends {node : ScscfNode} {msg out : SipMessage} (htype : msg.type = .invite)
    (h : out ∈ (handleInvite node msg).2) : Sends msg out := by
  unfold handleInvite at h
  split at h
  · exact handleReInvite_sends htype h
  dsimp only at h
  split at h
  · rcases List.mem_cons.mp h with rfl | h
    · exact .response _ _ _ (by decide)
    · rcases List.mem_pair.mp h with rfl | rfl
      · exact .forwarded
      · exact .response _ _ _ (by decide)
  · rcases List.mem_pair.mp h with rfl | rfl
    · exact .response _ _ _ (by decide)
    · exact .response _ _ _ (by decide)

theorem scscfHandle_sends {node : ScscfNode} {msg out : SipMessage}
    (h : out ∈ (scscfHandle node msg).2) : Sends msg out := by
  unfold scscfHandle at h
  split at h
  · rw [List.mem_singleton.mp h]
    exact .response _ _ _ (by decide)
  · rename_i htype
    exact handleInvite_sends htype h
  · exact forwardKnown_sends h
  · rw [List.mem_singleton.mp h]
    exact .forwarded
  · rename_i htype
    rcases List.mem_pair.mp h with rfl | rfl
    · exact .byeAnswered htype
    · exact .forwarded
  · rcases List.mem_append.mp h with hknown | hok
    · exact forwardKnown_sends hknown
    · rw [List.mem_singleton.mp hok]
      exact .response _ _ _ (by decide)
  · cases h

end Responses

section Delivery

structure HandsOn (msgs : List SipMessage) (s : State) (r : State × List Event) : Prop where
  events : ∀ n out, .delivered n out ∈ r.2 → out ∈ msgs
  downlink : ∀ n, ∀ out ∈ (r.1.conns n).downlink, out ∈ (s.conns n).downlink ∨ out ∈ msgs

variable {msgs : List SipMessage} {s : State}

theorem handsOn_nothing {s' : State} (h : s'.conns = s.conns) : HandsOn msgs s (s', []) where
  events _ _ h := by cases h
  downlink n out hout := by
    rw [h] at hout
    exact Or.inl hout

theorem HandsOn.andThen {r₁ r₂ : State × List Event} (h₁ : HandsOn msgs s r₁)
    (h₂ : HandsOn msgs r₁.1 r₂) : HandsOn msgs s (r₂.1, r₁.2 ++ r₂.2) where
  events n out h := (List.mem_append.mp h).elim (h₁.events n out) (h₂.events n out)
  downlink n out h := (h₂.downlink n out h).elim (h₁.downlink n out) Or.inr

theorem sendToUe_handsOn {msg : SipMessage} (hmsg : msg ∈ msgs) (s : State) (impu : Str) :
    HandsOn msgs s (sendToUe s impu msg) := by
  unfold sendToUe
  split
  · rename_i m _
    constructor
    · intro n out h
      rw [(Event.delivered.inj (List.mem_singleton.mp h)).2]
      exact hmsg
    · intro n out h
      rw [State.modify_conns] at h
      split at h
      · rename_i hn
        rcases List.mem_append.mp h with hold | hnew
        · exact Or.inl (hn ▸ hold)
        · exact Or.inr (List.mem_singleton.mp hnew ▸ hmsg)
      · exact Or.inl h
  · constructor
    · intro n out h
      cases List.mem_singleton.mp h
    · intro n out h
      exact Or.inl h

theorem handleFromUe_events {n m : Nat} {msg out : SipMessage} :
    .delivered m out ∉ (handleFromUe s n msg).2 := by
  unfold handleFromUe
  split <;> simp

theorem deliver_handsOn {msg : SipMessage} (hmsg : msg ∈ msgs) (s : State) (target : Str) :
    HandsOn msgs s (deliver s target msg) := by
  unfold deliver
  split
  · constructor
    · intro n out h
      cases List.mem_singleton.mp h
    · intro n out h
      exact Or.inl h
  · exact sendToUe_handsOn hmsg s target

theorem routeInvite_handsOn {msg : SipMessage} (hmsg : msg ∈ msgs)
    (hring : msg.callId ∉ s.pcscf.callInviteDelivered → ring msg ∈ msgs) :
    HandsOn msgs s (routeInvite s msg) := by
  unfold routeInvite
  split
  · exact sendToUe_handsOn hmsg s msg.sipTo
  · rename_i hnew
    have hentered : HandsOn msgs s
        ({ s with pcscf := (enterInvite s.pcscf msg).1 }, (enterInvite s.pcscf msg).2) := by
      constructor
      · intro n out h
        unfold enterInvite at h
        dsimp only at h
        split at h
        · cases List.mem_singleton.mp h
        · cases h
      · intro n out h
        exact Or.inl h
    exact hentered.andThen ((sendToUe_handsOn hmsg _ msg.sipTo).andThen
      (sendToUe_handsOn (hring hnew) _ msg.sipFrom))

/-- The thread that reads from the S-CSCF hands on what it read, and rings for an initial
INVITE. -/
theorem handleFromScscf_hands {msg : SipMessage} (hmsg : msg ∈ msgs)
    (hring : msg.type = .invite → msg.callId ∉ s.pcscf.callInviteDelivered → ring msg ∈ msgs) :
    HandsOn msgs s (handleFromScscf s msg) := by
  have hdeliver (s : State) (target : Str) : HandsOn msgs s (deliver s target msg) :=
    deliver_handsOn hmsg s target
  unfold handleFromScscf
  split
  · rename_i htype
    exact routeInvite_handsOn hmsg (hring htype)
  · exact hdeliver s _
  · exact hdeliver s _
  · exact hdeliver s _
  · unfold route200Ok
    split
    · dsimp only
      split
      · rename_i m _
        have hmarked : HandsOn msgs s (s.modify m fun c =>
            { c with session := { c.session with registered := true } }, []) := by
          constructor
          · intro n out h
            cases h
          · intro n out h
            rw [State.modify_conns] at h
            split at h
            · rename_i hn
              exact Or.inl (hn ▸ h)
            · exact Or.inl h
        exact hmarked.andThen (hdeliver _ _)
      · exact hdeliver s _
    · dsimp only
      split
      · exact handsOn_nothing rfl
      · exact hdeliver s _
  · exact hdeliver s _
  · exact hdeliver s _

theorem handleFromScscf_handsOn (s : State) (msg : SipMessage) :
    HandsOn [msg, ring msg] s (handleFromScscf s msg) :=
  handleFromScscf_hands List.mem_cons_self fun _ _ =>
    List.mem_cons_of_mem msg (List.mem_singleton_self _)

theorem notify_handsOn (s : State) (target : Str) (msg : SipMessage) :
    HandsOn [msg] s (notify s target msg) := by
  have hstart : HandsOn [msg] s
      ({ s with pcscf := { s.pcscf with scscfThread := .receiving } }, []) := handsOn_nothing rfl
  exact hstart.andThen ((deliver_handsOn (List.mem_singleton_self msg) _ _).andThen
    (deliver_handsOn (List.mem_singleton_self msg) _ target))

end Delivery

section Phones

variable {label : Nat → UeLabel}

/-- Every message on a phone's connection is one of that phone. -/
def PhoneLinks (label : Nat → UeLabel) (s : State) : Prop :=
  ∀ n, ∀ msg ∈ (s.conns n).uplink, FromPhone (cfgOf label n) msg

theorem phoneLinks_modify {s : State} (h : PhoneLinks label s) (n : Nat) (f : Conn → Conn)
    (hf : ∀ msg ∈ (f (s.conns n)).uplink, FromPhone (cfgOf label n) msg) :
    PhoneLinks label (s.modify n f) := by
  intro m msg hmsg
  rw [State.modify_conns] at hmsg
  split at hmsg
  · rename_i hm
    exact hm ▸ hf msg hmsg
  · exact h m msg hmsg

theorem phoneStep_links {s : State} (h : PhoneLinks label s) (n : Nat) (out : Outcome)
    (hout : ∀ msg ∈ out.2, FromPhone (cfgOf label n) msg) :
    PhoneLinks label (phoneStep s n out) := by
  refine phoneLinks_modify h n _ fun msg hmsg => ?_
  rcases List.mem_append.mp hmsg with hold | hnew
  · exact h n msg hold
  · obtain ⟨sent, hsent, rfl⟩ := List.mem_map.mp hnew
    obtain ⟨hregister, hinvite, hrelease⟩ := hout sent hsent
    exact ⟨hregister, hinvite, hrelease⟩

theorem Delivers.phoneLinks {s s' : State} (hdelivers : Delivers s s')
    (h : PhoneLinks label s) : PhoneLinks label s' := by
  intro n msg hmsg
  rw [hdelivers.uplink n] at hmsg
  exact h n msg hmsg

theorem setThread_links {s : State} (h : PhoneLinks label s) (n : Nat) (thread : UeThread) :
    PhoneLinks label (setThread s n thread) :=
  phoneLinks_modify h n (fun c => { c with session := { c.session with thread := thread } }) (h n)

theorem handleFromUe_links {s : State} (h : PhoneLinks label s) (n : Nat) (msg : SipMessage) :
    PhoneLinks label (handleFromUe s n msg).1 := by
  intro m out hout
  rw [(handleFromUe_enters s n msg).uplink m] at hout
  exact h m out hout

theorem step_links {s s' : State} {i : Input} {es : List Event} (h : PhoneLinks label s)
    (hstep : step label s i = some (s', es)) : PhoneLinks label s' := by
  cases step_cases hstep with
  | command n cmd => exact phoneStep_links h n _ (processCommand_commanded cmd).messages
  | @ueReceive n msg rest hdownlink =>
      exact phoneStep_links (phoneLinks_modify h n _ (h n)) n _ (handleIncoming_messages msg)
  | @pcscfRead n msg rest _ huplink =>
      refine handleFromUe_links (setThread_links (phoneLinks_modify h n _ ?_) n _) n msg
      intro later hlater
      exact h n later (huplink ▸ List.mem_cons_of_mem msg hlater)
  | @pcscfForward n msg _ =>
      exact setThread_links (s := { s with toScscf := s.toScscf ++ [_] }) h n _
  | @pcscfCleanUp n callId _ =>
      exact setThread_links (s := { s with pcscf := cleanUp s.pcscf _ }) h n _
  | @pcscfReceive msg rest _ _ =>
      obtain ⟨p, -, hdelivers⟩ := handleFromScscf_delivers { s with toPcscf := rest } msg
      exact hdelivers.phoneLinks h
  | @pcscfNotify target msg _ => exact (notify_delivers s target msg).phoneLinks h
  | scscfReceive _ => exact h
  | setBarred _ _ => exact h

theorem reach_links {tr : List Event} {s : State} (hrun : Reach (step label) init tr s) :
    PhoneLinks label s := by
  refine hrun.invariant (I := fun _ s => PhoneLinks label s) ?_ ?_
  · intro n msg hmsg
    cases hmsg
  · intro _ _ _ _ _ hlinks _ hstep
    exact step_links hlinks hstep

end Phones

section Notifications

variable {label : Nat → UeLabel}

/-- What the callee is still to hear of is an answer of that kind. -/
def NotifiesOk (p : PcscfNode) : Prop :=
  ∀ target msg, p.scscfThread = .notifying target msg →
    msg.type = .ok200 ∧ notifiesCallee msg.reason = true

theorem step_notifiesOk {s s' : State} {i : Input} {es : List Event} (h : NotifiesOk s.pcscf)
    (hstep : step label s i = some (s', es)) : NotifiesOk s'.pcscf := by
  cases step_cases hstep with
  | @pcscfRead n msg rest _ _ =>
      intro target out hthread
      rw [(handleFromUe_enters _ n msg).scscfThread] at hthread
      exact h target out hthread
  | @pcscfReceive msg rest hreceiving _ =>
      obtain ⟨p, hsection, hdelivers⟩ := handleFromScscf_delivers { s with toPcscf := rest } msg
      intro target out hthread
      rw [hdelivers.pcscf] at hthread
      cases hsection with
      | unchanged => exact h target out hthread
      | entered _ _ =>
          rw [enterInvite_scscfThread] at hthread
          exact h target out hthread
      | answered _ htype hreason =>
          obtain ⟨-, rfl⟩ := ScscfThread.notifying.inj hthread
          exact ⟨htype, hreason⟩
  | @pcscfNotify target msg _ =>
      intro other out hthread
      rw [(notify_delivers s target msg).pcscf] at hthread
      cases hthread
  | command _ _ => exact h
  | ueReceive _ => exact h
  | pcscfForward _ => exact h
  | pcscfCleanUp _ => exact h
  | scscfReceive _ => exact h
  | setBarred _ _ => exact h

theorem reach_notifiesOk {tr : List Event} {s : State} (hrun : Reach (step label) init tr s) :
    NotifiesOk s.pcscf := by
  refine hrun.invariant (I := fun _ s => NotifiesOk s.pcscf) ?_ ?_
  · intro _ _ hthread
    cases hthread
  · intro _ _ _ _ _ hnotifies _ hstep
    exact step_notifiesOk hnotifies hstep

end Notifications

end MobileCore.CallSessionControl
