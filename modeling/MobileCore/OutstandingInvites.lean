import MobileCore.CallSessionControl
import MobileCore.InDialogInvites

/-!
# INVITEs whose ACK is due

What phones, links and tables hold of an INVITE from its delivery to the delivery of its ACK. Here
are the invariant and the steps of the nodes that only carry messages on.
-/

namespace MobileCore.OutstandingInvites

open MobileCore.CallSessionControl
open MobileCore.CppText
open MobileCore.LabelledRuns
open MobileCore.LastWrite
open MobileCore.SipPhones
open InDialogInvites (InDialog)

/-- The phone answers this 200 OK with an ACK. -/
def Acked (msg : SipMessage) : Prop :=
  msg.type = .ok200 ∧ (msg.reason = lit "INVITE" ∨ msg.reason = [])

/-- The answers that accept an INVITE. The S-CSCF answers one within a call itself. -/
def Accepts (msg : SipMessage) : Prop :=
  Acked msg ∨ msg.type = .ok200 ∧ (msg.reason = lit "CONFERENCE" ∨ notifiesCallee msg.reason)

instance (msg : SipMessage) : Decidable (Acked msg) := inferInstanceAs (Decidable (_ ∧ _))

instance (msg : SipMessage) : Decidable (Accepts msg) := inferInstanceAs (Decidable (_ ∨ _))

/-- `answered` is the acceptance of an INVITE, read by a phone. -/
inductive Event where
  | answered (n : Nat) (msg : SipMessage)
  | shown (e : CallSessionControl.Event)
deriving DecidableEq

def answersRead (s : State) : Input → List Event
  | .ueReceive n =>
    (((s.conns n).downlink.take 1).filter fun msg => decide (Accepts msg)).map (.answered n)
  | _ => []

def step (label : Nat → UeLabel) : Machine State Input Event
  | s, i => (CallSessionControl.step label s i).map fun r =>
    (r.1, answersRead s i ++ r.2.map .shown)

/-- An ACK that a phone owes: its Call-ID and the phone that accepted, which for an answer of the
S-CSCF's own is the one that asked. -/
def answer (n : Nat) : Event → Option (Str × Nat)
  | .answered m msg => if m = n then some (msg.callId, msg.origin) else none
  | .shown _ => none

/-- An ACK of a phone that was delivered, and to whom. -/
def ackDelivered (n : Nat) : Event → Option (Str × Nat)
  | .shown (.delivered m msg) =>
    if msg.type = .ack ∧ msg.origin = n then some (msg.callId, m) else none
  | _ => none

def forwardedBy : UeThread → List SipMessage
  | .forwarding msg => [msg]
  | _ => []

/-- What is on its way through a connection and between the nodes, the oldest first. -/
def upstream (s : State) (n : Nat) : List SipMessage :=
  s.toPcscf ++ (s.toScscf ++ (forwardedBy (s.conns n).session.thread ++ (s.conns n).uplink))

def ackOf (n : Nat) (msg : SipMessage) : Bool := msg.type = .ack ∧ msg.origin = n

def pending (s : State) (n : Nat) : List SipMessage := (upstream s n).filter (ackOf n)

/-- Each phone's ACKs carry the Call-IDs of the acceptances that it read, in their order, and the
delivered ones went to the phones that had accepted. -/
def AcksReach (tr : List Event) (s : State) : Prop :=
  ∀ n, ∃ rest, tr.filterMap (answer n) = tr.filterMap (ackDelivered n) ++ rest ∧
    (pending s n).map SipMessage.callId = rest.map Prod.fst

/-- Phone `b` has been invited and has not yet an ACK coming. -/
inductive Owed (s : State) (callId : Str) (b : Nat) : Prop
  | invited {msg : SipMessage} : msg ∈ (s.conns b).downlink → msg.type = .invite →
      msg.callId = callId → Owed s callId b
  | ringing : (s.conns b).ue.state = .ringing → (s.conns b).ue.currentCallId = callId →
      Owed s callId b
  | accepted {n : Nat} {msg : SipMessage} : msg ∈ (s.conns n).downlink ∨ msg ∈ upstream s n →
      Acked msg → msg.callId = callId → msg.origin = b → Owed s callId b

/-- An INVITE from its delivery up to the delivery of its ACK. -/
def Outstanding (s : State) (callId : Str) : Prop :=
  (∃ b, Owed s callId b) ∨ ∃ n, ∃ msg ∈ upstream s n, msg.type = .ack ∧ msg.callId = callId

/-- A phone reads no acceptance but one that it acknowledges, of its current call. While an INVITE
is outstanding its callee stays on record, and the S-CSCF knows the call of an ACK. -/
def Undisturbed (_ : List Event) (s : State) : Input → Prop
  | .ueReceive n => ∀ msg ∈ (s.conns n).downlink.head?, Accepts msg →
      Acked msg ∧ msg.callId = (s.conns n).ue.currentCallId
  | .scscfReceive => ∀ msg ∈ s.toScscf.head?, msg.type = .ack →
      (s.scscf.calls.lookup msg.callId).isSome
  | .pcscfRead n => ∀ msg ∈ (s.conns n).uplink.head?,
      (msg.type = .invite → Outstanding s msg.callId →
        s.pcscf.callToCallee.lookup msg.callId = some msg.sipTo) ∧
      (msg.type = .register → ∀ callId, Outstanding s callId →
        s.pcscf.callToCallee.lookup callId = some msg.impu →
        s.pcscf.ueByImpu.lookup msg.impu = some n)
  | .pcscfCleanUp n => ∀ callId, (s.conns n).session.thread = .cleaningUp callId →
      ¬Outstanding s callId
  | .pcscfReceive => ∀ msg ∈ s.toPcscf.head?, msg.type = .invite →
      (s.pcscf.ueByImpu.lookup msg.sipTo).isSome →
        s.pcscf.callToCallee.lookup msg.callId = some msg.sipTo ∨
          s.pcscf.callToCallee.lookup msg.callId = none ∧
            msg.callId ∉ s.pcscf.callInviteDelivered
  | _ => True

section Phones

variable {cfg : UeConfig} {ue ue' : Ue} {msg : SipMessage}

/-- A phone that rings or is in a call has a Call-ID. -/
def Named (ue : Ue) : Prop := ue.state = .ringing ∨ InDialog ue → ue.currentCallId ≠ []

/-- A phone acknowledges nothing by itself, and accepts the call that rings. -/
structure Commands (ue : Ue) (out : Outcome) : Prop where
  ack : ∀ msg ∈ out.2, msg.type ≠ .ack
  accepts : ∀ msg ∈ out.2, Acked msg → ue.state = .ringing ∧ msg.callId = ue.currentCallId
  rings : out.1.state = .ringing →
    ue.state = .ringing ∧ out.1.currentCallId = ue.currentCallId
  named : Named ue → Named out.1 ∧ ∀ msg ∈ out.2, msg.type = .invite → msg.callId ≠ []

theorem stay_commands : Commands ue (stay ue) where
  ack _ h := by cases h
  accepts _ h := by cases h
  rings h := ⟨h, rfl⟩
  named hnamed := ⟨hnamed, by simp [stay]⟩

theorem send_commands (hack : msg.type ≠ .ack) (hstate : ue'.state ≠ .ringing)
    (haccepts : Acked msg → ue.state = .ringing ∧ msg.callId = ue.currentCallId)
    (hnamed : Named ue → Named ue' ∧ (msg.type = .invite → msg.callId ≠ [])) :
    Commands ue (send ue' msg) where
  ack out h := by
    rw [List.mem_singleton.mp h]
    exact hack
  accepts out h := by
    rw [List.mem_singleton.mp h]
    exact haccepts
  rings h := absurd h hstate
  named h := by
    refine ⟨(hnamed h).1, fun out hout => ?_⟩
    rw [List.mem_singleton.mp hout]
    exact (hnamed h).2

theorem sendInvite_commands (hdialog : InDialog ue) (hstate : ue'.state ≠ .ringing)
    (hcurrent : ue'.currentCallId = ue.currentCallId) (sipTo sdp : Str) :
    Commands ue (sendInvite cfg ue' sipTo sdp) := by
  refine send_commands (by simp) hstate (by simp [Acked]) ?_
  intro hnamed
  have hne : ue'.currentCallId ≠ [] := by
    rw [hcurrent]
    exact hnamed (Or.inr hdialog)
  exact ⟨fun _ => hne, fun _ => hne⟩

theorem not_ringing_of_inDialog (h : InDialog ue) : ue.state ≠ .ringing := by
  rcases h with h | h <;> simp [h]

theorem processCommand_commands (cmd : Command) : Commands ue (processCommand cfg ue cmd) := by
  have hsilent {state : UeState} (hringing : state ≠ .ringing) (hcall : state ≠ .inCall)
      (hhold : state ≠ .onHold) : Named { ue with state := state } := by
    rintro (h | h | h)
    · exact absurd h hringing
    · exact absurd h hcall
    · exact absurd h hhold
  cases cmd with
  | register =>
      rw [processCommand, doRegister]
      split
      · exact stay_commands
      · exact send_commands (by simp) (by simp) (by simp [Acked]) fun _ =>
          ⟨hsilent (by simp) (by simp) (by simp), by simp⟩
  | call target =>
      apply guarded stay_commands
      intro _
      split
      · exact stay_commands
      · refine send_commands (by simp) (by simp) (by simp [Acked]) fun _ => ⟨?_, ?_⟩
        · rintro (h | h | h) <;> cases h
        · simp [lit]
  | accept =>
      apply guarded stay_commands
      intro hringing
      exact send_commands (by simp) (by simp) (fun _ => ⟨hringing, rfl⟩) fun hnamed =>
        ⟨fun _ => hnamed (Or.inl hringing), by simp⟩
  | reject =>
      apply guarded stay_commands
      intro _
      exact send_commands (by simp) (by simp) (by simp [Acked]) fun _ =>
        ⟨hsilent (by simp) (by simp) (by simp), by simp⟩
  | conference third =>
      apply guarded stay_commands
      intro hstate
      split
      · exact stay_commands
      · exact sendInvite_commands (Or.inl hstate) (by simp [hstate]) rfl _ _
  | bye =>
      apply guarded stay_commands
      intro _
      exact send_commands (by simp) (by simp) (by simp [Acked]) fun _ =>
        ⟨hsilent (by simp) (by simp) (by simp), by simp⟩
  | resume =>
      apply guarded stay_commands
      intro hstate
      refine sendInvite_commands (Or.inr hstate) ?_ ?_ _ _
      · simp
      · rfl
  | update =>
      apply guarded stay_commands
      intro hdialog
      exact sendInvite_commands hdialog (not_ringing_of_inDialog hdialog) rfl _ _
  | hold =>
      apply guarded stay_commands
      intro hstate
      refine sendInvite_commands (Or.inl hstate) ?_ ?_ _ _
      · simp
      · rfl
  | video | voice =>
      apply guarded stay_commands
      intro hstate
      exact sendInvite_commands (Or.inl hstate) (by simp [hstate]) rfl _ _

def ackFrom (cfg : UeConfig) (ue : Ue) : SipMessage :=
  { type := .ack, callId := ue.currentCallId, sipFrom := cfg.impu, sipTo := ue.calleeImpu }

theorem handleIncoming_acked (h : Acked msg) :
    handleIncoming cfg ue msg = send { ue with state := .inCall } (ackFrom cfg ue) := by
  obtain ⟨htype, hreason⟩ := h
  have hregister : msg.reason ≠ lit "REGISTER" := by
    rcases hreason with h | h <;> rw [h] <;> decide
  rw [handleIncoming, htype]
  dsimp only
  rw [incoming200Ok, if_neg hregister, if_pos hreason, ackFrom]

theorem handleIncoming_other (cfg : UeConfig) (ue : Ue) (hinvite : msg.type ≠ .invite)
    (haccepts : ¬Accepts msg) :
    (handleIncoming cfg ue msg).2 = [] ∧
      ((handleIncoming cfg ue msg).1 = ue ∨
        (handleIncoming cfg ue msg).1 = { ue with state := .registered }) := by
  rw [handleIncoming]
  split
  · rename_i htype
    rw [incoming200Ok]
    split
    · exact ⟨rfl, Or.inr rfl⟩
    split
    · exact absurd (Or.inl ⟨htype, by assumption⟩) haccepts
    split
    · rename_i hresume
      refine absurd (Or.inr ⟨htype, Or.inr ?_⟩) haccepts
      simp [notifiesCallee, hresume]
    split
    · exact ⟨rfl, Or.inr rfl⟩
    · exact ⟨rfl, Or.inl rfl⟩
  · exact absurd (by assumption) hinvite
  · exact ⟨rfl, Or.inl rfl⟩

end Phones

section Scscf

variable {node : ScscfNode} {msg out : SipMessage}

/-- A message of the S-CSCF's own that no phone has to acknowledge. -/
structure Plain (msg : SipMessage) : Prop where
  ack : msg.type ≠ .ack
  accepts : ¬Acked msg
  named : msg.type = .invite → msg.callId ≠ []

theorem sends_plain (h : Sends msg out) : out = msg ∨ Plain out := by
  cases h with
  | forwarded => exact Or.inl rfl
  | conference cs _ =>
      right
      constructor
      · simp [conferenceInvite]
      · simp [Acked, conferenceInvite]
      · intro _
        simp [conferenceInvite, lit]
  | @response type reason callId sipFrom sipTo hresponse =>
      have hown : ∀ r ∈ responses, r.1 ≠ .ack ∧ r.1 ≠ .invite ∧
          ¬(r.1 = .ok200 ∧ (lit r.2 = lit "INVITE" ∨ lit r.2 = [])) := by decide
      obtain ⟨hack, hinvite, haccepts⟩ := hown _ hresponse
      exact Or.inr ⟨hack, haccepts, fun htype => absurd htype hinvite⟩
  | byeAnswered _ =>
      have hreason : ¬(lit "BYE" = lit "INVITE" ∨ lit "BYE" = []) := by decide
      right
      constructor
      · simp [sendSipResponse]
      · exact fun haccepts => hreason haccepts.2
      · simp [sendSipResponse]

/-- The S-CSCF forwards an ACK of a call that it knows, and makes none. -/
theorem scscfHandle_acks (hknown : msg.type = .ack → (node.calls.lookup msg.callId).isSome)
    (n : Nat) : (scscfHandle node msg).2.filter (ackOf n) = [msg].filter (ackOf n) := by
  by_cases htype : msg.type = .ack
  · rw [scscfHandle, htype]
    dsimp only
    rw [forwardKnown, if_pos (hknown htype)]
  · have hnone {out : SipMessage} (hout : out.type ≠ .ack) : ¬ackOf n out = true := by
      simp [ackOf, hout]
    rw [List.filter_eq_nil_iff.mpr, List.filter_eq_nil_iff.mpr]
    · intro out hout
      rw [List.mem_singleton.mp hout]
      exact hnone htype
    · intro out hout
      rcases sends_plain (scscfHandle_sends hout) with rfl | hplain
      · exact hnone htype
      · exact hnone hplain.ack

end Scscf

section Matching

variable {p p' : PcscfNode} {expected delivered : List (Str × Nat)} {waiting : List SipMessage}

/-- The P-CSCF sends an ACK of the call to phone `b`. -/
def Routed (p : PcscfNode) (callId : Str) (b : Nat) : Prop :=
  ∃ callee, p.callToCallee.lookup callId = some callee ∧ p.ueByImpu.lookup callee = some b

/-- The ACKs that wait are for the last of the acceptances, and will reach the phones. -/
def Matched (p : PcscfNode) (expected delivered : List (Str × Nat)) (waiting : List SipMessage) :
    Prop :=
  ∃ rest, expected = delivered ++ rest ∧ waiting.map SipMessage.callId = rest.map Prod.fst ∧
    ∀ a ∈ rest, Routed p a.1 a.2

theorem Matched.mono (h : Matched p expected delivered waiting)
    (hrouted : ∀ ack ∈ waiting, ∀ b, Routed p ack.callId b → Routed p' ack.callId b) :
    Matched p' expected delivered waiting := by
  obtain ⟨rest, hsplit, hwaiting, hrest⟩ := h
  refine ⟨rest, hsplit, hwaiting, fun a ha => ?_⟩
  have hcallId : a.1 ∈ waiting.map SipMessage.callId := by
    rw [hwaiting]
    exact List.mem_map_of_mem ha
  obtain ⟨ack, hack, hsame⟩ := List.mem_map.mp hcallId
  rw [← hsame]
  apply hrouted ack hack
  rw [hsame]
  exact hrest a ha

theorem Matched.acknowledge (h : Matched p expected delivered waiting) {ack : SipMessage} {b : Nat}
    (hrouted : Routed p ack.callId b) :
    Matched p (expected ++ [(ack.callId, b)]) delivered (waiting ++ [ack]) := by
  obtain ⟨rest, rfl, hwaiting, hrest⟩ := h
  refine ⟨rest ++ [(ack.callId, b)], List.append_assoc delivered rest _, ?_, ?_⟩
  · rw [List.map_append, List.map_append, hwaiting]
    rfl
  · intro a ha
    rcases List.mem_append.mp ha with hold | hnew
    · exact hrest a hold
    · rw [List.mem_singleton.mp hnew]
      exact hrouted

theorem Matched.deliver {ack : SipMessage} (h : Matched p expected delivered (ack :: waiting)) :
    ∃ b, Routed p ack.callId b ∧
      Matched p expected (delivered ++ [(ack.callId, b)]) waiting := by
  obtain ⟨rest, rfl, hwaiting, hrest⟩ := h
  obtain ⟨⟨callId, b⟩, rest, rfl, hhead, htail⟩ := List.map_eq_cons_iff.mp hwaiting.symm
  obtain rfl : callId = ack.callId := hhead
  refine ⟨b, hrest _ List.mem_cons_self, rest, ?_, htail.symm, fun a ha => ?_⟩
  · rw [List.append_assoc, List.singleton_append]
  · exact hrest a (List.mem_cons_of_mem _ ha)

theorem Matched.split (h : Matched p expected delivered waiting) :
    ∃ rest, expected = delivered ++ rest ∧ waiting.map SipMessage.callId = rest.map Prod.fst := by
  obtain ⟨rest, hsplit, hwaiting, -⟩ := h
  exact ⟨rest, hsplit, hwaiting⟩

end Matching

section Routes

variable {p p' : PcscfNode} {callId : Str} {b : Nat}

theorem routed_insert (hrouted : Routed p callId b) {other callee : Str}
    (hsame : callId = other → p.callToCallee.lookup callId = some callee) :
    Routed { p with callToCallee := p.callToCallee.insert other callee } callId b := by
  obtain ⟨target, hcallee, hphone⟩ := hrouted
  refine ⟨target, ?_, hphone⟩
  by_cases hid : callId = other
  · rw [hid, AList.lookup_insert, ← hsame hid, hcallee]
  · rwa [AList.lookup_insert_ne hid]

theorem enterInvite_routed (hrouted : Routed p callId b) (msg : SipMessage) :
    Routed (enterInvite p msg).1 callId b := by
  obtain ⟨target, hcallee, hphone⟩ := hrouted
  refine ⟨target, ?_, by rwa [enterInvite_ueByImpu]⟩
  have hkept : (enterInvite p msg).1.callToCallee.lookup callId =
      if p.callToCallee.lookup msg.callId = none ∧ msg.sipTo ≠ [] then
        (p.callToCallee.insert msg.callId msg.sipTo).lookup callId
      else p.callToCallee.lookup callId := by
    unfold enterInvite
    dsimp only
    split <;> split <;> rfl
  rw [hkept]
  split
  · rename_i hnew
    rw [AList.lookup_insert_ne, hcallee]
    rintro rfl
    rw [hnew.1] at hcallee
    cases hcallee
  · exact hcallee

theorem rxSection_routed {msg : SipMessage} (h : RxSection p msg p') (hrouted : Routed p callId b) :
    Routed p' callId b := by
  cases h with
  | unchanged => exact hrouted
  | entered _ _ => exact enterInvite_routed hrouted msg
  | answered _ _ _ => exact hrouted

end Routes

section Transit

variable {s s' : State} {n : Nat} {msg : SipMessage}

theorem mem_upstream : msg ∈ upstream s n ↔ msg ∈ s.toPcscf ∨ msg ∈ s.toScscf ∨
    msg ∈ forwardedBy (s.conns n).session.thread ∨ msg ∈ (s.conns n).uplink := by
  simp only [upstream, List.mem_append]

theorem upstream_congr (htoPcscf : s'.toPcscf = s.toPcscf) (htoScscf : s'.toScscf = s.toScscf)
    (hconn : forwardedBy (s'.conns n).session.thread ++ (s'.conns n).uplink =
      forwardedBy (s.conns n).session.thread ++ (s.conns n).uplink) :
    upstream s' n = upstream s n := by
  rw [upstream, htoPcscf, htoScscf, hconn, upstream]

theorem upstream_phoneStep (s : State) (n : Nat) (out : Outcome) (m : Nat) :
    upstream (phoneStep s n out) m = upstream s m ++
      if m = n then out.2.map fun msg => { msg with origin := n } else [] := by
  rw [upstream, phoneStep, State.modify_conns]
  split
  · rename_i hm
    rw [hm]
    simp only [upstream, State.modify, List.append_assoc]
  · rw [List.append_nil]
    rfl

theorem delivers_upstream (h : Delivers s s') (n : Nat) : upstream s' n = upstream s n := by
  apply upstream_congr h.toPcscf h.toScscf
  rw [h.thread n, h.uplink n]

theorem pending_of_upstream (h : upstream s' n = upstream s n) : pending s' n = pending s n := by
  rw [pending, h, pending]

end Transit

section Invariant

variable {tr : List Event} {s s' : State} {callId : Str} {b : Nat}

/-- A message on a link to or from a phone, or between the nodes. -/
def Linked (s : State) (msg : SipMessage) : Prop :=
  ∃ n, msg ∈ (s.conns n).downlink ∨ msg ∈ upstream s n

structure Inv (tr : List Event) (s : State) : Prop where
  acks : ∀ n, Matched s.pcscf (tr.filterMap (answer n)) (tr.filterMap (ackDelivered n)) (pending s n)
  owed : ∀ callId b, Owed s callId b → Routed s.pcscf callId b
  phones : ∀ n, Named (s.conns n).ue
  links : ∀ msg, Linked s msg → msg.type = .invite ∨ Acked msg → msg.callId ≠ []
  origin : ∀ n, ∀ msg ∈ forwardedBy (s.conns n).session.thread ++ (s.conns n).uplink, msg.origin = n
  notifying : ∀ target msg, s.pcscf.scscfThread = .notifying target msg →
    msg.type = .ok200 ∧ ¬Acked msg
  unnamed : s.pcscf.ueByImpu.lookup [] = none

theorem init_inv : Inv [] init where
  acks n := ⟨[], rfl, rfl, by simp⟩
  owed callId b h := by
    cases h with
    | invited hmsg _ _ => cases hmsg
    | ringing hstate _ => cases hstate
    | accepted hmsg _ _ _ =>
        rcases hmsg with hmsg | hmsg
        · cases hmsg
        · simp [upstream, init, forwardedBy] at hmsg
  phones n h := by rcases h with h | h | h <;> cases h
  links msg h := by
    obtain ⟨n, hmsg | hmsg⟩ := h
    · cases hmsg
    · simp [upstream, init, forwardedBy] at hmsg
  origin n msg hmsg := by simp [init, forwardedBy] at hmsg
  notifying target msg h := by cases h
  unnamed := rfl

theorem mem_pending {n : Nat} {ack : SipMessage} (h : ack ∈ pending s n) :
    ack ∈ upstream s n ∧ ack.type = .ack ∧ ack.origin = n := by
  obtain ⟨hmem, hack⟩ := List.mem_filter.mp h
  simp only [ackOf, decide_eq_true_eq] at hack
  exact ⟨hmem, hack⟩

/-- A phone and the two queues of its connection are as they were but for messages that have gone
on their way, and outstanding INVITEs keep their routes. -/
structure Carried (s s' : State) : Prop where
  pending : ∀ n, pending s' n = pending s n
  upstream : ∀ n, ∀ msg ∈ upstream s' n, (∃ m, msg ∈ upstream s m) ∨ Plain msg
  downlink : ∀ n, ∀ msg ∈ (s'.conns n).downlink,
    msg ∈ (s.conns n).downlink ∨ msg.type ≠ .invite ∧ ¬Acked msg
  ue : ∀ n, (s'.conns n).ue = (s.conns n).ue
  origin : ∀ n, ∀ msg ∈ forwardedBy (s'.conns n).session.thread ++ (s'.conns n).uplink,
    msg ∈ forwardedBy (s.conns n).session.thread ++ (s.conns n).uplink
  routed : ∀ callId b, Outstanding s callId → Routed s.pcscf callId b → Routed s'.pcscf callId b
  notifying : ∀ target msg, s'.pcscf.scscfThread = .notifying target msg →
    s.pcscf.scscfThread = .notifying target msg
  unnamed : s.pcscf.ueByImpu.lookup [] = none → s'.pcscf.ueByImpu.lookup [] = none

theorem carried_in_place (htoPcscf : s'.toPcscf = s.toPcscf) (htoScscf : s'.toScscf = s.toScscf)
    (hconn : ∀ n, forwardedBy (s'.conns n).session.thread ++ (s'.conns n).uplink =
      forwardedBy (s.conns n).session.thread ++ (s.conns n).uplink)
    (hdownlink : ∀ n, ∀ msg ∈ (s'.conns n).downlink,
      msg ∈ (s.conns n).downlink ∨ msg.type ≠ .invite ∧ ¬Acked msg)
    (hue : ∀ n, (s'.conns n).ue = (s.conns n).ue)
    (hrouted : ∀ callId b, Outstanding s callId → Routed s.pcscf callId b →
      Routed s'.pcscf callId b)
    (hnotifying : ∀ target msg, s'.pcscf.scscfThread = .notifying target msg →
      s.pcscf.scscfThread = .notifying target msg)
    (hunnamed : s.pcscf.ueByImpu.lookup [] = none → s'.pcscf.ueByImpu.lookup [] = none) :
    Carried s s' := by
  have hupstream (n : Nat) := upstream_congr htoPcscf htoScscf (hconn n)
  refine ⟨fun n => pending_of_upstream (hupstream n), ?_, hdownlink, hue, ?_, hrouted, hnotifying,
    hunnamed⟩
  · intro n msg hmsg
    rw [hupstream n] at hmsg
    exact Or.inl ⟨n, hmsg⟩
  · intro n msg hmsg
    rwa [hconn n] at hmsg

theorem Carried.owed (h : Carried s s') (howed : Owed s' callId b) : Owed s callId b := by
  cases howed with
  | invited hmsg htype hid =>
      rcases h.downlink b _ hmsg with hold | hother
      · exact .invited hold htype hid
      · exact absurd htype hother.1
  | ringing hstate hcurrent =>
      rw [h.ue b] at hstate hcurrent
      exact .ringing hstate hcurrent
  | @accepted n msg hmsg hacked hid horigin =>
      rcases hmsg with hmsg | hmsg
      · rcases h.downlink n msg hmsg with hold | hother
        · exact .accepted (Or.inl hold) hacked hid horigin
        · exact absurd hacked hother.2
      · rcases h.upstream n msg hmsg with ⟨m, hold⟩ | hplain
        · exact .accepted (Or.inr hold) hacked hid horigin
        · exact absurd hacked hplain.accepts

/-- The events tell of no acceptance and of no ACK. -/
def Silent (es : List Event) : Prop :=
  ∀ n, es.filterMap (answer n) = [] ∧ es.filterMap (ackDelivered n) = []

theorem Inv.carried (h : Inv tr s) (hcarried : Carried s s') {es : List Event}
    (hsilent : Silent es) : Inv (tr ++ es) s' where
  acks n := by
    obtain ⟨hanswer, hack⟩ := hsilent n
    rw [List.filterMap_append, List.filterMap_append, hanswer, hack, List.append_nil,
      List.append_nil, hcarried.pending n]
    apply (h.acks n).mono
    intro ack hmem b
    obtain ⟨hupstream, htype, -⟩ := mem_pending hmem
    exact hcarried.routed ack.callId b (Or.inr ⟨n, ack, hupstream, htype, rfl⟩)
  owed callId b howed := by
    have hold := hcarried.owed howed
    exact hcarried.routed callId b (Or.inl ⟨b, hold⟩) (h.owed callId b hold)
  phones n := by
    rw [hcarried.ue n]
    exact h.phones n
  links msg hmsg hneeds := by
    obtain ⟨n, hdown | hup⟩ := hmsg
    · rcases hcarried.downlink n msg hdown with hold | hother
      · exact h.links msg ⟨n, Or.inl hold⟩ hneeds
      · exact absurd hneeds (not_or.mpr hother)
    · rcases hcarried.upstream n msg hup with ⟨m, hold⟩ | hplain
      · exact h.links msg ⟨m, Or.inr hold⟩ hneeds
      · exact hneeds.elim hplain.named fun hacked => absurd hacked hplain.accepts
  origin n msg hmsg := h.origin n msg (hcarried.origin n msg hmsg)
  notifying target msg hthread := h.notifying target msg (hcarried.notifying target msg hthread)
  unnamed := hcarried.unnamed h.unnamed

theorem answer_shown (es : List CallSessionControl.Event) (n : Nat) :
    (es.map Event.shown).filterMap (answer n) = [] := by
  rw [List.filterMap_eq_nil_iff]
  intro e he
  obtain ⟨shown, -, rfl⟩ := List.mem_map.mp he
  rfl

theorem ackDelivered_shown {es : List CallSessionControl.Event} {n : Nat}
    (h : ∀ m msg, .delivered m msg ∈ es → ackOf n msg = false) :
    (es.map Event.shown).filterMap (ackDelivered n) = [] := by
  rw [List.filterMap_eq_nil_iff]
  intro e he
  obtain ⟨shown, hshown, rfl⟩ := List.mem_map.mp he
  cases shown with
  | delivered m msg => exact if_neg (of_decide_eq_false (h m msg hshown))
  | _ => rfl

theorem silent_shown {es : List CallSessionControl.Event}
    (h : ∀ n msg, .delivered n msg ∈ es → msg.type ≠ .ack) : Silent (es.map .shown) := by
  intro n
  refine ⟨answer_shown es n, ackDelivered_shown fun m msg hmsg => ?_⟩
  simp [ackOf, h m msg hmsg]

end Invariant

section Nodes

variable {tr : List Event} {s : State} {n : Nat} {msg : SipMessage} {rest : List SipMessage}

theorem scscf_carried (htoScscf : s.toScscf = msg :: rest)
    (hknown : msg.type = .ack → (s.scscf.calls.lookup msg.callId).isSome) :
    Carried s { s with
      toScscf := rest
      scscf := (scscfHandle s.scscf msg).1
      toPcscf := s.toPcscf ++ (scscfHandle s.scscf msg).2 } where
  pending n := by
    have hhead : s.toScscf = [msg] ++ rest := htoScscf
    simp only [pending, upstream, hhead, List.filter_append, List.append_assoc]
    rw [scscfHandle_acks hknown]
  upstream n out hout := by
    rcases mem_upstream.mp hout with hout | hout | hconn
    · rcases List.mem_append.mp hout with hold | hnew
      · exact Or.inl ⟨n, mem_upstream.mpr (Or.inl hold)⟩
      · rcases sends_plain (scscfHandle_sends hnew) with rfl | hplain
        · refine Or.inl ⟨n, mem_upstream.mpr (Or.inr (Or.inl ?_))⟩
          rw [htoScscf]
          exact List.mem_cons_self
        · exact Or.inr hplain
    · refine Or.inl ⟨n, mem_upstream.mpr (Or.inr (Or.inl ?_))⟩
      rw [htoScscf]
      exact List.mem_cons_of_mem msg hout
    · exact Or.inl ⟨n, mem_upstream.mpr (Or.inr (Or.inr hconn))⟩
  downlink _ _ hout := Or.inl hout
  ue _ := rfl
  origin _ _ hout := hout
  routed _ _ _ hrouted := hrouted
  notifying _ _ hthread := hthread
  unnamed hunnamed := hunnamed

theorem cleanUp_carried {callId : Str} (hthread : (s.conns n).session.thread = .cleaningUp callId)
    (hsettled : ¬Outstanding s callId) :
    Carried s (setThread { s with pcscf := cleanUp s.pcscf callId } n .receiving) := by
  have hconns := setThread_conns { s with pcscf := cleanUp s.pcscf callId } n .receiving
  apply carried_in_place
  · rfl
  · rfl
  · intro m
    rw [setThread_thread, (hconns m).2.1]
    split
    · rename_i hm
      rw [hm, hthread]
      rfl
    · rfl
  · intro m out hout
    rw [(hconns m).2.2] at hout
    exact Or.inl hout
  · exact fun m => (hconns m).1
  · rintro other b houtstanding ⟨callee, hcallee, hphone⟩
    refine ⟨callee, (AList.lookup_erase_ne ?_).trans hcallee, hphone⟩
    rintro rfl
    exact hsettled houtstanding
  · exact fun _ _ hnotifying => hnotifying
  · exact id

theorem forward_carried (h : Inv tr s) (hthread : (s.conns n).session.thread = .forwarding msg)
    {thread : UeThread} (hdone : forwardedBy thread = []) :
    Carried s (setThread { s with toScscf := s.toScscf ++ [msg] } n thread) := by
  have hconns := setThread_conns { s with toScscf := s.toScscf ++ [msg] } n thread
  have hforwarded (m : Nat) : forwardedBy ((setThread { s with toScscf := s.toScscf ++ [msg] } n
      thread).conns m).session.thread =
      if m = n then [] else forwardedBy (s.conns m).session.thread := by
    rw [setThread_thread]
    split
    · exact hdone
    · rfl
  have hmsg : msg ∈ upstream s n := by
    refine mem_upstream.mpr (Or.inr (Or.inr (Or.inl ?_)))
    rw [hthread]
    exact List.mem_singleton_self msg
  constructor
  · intro m
    rw [pending, upstream, hforwarded, (hconns m).2.1]
    change List.filter _ (s.toPcscf ++ ((s.toScscf ++ [msg]) ++ _)) = _
    split
    · rename_i hm
      rw [hm, pending, upstream, hthread, forwardedBy]
      simp only [List.append_assoc, List.nil_append]
    · rename_i hm
      have horigin : msg.origin = n := by
        apply h.origin n msg
        rw [hthread]
        exact List.mem_append_left _ (List.mem_singleton_self msg)
      have hother : ackOf m msg = false := by simp [ackOf, horigin, Ne.symm hm]
      simp only [pending, upstream, List.filter_append, List.filter_cons, hother,
        List.filter_nil, List.append_nil, Bool.false_eq_true, if_false]
  · intro m out hout
    rcases mem_upstream.mp hout with hup | hup | hup | hup
    · exact Or.inl ⟨n, mem_upstream.mpr (Or.inl hup)⟩
    · rcases List.mem_append.mp hup with hold | hnew
      · exact Or.inl ⟨n, mem_upstream.mpr (Or.inr (Or.inl hold))⟩
      · rw [List.mem_singleton.mp hnew]
        exact Or.inl ⟨n, hmsg⟩
    · rw [hforwarded] at hup
      split at hup
      · cases hup
      · exact Or.inl ⟨m, mem_upstream.mpr (Or.inr (Or.inr (Or.inl hup)))⟩
    · rw [(hconns m).2.1] at hup
      exact Or.inl ⟨m, mem_upstream.mpr (Or.inr (Or.inr (Or.inr hup)))⟩
  · intro m out hout
    rw [(hconns m).2.2] at hout
    exact Or.inl hout
  · exact fun m => (hconns m).1
  · intro m out hout
    rw [hforwarded, (hconns m).2.1] at hout
    split at hout
    · exact List.mem_append_right _ hout
    · exact hout
  · exact fun _ _ _ hrouted => hrouted
  · exact fun _ _ hnotifying => hnotifying
  · exact id

end Nodes

section Reading

variable {label : Nat → UeLabel} {tr : List Event} {s : State} {n : Nat} {msg : SipMessage}
  {rest : List SipMessage}

theorem handleFromUe_routed {callId : Str} {b : Nat}
    (hinvite : msg.type = .invite → msg.callId = callId →
      s.pcscf.callToCallee.lookup callId = some msg.sipTo)
    (hregister : msg.type = .register → s.pcscf.callToCallee.lookup callId = some msg.impu →
      s.pcscf.ueByImpu.lookup msg.impu = some n)
    (hrouted : Routed s.pcscf callId b) : Routed (handleFromUe s n msg).1.pcscf callId b := by
  unfold handleFromUe
  split
  · rename_i htype
    obtain ⟨callee, hcallee, hphone⟩ := hrouted
    refine ⟨callee, hcallee, ?_⟩
    by_cases himpu : callee = msg.impu
    · rw [himpu, hregister htype (himpu ▸ hcallee)] at hphone
      rw [himpu, AList.lookup_insert, Option.some.inj hphone]
    · exact (AList.lookup_insert_ne himpu).trans hphone
  · rename_i htype
    exact routed_insert hrouted fun hid => hinvite htype hid.symm
  · exact hrouted

theorem handleFromUe_unnamed (himpu : msg.type = .register → msg.impu ≠ [])
    (h : s.pcscf.ueByImpu.lookup [] = none) :
    (handleFromUe s n msg).1.pcscf.ueByImpu.lookup [] = none := by
  unfold handleFromUe
  split
  · rename_i htype
    exact (AList.lookup_insert_ne (himpu htype).symm).trans h
  · exact h
  · exact h

theorem read_carried (hthread : (s.conns n).session.thread = .receiving)
    (huplink : (s.conns n).uplink = msg :: rest) (hlinks : PhoneLinks label s)
    (hguard : Undisturbed tr s (.pcscfRead n)) :
    Carried s (handleFromUe
      (setThread (s.modify n fun c => { c with uplink := rest }) n (.forwarding msg)) n msg).1 := by
  obtain ⟨hinvite, hregister⟩ := hguard msg (by rw [huplink]; rfl)
  generalize hs₁ : setThread (s.modify n fun c => { c with uplink := rest }) n (.forwarding msg) = s₁
  have hmodify : s₁.conns = Function.update s.conns n { s.conns n with
      uplink := rest
      session := { (s.conns n).session with thread := .forwarding msg } } := by
    rw [← hs₁, setThread, modify_modify]
    rfl
  have hpcscf : s₁.pcscf = s.pcscf := by rw [← hs₁]; rfl
  have henters := handleFromUe_enters s₁ n msg
  have hrest : s₁.toPcscf = s.toPcscf ∧ s₁.toScscf = s.toScscf := by
    rw [← hs₁]
    exact ⟨rfl, rfl⟩
  apply carried_in_place
  · exact henters.toPcscf.trans hrest.1
  · exact henters.toScscf.trans hrest.2
  · intro m
    rw [henters.thread m, henters.uplink m, hmodify, Function.update_apply]
    split
    · rename_i hm
      rw [hm, hthread, huplink]
      rfl
    · rfl
  · intro m out hout
    rw [henters.downlink m, hmodify, Function.update_apply] at hout
    split at hout
    · rename_i hm
      rw [hm]
      exact Or.inl hout
    · exact Or.inl hout
  · intro m
    rw [henters.ue m, hmodify, Function.update_apply]
    split
    · rename_i hm
      rw [hm]
    · rfl
  · intro callId b houtstanding hrouted
    apply handleFromUe_routed
    · rintro htype rfl
      rw [hpcscf]
      exact hinvite htype houtstanding
    · intro htype hcallee
      rw [hpcscf] at hcallee ⊢
      exact hregister htype callId houtstanding hcallee
    · rwa [hpcscf]
  · intro target out hnotifying
    rwa [henters.scscfThread, hpcscf] at hnotifying
  · intro hunnamed
    apply handleFromUe_unnamed
    · intro htype
      rw [(hlinks n msg (huplink ▸ List.mem_cons_self)).register htype]
      exact ueConfigs_impu_ne_nil (label n)
    · rwa [hpcscf]

theorem notify_carried (h : Inv tr s) {target : Str}
    (hthread : s.pcscf.scscfThread = .notifying target msg) : Carried s (notify s target msg).1 := by
  obtain ⟨htype, hacked⟩ := h.notifying target msg hthread
  have hdelivers := notify_delivers s target msg
  have hinvite : msg.type ≠ .invite := by
    rw [htype]
    simp
  apply carried_in_place
  · exact hdelivers.toPcscf
  · exact hdelivers.toScscf
  · intro m
    rw [hdelivers.thread m, hdelivers.uplink m]
  · intro m out hout
    rcases (notify_handsOn s target msg).downlink m out hout with hold | hnew
    · exact Or.inl hold
    · rw [List.mem_singleton.mp hnew]
      exact Or.inr ⟨hinvite, hacked⟩
  · exact hdelivers.ue
  · intro callId b _ hrouted
    rwa [hdelivers.pcscf]
  · intro other out hnotifying
    rw [hdelivers.pcscf] at hnotifying
    cases hnotifying
  · intro hunnamed
    rwa [hdelivers.pcscf]

end Reading

end MobileCore.OutstandingInvites
