import MobileCore.PayloadUplink

/-!
# The IMS of payloads does what the IMS of messages does

What is passed on represents the same message, and what a node writes represents what it means to
send.
-/

namespace MobileCore.LinkAgreement

open CppText LabelledRuns LastWrite SipFrames SipLinks SipPhones TlvMessages
open LayeredMachines (Layered)
open PayloadUplink (uplink)
open CallSessionControl (CallState Input ScscfNode cfgOf conferenceInvite invokeMtas nonEmptyOr
  notifiesCallee setCall)

/-- A frame is read up to a length. -/
def Fits (msg : SipMessage) (order : List SipTag) : Prop :=
  8 + (order.map fun tag => 4 + (field msg tag).length).sum ≤ 65536

instance (msg : SipMessage) (order : List SipTag) : Decidable (Fits msg order) :=
  inferInstanceAs (Decidable (_ ≤ _))

def writtenBy : Event → Option (SipMessage × List SipTag)
  | .wrote msg order => some (msg, order)
  | _ => none

def AllFit (es : List Event) : Prop := ∀ msg order, Event.wrote msg order ∈ es → Fits msg order

instance (es : List Event) : Decidable (AllFit es) :=
  decidable_of_iff (∀ e ∈ es, ∀ x ∈ writtenBy e, Fits x.1 x.2) <| by
    constructor
    · intro h msg order hmem
      exact h _ hmem (msg, order) rfl
    · rintro h e he ⟨msg, order⟩ hx
      cases e <;> cases hx
      exact h msg order he

theorem allFit_append {es es' : List Event} : AllFit (es ++ es') ↔ AllFit es ∧ AllFit es' := by
  constructor
  · intro h
    exact ⟨fun msg order hmem => h msg order (List.mem_append_left es' hmem),
      fun msg order hmem => h msg order (List.mem_append_right es hmem)⟩
  · rintro ⟨h, h'⟩ msg order hmem
    rcases List.mem_append.mp hmem with hmem | hmem
    · exact h msg order hmem
    · exact h' msg order hmem

theorem allFit_cons {e : Event} {es : List Event} (h : AllFit (e :: es)) : AllFit es :=
  fun msg order hmem => h msg order (List.mem_cons_of_mem e hmem)

section Sending

/-- What one node sends stands for the messages of the other. -/
inductive Sends : List Sent → List SipMessage → Prop where
  | nil : Sends [] []
  | forward {payload : Payload} {msg : SipMessage} {outs : List Sent} {msgs : List SipMessage}
      (h : Represents payload msg) (rest : Sends outs msgs) :
      Sends (.forward payload :: outs) (msg :: msgs)
  | frame {msg : SipMessage} {order : List SipTag} {outs : List Sent} {msgs : List SipMessage}
      (origin : Nat) (h : Covers order msg) (rest : Sends outs msgs) :
      Sends (.frame msg order :: outs) ({ msg with origin } :: msgs)
  | sar {impu impi : Str} {outs : List Sent} {msgs : List SipMessage} (rest : Sends outs msgs) :
      Sends (.sar impu impi :: outs) msgs

theorem Sends.payloads {outs : List Sent} {msgs : List SipMessage} (h : Sends outs msgs)
    (hfit : AllFit (wrote outs)) (seq : UInt32) :
    List.Forall₂ Represents (payloads seq outs) msgs := by
  induction h generalizing seq with
  | nil => exact .nil
  | forward h _ ih => exact .cons h (ih hfit seq)
  | @frame msg order _ _ origin h _ ih =>
      have hfits : Fits msg order := hfit msg order List.mem_cons_self
      exact .cons ((represents_written ⟨msg, order, seq, h, hfits⟩).origin origin)
        (ih (allFit_cons hfit) (seq + 1))
  | sar _ ih => exact ih hfit (seq + 1)

theorem Sends.append {outs outs' : List Sent} {msgs msgs' : List SipMessage} (h : Sends outs msgs)
    (h' : Sends outs' msgs') : Sends (outs ++ outs') (msgs ++ msgs') := by
  induction h with
  | nil => exact h'
  | forward h _ ih => exact .forward h ih
  | frame origin h _ ih => exact .frame origin h ih
  | sar _ ih => exact .sar ih

end Sending

section Agreement

def ThreadAgrees : UeThread → CallSessionControl.UeThread → Prop
  | .receiving, .receiving => True
  | .forwarding payload msg, .forwarding msg' =>
    Represents payload msg' ∧ msg = restrict Handler.pcscfFromUe.tags msg'
  | .cleaningUp callId, .cleaningUp callId' => callId = callId'
  | _, _ => False

structure SessionAgrees (s : UeSession) (t : CallSessionControl.UeSession) : Prop where
  impu : s.impu = t.impu
  ip : s.ip = t.ip
  registered : s.registered = t.registered
  thread : ThreadAgrees s.thread t.thread

structure ConnAgrees (c : Conn) (d : CallSessionControl.Conn) : Prop where
  ue : c.ue = d.ue
  uplink : List.Forall₂ Represents c.uplink d.uplink
  downlink : List.Forall₂ Represents c.downlink d.downlink
  session : SessionAgrees c.session d.session

def ScscfThreadAgrees : ScscfThread → CallSessionControl.ScscfThread → Prop
  | .receiving, .receiving => True
  | .notifying target payload msg, .notifying target' msg' =>
    target = target' ∧ Represents payload msg' ∧ msg = restrict Handler.pcscfFromScscf.tags msg'
  | _, _ => False

structure PcscfAgrees (p : PcscfNode) (q : CallSessionControl.PcscfNode) : Prop where
  ueByImpu : p.ueByImpu = q.ueByImpu
  callToCaller : p.callToCaller = q.callToCaller
  callToCallee : p.callToCallee = q.callToCallee
  callInviteDelivered : p.callInviteDelivered = q.callInviteDelivered
  scscfThread : ScscfThreadAgrees p.scscfThread q.scscfThread

/-- The nodes hold the same, and on the links the payloads represent the messages. -/
structure Agrees (s : State) (t : CallSessionControl.State) : Prop where
  conns : ∀ n, ConnAgrees (s.conns n) (t.conns n)
  pcscf : PcscfAgrees s.pcscf t.pcscf
  toScscf : List.Forall₂ Represents s.toScscf t.toScscf
  toPcscf : List.Forall₂ Represents s.toPcscf t.toPcscf
  scscf : s.scscf = t.scscf

inductive Shows : Event → CallSessionControl.Event → Prop where
  | registered (impu : Str) : Shows (.registered impu) (.registered impu)
  | callerMapped (callId caller : Str) :
      Shows (.callerMapped callId caller) (.callerMapped callId caller)
  | callerErased (callId : Str) : Shows (.callerErased callId) (.callerErased callId)
  | delivered {payload : Payload} {msg : SipMessage} (n : Nat) (h : Represents payload msg) :
      Shows (.delivered n payload) (.delivered n msg)
  | undelivered {payload : Payload} {msg : SipMessage} (target : Str)
      (h : Represents payload msg) : Shows (.undelivered target payload) (.undelivered target msg)

def shown : Event → Bool
  | .wrote _ _ => false
  | _ => true

/-- What both networks show. -/
def Shown (es : List Event) (es' : List CallSessionControl.Event) : Prop :=
  List.Forall₂ Shows (es.filter shown) es'

theorem Shown.append {es fs : List Event} {es' fs' : List CallSessionControl.Event}
    (h : Shown es es') (h' : Shown fs fs') : Shown (es ++ fs) (es' ++ fs') := by
  rw [Shown, List.filter_append]
  exact List.rel_append h h'

theorem filter_wrote (outs : List Sent) : (wrote outs).filter shown = [] := by
  induction outs with
  | nil => rfl
  | cons out outs ih =>
      cases out with
      | frame msg order => exact ih
      | _ => exact ih

/-- One network has come to `r` and the other one to `q`. -/
def Matches (r : State × List Event) (q : CallSessionControl.State × List CallSessionControl.Event) :
    Prop :=
  AllFit r.2 → Agrees r.1 q.1 ∧ Shown r.2 q.2

variable {s : State} {t : CallSessionControl.State}

theorem Agrees.modify (h : Agrees s t) {n : Nat} {f : Conn → Conn}
    {g : CallSessionControl.Conn → CallSessionControl.Conn}
    (hconn : ConnAgrees (f (s.conns n)) (g (t.conns n))) :
    Agrees (s.modify n f) (t.modify n g) := by
  refine ⟨fun m => ?_, h.pcscf, h.toScscf, h.toPcscf, h.scscf⟩
  rw [State.modify_conns, CallSessionControl.State.modify_conns]
  split
  · exact hconn
  · exact h.conns m

theorem Agrees.setThread (h : Agrees s t) {n : Nat} {thread : UeThread}
    {thread' : CallSessionControl.UeThread} (hthread : ThreadAgrees thread thread') :
    Agrees (setThread s n thread) (CallSessionControl.setThread t n thread') := by
  have hconn := h.conns n
  have hsession := hconn.session
  exact h.modify ⟨hconn.ue, hconn.uplink, hconn.downlink,
    hsession.impu, hsession.ip, hsession.registered, hthread⟩

theorem Agrees.setUplink (h : Agrees s t) (n : Nat) {link : List Payload}
    {link' : List SipMessage} (hlink : List.Forall₂ Represents link link') :
    Agrees (s.modify n fun c => { c with uplink := link })
      (t.modify n fun c => { c with uplink := link' }) := by
  have hconn := h.conns n
  exact h.modify ⟨hconn.ue, hlink, hconn.downlink, hconn.session⟩

theorem Agrees.setDownlink (h : Agrees s t) (n : Nat) {link : List Payload}
    {link' : List SipMessage} (hlink : List.Forall₂ Represents link link') :
    Agrees (s.modify n fun c => { c with downlink := link })
      (t.modify n fun c => { c with downlink := link' }) := by
  have hconn := h.conns n
  exact h.modify ⟨hconn.ue, hconn.uplink, hlink, hconn.session⟩

end Agreement

section Phones

variable {cfg : UeConfig} {ue : Ue} {order : List SipTag}

theorem covers_of_fields {msg : SipMessage} (h : ∀ tag, tag ∈ order ∨ field msg tag = []) :
    Covers order msg := fun tag htag => (h tag).resolve_left htag

/-- What a phone sends has no field that it does not write. -/
def Covered (order : List SipTag) (out : Outcome) : Prop := ∀ msg ∈ out.2, Covers order msg

theorem covered_stay : Covered order (stay ue) := by
  intro msg hmsg
  cases hmsg

theorem covered_send {msg : SipMessage} (h : Covers order msg) : Covered order (send ue msg) := by
  intro out hout
  obtain rfl := List.mem_singleton.mp hout
  exact h

theorem covered_sendInvite (hfrom : .sipFrom ∈ order) (hto : .sipTo ∈ order) (hcall : .callId ∈ order)
    (hsdp : .sdp ∈ order) (sipTo sdp : Str) : Covered order (sendInvite cfg ue sipTo sdp) := by
  apply covered_send
  apply covers_of_fields
  rintro (_ | _)
  all_goals first | exact Or.inl ‹_› | exact Or.inr rfl

theorem covered_processCommand (cmd : Command) :
    Covered (commandOrder cmd) (processCommand cfg ue cmd) := by
  have hinvite (ue' : Ue) (sipTo sdp : Str) (cmd : Command)
      (hcmd : ∀ tag ∈ conferenceOrder, tag ∈ commandOrder cmd) :
      Covered (commandOrder cmd) (sendInvite cfg ue' sipTo sdp) :=
    covered_sendInvite (hcmd _ (by decide)) (hcmd _ (by decide)) (hcmd _ (by decide))
      (hcmd _ (by decide)) sipTo sdp
  cases cmd with
  | register =>
      rw [processCommand, doRegister]
      split
      · exact covered_stay
      · apply covered_send
        apply covers_of_fields
        intro tag
        cases tag
        all_goals first | exact Or.inr rfl | exact Or.inl (by decide)
  | call target behind =>
      refine guarded covered_stay fun _ => ?_
      split
      · exact covered_stay
      · exact hinvite _ _ _ (.call target behind) (by simp [commandOrder, conferenceOrder])
  | accept =>
      refine guarded covered_stay fun _ => covered_send (covers_of_fields fun tag => ?_)
      cases tag
      all_goals first | exact Or.inr rfl | exact Or.inl (by decide)
  | reject =>
      refine guarded covered_stay fun _ => covered_send (covers_of_fields fun tag => ?_)
      cases tag
      all_goals first | exact Or.inr rfl | exact Or.inl (by decide)
  | conference third =>
      refine guarded covered_stay fun _ => ?_
      split
      · exact covered_stay
      · exact hinvite _ _ _ (.conference third) (by simp [commandOrder, conferenceOrder])
  | bye =>
      refine guarded covered_stay fun _ => covered_send (covers_of_fields fun tag => ?_)
      cases tag
      all_goals first | exact Or.inr rfl | exact Or.inl (by decide)
  | hold => exact guarded covered_stay fun _ => hinvite _ _ _ .hold (by decide)
  | resume => exact guarded covered_stay fun _ => hinvite _ _ _ .resume (by decide)
  | update => exact guarded covered_stay fun _ => hinvite _ _ _ .update (by decide)
  | video => exact guarded covered_stay fun _ => hinvite _ _ _ .video (by decide)
  | voice => exact guarded covered_stay fun _ => hinvite _ _ _ .voice (by decide)

theorem covered_handleIncoming (msg : SipMessage) :
    Covered ackOrder (handleIncoming cfg ue msg) := by
  rw [handleIncoming]
  split
  · rw [incoming200Ok]
    split
    · exact covered_stay
    split
    · refine covered_send (covers_of_fields fun tag => ?_)
      cases tag
      all_goals first | exact Or.inr rfl | exact Or.inl (by decide)
    split
    · exact covered_stay
    split
    · exact covered_stay
    · exact covered_stay
  · rw [incomingInvite]
    split
    · exact covered_stay
    · exact covered_stay
  · exact covered_stay

theorem handleIncoming_restrict (msg : SipMessage) :
    handleIncoming cfg ue (restrict Handler.ueIncoming.tags msg) = handleIncoming cfg ue msg := rfl

variable {s : State} {t : CallSessionControl.State}

theorem sends_frames (n : Nat) {msgs : List SipMessage} (h : ∀ msg ∈ msgs, Covers order msg) :
    Sends (msgs.map fun msg => .frame msg order)
      (msgs.map fun msg => { msg with origin := n }) := by
  induction msgs with
  | nil => exact .nil
  | cons msg msgs ih =>
      exact .frame n (h msg List.mem_cons_self) (ih fun msg hmsg => h msg (List.mem_cons_of_mem _ hmsg))

theorem phoneStep_matches (h : Agrees s t) (n : Nat) {out : Outcome} (hout : Covered order out) :
    Matches (phoneStep s n out order) (CallSessionControl.phoneStep t n out, []) := by
  intro hfit
  have hconn := h.conns n
  constructor
  · have hsent := (sends_frames n hout).payloads hfit (s.conns n).ue.nextSeq
    dsimp only [SipLinks.phoneStep, CallSessionControl.phoneStep]
    exact h.modify ⟨rfl, List.rel_append hconn.uplink hsent, hconn.downlink, hconn.session⟩
  · show List.Forall₂ Shows ((wrote _).filter shown) []
    rw [filter_wrote]
    exact .nil

end Phones

section Pcscf

variable {s : State} {t : CallSessionControl.State} {payload : Payload} {msg : SipMessage}

theorem restrict_pcscfFromScscf (msg : SipMessage) :
    restrict Handler.pcscfFromScscf.tags msg =
      { msg with impu := [], impi := [], contact := [], origin := 0 } := rfl

theorem restrict_pcscfFromUe (msg : SipMessage) :
    restrict Handler.pcscfFromUe.tags msg = { msg with reason := [], origin := 0 } := rfl

theorem shown_single {e : Event} {e' : CallSessionControl.Event} (h : Shows e e') :
    Shown [e] [e'] := by
  cases h <;> exact .cons (by constructor; try assumption) .nil

theorem handleFromUe_matches (h : Agrees s t) (n : Nat) (msg : SipMessage) :
    Matches (handleFromUe s n (restrict Handler.pcscfFromUe.tags msg))
      (CallSessionControl.handleFromUe t n msg) := by
  intro _
  have hp := h.pcscf
  have hconn := h.conns n
  have hsession := hconn.session
  rw [restrict_pcscfFromUe, SipLinks.handleFromUe, CallSessionControl.handleFromUe]
  dsimp only
  cases msg.type with
  | register =>
      have hentered := h.modify (n := n)
        (f := fun c => { c with session := { c.session with impu := msg.impu, ip := msg.contact } })
        (g := fun c => { c with session := { c.session with impu := msg.impu, ip := msg.contact } })
        ⟨hconn.ue, hconn.uplink, hconn.downlink, rfl, rfl, hsession.registered, hsession.thread⟩
      have htable : s.pcscf.ueByImpu.insert msg.impu n = t.pcscf.ueByImpu.insert msg.impu n := by
        rw [hp.ueByImpu]
      exact ⟨⟨hentered.conns, ⟨htable, hp.callToCaller, hp.callToCallee, hp.callInviteDelivered,
        hp.scscfThread⟩, h.toScscf, h.toPcscf, h.scscf⟩, shown_single (.registered msg.impu)⟩
  | invite =>
      have hcaller : nonEmptyOr msg.sipFrom (s.conns n).session.impu =
          nonEmptyOr msg.sipFrom (t.conns n).session.impu := by
        rw [hsession.impu]
      dsimp only
      rw [hcaller, hp.callToCaller, hp.callToCallee]
      exact ⟨⟨h.conns, ⟨hp.ueByImpu, rfl, rfl, hp.callInviteDelivered, hp.scscfThread⟩, h.toScscf,
        h.toPcscf, h.scscf⟩, shown_single (.callerMapped _ _)⟩
  | _ => exact ⟨h, .nil⟩

theorem sendToUe_matches (h : Agrees s t) (hmsg : Represents payload msg) (impu : Str) :
    Matches (sendToUe s impu payload) (CallSessionControl.sendToUe t impu msg) := by
  intro _
  rw [SipLinks.sendToUe, CallSessionControl.sendToUe, h.pcscf.ueByImpu]
  cases t.pcscf.ueByImpu.lookup impu with
  | none => exact ⟨h, shown_single (.undelivered impu hmsg)⟩
  | some n =>
      have hconn := h.conns n
      have hdownlink := List.rel_append hconn.downlink (.cons hmsg .nil)
      dsimp only
      exact ⟨h.modify ⟨hconn.ue, hconn.uplink, hdownlink, hconn.session⟩,
        shown_single (.delivered n hmsg)⟩

theorem deliver_matches (h : Agrees s t) (hmsg : Represents payload msg) (target : Str) :
    Matches (deliver s target payload) (CallSessionControl.deliver t target msg) := by
  rw [SipLinks.deliver, CallSessionControl.deliver]
  split
  · exact fun _ => ⟨h, shown_single (.undelivered target hmsg)⟩
  · exact sendToUe_matches h hmsg target

theorem callerOf_eq (h : Agrees s t) (callId : Str) :
    callerOf s.pcscf callId = CallSessionControl.callerOf t.pcscf callId := by
  rw [callerOf, CallSessionControl.callerOf, h.pcscf.callToCaller]

theorem calleeOf_eq (h : Agrees s t) (callId : Str) :
    calleeOf s.pcscf callId = CallSessionControl.calleeOf t.pcscf callId := by
  rw [calleeOf, CallSessionControl.calleeOf, h.pcscf.callToCallee]

theorem allFit_sendToUe (s : State) (impu : Str) (payload : Payload) :
    AllFit (sendToUe s impu payload).2 := by
  intro msg order hmem
  rw [SipLinks.sendToUe] at hmem
  split at hmem
  · cases List.mem_singleton.mp hmem
  · cases List.mem_singleton.mp hmem

theorem allFit_deliver (s : State) (target : Str) (payload : Payload) :
    AllFit (deliver s target payload).2 := by
  rw [SipLinks.deliver]
  split
  · intro msg order hmem
    cases List.mem_singleton.mp hmem
  · exact allFit_sendToUe s target payload

theorem notify_matches (h : Agrees s t) (hmsg : Represents payload msg) (target : Str) :
    Matches (notify s target payload (restrict Handler.pcscfFromScscf.tags msg))
      (CallSessionControl.notify t target msg) := by
  intro _
  have hp := h.pcscf
  have hfree : Agrees { s with pcscf := { s.pcscf with scscfThread := .receiving } }
      { t with pcscf := { t.pcscf with scscfThread := .receiving } } :=
    ⟨h.conns, ⟨hp.ueByImpu, hp.callToCaller, hp.callToCallee, hp.callInviteDelivered, trivial⟩,
      h.toScscf, h.toPcscf, h.scscf⟩
  have hcallee := calleeOf_eq hfree msg.callId
  rw [restrict_pcscfFromScscf, SipLinks.notify, CallSessionControl.notify]
  dsimp only at hcallee ⊢
  rw [hcallee]
  obtain ⟨hagrees, hshown⟩ := deliver_matches hfree hmsg _ (allFit_deliver _ _ _)
  obtain ⟨hagrees', hshown'⟩ := deliver_matches hagrees hmsg target (allFit_deliver _ _ _)
  exact ⟨hagrees', hshown.append hshown'⟩

theorem route200Ok_matches (h : Agrees s t) (hmsg : Represents payload msg) :
    Matches (route200Ok s payload (restrict Handler.pcscfFromScscf.tags msg))
      (CallSessionControl.route200Ok t msg) := by
  rw [restrict_pcscfFromScscf, SipLinks.route200Ok, CallSessionControl.route200Ok]
  dsimp only
  split
  · apply deliver_matches _ hmsg
    rw [h.pcscf.ueByImpu]
    cases t.pcscf.ueByImpu.lookup (nonEmptyOr msg.sipFrom msg.sipTo) with
    | none => exact h
    | some n =>
        have hconn := h.conns n
        have hsession := hconn.session
        dsimp only
        exact h.modify ⟨hconn.ue, hconn.uplink, hconn.downlink, hsession.impu, hsession.ip, rfl,
          hsession.thread⟩
  · rw [callerOf_eq h]
    split
    · have hp := h.pcscf
      exact fun _ => ⟨⟨h.conns, ⟨hp.ueByImpu, hp.callToCaller, hp.callToCallee,
        hp.callInviteDelivered, rfl, hmsg, rfl⟩, h.toScscf, h.toPcscf, h.scscf⟩, .nil⟩
    · exact deliver_matches h hmsg _

theorem enterInvite_agrees (h : Agrees s t) (msg : SipMessage) :
    PcscfAgrees (enterInvite s.pcscf (restrict Handler.pcscfFromScscf.tags msg)).1
        (CallSessionControl.enterInvite t.pcscf msg).1 ∧
      Shown (enterInvite s.pcscf (restrict Handler.pcscfFromScscf.tags msg)).2
        (CallSessionControl.enterInvite t.pcscf msg).2 := by
  have hp := h.pcscf
  rw [restrict_pcscfFromScscf, SipLinks.enterInvite, CallSessionControl.enterInvite]
  dsimp only
  rw [hp.callToCaller, hp.callToCallee, hp.callInviteDelivered]
  by_cases hcallee : t.pcscf.callToCallee.lookup msg.callId = none ∧ msg.sipTo ≠ []
  · simp only [if_pos hcallee]
    split
    · exact ⟨⟨hp.ueByImpu, rfl, rfl, rfl, hp.scscfThread⟩, shown_single (.callerMapped _ _)⟩
    · exact ⟨⟨hp.ueByImpu, rfl, rfl, rfl, hp.scscfThread⟩, .nil⟩
  · simp only [if_neg hcallee]
    split
    · exact ⟨⟨hp.ueByImpu, rfl, rfl, rfl, hp.scscfThread⟩, shown_single (.callerMapped _ _)⟩
    · exact ⟨⟨hp.ueByImpu, rfl, rfl, rfl, hp.scscfThread⟩, .nil⟩

theorem covers_ring (msg : SipMessage) : Covers ringOrder (ring msg) := by
  apply covers_of_fields
  intro tag
  cases tag
  all_goals first | exact Or.inr rfl | exact Or.inl (by decide)

theorem routeInvite_matches (h : Agrees s t) (hmsg : Represents payload msg) :
    Matches (routeInvite s payload (restrict Handler.pcscfFromScscf.tags msg))
      (CallSessionControl.routeInvite t msg) := by
  obtain ⟨hp, hentered⟩ := enterInvite_agrees h msg
  rw [restrict_pcscfFromScscf] at hp hentered ⊢
  rw [SipLinks.routeInvite, CallSessionControl.routeInvite, h.pcscf.callInviteDelivered]
  dsimp only
  split
  · exact sendToUe_matches h hmsg msg.sipTo
  · generalize SipLinks.enterInvite s.pcscf _ = e at *
    generalize CallSessionControl.enterInvite t.pcscf msg = e' at *
    obtain ⟨p, entered⟩ := e
    obtain ⟨p', entered'⟩ := e'
    dsimp only at hp hentered ⊢
    intro hfit
    have hagrees : Agrees { s with pcscf := p } { t with pcscf := p' } :=
      ⟨h.conns, hp, h.toScscf, h.toPcscf, h.scscf⟩
    obtain ⟨hsent, hsentShown⟩ := sendToUe_matches hagrees hmsg msg.sipTo (allFit_sendToUe _ _ _)
    generalize SipLinks.sendToUe _ msg.sipTo payload = r at *
    generalize CallSessionControl.sendToUe _ msg.sipTo msg = q at *
    obtain ⟨s₁, toCallee⟩ := r
    obtain ⟨t₁, toCallee'⟩ := q
    dsimp only at hfit hsent hsentShown ⊢
    have hp₁ := hsent.pcscf
    have hnumbered : Agrees { s₁ with pcscf := { s₁.pcscf with nextSeq := s₁.pcscf.nextSeq + 1 } }
        t₁ :=
      ⟨hsent.conns, ⟨hp₁.ueByImpu, hp₁.callToCaller, hp₁.callToCallee, hp₁.callInviteDelivered,
        hp₁.scscfThread⟩, hsent.toScscf, hsent.toPcscf, hsent.scscf⟩
    have hring : Represents (write (ring { msg with impu := [], impi := [], contact := [], origin := 0 })
        ringOrder s₁.pcscf.nextSeq).udpPayload (CallSessionControl.ring msg) := by
      apply (represents_written ⟨_, ringOrder, _, covers_ring _, _⟩).origin msg.origin
      apply hfit
      simp
    obtain ⟨hrung, hrungShown⟩ :=
      sendToUe_matches hnumbered hring msg.sipFrom (allFit_sendToUe _ _ _)
    exact ⟨hrung, hentered.append (hsentShown.append hrungShown)⟩

theorem handleFromScscf_matches (h : Agrees s t) (hmsg : Represents payload msg) :
    Matches (handleFromScscf s payload (restrict Handler.pcscfFromScscf.tags msg))
      (CallSessionControl.handleFromScscf t msg) := by
  have hroute := routeInvite_matches h hmsg
  have hanswer := route200Ok_matches h hmsg
  rw [restrict_pcscfFromScscf] at hroute hanswer ⊢
  rw [SipLinks.handleFromScscf, CallSessionControl.handleFromScscf]
  dsimp only
  rw [callerOf_eq h, calleeOf_eq h]
  cases htype : msg.type with
  | invite =>
      rw [htype] at hroute
      exact hroute
  | ok200 =>
      rw [htype] at hanswer
      exact hanswer
  | _ => exact deliver_matches h hmsg _

end Pcscf

section Scscf

def Handles (r : ScscfNode × List Sent) (q : ScscfNode × List SipMessage) : Prop :=
  r.1 = q.1 ∧ Sends r.2 q.2

variable {payload : Payload} {msg : SipMessage} (node : ScscfNode)

theorem restrict_scscfInvite (msg : SipMessage) :
    restrict Handler.scscfInvite.tags msg =
      { msg with impu := [], impi := [], contact := [], reason := [], origin := 0 } := rfl

theorem covers_response (msg : SipMessage) (hpart : field msg .impu = [] ∧ field msg .impi = [] ∧
    field msg .contact = []) : Covers (responseOrder msg) msg := by
  obtain ⟨himpu, himpi, hcontact⟩ := hpart
  rw [responseOrder]
  intro tag htag
  rw [List.mem_append, not_or] at htag
  obtain ⟨hfixed, hsdp⟩ := htag
  cases tag with
  | impu => exact himpu
  | impi => exact himpi
  | contact => exact hcontact
  | sdp =>
      split at hsdp
      · assumption
      · exact absurd List.mem_cons_self hsdp
  | _ => exact absurd (by decide) hfixed

theorem sends_response {outs : List Sent} {msgs : List SipMessage} (req : SipMessage)
    (type : SipMsgType) (callId sipFrom sipTo : Str) (reason : String) (rest : Sends outs msgs) :
    Sends (sendSipResponse type callId sipFrom sipTo reason :: outs)
      (CallSessionControl.sendSipResponse req type callId sipFrom sipTo reason :: msgs) :=
  .frame req.origin (covers_response _ ⟨rfl, rfl, rfl⟩) rest

theorem sends_conference (cs : CallState) (msg : SipMessage) :
    Sends [.frame (conferenceInvite cs (restrict Handler.scscfInvite.tags msg)) conferenceOrder]
      [conferenceInvite cs msg] := by
  apply Sends.frame msg.origin _ .nil
  apply covers_of_fields
  intro tag
  cases tag
  all_goals first | exact Or.inr rfl | exact Or.inl (by decide)

theorem handleRegister_handles (msg : SipMessage) :
    Handles (handleRegister node (restrict Handler.scscfRegister.tags msg))
      (CallSessionControl.handleRegister node msg) :=
  ⟨rfl, .sar (sends_response msg _ _ _ _ _ .nil)⟩

theorem handleReInvite_handles (h : Represents payload msg) (cs : CallState) :
    Handles (handleReInvite node cs payload (restrict Handler.scscfInvite.tags msg) msg.sipTo)
      (CallSessionControl.handleReInvite node cs msg) := by
  have hconference := sends_conference cs msg
  have hanswer (reason : String) := sends_response msg .ok200 msg.callId cs.callerImpu cs.calleeImpu
    reason .nil
  rw [restrict_scscfInvite] at hconference ⊢
  rw [SipLinks.handleReInvite, CallSessionControl.handleReInvite]
  dsimp only at hconference ⊢
  split
  · exact ⟨rfl, .forward h (hanswer _)⟩
  split
  · refine ⟨rfl, Sends.append ?_ (hanswer _)⟩
    split
    · exact .nil
    · exact hconference
  split
  · exact ⟨rfl, .forward h (hanswer _)⟩
  · exact ⟨rfl, .forward h (hanswer _)⟩

theorem handleInvite_handles (h : Represents payload msg) :
    ∃ r, handleInvite node payload (restrict Handler.scscfInvite.tags msg) = some r ∧
      Handles r (CallSessionControl.handleInvite node msg) := by
  have hreInvite := handleReInvite_handles node h
  have hfirst : readFirst .sipTo (MessageReader.create payload).toCursor = some msg.sipTo :=
    h.first .sipTo
  have hresponse {outs : List Sent} {msgs : List SipMessage} (type : SipMsgType) (reason : String)
      (rest : Sends outs msgs) :=
    sends_response msg type msg.callId msg.sipFrom msg.sipTo reason rest
  rw [restrict_scscfInvite] at hreInvite ⊢
  rw [SipLinks.handleInvite, CallSessionControl.handleInvite]
  dsimp only
  cases node.calls.lookup msg.callId with
  | some cs =>
      rw [hfirst]
      exact ⟨_, rfl, hreInvite cs⟩
  | none =>
      dsimp only
      split
      · exact ⟨_, rfl, rfl, hresponse _ _ (.forward h (hresponse _ _ .nil))⟩
      · exact ⟨_, rfl, rfl, hresponse _ _ (hresponse _ _ .nil)⟩

theorem forwardKnown_sends (h : Represents payload msg) (callId : Str) (hcall : callId = msg.callId) :
    Sends (forwardKnown node payload callId) (CallSessionControl.forwardKnown node msg) := by
  rw [SipLinks.forwardKnown, CallSessionControl.forwardKnown, hcall]
  split
  · exact .forward h .nil
  · exact .nil

theorem scscfHandle_handles (h : Represents payload msg) :
    ∃ r, scscfHandle node payload = some r ∧ Handles r (CallSessionControl.scscfHandle node msg) := by
  rw [SipLinks.scscfHandle, CallSessionControl.scscfHandle, h.type]
  cases htype : msg.type with
  | register =>
      dsimp only
      rw [h.read]
      exact ⟨_, rfl, handleRegister_handles node msg⟩
  | invite =>
      dsimp only
      rw [h.read, Option.bind_some]
      exact handleInvite_handles node h
  | ack =>
      dsimp only
      rw [handleAck, h.first]
      exact ⟨_, rfl, rfl, forwardKnown_sends node h _ rfl⟩
  | ok200 =>
      dsimp only
      rw [h.read]
      exact ⟨_, rfl, rfl, .forward h .nil⟩
  | bye =>
      dsimp only
      rw [h.read]
      exact ⟨_, rfl, rfl, sends_response msg _ _ _ _ _ (.forward h .nil)⟩
  | cancel =>
      dsimp only
      rw [h.read]
      exact ⟨_, rfl, rfl, (forwardKnown_sends node h _ rfl).append (sends_response msg _ _ _ _ _ .nil)⟩
  | _ => exact ⟨_, rfl, rfl, .nil⟩

end Scscf

section Steps

variable (label : Nat → UeLabel) {s : State} {t : CallSessionControl.State}

theorem command_matches (h : Agrees s t) (n : Nat) (cmd : Command) :
    Option.Rel Matches (step label s (.command n cmd))
      (CallSessionControl.step label t (.command n cmd)) := by
  rw [SipLinks.step, CallSessionControl.step, (h.conns n).ue]
  exact .some (phoneStep_matches h n (covered_processCommand cmd))

theorem ueReceive_matches (h : Agrees s t) (n : Nat) :
    Option.Rel Matches (step label s (.ueReceive n)) (CallSessionControl.step label t (.ueReceive n)) := by
  have hconn := h.conns n
  have hlink := hconn.downlink
  rw [SipLinks.step, CallSessionControl.step, hconn.ue]
  generalize (s.conns n).downlink = link at hlink ⊢
  generalize (t.conns n).downlink = link' at hlink ⊢
  cases hlink with
  | nil => exact .none
  | @cons payload msg _ rest' hmsg hrest =>
      have hue : ((t.modify n fun c => { c with downlink := rest' }).conns n).ue = (t.conns n).ue := by
        rw [CallSessionControl.State.modify_conns, if_pos rfl]
      dsimp only
      rw [hmsg.read, Option.map_some, handleIncoming_restrict, hue]
      exact .some (phoneStep_matches (h.setDownlink n hrest) n (covered_handleIncoming msg))

theorem pcscfRead_matches (h : Agrees s t) (n : Nat) :
    Option.Rel Matches (step label s (.pcscfRead n)) (CallSessionControl.step label t (.pcscfRead n)) := by
  have hconn := h.conns n
  have hlink := hconn.uplink
  have hthread := hconn.session.thread
  rw [SipLinks.step, CallSessionControl.step]
  generalize (s.conns n).uplink = link at hlink ⊢
  generalize (t.conns n).uplink = link' at hlink ⊢
  generalize (s.conns n).session.thread = thread at hthread ⊢
  generalize (t.conns n).session.thread = thread' at hthread ⊢
  cases thread with
  | receiving =>
      cases thread' with
      | receiving =>
          cases hlink with
          | nil => exact .none
          | @cons payload msg _ _ hmsg hrest =>
              have hthread : ThreadAgrees
                  (.forwarding payload (restrict Handler.pcscfFromUe.tags msg)) (.forwarding msg) :=
                ⟨hmsg, rfl⟩
              dsimp only
              rw [hmsg.read, Option.map_some]
              exact .some (handleFromUe_matches ((h.setUplink n hrest).setThread hthread) n msg)
      | _ => exact hthread.elim
  | forwarding payload msg =>
      cases thread' with
      | forwarding msg' => exact .none
      | _ => exact hthread.elim
  | cleaningUp callId =>
      cases thread' with
      | cleaningUp callId' => exact .none
      | _ => exact hthread.elim

theorem pcscfForward_matches (h : Agrees s t) (n : Nat) :
    Option.Rel Matches (step label s (.pcscfForward n))
      (CallSessionControl.step label t (.pcscfForward n)) := by
  have hthread := (h.conns n).session.thread
  rw [SipLinks.step, CallSessionControl.step]
  generalize (s.conns n).session.thread = thread at hthread ⊢
  generalize (t.conns n).session.thread = thread' at hthread ⊢
  cases thread with
  | forwarding payload msg =>
      cases thread' with
      | forwarding msg' =>
          obtain ⟨hmsg, rfl⟩ := hthread
          have hsent : Agrees { s with toScscf := s.toScscf ++ [payload] }
              { t with toScscf := t.toScscf ++ [msg'] } :=
            ⟨h.conns, h.pcscf, List.rel_append h.toScscf (.cons hmsg .nil), h.toPcscf, h.scscf⟩
          refine .some fun _ => ⟨hsent.setThread ?_, .nil⟩
          rw [restrict_pcscfFromUe]
          dsimp only
          split
          · exact rfl
          · exact trivial
      | _ => exact hthread.elim
  | receiving =>
      cases thread' with
      | receiving => exact .none
      | _ => exact hthread.elim
  | cleaningUp callId =>
      cases thread' with
      | cleaningUp callId' => exact .none
      | _ => exact hthread.elim

theorem cleanUp_agrees (h : Agrees s t) (callId : Str) :
    PcscfAgrees (cleanUp s.pcscf callId) (CallSessionControl.cleanUp t.pcscf callId) := by
  have hp := h.pcscf
  rw [SipLinks.cleanUp, CallSessionControl.cleanUp, hp.callToCaller, hp.callToCallee,
    hp.callInviteDelivered]
  exact ⟨hp.ueByImpu, rfl, rfl, rfl, hp.scscfThread⟩

theorem pcscfCleanUp_matches (h : Agrees s t) (n : Nat) :
    Option.Rel Matches (step label s (.pcscfCleanUp n))
      (CallSessionControl.step label t (.pcscfCleanUp n)) := by
  have hthread := (h.conns n).session.thread
  rw [SipLinks.step, CallSessionControl.step]
  generalize (s.conns n).session.thread = thread at hthread ⊢
  generalize (t.conns n).session.thread = thread' at hthread ⊢
  cases thread with
  | cleaningUp callId =>
      cases thread' with
      | cleaningUp callId' =>
          obtain rfl : callId = callId' := hthread
          have hcleaned : Agrees { s with pcscf := cleanUp s.pcscf callId }
              { t with pcscf := CallSessionControl.cleanUp t.pcscf callId } :=
            ⟨h.conns, cleanUp_agrees h callId, h.toScscf, h.toPcscf, h.scscf⟩
          exact .some fun _ => ⟨hcleaned.setThread trivial, shown_single (.callerErased callId)⟩
      | _ => exact hthread.elim
  | receiving =>
      cases thread' with
      | receiving => exact .none
      | _ => exact hthread.elim
  | forwarding payload msg =>
      cases thread' with
      | forwarding msg' => exact .none
      | _ => exact hthread.elim

theorem pcscfReceive_matches (h : Agrees s t) :
    Option.Rel Matches (step label s .pcscfReceive) (CallSessionControl.step label t .pcscfReceive) := by
  have hthread := h.pcscf.scscfThread
  have hlink := h.toPcscf
  rw [SipLinks.step, CallSessionControl.step]
  generalize s.pcscf.scscfThread = thread at hthread ⊢
  generalize t.pcscf.scscfThread = thread' at hthread ⊢
  cases thread with
  | receiving =>
      cases thread' with
      | receiving =>
          generalize s.toPcscf = link at hlink ⊢
          generalize t.toPcscf = link' at hlink ⊢
          cases hlink with
          | nil => exact .none
          | @cons payload msg rest rest' hmsg hrest =>
              have hreceived : Agrees { s with toPcscf := rest } { t with toPcscf := rest' } :=
                ⟨h.conns, h.pcscf, h.toScscf, hrest, h.scscf⟩
              dsimp only
              rw [hmsg.read, Option.map_some]
              exact .some (handleFromScscf_matches hreceived hmsg)
      | _ => exact hthread.elim
  | notifying target payload msg =>
      cases thread' with
      | notifying target' msg' => exact .none
      | _ => exact hthread.elim

theorem pcscfNotify_matches (h : Agrees s t) :
    Option.Rel Matches (step label s .pcscfNotify) (CallSessionControl.step label t .pcscfNotify) := by
  have hthread := h.pcscf.scscfThread
  rw [SipLinks.step, CallSessionControl.step]
  generalize s.pcscf.scscfThread = thread at hthread ⊢
  generalize t.pcscf.scscfThread = thread' at hthread ⊢
  cases thread with
  | receiving =>
      cases thread' with
      | receiving => exact .none
      | _ => exact hthread.elim
  | notifying target payload msg =>
      cases thread' with
      | notifying target' msg' =>
          obtain ⟨rfl, hmsg, rfl⟩ := hthread
          exact .some (notify_matches h hmsg target)
      | _ => exact hthread.elim

theorem scscfReceive_matches (h : Agrees s t) :
    Option.Rel Matches (step label s .scscfReceive) (CallSessionControl.step label t .scscfReceive) := by
  have hlink := h.toScscf
  rw [SipLinks.step, CallSessionControl.step, h.scscf]
  generalize s.toScscf = link at hlink ⊢
  generalize t.toScscf = link' at hlink ⊢
  cases hlink with
  | nil => exact .none
  | @cons payload msg _ _ hmsg hrest =>
      obtain ⟨r, hhandled, hnode, hsends⟩ := scscfHandle_handles t.scscf hmsg
      dsimp only
      rw [hhandled, Option.map_some]
      refine .some fun hfit => ⟨⟨h.conns, h.pcscf, hrest, ?_, hnode⟩, ?_⟩
      · exact List.rel_append h.toPcscf (hsends.payloads hfit s.scscfSeq)
      · show List.Forall₂ Shows ((wrote r.2).filter shown) []
        rw [filter_wrote]
        exact .nil

theorem setBarred_matches (h : Agrees s t) (impu : Str) (barred : Bool) :
    Option.Rel Matches (step label s (.setBarred impu barred))
      (CallSessionControl.step label t (.setBarred impu barred)) := by
  cases barred with
  | true =>
      rw [SipLinks.step, CallSessionControl.step, h.scscf]
      exact .some fun _ => ⟨⟨h.conns, h.pcscf, h.toScscf, h.toPcscf, rfl⟩, .nil⟩
  | false =>
      rw [SipLinks.step, CallSessionControl.step, h.scscf]
      exact .some fun _ => ⟨⟨h.conns, h.pcscf, h.toScscf, h.toPcscf, rfl⟩, .nil⟩

theorem step_matches (h : Agrees s t) (i : Input) :
    Option.Rel Matches (step label s i) (CallSessionControl.step label t i) := by
  cases i with
  | command n cmd => exact command_matches label h n cmd
  | ueReceive n => exact ueReceive_matches label h n
  | pcscfRead n => exact pcscfRead_matches label h n
  | pcscfForward n => exact pcscfForward_matches label h n
  | pcscfCleanUp n => exact pcscfCleanUp_matches label h n
  | pcscfReceive => exact pcscfReceive_matches label h
  | pcscfNotify => exact pcscfNotify_matches label h
  | scscfReceive => exact scscfReceive_matches label h
  | setBarred impu barred => exact setBarred_matches label h impu barred

theorem init_agrees : Agrees init CallSessionControl.init :=
  ⟨fun _ => ⟨rfl, .nil, .nil, rfl, rfl, rfl, trivial⟩, ⟨rfl, rfl, rfl, rfl, trivial⟩, .nil, .nil,
    rfl⟩

theorem accepts_iff (h : Agrees s t) (i : Input) :
    (step label s i).isSome ↔ (CallSessionControl.step label t i).isSome := by
  generalize hr : step label s i = r
  generalize hq : CallSessionControl.step label t i = q
  have hmatches := step_matches label h i
  rw [hr, hq] at hmatches
  cases hmatches with
  | none => rfl
  | some _ => exact iff_of_true rfl rfl

theorem whole_refines_messages {tr : List Event} (hrun : Reach (step label) init tr s)
    (hfit : AllFit tr) :
    ∃ tr' t, Reach (CallSessionControl.step label) CallSessionControl.init tr' t ∧ Agrees s t ∧
      Shown tr tr' := by
  induction hrun with
  | nil => exact ⟨[], CallSessionControl.init, Run.nil, init_agrees, .nil⟩
  | @snoc tr es s s' i _ _ hstep ih =>
      obtain ⟨hbefore, hnow⟩ := allFit_append.mp hfit
      obtain ⟨tr', t, hrun', hagrees, hshown⟩ := ih hbefore
      have hmatches := step_matches label hagrees i
      rw [hstep] at hmatches
      generalize hstep' : CallSessionControl.step label t i = q at hmatches
      cases hmatches with
      | @some _ q hmatches =>
          obtain ⟨hagrees', hshown'⟩ := hmatches hnow
          exact ⟨tr' ++ q.2, q.1, Run.snoc hrun' trivial hstep', hagrees', hshown.append hshown'⟩

/-- Whatever the network of payloads does, as long as what its nodes write fits into a frame and
the threads of the P-CSCF write to the S-CSCF one after another, the network of messages does too:
the nodes come to hold the same, every payload on a link stands for the message there, no handler
fails, and neither network takes a step that the other one refuses. -/
theorem links_refine_messages {tr : List Event} {s : Layered SharedUplink.Wire State}
    (hrun : Run (SharedUplink.step (uplink label))
      (SharedUplink.Guarded (uplink label) fun _ _ _ => True) (SharedUplink.init init) tr s)
    (hfit : AllFit tr) :
    ∃ tr' t, Reach (CallSessionControl.step label) CallSessionControl.init tr' t ∧
      Agrees s.lower t ∧ Shown tr tr' ∧
      ∀ i, (step label s.lower i).isSome ↔ (CallSessionControl.step label t i).isSome := by
  obtain ⟨hwhole, -⟩ := SharedUplink.run_whole (SharedUplink.sound_init rfl) hrun
  obtain ⟨tr', t, hrun', hagrees, hshown⟩ := whole_refines_messages label hwhole hfit
  exact ⟨tr', t, hrun', hagrees, hshown, accepts_iff label hagrees⟩

/-- Two phones register, and their threads write to the S-CSCF one after the other. -/
def registrations : List Input :=
  [.command 0 .register, .command 1 .register, .pcscfRead 1, .pcscfRead 0, .pcscfForward 0,
    .pcscfForward 1, .scscfReceive]

theorem registrations_refine_messages :
    ∃ tr s, Run (SharedUplink.step (uplink CallSessionControl.threePhones))
        (SharedUplink.Guarded (uplink CallSessionControl.threePhones) fun _ _ _ => True)
        (SharedUplink.init init) tr s ∧
      (s.lower.toScscf.length = 1 ∧ s.lower.toPcscf.length = 1) ∧
      ∃ tr' t, Reach (CallSessionControl.step CallSessionControl.threePhones)
        CallSessionControl.init tr' t ∧ Agrees s.lower t ∧ Shown tr tr' ∧
        ∀ i, (step CallSessionControl.threePhones s.lower i).isSome ↔
          (CallSessionControl.step CallSessionControl.threePhones t i).isSome := by
  have hadmits : Admits (step CallSessionControl.threePhones) (fun _ s i => True ∧
      SharedUplink.Fits (uplink CallSessionControl.threePhones) id s i) [] init registrations := by
    decide +kernel
  have hexec : (exec (step CallSessionControl.threePhones) init registrations).map (fun r =>
      (r.1.toScscf.length, r.1.toPcscf.length, decide (AllFit r.2))) = some (1, 1, true) := by
    decide +kernel
  obtain ⟨tr, u, s, hrun, hseen⟩ := SharedUplink.exists_written_of_exec
    (uplink CallSessionControl.threePhones) _ (fun _ _ hfits => hfits) rfl hadmits hexec
  obtain ⟨hwaiting, hanswered, hfit⟩ : _ ∧ _ ∧ _ := by
    simpa only [Prod.mk.injEq, decide_eq_true_eq] using hseen
  exact ⟨tr, _, hrun, ⟨hwaiting, hanswered⟩, links_refine_messages _ hrun hfit⟩

end Steps

end MobileCore.LinkAgreement
