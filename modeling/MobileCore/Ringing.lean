import MobileCore.CallSessionControl

/-!
# When a caller hears that the phone rings

Phones connect and disconnect while the P-CSCF works. It enters an initial INVITE, sends it to the
callee and sends a 180 to the caller in three steps, and no result passes between them. A session
outlives its connection, and a write to a connection that the phone has closed can end the server:
nothing handles the signal of a broken pipe.
-/

namespace MobileCore.Ringing

open MobileCore.CppText
open MobileCore.LabelledRuns
open MobileCore.LastWrite
open MobileCore.SipPhones
open CallSessionControl hiding State Input Event step init

/-- The connection of a session. The P-CSCF keeps its end of a connection that the phone closed. -/
inductive Link where
  | absent
  | live
  | closed
deriving DecidableEq

/-- What the thread that reads from the S-CSCF has still to do for an initial INVITE. -/
inductive Pending where
  | idle
  | delivering (msg : SipMessage)
  | ringing (msg : SipMessage)
deriving DecidableEq

structure State where
  base : CallSessionControl.State := {}
  links : Nat → Link := fun _ => .absent
  pending : Pending := .idle
  serverUp : Bool := true

/-- The S-CSCF may also misread what the threads of several phones have written into each other's
frames: frames get lost and others come of parts. `brokenPipe i` is the step `i` with a write in it
that ends the server. -/
inductive Input where
  | connect (n : Nat)
  | disconnect (n : Nat)
  | signal (i : CallSessionControl.Input)
  | misread (lost : Nat) (msg : SipMessage)
  | enterInvite
  | deliverInvite
  | ringBack
  | brokenPipe (i : Input)

/-- An INVITE is written where the session is live. -/
inductive Event where
  | signalled (e : CallSessionControl.Event)
  | written (n : Nat) (msg : SipMessage)
deriving DecidableEq

/-- The P-CSCF takes the message for an INVITE that it has not delivered yet. -/
def Initial (p : PcscfNode) (msg : SipMessage) : Prop :=
  msg.type = .invite ∧ msg.callId ∉ p.callInviteDelivered

instance (p : PcscfNode) (msg : SipMessage) : Decidable (Initial p msg) :=
  inferInstanceAs (Decidable (_ ∧ _))

/-- A phone acts while it is connected, and the thread that reads from the S-CSCF while it has
nothing left to do. -/
def Enabled (s : State) : CallSessionControl.Input → Prop
  | .command n _ | .ueReceive n => s.links n = .live
  | .pcscfRead n => s.links n ≠ .absent
  | .pcscfReceive => s.pending = .idle ∧ ∀ msg ∈ s.base.toPcscf.head?, ¬Initial s.base.pcscf msg
  | .pcscfNotify => s.pending = .idle
  | .pcscfForward _ | .pcscfCleanUp _ | .scscfReceive | .setBarred _ _ => True

instance (s : State) : DecidablePred (Enabled s)
  | .command n _ => inferInstanceAs (Decidable (s.links n = .live))
  | .ueReceive n => inferInstanceAs (Decidable (s.links n = .live))
  | .pcscfRead n => inferInstanceAs (Decidable (s.links n ≠ .absent))
  | .pcscfReceive => inferInstanceAs (Decidable (_ ∧ ∀ msg ∈ s.base.toPcscf.head?, _))
  | .pcscfNotify => inferInstanceAs (Decidable (s.pending = .idle))
  | .pcscfForward _ => .isTrue trivial
  | .pcscfCleanUp _ => .isTrue trivial
  | .scscfReceive => .isTrue trivial
  | .setBarred _ _ => .isTrue trivial

/-- The live session of a callee. -/
def liveSession (s : State) (impu : Str) : Option Nat :=
  (s.base.pcscf.ueByImpu.lookup impu).filter fun n => s.links n = .live

def writes (s : State) (impu : Str) (msg : SipMessage) : List Event :=
  ((liveSession s impu).map fun n => .written n msg).toList

/-- The event is a write to a connection whose other end is closed. -/
def toClosed (s : State) : Event → Bool
  | .signalled (.delivered n _) => s.links n = .closed
  | _ => false

variable (label : Nat → UeLabel)

/-- A step of a phone, or of a server to which every write goes through. -/
def act : Machine State Input Event
  | s, .connect n =>
    if s.links n = .absent then some ({ s with links := Function.update s.links n .live }, [])
    else none
  | s, .disconnect n =>
    if s.links n = .live then some ({ s with links := Function.update s.links n .closed }, [])
    else none
  | s, .signal i =>
    if Enabled s i then
      (CallSessionControl.step label s.base i).map fun r =>
        ({ s with base := r.1 }, r.2.map .signalled)
    else none
  | s, .misread lost msg =>
    let (node, out) := scscfHandle s.base.scscf msg
    let base := { s.base with
      toScscf := s.base.toScscf.drop lost, scscf := node, toPcscf := s.base.toPcscf ++ out }
    some ({ s with base := base }, [])
  | s, .enterInvite =>
    match s.pending, s.base.pcscf.scscfThread, s.base.toPcscf with
    | .idle, .receiving, msg :: rest =>
      if Initial s.base.pcscf msg then
        let (p, entered) := enterInvite s.base.pcscf msg
        some ({ s with
          base := { s.base with toPcscf := rest, pcscf := p }
          pending := .delivering msg },
          entered.map .signalled)
      else none
    | _, _, _ => none
  | s, .deliverInvite =>
    match s.pending with
    | .delivering msg =>
      let (base, toCallee) := sendToUe s.base msg.sipTo msg
      some ({ s with base := base, pending := .ringing msg },
        toCallee.map .signalled ++ writes s msg.sipTo msg)
    | _ => none
  | s, .ringBack =>
    match s.pending with
    | .ringing msg =>
      let (base, toCaller) := sendToUe s.base msg.sipFrom (ring msg)
      some ({ s with base := base, pending := .idle }, toCaller.map .signalled)
    | _ => none
  | _, .brokenPipe _ => none

/-- The end of the server is the end of the run: a phone hears nothing more from it. -/
def step : Machine State Input Event
  | s, .brokenPipe i =>
    match act label s i with
    | some (_, es) =>
      if s.serverUp ∧ es.any (toClosed s) then some ({ s with serverUp := false }, []) else none
    | none => none
  | s, i => if s.serverUp then act label s i else none

def init : State := {}

/-- A 180 goes out after the INVITE of its call was written to a live session of the callee. -/
def Truthful (tr : List Event) : Prop :=
  Backed (fun before e => ∀ n out, e = .signalled (.delivered n out) → out.type = .ringing180 →
    ∃ m msg, .written m msg ∈ before ∧ msg.type = .invite ∧ msg.callId = out.callId ∧
      msg.sipFrom = out.sipFrom ∧ msg.sipTo = out.sipTo) tr

/-- An INVITE finds the callee's session live. -/
def Reachable (_ : List Event) (s : State) : Input → Prop
  | .deliverInvite => ∀ msg, s.pending = .delivering msg → liveSession s msg.sipTo ≠ none
  | _ => True

section Steps

variable {label} {s s' : State} {es : List Event} {msg : SipMessage}

def Event.shown : Event → Option CallSessionControl.Event
  | .signalled e => some e
  | .written _ _ => none

theorem shown_signalled (es : List CallSessionControl.Event) :
    (es.map Event.signalled).filterMap Event.shown = es := by
  rw [List.filterMap_map]
  exact List.filterMap_some

theorem shown_writes (s : State) (impu : Str) (msg : SipMessage) :
    (writes s impu msg).filterMap Event.shown = [] := by
  unfold writes
  cases liveSession s impu <;> rfl

/-- Without other steps between them, the three steps of an initial INVITE are the one of the
S-CSCF's reader. -/
theorem initial_steps (hup : s.serverUp = true) (hpending : s.pending = .idle)
    {rest : List SipMessage} (hthread : s.base.pcscf.scscfThread = .receiving) (htoPcscf : s.base.toPcscf = msg :: rest)
    (hinitial : Initial s.base.pcscf msg) :
    (exec (step label) s [.enterInvite, .deliverInvite, .ringBack]).map
        (fun r => (r.1.base, r.2.filterMap Event.shown)) =
      CallSessionControl.step label s.base .pcscfReceive := by
  have hroute : CallSessionControl.step label s.base .pcscfReceive =
      some (routeInvite { s.base with toPcscf := rest } msg) := by
    simp only [CallSessionControl.step, hthread, htoPcscf, handleFromScscf, hinitial.1]
  rw [hroute, routeInvite, if_neg hinitial.2]
  simp only [exec, step, act, hup, if_true, hpending, hthread, htoPcscf, if_pos hinitial,
    Option.map_some, List.filterMap_append, shown_signalled, shown_writes, List.append_nil]

theorem mem_writes {n : Nat} {impu : Str} {out : SipMessage} :
    .written n out ∈ writes s impu msg ↔ liveSession s impu = some n ∧ out = msg := by
  unfold writes
  cases liveSession s impu with
  | none => simp
  | some m => simp [eq_comm]

theorem liveSession_eq_some {impu : Str} {n : Nat} : liveSession s impu = some n ↔
    s.base.pcscf.ueByImpu.lookup impu = some n ∧ s.links n = .live := by
  rw [liveSession, Option.filter_eq_some_iff, decide_eq_true_iff]

theorem act_written {i : Input} (hstep : act label s i = some (s', es)) {n : Nat}
    (hwritten : .written n msg ∈ es) : s.pending = .delivering msg ∧
      s.base.pcscf.ueByImpu.lookup msg.sipTo = some n ∧ s.links n = .live := by
  have hnone (es : List CallSessionControl.Event) : .written n msg ∉ es.map Event.signalled := by
    simp
  cases i with
  | connect m | disconnect m =>
      simp only [act] at hstep
      split at hstep <;> cases hstep
      cases hwritten
  | signal i =>
      simp only [act] at hstep
      split at hstep
      · obtain ⟨r, -, hr⟩ := Option.map_eq_some_iff.mp hstep
        cases hr
        exact absurd hwritten (hnone _)
      · cases hstep
  | misread lost msg =>
      cases hstep
      cases hwritten
  | enterInvite =>
      simp only [act] at hstep
      split at hstep
      · split at hstep <;> cases hstep
        exact absurd hwritten (hnone _)
      · cases hstep
  | deliverInvite =>
      simp only [act] at hstep
      split at hstep
      · rename_i inv hpending
        cases hstep
        obtain ⟨hlive, rfl⟩ :=
          mem_writes.mp ((List.mem_append.mp hwritten).resolve_left (hnone _))
        exact ⟨hpending, liveSession_eq_some.mp hlive⟩
      · cases hstep
  | ringBack =>
      simp only [act] at hstep
      split at hstep
      · cases hstep
        exact absurd hwritten (hnone _)
      · cases hstep
  | brokenPipe i => cases hstep

theorem step_act {i : Input} (hstep : step label s i = some (s', es)) :
    act label s i = some (s', es) ∨ es = [] ∧ s' = { s with serverUp := false } := by
  cases i with
  | brokenPipe i =>
      simp only [step] at hstep
      split at hstep
      · split at hstep <;> cases hstep
        exact .inr ⟨rfl, rfl⟩
      · cases hstep
  | connect | disconnect | signal | misread | enterInvite | deliverInvite | ringBack =>
      simp only [step] at hstep
      split at hstep
      · exact .inl hstep
      · cases hstep

theorem step_written {i : Input} (hstep : step label s i = some (s', es)) {n : Nat}
    (hwritten : .written n msg ∈ es) : s.pending = .delivering msg ∧
      s.base.pcscf.ueByImpu.lookup msg.sipTo = some n ∧ s.links n = .live := by
  rcases step_act hstep with hact | ⟨rfl, -⟩
  · exact act_written hact hwritten
  · cases hwritten

end Steps

section Signals

variable {label} {s s' : CallSessionControl.State} {i : CallSessionControl.Input}
  {es : List CallSessionControl.Event}

theorem scscfHandle_unrung {node : ScscfNode} {msg out : SipMessage}
    (h : out ∈ (scscfHandle node msg).2) : out.type ≠ .ringing180 := by
  by_cases htype : msg.type = .ringing180
  · simp [scscfHandle, htype] at h
  · cases scscfHandle_sends h with
    | forwarded => exact htype
    | conference cs hinvite => simp [conferenceInvite]
    | @response type reason callId sipFrom sipTo hresponse =>
        simp only [responses, List.mem_append, List.mem_map, List.mem_cons, Prod.mk.injEq,
          List.not_mem_nil, or_false] at hresponse
        rintro rfl
        simp at hresponse
    | byeAnswered hbye => simp [sendSipResponse]

/-- The S-CSCF sends no 180. -/
def Unrung (s : CallSessionControl.State) : Prop := ∀ msg ∈ s.toPcscf, msg.type ≠ .ringing180

theorem step_unrung (h : Unrung s) (hstep : CallSessionControl.step label s i = some (s', es)) :
    Unrung s' := by
  intro out hout
  cases step_cases hstep with
  | @pcscfRead n msg rest _ _ =>
      rw [(handleFromUe_enters _ n msg).toPcscf] at hout
      exact h out hout
  | @pcscfReceive msg rest _ htoPcscf =>
      obtain ⟨p, -, hdelivers⟩ := handleFromScscf_delivers { s with toPcscf := rest } msg
      rw [hdelivers.toPcscf] at hout
      exact h out (htoPcscf ▸ List.mem_cons_of_mem msg hout)
  | @pcscfNotify target msg _ =>
      rw [(notify_delivers s target msg).toPcscf] at hout
      exact h out hout
  | @scscfReceive msg rest _ =>
      rcases List.mem_append.mp hout with hold | hnew
      · exact h out hold
      · exact scscfHandle_unrung hnew
  | command _ _ => exact h out hout
  | ueReceive _ => exact h out hout
  | pcscfForward _ => exact h out hout
  | pcscfCleanUp _ => exact h out hout
  | setBarred _ _ => exact h out hout

/-- Only an initial INVITE makes the P-CSCF ring. -/
theorem step_quiet (hunrung : Unrung s) (hnotifies : NotifiesOk s.pcscf)
    (hinitial : i = .pcscfReceive → ∀ msg ∈ s.toPcscf.head?, ¬Initial s.pcscf msg)
    (hstep : CallSessionControl.step label s i = some (s', es)) {n : Nat} {out : SipMessage}
    (hout : .delivered n out ∈ es) : out.type ≠ .ringing180 := by
  cases step_cases hstep with
  | @pcscfRead m msg rest _ _ => exact absurd hout handleFromUe_events
  | @pcscfCleanUp m callId _ => cases List.mem_singleton.mp hout
  | @pcscfReceive msg rest _ htoPcscf =>
      have hnot : ¬Initial s.pcscf msg := by
        apply hinitial rfl
        rw [htoPcscf]
        rfl
      have hhands : HandsOn [msg] { s with toPcscf := rest }
          (handleFromScscf { s with toPcscf := rest } msg) :=
        handleFromScscf_hands (List.mem_singleton_self msg) fun htype hnew =>
          absurd ⟨htype, hnew⟩ hnot
      rw [List.mem_singleton.mp (hhands.events n out hout)]
      exact hunrung msg (htoPcscf ▸ List.mem_cons_self)
  | @pcscfNotify target msg hthread =>
      rw [List.mem_singleton.mp ((notify_handsOn s target msg).events n out hout),
        (hnotifies target msg hthread).1]
      decide
  | command _ _ => cases hout
  | ueReceive _ => cases hout
  | pcscfForward _ => cases hout
  | scscfReceive _ => cases hout
  | setBarred _ _ => cases hout

end Signals

section Runs

variable {label} {tr : List Event} {s s' : State} {es : List Event} {msg : SipMessage}

structure Sound (tr : List Event) (s : State) : Prop where
  truthful : Truthful tr
  unrung : Unrung s.base
  notifies : NotifiesOk s.base.pcscf
  delivering : ∀ msg, s.pending = .delivering msg → msg.type = .invite
  ringing : ∀ msg, s.pending = .ringing msg → msg.type = .invite ∧ ∃ n, .written n msg ∈ tr

theorem sound_init : Sound [] init where
  truthful := Backed.nil _
  unrung _ h := by cases h
  notifies _ _ h := by cases h
  delivering _ h := by cases h
  ringing _ h := by cases h

theorem Truthful.quiet (h : Truthful tr)
    (hes : ∀ n out, .signalled (.delivered n out) ∈ es → out.type ≠ .ringing180) :
    Truthful (tr ++ es) := by
  refine Backed.append_of_forall h fun e he before n out hdelivered htype => ?_
  exact absurd htype (hes n out (hdelivered ▸ he))

theorem sendToUe_sent {s : CallSessionControl.State} {impu : Str} {n : Nat} {out : SipMessage}
    (h : .delivered n out ∈ (sendToUe s impu msg).2) : out = msg :=
  List.mem_singleton.mp
    ((sendToUe_handsOn (List.mem_singleton_self msg) s impu).events n out h)

theorem Sound.signal (h : Sound tr s) {i : CallSessionControl.Input} (henabled : Enabled s i)
    {r : CallSessionControl.State × List CallSessionControl.Event}
    (hstep : CallSessionControl.step label s.base i = some r) :
    Sound (tr ++ r.2.map .signalled) { s with base := r.1 } where
  truthful := by
    refine h.truthful.quiet fun n out hout => ?_
    obtain ⟨e, he, heq⟩ := List.mem_map.mp hout
    obtain rfl := Event.signalled.inj heq
    refine step_quiet h.unrung h.notifies ?_ hstep he
    rintro rfl
    exact henabled.2
  unrung := step_unrung h.unrung hstep
  notifies := step_notifiesOk h.notifies hstep
  delivering := h.delivering
  ringing out hout := by
    obtain ⟨htype, n, hn⟩ := h.ringing out hout
    exact ⟨htype, n, List.mem_append_left _ hn⟩

theorem Sound.entered (h : Sound tr s) {rest : List SipMessage}
    (htoPcscf : s.base.toPcscf = msg :: rest) (hinitial : Initial s.base.pcscf msg) :
    Sound (tr ++ (enterInvite s.base.pcscf msg).2.map .signalled)
      { s with
        base := { s.base with toPcscf := rest, pcscf := (enterInvite s.base.pcscf msg).1 }
        pending := .delivering msg } where
  truthful := by
    refine h.truthful.quiet fun n out hout => ?_
    obtain ⟨e, he, heq⟩ := List.mem_map.mp hout
    obtain rfl := Event.signalled.inj heq
    unfold enterInvite at he
    dsimp only at he
    split at he
    · cases List.mem_singleton.mp he
    · cases he
  unrung out hout := h.unrung out (htoPcscf ▸ List.mem_cons_of_mem msg hout)
  notifies target out hthread := by
    rw [enterInvite_scscfThread] at hthread
    exact h.notifies target out hthread
  delivering out hout := Pending.delivering.inj hout ▸ hinitial.1
  ringing _ hout := by cases hout

theorem Sound.delivered (h : Sound tr s) (hpending : s.pending = .delivering msg)
    (hlive : liveSession s msg.sipTo ≠ none) :
    Sound (tr ++ ((sendToUe s.base msg.sipTo msg).2.map .signalled ++ writes s msg.sipTo msg))
      { s with base := (sendToUe s.base msg.sipTo msg).1, pending := .ringing msg } where
  truthful := by
    refine h.truthful.quiet fun n out hout => ?_
    rcases List.mem_append.mp hout with hsent | hwritten
    · obtain ⟨e, he, heq⟩ := List.mem_map.mp hsent
      obtain rfl := Event.signalled.inj heq
      rw [sendToUe_sent he, h.delivering msg hpending]
      decide
    · unfold writes at hwritten
      cases hsession : liveSession s msg.sipTo <;> simp [hsession] at hwritten
  unrung out hout := by
    rw [(sendToUe_delivers s.base msg.sipTo msg).toPcscf] at hout
    exact h.unrung out hout
  notifies := by
    rw [(sendToUe_delivers s.base msg.sipTo msg).pcscf]
    exact h.notifies
  delivering _ hout := by cases hout
  ringing out hout := by
    obtain rfl := Pending.ringing.inj hout
    obtain ⟨n, hn⟩ := Option.ne_none_iff_exists'.mp hlive
    exact ⟨h.delivering _ hpending, n,
      List.mem_append_right _ (List.mem_append_right _ (mem_writes.mpr ⟨hn, rfl⟩))⟩

theorem Sound.rung (h : Sound tr s) (hpending : s.pending = .ringing msg) :
    Sound (tr ++ (sendToUe s.base msg.sipFrom (ring msg)).2.map .signalled)
      { s with base := (sendToUe s.base msg.sipFrom (ring msg)).1, pending := .idle } where
  truthful := by
    obtain ⟨htype, m, hwritten⟩ := h.ringing msg hpending
    refine Backed.append h.truthful fun before e after hsplit n out hdelivered _ => ?_
    have hmem : .signalled (.delivered n out) ∈
        (sendToUe s.base msg.sipFrom (ring msg)).2.map Event.signalled := by
      rw [hsplit, hdelivered]
      exact List.mem_append_right before List.mem_cons_self
    obtain ⟨e', he', heq⟩ := List.mem_map.mp hmem
    obtain rfl := Event.signalled.inj heq
    obtain rfl := sendToUe_sent he'
    exact ⟨m, msg, List.mem_append_left _ hwritten, htype, rfl, rfl, rfl⟩
  unrung out hout := by
    rw [(sendToUe_delivers s.base msg.sipFrom (ring msg)).toPcscf] at hout
    exact h.unrung out hout
  notifies := by
    rw [(sendToUe_delivers s.base msg.sipFrom (ring msg)).pcscf]
    exact h.notifies
  delivering _ hout := by cases hout
  ringing _ hout := by cases hout

theorem Sound.act (h : Sound tr s) {i : Input} (hguard : Reachable tr s i)
    (hstep : act label s i = some (s', es)) : Sound (tr ++ es) s' := by
  cases i with
  | connect n | disconnect n =>
      simp only [Ringing.act] at hstep
      split at hstep <;> cases hstep
      rw [List.append_nil]
      exact ⟨h.truthful, h.unrung, h.notifies, h.delivering, h.ringing⟩
  | signal i =>
      simp only [Ringing.act] at hstep
      split at hstep
      · rename_i henabled
        obtain ⟨r, hr, hpair⟩ := Option.map_eq_some_iff.mp hstep
        cases hpair
        exact h.signal henabled hr
      · cases hstep
  | misread lost msg =>
      cases hstep
      rw [List.append_nil]
      refine ⟨h.truthful, fun out hout => ?_, h.notifies, h.delivering, h.ringing⟩
      rcases List.mem_append.mp hout with hold | hnew
      · exact h.unrung out hold
      · exact scscfHandle_unrung hnew
  | enterInvite =>
      simp only [Ringing.act] at hstep
      split at hstep
      · rename_i msg rest _ _ htoPcscf
        split at hstep <;> cases hstep
        rename_i hinitial
        exact h.entered htoPcscf hinitial
      · cases hstep
  | deliverInvite =>
      simp only [Ringing.act] at hstep
      split at hstep
      · rename_i msg hpending
        cases hstep
        exact h.delivered hpending (hguard msg hpending)
      · cases hstep
  | ringBack =>
      simp only [Ringing.act] at hstep
      split at hstep
      · rename_i msg hpending
        cases hstep
        exact h.rung hpending
      · cases hstep
  | brokenPipe i => cases hstep

theorem Sound.step (h : Sound tr s) {i : Input} (hguard : Reachable tr s i)
    (hstep : step label s i = some (s', es)) : Sound (tr ++ es) s' := by
  rcases step_act hstep with hact | ⟨rfl, rfl⟩
  · exact h.act hguard hact
  · rw [List.append_nil]
    exact ⟨h.truthful, h.unrung, h.notifies, h.delivering, h.ringing⟩

/-- As long as every INVITE finds its callee's session live, no 180 goes out without one. -/
theorem truthful_of_reachable (label : Nat → UeLabel) (tr : List Event) (s : State)
    (hrun : Run (step label) Reachable init tr s) : Truthful tr := by
  have hsound : Sound tr s := by
    refine hrun.invariant (I := fun tr s => Sound tr s) sound_init ?_
    intro _ _ _ _ _ h hguard hstep
    exact h.step hguard hstep
  exact hsound.truthful

end Runs

section Schedules

instance (tr : List Event) (s : State) : DecidablePred (Reachable tr s)
  | .deliverInvite =>
    match hpending : s.pending with
    | .delivering msg =>
      decidable_of_iff (liveSession s msg.sipTo ≠ none)
        ⟨fun h _ heq => Pending.delivering.inj (hpending.symm.trans heq) ▸ h, fun h => h msg hpending⟩
    | .idle => .isTrue fun _ heq => by simp [hpending] at heq
    | .ringing _ => .isTrue fun _ heq => by simp [hpending] at heq
  | .connect _ | .disconnect _ | .signal _ | .misread _ _ | .enterInvite | .ringBack
  | .brokenPipe _ => .isTrue trivial

def joins (n : Nat) : List Input := .connect n :: (registration n).map .signal

def callEntered : List Input :=
  (signalled 0 (.call (lit "B") (behind .a)) ++
    [CallSessionControl.Input.pcscfReceive]).map .signal ++ [.enterInvite]

def callRings : List Input := callEntered ++ [.deliverInvite, .ringBack]

def rings (tr : List Event) : Nat :=
  tr.countP fun
    | .signalled (.delivered _ out) => out.type = .ringing180
    | _ => false

def isWritten : Event → Bool
  | .signalled _ => false
  | .written _ _ => true

theorem Truthful.written {tr : List Event} (h : Truthful tr) (hrings : rings tr ≠ 0) :
    tr.any isWritten := by
  obtain ⟨e, he, hring⟩ := List.countP_pos_iff.mp (Nat.pos_of_ne_zero hrings)
  obtain ⟨before, after, rfl⟩ := List.append_of_mem he
  split at hring
  · rename_i n out
    obtain ⟨m, msg, hwritten, -⟩ := h before _ after rfl n out rfl (of_decide_eq_true hring)
    exact List.any_eq_true.mpr ⟨_, List.mem_append_left _ hwritten, rfl⟩
  · cases hring

end Schedules

/-- Phone 1 rings, and phone 0 hears it. -/
theorem truthful_call : ∃ tr, rings tr = 1 ∧ Truthful tr := by
  have hexec : (exec (step threePhones) init (joins 0 ++ joins 1 ++ callRings)).map
      (fun r => rings r.2) = some 1 := by decide +kernel
  obtain ⟨tr, s, hrun, hseen⟩ := exists_run_of_exec (P := Reachable) _ (by decide +kernel) hexec
  exact ⟨tr, hseen, truthful_of_reachable threePhones tr s hrun⟩

/-- Phone 1 never connected, and phone 0 hears it ring. -/
theorem not_truthful_absent : ¬∀ tr s, Reach (step threePhones) init tr s → Truthful tr := by
  intro h
  have hexec : (exec (step threePhones) init (joins 0 ++ callRings)).map
      (fun r => (rings r.2, r.2.any isWritten)) = some (1, false) := by decide +kernel
  obtain ⟨tr, s, hrun, hseen⟩ := exists_reach_of_exec hexec
  obtain ⟨hrings, hnone⟩ := Prod.mk.inj hseen
  have hwritten := (h tr s hrun).written (hrings ▸ Nat.one_ne_zero)
  exact Bool.false_ne_true (hnone.symm.trans hwritten)

/-- The INVITE to a phone that has closed its connection can end the server before the 180. -/
example : (exec (step threePhones) init
      (joins 0 ++ joins 1 ++ .disconnect 1 :: callEntered ++ [.brokenPipe .deliverInvite])).map
    (fun r => (r.1.serverUp, rings r.2)) = some (false, 0) := by
  decide +kernel

end MobileCore.Ringing
