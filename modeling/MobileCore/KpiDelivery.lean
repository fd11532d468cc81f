import MobileCore.KpiWindows
import MobileCore.LabelledRuns

/-!
# The messages of the KPI consumer

The reader commits the offset of a message when it hands the message out. What happens to it after
that, the attempts to fold it into its window and the write to the dead-letter topic, is lost with
a consumer that stops, and a restarted one goes on at the committed offset with empty windows.
-/

namespace MobileCore.KpiDelivery

open MobileCore.CppText
open MobileCore.KpiWindows
open MobileCore.LabelledRuns
open MobileCore.SimEvents

structure Record where
  key : Str
  value : Str
deriving DecidableEq

/-- The pauses between attempts, in seconds. -/
def backoffs : List Nat := [1, 2, 4]

/-- Where the consumer is, with the message that it has in hand. -/
inductive Place where
  | stopped
  | reading
  | processing (m : Record) (offset attempt : Nat)
  | routing (m : Record) (offset : Nat)
deriving DecidableEq

/-- The next offset and the dead-letter topic are the broker's, the windows the consumer's. -/
structure State where
  committed : Nat := 0
  dlq : List Record := []
  agg : Aggregator := {}
  place : Place := .reading

inductive Input where
  | readMessage
  | attempt
  | writeMessages (ok : Bool)
  | stop
  | restart

inductive Event where
  | folded (offset : Nat)
  | stored (offset : Nat)
deriving DecidableEq

section Consumer

variable (windowSize : Int) (localOffset : Int → Int) (unmarshal : Str → Option Message)

/-- `ReadMessage` of a reader with a consumer group. -/
def readMessage (partition : List Record) (s : State) : Option (State × List Event) :=
  match s.place, partition[s.committed]? with
  | .reading, some m =>
      some ({ s with committed := s.committed + 1, place := .processing m s.committed 0 }, [])
  | _, _ => none

def attempt (s : State) : Option (State × List Event) :=
  match s.place with
  | .processing m offset attempt =>
      let out := ingest windowSize localOffset s.agg (unmarshal m.value)
      if out.2 then some ({ s with agg := out.1, place := .reading }, [.folded offset])
      else if backoffs.length ≤ attempt then
        some ({ s with agg := out.1, place := .routing m offset }, [])
      else some ({ s with agg := out.1, place := .processing m offset (attempt + 1) }, [])
  | _ => none

/-- The dead-letter write, whose failure is only logged. -/
def writeMessages (ok : Bool) (s : State) : Option (State × List Event) :=
  match s.place with
  | .routing m offset =>
      if ok then some ({ s with dlq := s.dlq ++ [m], place := .reading }, [.stored offset])
      else some ({ s with place := .reading }, [])
  | _ => none

def stop (s : State) : Option (State × List Event) :=
  if s.place = .stopped then none else some ({ s with place := .stopped }, [])

def restart (s : State) : Option (State × List Event) :=
  if s.place = .stopped then some ({ s with agg := {}, place := .reading }, []) else none

/-- The consume loop, a step for each thing that can be the last. -/
def consumer (partition : List Record) : Machine State Input Event
  | s, .readMessage => readMessage partition s
  | s, .attempt => attempt windowSize localOffset unmarshal s
  | s, .writeMessages ok => writeMessages ok s
  | s, .stop => stop s
  | s, .restart => restart s

end Consumer

def State.inHand (s : State) : Option Nat :=
  match s.place with
  | .stopped | .reading => none
  | .processing _ offset _ | .routing _ offset => some offset

/-- A consumer does not stop with a message in hand, and writes to the dead-letter topic succeed. -/
def Undisturbed (_ : List Event) (s : State) : Input → Prop
  | .stop => s.inHand = none
  | .writeMessages ok => ok = true
  | _ => True

instance (tr : List Event) (s : State) (i : Input) : Decidable (Undisturbed tr s i) :=
  match i with
  | .stop => inferInstanceAs (Decidable (s.inHand = none))
  | .writeMessages ok => inferInstanceAs (Decidable (ok = true))
  | .readMessage | .attempt | .restart => .isTrue trivial

/-- Each committed message was folded or stored, but for one that a running consumer has in hand. -/
def Handled (tr : List Event) (s : State) : Prop :=
  ∀ offset < s.committed, s.inHand ≠ some offset → .folded offset ∈ tr ∨ .stored offset ∈ tr

/-- Nothing is lost, and nothing both folded and stored. -/
structure Kept (tr : List Event) (s : State) : Prop where
  handled : Handled tr s
  never_both : ∀ offset, ¬(.folded offset ∈ tr ∧ .stored offset ∈ tr)

section Runs

variable {windowSize : Int} {localOffset : Int → Int} {unmarshal : Str → Option Message}
  {partition : List Record}

inductive Step (unmarshal : Str → Option Message) (partition : List Record) (s : State) :
    Input → State → List Event → Prop
  | read {m : Record} (hplace : s.place = .reading) (hm : partition[s.committed]? = some m) :
      Step unmarshal partition s .readMessage
        { s with committed := s.committed + 1, place := .processing m s.committed 0 } []
  | fold {m : Record} {offset attempt : Nat} {agg : Aggregator}
      (hplace : s.place = .processing m offset attempt) (hm : (unmarshal m.value).isSome = true) :
      Step unmarshal partition s .attempt { s with agg, place := .reading } [.folded offset]
  | retry {m : Record} {offset attempt : Nat} {agg : Aggregator}
      (hplace : s.place = .processing m offset attempt) (hm : unmarshal m.value = none) :
      Step unmarshal partition s .attempt
        { s with agg, place := .processing m offset (attempt + 1) } []
  | giveUp {m : Record} {offset attempt : Nat} {agg : Aggregator}
      (hplace : s.place = .processing m offset attempt) (hm : unmarshal m.value = none) :
      Step unmarshal partition s .attempt { s with agg, place := .routing m offset } []
  | store {m : Record} {offset : Nat} (hplace : s.place = .routing m offset) :
      Step unmarshal partition s (.writeMessages true)
        { s with dlq := s.dlq ++ [m], place := .reading } [.stored offset]
  | drop {m : Record} {offset : Nat} (hplace : s.place = .routing m offset) :
      Step unmarshal partition s (.writeMessages false) { s with place := .reading } []
  | stop : Step unmarshal partition s .stop { s with place := .stopped } []
  | restart (hplace : s.place = .stopped) :
      Step unmarshal partition s .restart { s with agg := {}, place := .reading } []

theorem step_of_readMessage {s s' : State} {es : List Event}
    (h : readMessage partition s = some (s', es)) :
    Step unmarshal partition s .readMessage s' es := by
  rw [readMessage] at h
  split at h
  · rename_i m hplace hm
    obtain ⟨rfl, rfl⟩ := Prod.mk.inj (Option.some.inj h)
    exact .read hplace hm
  · cases h

theorem step_of_attempt {s s' : State} {es : List Event}
    (h : attempt windowSize localOffset unmarshal s = some (s', es)) :
    Step unmarshal partition s .attempt s' es := by
  rw [attempt] at h
  split at h
  · rename_i m offset k hplace
    cases hvalue : unmarshal m.value with
    | none =>
        simp only [hvalue, ingest, Bool.false_eq_true, if_false] at h
        split at h
        · obtain ⟨rfl, rfl⟩ := Prod.mk.inj (Option.some.inj h)
          exact .giveUp hplace hvalue
        · obtain ⟨rfl, rfl⟩ := Prod.mk.inj (Option.some.inj h)
          exact .retry hplace hvalue
    | some e =>
        simp only [hvalue, ingest, if_true] at h
        obtain ⟨rfl, rfl⟩ := Prod.mk.inj (Option.some.inj h)
        exact .fold hplace (by rw [hvalue]; rfl)
  · cases h

theorem step_of_writeMessages {s s' : State} {ok : Bool} {es : List Event}
    (h : writeMessages ok s = some (s', es)) :
    Step unmarshal partition s (.writeMessages ok) s' es := by
  rw [writeMessages] at h
  split at h
  · rename_i m offset hplace
    cases ok with
    | true =>
        obtain ⟨rfl, rfl⟩ := Prod.mk.inj (Option.some.inj h)
        exact .store hplace
    | false =>
        obtain ⟨rfl, rfl⟩ := Prod.mk.inj (Option.some.inj h)
        exact .drop hplace
  · cases h

theorem step_of_consumer {s s' : State} {i : Input} {es : List Event}
    (h : consumer windowSize localOffset unmarshal partition s i = some (s', es)) :
    Step unmarshal partition s i s' es := by
  cases i with
  | readMessage => exact step_of_readMessage h
  | attempt => exact step_of_attempt h
  | writeMessages ok => exact step_of_writeMessages h
  | stop =>
      obtain ⟨_, h⟩ := Option.ite_none_left_eq_some.mp h
      obtain ⟨rfl, rfl⟩ := Prod.mk.inj (Option.some.inj h)
      exact .stop
  | restart =>
      obtain ⟨hplace, h⟩ := Option.ite_none_right_eq_some.mp h
      obtain ⟨rfl, rfl⟩ := Prod.mk.inj (Option.some.inj h)
      exact .restart hplace

def Holds (unmarshal : Str → Option Message) (partition : List Record) (s : State) : Prop :=
  match s.place with
  | .stopped | .reading => True
  | .processing m offset _ => partition[offset]? = some m ∧ offset + 1 = s.committed
  | .routing m offset =>
      partition[offset]? = some m ∧ offset + 1 = s.committed ∧ unmarshal m.value = none

/-- Only events are folded, and only messages that are none are stored. -/
structure Known (unmarshal : Str → Option Message) (partition : List Record) (tr : List Event)
    (s : State) : Prop where
  holds : Holds unmarshal partition s
  folded : ∀ offset, .folded offset ∈ tr →
    ∃ m, partition[offset]? = some m ∧ (unmarshal m.value).isSome = true
  stored : ∀ offset, .stored offset ∈ tr →
    ∃ m, partition[offset]? = some m ∧ unmarshal m.value = none

theorem known_step {tr es : List Event} {s s' : State} {i : Input}
    (h : Known unmarshal partition tr s) (hstep : Step unmarshal partition s i s' es) :
    Known unmarshal partition (tr ++ es) s' := by
  obtain ⟨hholds, hfolded, hstored⟩ := h
  cases hstep with
  | read hplace hm =>
      rw [List.append_nil]
      exact ⟨⟨hm, rfl⟩, hfolded, hstored⟩
  | fold hplace hm =>
      rw [Holds, hplace] at hholds
      refine ⟨trivial, ?_, ?_⟩
      · intro o ho
        rcases List.mem_append.mp ho with ho | ho
        · exact hfolded o ho
        · obtain rfl := Event.folded.inj (List.mem_singleton.mp ho)
          exact ⟨_, hholds.1, hm⟩
      · intro o ho
        rcases List.mem_append.mp ho with ho | ho
        · exact hstored o ho
        · cases List.mem_singleton.mp ho
  | retry hplace hm =>
      rw [Holds, hplace] at hholds
      rw [List.append_nil]
      exact ⟨hholds, hfolded, hstored⟩
  | giveUp hplace hm =>
      rw [Holds, hplace] at hholds
      rw [List.append_nil]
      exact ⟨⟨hholds.1, hholds.2, hm⟩, hfolded, hstored⟩
  | store hplace =>
      rw [Holds, hplace] at hholds
      refine ⟨trivial, ?_, ?_⟩
      · intro o ho
        rcases List.mem_append.mp ho with ho | ho
        · exact hfolded o ho
        · cases List.mem_singleton.mp ho
      · intro o ho
        rcases List.mem_append.mp ho with ho | ho
        · exact hstored o ho
        · obtain rfl := Event.stored.inj (List.mem_singleton.mp ho)
          exact ⟨_, hholds.1, hholds.2.2⟩
  | drop hplace =>
      rw [List.append_nil]
      exact ⟨trivial, hfolded, hstored⟩
  | stop =>
      rw [List.append_nil]
      exact ⟨trivial, hfolded, hstored⟩
  | restart hplace =>
      rw [List.append_nil]
      exact ⟨trivial, hfolded, hstored⟩

theorem known_reach {tr : List Event} {s : State}
    (hrun : Reach (consumer windowSize localOffset unmarshal partition) {} tr s) :
    Known unmarshal partition tr s := by
  refine hrun.invariant (I := Known unmarshal partition) ?_ ?_
  · exact ⟨trivial, nofun, nofun⟩
  · intro tr s i s' es h _ hstep
    exact known_step h (step_of_consumer hstep)

theorem Known.never_both {tr : List Event} {s : State} (h : Known unmarshal partition tr s)
    (offset : Nat) : ¬(.folded offset ∈ tr ∧ .stored offset ∈ tr) := by
  rintro ⟨hfolded, hstored⟩
  obtain ⟨m, hm, hsome⟩ := h.folded offset hfolded
  obtain ⟨m', hm', hnone⟩ := h.stored offset hstored
  obtain rfl := Option.some.inj (hm.symm.trans hm')
  rw [hnone] at hsome
  cases hsome

theorem Handled.idle {tr : List Event} {s : State} (h : Handled tr s) (hidle : s.inHand = none) :
    ∀ offset < s.committed, .folded offset ∈ tr ∨ .stored offset ∈ tr := by
  intro offset hoffset
  apply h offset hoffset
  rw [hidle]
  exact (Option.some_ne_none offset).symm

theorem Handled.more {tr : List Event} {s s' : State} {offset : Nat} {e : Event}
    (h : Handled tr s) (hhand : s.inHand = some offset) (hcommitted : s'.committed = s.committed)
    (he : e = .folded offset ∨ e = .stored offset) : Handled (tr ++ [e]) s' := by
  intro o ho _
  rw [hcommitted] at ho
  by_cases heq : o = offset
  · subst heq
    rcases he with rfl | rfl
    · exact .inl (List.mem_append_right tr List.mem_cons_self)
    · exact .inr (List.mem_append_right tr List.mem_cons_self)
  · have hne : s.inHand ≠ some o := by
      rw [hhand]
      exact fun hsome => heq (Option.some.inj hsome).symm
    exact (h o ho hne).imp (List.mem_append_left _) (List.mem_append_left _)

theorem handled_step {tr es : List Event} {s s' : State} {i : Input} (h : Handled tr s)
    (hguard : Undisturbed tr s i) (hstep : Step unmarshal partition s i s' es) :
    Handled (tr ++ es) s' := by
  cases hstep with
  | read hplace hm =>
      have hidle : s.inHand = none := by rw [State.inHand, hplace]
      rw [List.append_nil]
      intro offset hoffset hhand
      have hne : offset ≠ s.committed := fun heq => hhand (congrArg some heq.symm)
      exact h.idle hidle offset (Nat.lt_of_le_of_ne (Nat.le_of_lt_succ hoffset) hne)
  | @fold m offset k agg hplace hm =>
      have hhand : s.inHand = some offset := by rw [State.inHand, hplace]
      exact h.more hhand rfl (.inl rfl)
  | @retry m offset k agg hplace hm =>
      have hhand : s.inHand = some offset := by rw [State.inHand, hplace]
      rw [List.append_nil]
      intro o ho hne
      exact h o ho (hhand ▸ hne)
  | @giveUp m offset k agg hplace hm =>
      have hhand : s.inHand = some offset := by rw [State.inHand, hplace]
      rw [List.append_nil]
      intro o ho hne
      exact h o ho (hhand ▸ hne)
  | @store m offset hplace =>
      have hhand : s.inHand = some offset := by rw [State.inHand, hplace]
      exact h.more hhand rfl (.inr rfl)
  | drop hplace => cases hguard
  | stop =>
      rw [List.append_nil]
      exact fun offset hoffset _ => h.idle hguard offset hoffset
  | restart hplace =>
      have hidle : s.inHand = none := by rw [State.inHand, hplace]
      rw [List.append_nil]
      exact fun offset hoffset _ => h.idle hidle offset hoffset

/-- No message is lost in a run in which the consumer stops only between two messages and every
write to the dead-letter topic succeeds. -/
theorem kept_of_undisturbed {tr : List Event} {s : State}
    (hrun : Run (consumer windowSize localOffset unmarshal partition) Undisturbed {} tr s) :
    Kept tr s where
  handled := by
    refine hrun.invariant (I := Handled) ?_ ?_
    · intro offset hoffset
      cases hoffset
    · intro tr s i s' es h hguard hstep
      exact handled_step h hguard (step_of_consumer hstep)
  never_both := (known_reach hrun.reach).never_both

end Runs

/-- An event, a restart, and a message that is given up. -/
theorem two_messages_kept : ∃ tr s, Run (consumer 60 id
      (fun value => if value = [] then none
        else some ⟨value, ⟨0, none⟩, lit "amf", lit "registration", [], [], lit "info"⟩)
      [⟨[], [1]⟩, ⟨[], []⟩]) Undisturbed {} tr s ∧
    s.committed = 2 ∧ tr = [.folded 0, .stored 1] ∧ Kept tr s := by
  let unmarshal : Str → Option Message := fun value =>
    if value = [] then none
    else some ⟨value, ⟨0, none⟩, lit "amf", lit "registration", [], [], lit "info"⟩
  have hexec : (exec (consumer 60 id unmarshal [⟨[], [1]⟩, ⟨[], []⟩]) {}
      [.readMessage, .attempt, .stop, .restart, .readMessage, .attempt, .attempt, .attempt,
        .attempt, .writeMessages true]).map (fun out => (out.1.committed, out.2)) =
      some (2, [.folded 0, .stored 1]) := rfl
  obtain ⟨tr, s, hrun, hseen⟩ := exists_run_of_exec (P := Undisturbed) _ (by decide +kernel) hexec
  obtain ⟨hcommitted, htrace⟩ := Prod.mk.inj hseen
  exact ⟨tr, s, hrun, hcommitted, htrace, kept_of_undisturbed hrun⟩

/-- The consumer stops between reading a message and its first attempt. -/
theorem stop_loses_message :
    ¬∀ (windowSize : Int) (localOffset : Int → Int) (unmarshal : Str → Option Message)
      (partition : List Record) (tr : List Event) (s : State),
        Reach (consumer windowSize localOffset unmarshal partition) {} tr s → Kept tr s := by
  intro h
  have hexec : (exec (consumer 60 id (fun _ => none) [⟨[], []⟩]) {} [.readMessage, .stop]).map
      (fun out => (out.2, out.1.committed, out.1.inHand)) = some ([], 1, none) := rfl
  obtain ⟨tr, s, hrun, hseen⟩ := exists_reach_of_exec hexec
  obtain ⟨rfl, hcommitted, hhand⟩ : tr = [] ∧ s.committed = 1 ∧ s.inHand = none := by
    simpa using hseen
  have hlost := (h _ _ _ _ _ _ hrun).handled 0 (by omega) (by rw [hhand]; exact nofun)
  simp at hlost

end MobileCore.KpiDelivery
