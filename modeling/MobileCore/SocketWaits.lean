import MobileCore.ConditionWaits
import MobileCore.LayeredMachines
import MobileCore.SocketPath

/-!
# The waits of the socket data plane

`worker_loop`, `enqueue` and `stop` over the steps of the mutex and of the condition variable. The
critical sections are those of the coarser model, and only the worker keeps the mutex over several
steps.
-/

namespace MobileCore.SocketWaits

open MobileCore.ConditionWaits
open MobileCore.LabelledRuns
open MobileCore.LayeredMachines
open MobileCore.PacketRules

/-- Where a call of `stop` is: it stores the flag, notifies the worker and joins it. -/
inductive Stopper where
  | idle
  | flagged
  | notified
deriving DecidableEq

/-- `place` is where the worker is in its first loop; `pushed` counts the calls of `enqueue` that
have still to notify it. -/
structure Waits where
  place : Place Unit := .away ()
  pushed : Nat := 0
  stopper : Stopper := .idle

abbrev State := Layered Waits SocketPath.State

inductive Input where
  | start
  | stop
  | enqueue (pkt : Packet)
  | producer (n : Nat)
  | notify
  | worker (nowNs : UInt64)
  | spuriousWakeup

/-- The worker's next step in its first loop, with the step of the coarser model that it takes. -/
def workerMove (w : Waits) (path : SocketPath.State) (nowNs : UInt64) :
    Option (Waits × Option SocketPath.Input) :=
  match w.place with
  | .away () | .woken => some ({ w with place := .checking }, none)
  | .checking =>
    if path.queue = [] ∧ path.running = true then some ({ w with place := .committed }, none)
    else some ({ w with place := .away () }, some (.worker nowNs))
  | .committed => some ({ w with place := .asleep }, none)
  | .asleep => none

def stopMove (w : Waits) (path : SocketPath.State) : Option (Waits × Option SocketPath.Input) :=
  match w.stopper with
  | .idle => some ({ w with stopper := .flagged }, some .stop)
  | .flagged => some ({ w with place := w.place.notified, stopper := .notified }, none)
  | .notified =>
    if path.worker = .notStarted ∨ path.worker = .exited then
      some ({ w with stopper := .idle }, none)
    else none

/-- A call of `enqueue` that finds the queue full returns without a notification. -/
def move (w : Waits) (path : SocketPath.State) : Input → Option (Waits × Option SocketPath.Input)
  | .start => if w.stopper = .idle then some ({ w with place := .away () }, some .start) else none
  | .stop => stopMove w path
  | .enqueue pkt => some (w, some (.enqueue pkt))
  | .producer n =>
    if w.place.hasMutex then none
    else if SocketPath.maxQueueDepth ≤ path.queue.length then some (w, some (.producer n))
    else some ({ w with pushed := w.pushed + 1 }, some (.producer n))
  | .notify =>
    match w.pushed with
    | 0 => none
    | k + 1 => some ({ w with place := w.place.notified, pushed := k }, none)
  | .worker nowNs =>
    if path.worker = .waiting then workerMove w path nowNs else some (w, some (.worker nowNs))
  | .spuriousWakeup => if w.place.sleeps then some ({ w with place := .woken }, none) else none

def step (rules : RuleTable) : Machine State Input SocketPath.Event :=
  layer (SocketPath.step rules) move

def init : State := ⟨{}, SocketPath.init⟩

/-- The worker sleeps although it was to stop, and no call has still to notify it. -/
def Stranded (s : State) : Prop :=
  s.lower.running = false ∧ s.upper.stopper = .notified ∧ s.upper.place = .asleep ∧ s.upper.pushed = 0

instance (s : State) : Decidable (Stranded s) :=
  inferInstanceAs (Decidable (_ ∧ _ ∧ _ ∧ _))

/-- `stop` does not notify between the worker's look at the flag and its sleep. -/
def StopsAround (_ : List SocketPath.Event) (s : State) : Input → Prop
  | .stop => s.upper.stopper = .flagged → s.upper.place ≠ .committed
  | _ => True

instance StopsAround.decidable (tr : List SocketPath.Event) (s : State) :
    (i : Input) → Decidable (StopsAround tr s i)
  | .stop => inferInstanceAs (Decidable (_ → _))
  | .start => .isTrue trivial
  | .enqueue _ => .isTrue trivial
  | .producer _ => .isTrue trivial
  | .notify => .isTrue trivial
  | .worker _ => .isTrue trivial
  | .spuriousWakeup => .isTrue trivial

theorem workerStep_running {rules : RuleTable} {nowNs : UInt64} {p p' : SocketPath.State}
    {es : List SocketPath.Event} (hstep : SocketPath.workerStep rules nowNs p = some (p', es)) :
    p'.running = p.running := by
  cases SocketPath.worked_of_workerStep hstep <;> rfl

theorem step_running {rules : RuleTable} {p p' : SocketPath.State} {i : SocketPath.Input}
    {es : List SocketPath.Event} (hi : i ≠ .start) (hrunning : p.running = false ∨ i = .stop)
    (hstep : SocketPath.step rules p i = some (p', es)) : p'.running = false := by
  cases i with
  | start => exact (hi rfl).elim
  | stop =>
      obtain ⟨rfl, -⟩ := Prod.mk.inj (Option.some.inj hstep)
      rfl
  | enqueue pkt =>
      obtain ⟨rfl, -⟩ := Prod.mk.inj (Option.some.inj hstep)
      exact hrunning.resolve_right SocketPath.Input.noConfusion
  | producer n =>
      have hold := hrunning.resolve_right SocketPath.Input.noConfusion
      cases SocketPath.produced_of_producerStep hstep <;> exact hold
  | worker nowNs =>
      rw [workerStep_running hstep]
      exact hrunning.resolve_right SocketPath.Input.noConfusion

section Steps

variable {rules : RuleTable} {s s' : State} {w : Waits} {es : List SocketPath.Event}

/-- A call of `stop` has cleared the flag, and once it has notified the worker does not wait. -/
structure Inv (s : State) : Prop where
  cleared : s.upper.stopper ≠ .idle → s.lower.running = false
  awake : s.upper.stopper = .notified → s.upper.place.waits = false

/-- The same before the step of the coarser model is taken. -/
structure Moved (s : State) (w : Waits) (j : Option SocketPath.Input) : Prop where
  starts : j = some .start → w.stopper = .idle
  cleared : w.stopper ≠ .idle → s.lower.running = false ∨ j = some .stop
  awake : w.stopper = .notified → w.place.waits = false

theorem Inv.moved (hinv : Inv s) {j : Option SocketPath.Input} (hj : j ≠ some .start) :
    Moved s s.upper j :=
  ⟨fun h => (hj h).elim, fun h => Or.inl (hinv.cleared h), hinv.awake⟩

theorem workerMove_moved {nowNs : UInt64} {j : Option SocketPath.Input} (hinv : Inv s)
    (hmove : workerMove s.upper s.lower nowNs = some (w, j)) : Moved s w j := by
  have hcleared (h : s.upper.stopper ≠ .idle) := Or.inl (b := j = some .stop) (hinv.cleared h)
  unfold workerMove at hmove
  split at hmove
  · obtain ⟨rfl, rfl⟩ := Prod.mk.inj (Option.some.inj hmove)
    exact ⟨nofun, hcleared, fun _ => rfl⟩
  · obtain ⟨rfl, rfl⟩ := Prod.mk.inj (Option.some.inj hmove)
    exact ⟨nofun, hcleared, fun _ => rfl⟩
  · split at hmove
    · rename_i hblocked
      obtain ⟨rfl, rfl⟩ := Prod.mk.inj (Option.some.inj hmove)
      refine ⟨nofun, hcleared, fun hnotified => ?_⟩
      -- after the notification the predicate is true
      have hstopped : s.lower.running = false := by
        apply hinv.cleared
        rw [show s.upper.stopper = .notified from hnotified]
        exact Stopper.noConfusion
      rw [hstopped] at hblocked
      cases hblocked.2
    · obtain ⟨rfl, rfl⟩ := Prod.mk.inj (Option.some.inj hmove)
      exact ⟨nofun, hcleared, fun _ => rfl⟩
  · rename_i hplace
    obtain ⟨rfl, rfl⟩ := Prod.mk.inj (Option.some.inj hmove)
    refine ⟨nofun, hcleared, fun hnotified => ?_⟩
    have hawake := hinv.awake hnotified
    rw [hplace] at hawake
    cases hawake
  · cases hmove

theorem stopMove_moved {j : Option SocketPath.Input} (hinv : Inv s)
    (hguard : s.upper.stopper = .flagged → s.upper.place ≠ .committed)
    (hmove : stopMove s.upper s.lower = some (w, j)) : Moved s w j := by
  unfold stopMove at hmove
  split at hmove
  · obtain ⟨rfl, rfl⟩ := Prod.mk.inj (Option.some.inj hmove)
    exact ⟨nofun, fun _ => Or.inr rfl, nofun⟩
  · rename_i hflagged
    obtain ⟨rfl, rfl⟩ := Prod.mk.inj (Option.some.inj hmove)
    refine ⟨nofun, fun _ => Or.inl (hinv.cleared ?_), fun _ => ?_⟩
    · rw [hflagged]
      exact Stopper.noConfusion
    · exact Place.waits_notified (hguard hflagged)
  · split at hmove
    · obtain ⟨rfl, rfl⟩ := Prod.mk.inj (Option.some.inj hmove)
      exact ⟨nofun, fun hidle => (hidle rfl).elim, nofun⟩
    · cases hmove

theorem move_moved {tr : List SocketPath.Event} {i : Input} {j : Option SocketPath.Input}
    (hinv : Inv s) (hguard : StopsAround tr s i) (hmove : move s.upper s.lower i = some (w, j)) :
    Moved s w j := by
  have hcleared (h : s.upper.stopper ≠ .idle) := Or.inl (b := j = some .stop) (hinv.cleared h)
  cases i with
  | start =>
      simp only [move] at hmove
      split at hmove
      · rename_i hidle
        obtain ⟨rfl, rfl⟩ := Prod.mk.inj (Option.some.inj hmove)
        exact ⟨fun _ => hidle, hcleared, fun _ => rfl⟩
      · cases hmove
  | stop => exact stopMove_moved hinv hguard hmove
  | enqueue pkt =>
      obtain ⟨rfl, rfl⟩ := Prod.mk.inj (Option.some.inj hmove)
      exact hinv.moved nofun
  | producer n =>
      simp only [move] at hmove
      split at hmove
      · cases hmove
      · split at hmove
        · obtain ⟨rfl, rfl⟩ := Prod.mk.inj (Option.some.inj hmove)
          exact hinv.moved nofun
        · obtain ⟨rfl, rfl⟩ := Prod.mk.inj (Option.some.inj hmove)
          exact ⟨nofun, hcleared, hinv.awake⟩
  | notify =>
      simp only [move] at hmove
      split at hmove
      · cases hmove
      · obtain ⟨rfl, rfl⟩ := Prod.mk.inj (Option.some.inj hmove)
        exact ⟨nofun, hcleared, fun h => Place.waits_notified_of_awake (hinv.awake h)⟩
  | worker nowNs =>
      simp only [move] at hmove
      split at hmove
      · exact workerMove_moved hinv hmove
      · obtain ⟨rfl, rfl⟩ := Prod.mk.inj (Option.some.inj hmove)
        exact hinv.moved nofun
  | spuriousWakeup =>
      simp only [move] at hmove
      split at hmove
      · obtain ⟨rfl, rfl⟩ := Prod.mk.inj (Option.some.inj hmove)
        exact ⟨nofun, hcleared, fun _ => rfl⟩
      · cases hmove

theorem step_inv {tr : List SocketPath.Event} {i : Input} (hinv : Inv s)
    (hguard : StopsAround tr s i) (hstep : step rules s i = some (s', es)) : Inv s' := by
  obtain ⟨j, hmove, hpath⟩ := layer_eq_some hstep
  have hmoved := move_moved hinv hguard hmove
  rcases hpath with ⟨rfl, hsame, -⟩ | ⟨i', rfl, hstep'⟩
  · refine ⟨fun hstopper => ?_, hmoved.awake⟩
    rw [hsame]
    exact (hmoved.cleared hstopper).resolve_right nofun
  · refine ⟨fun hstopper => step_running ?_ ?_ hstep', hmoved.awake⟩
    · rintro rfl
      exact hstopper (hmoved.starts rfl)
    · exact (hmoved.cleared hstopper).imp_right Option.some.inj

end Steps

/-- What the coarser model shows of its runs is true of the runs over the waits. -/
theorem path_reached {rules : RuleTable} {P : List SocketPath.Event → State → Input → Prop}
    {tr : List SocketPath.Event} {s : State} (hrun : Run (step rules) P init tr s) :
    Reach (SocketPath.step rules) SocketPath.init tr s.lower :=
  run_refines hrun

/-- The worker does not sleep through a `stop` that notifies around its falling asleep. -/
theorem not_stranded {rules : RuleTable} {tr : List SocketPath.Event} {s : State}
    (hrun : Run (step rules) StopsAround init tr s) : ¬ Stranded s := by
  have hinv : Inv s := by
    refine hrun.invariant (I := fun _ s => Inv s) ⟨fun hidle => (hidle rfl).elim, fun _ => rfl⟩ ?_
    intro tr s i s' es hinv hguard hstep
    exact step_inv hinv hguard hstep
  rintro ⟨-, hstopper, hasleep, -⟩
  have hawake := hinv.awake hstopper
  rw [hasleep] at hawake
  cases hawake

end MobileCore.SocketWaits
