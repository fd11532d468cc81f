import MobileCore.ConditionWaits
import MobileCore.LabelledRuns

/-!
# The thread pool

`submit`, `workerLoop` and the destructor of `ThreadPool`, over the steps of the mutex and of the
condition variable. A task runs in one step.
-/

namespace MobileCore.ThreadPool

open MobileCore.ConditionWaits
open MobileCore.LabelledRuns

universe u

variable {T : Type u}

/-- Where a worker is outside the wait. -/
inductive Code (T : Type u) where
  | entering
  | running (task : T)
  | exited
deriving DecidableEq

/-- Where the destructor is: it stores the flag, notifies the workers and joins them. -/
inductive Closer where
  | idle
  | flagged
  | notified
  | joined
deriving DecidableEq

/-- `pushed` counts the calls of `submit` that have still to notify a worker. -/
structure State (T : Type u) where
  workers : List (Place (Code T))
  queue : List T := []
  stop : Bool := false
  pushed : Nat := 0
  closer : Closer := .idle

inductive Input (T : Type u) where
  | submit (task : T)
  | notify (n : Nat)
  | worker (n : Nat)
  | spuriousWakeup (n : Nat)
  | close

inductive Event (T : Type u) where
  | submitted (task : T)
  | executed (task : T)
deriving DecidableEq

def State.place (s : State T) (n : Nat) (place : Place (Code T)) : State T :=
  { s with workers := s.workers.set n place }

def isFree (s : State T) : Bool := !s.workers.any Place.hasMutex

def hasExited : Place (Code T) → Bool
  | .away .exited => true
  | _ => false

/-- The worker's next step; the mutex is kept from the predicate to the pop of the task. -/
def workerStep (s : State T) (n : Nat) : Place (Code T) → Option (State T × List (Event T))
  | .away .entering | .woken => if isFree s then some (s.place n .checking, []) else none
  | .checking =>
    match s.queue with
    | [] => some (s.place n (if s.stop then .away .exited else .committed), [])
    | task :: rest => some ({ s.place n (.away (.running task)) with queue := rest }, [])
  | .committed => some (s.place n .asleep, [])
  | .away (.running task) => some (s.place n (.away .entering), [.executed task])
  | .asleep | .away .exited => none

def closeStep (s : State T) : Option (State T) :=
  match s.closer with
  | .idle => some { s with stop := true, closer := .flagged }
  | .flagged => some { s with workers := notifyAll s.workers, closer := .notified }
  | .notified => if s.workers.all hasExited then some { s with closer := .joined } else none
  | .joined => none

def step : Machine (State T) (Input T) (Event T)
  | s, .submit task =>
    if isFree s then
      some ({ s with queue := s.queue ++ [task], pushed := s.pushed + 1 }, [.submitted task])
    else none
  | s, .notify n =>
    match s.pushed with
    | 0 => none
    | k + 1 =>
      (notifyOne n s.workers).map fun workers => ({ s with workers := workers, pushed := k }, [])
  | s, .worker n => (s.workers[n]?).bind (workerStep s n)
  | s, .spuriousWakeup n =>
    match s.workers[n]? with
    | some .asleep => some (s.place n .woken, [])
    | _ => none
  | s, .close => (closeStep s).map fun s' => (s', [])

def init (numWorkers : Nat) : State T where
  workers := List.replicate numWorkers (.away .entering)

/-- A worker sleeps although it was to stop, and no call has still to notify one. -/
def Stranded (s : State T) : Prop :=
  s.stop = true ∧ s.closer = .notified ∧ .asleep ∈ s.workers ∧ s.pushed = 0

/-- The destructor does not notify between a worker's look at the flag and its sleep. -/
def ClosesAround (_ : List (Event T)) (s : State T) : Input T → Prop
  | .close => s.closer = .flagged → .committed ∉ s.workers
  | _ => True

instance ClosesAround.decidable [DecidableEq T] (tr : List (Event T)) (s : State T) :
    (i : Input T) → Decidable (ClosesAround tr s i)
  | .close => inferInstanceAs (Decidable (_ → ¬ _))
  | .submit _ => .isTrue trivial
  | .notify _ => .isTrue trivial
  | .worker _ => .isTrue trivial
  | .spuriousWakeup _ => .isTrue trivial

/-- The destructor has set the flag, and once it has notified no worker waits. -/
structure Inv (s : State T) : Prop where
  flagged : s.closer ≠ .idle → s.stop = true
  quiet : s.closer = .notified → Quiet s.workers

section Steps

variable {s s' : State T} {es : List (Event T)}

theorem Inv.place (hinv : Inv s) (n : Nat) {place : Place (Code T)}
    (hplace : s.closer = .notified → place.waits = false) : Inv (s.place n place) where
  flagged := hinv.flagged
  quiet hnotified := (hinv.quiet hnotified).set n (hplace hnotified)

theorem workerStep_inv {n : Nat} {place : Place (Code T)} (hinv : Inv s)
    (hplace : s.workers[n]? = some place) (hstep : workerStep s n place = some (s', es)) :
    Inv s' := by
  unfold workerStep at hstep
  split at hstep
  · split at hstep
    · obtain ⟨rfl, -⟩ := Prod.mk.inj (Option.some.inj hstep)
      exact hinv.place n fun _ => rfl
    · cases hstep
  · split at hstep
    · obtain ⟨rfl, -⟩ := Prod.mk.inj (Option.some.inj hstep)
      exact hinv.place n fun _ => rfl
    · cases hstep
  · split at hstep
    · obtain ⟨rfl, -⟩ := Prod.mk.inj (Option.some.inj hstep)
      apply hinv.place n
      intro hnotified
      have hstop : s.stop = true := by
        apply hinv.flagged
        rw [hnotified]
        exact Closer.noConfusion
      rw [hstop]
      rfl
    · rename_i task rest _
      obtain ⟨rfl, -⟩ := Prod.mk.inj (Option.some.inj hstep)
      have hrunning : Inv (s.place n (.away (.running task))) := hinv.place n fun _ => rfl
      exact ⟨hrunning.flagged, hrunning.quiet⟩
  · obtain ⟨rfl, -⟩ := Prod.mk.inj (Option.some.inj hstep)
    apply hinv.place n
    intro hnotified
    cases hinv.quiet hnotified .committed (List.mem_of_getElem? hplace)
  · obtain ⟨rfl, -⟩ := Prod.mk.inj (Option.some.inj hstep)
    exact hinv.place n fun _ => rfl
  · cases hstep
  · cases hstep

theorem init_inv (numWorkers : Nat) : Inv (init numWorkers : State T) where
  flagged hidle := (hidle rfl).elim
  quiet hnotified := by cases hnotified

theorem closeStep_inv (hinv : Inv s) (hguard : s.closer = .flagged → .committed ∉ s.workers)
    (hstep : closeStep s = some s') : Inv s' := by
  unfold closeStep at hstep
  split at hstep
  · obtain rfl := Option.some.inj hstep
    exact ⟨fun _ => rfl, nofun⟩
  · rename_i hflagged
    obtain rfl := Option.some.inj hstep
    refine ⟨fun _ => hinv.flagged ?_, fun _ => quiet_notifyAll (hguard hflagged)⟩
    rw [hflagged]
    exact Closer.noConfusion
  · rename_i hnotified
    split at hstep
    · obtain rfl := Option.some.inj hstep
      refine ⟨fun _ => hinv.flagged ?_, nofun⟩
      rw [hnotified]
      exact Closer.noConfusion
    · cases hstep
  · cases hstep

theorem step_inv {tr : List (Event T)} {i : Input T} (hinv : Inv s) (hguard : ClosesAround tr s i)
    (hstep : step s i = some (s', es)) : Inv s' := by
  cases i with
  | submit task =>
      simp only [step] at hstep
      split at hstep
      · obtain ⟨rfl, -⟩ := Prod.mk.inj (Option.some.inj hstep)
        exact ⟨hinv.flagged, hinv.quiet⟩
      · cases hstep
  | notify n =>
      simp only [step] at hstep
      split at hstep
      · cases hstep
      · obtain ⟨workers, hworkers, hpair⟩ := Option.map_eq_some_iff.mp hstep
        obtain ⟨rfl, -⟩ := Prod.mk.inj hpair
        exact ⟨hinv.flagged, fun hnotified => (hinv.quiet hnotified).notifyOne hworkers⟩
  | worker n =>
      obtain ⟨place, hplace, hworker⟩ := Option.bind_eq_some_iff.mp hstep
      exact workerStep_inv hinv hplace hworker
  | spuriousWakeup n =>
      simp only [step] at hstep
      split at hstep
      · obtain ⟨rfl, -⟩ := Prod.mk.inj (Option.some.inj hstep)
        exact hinv.place n fun _ => rfl
      · cases hstep
  | close =>
      obtain ⟨s₁, hclose, hpair⟩ := Option.map_eq_some_iff.mp hstep
      obtain ⟨rfl, -⟩ := Prod.mk.inj hpair
      exact closeStep_inv hinv hguard hclose

end Steps

theorem not_stranded {numWorkers : Nat} {tr : List (Event T)} {s : State T}
    (hrun : Run step ClosesAround (init numWorkers) tr s) : ¬ Stranded s := by
  have hinv : Inv s := by
    refine hrun.invariant (I := fun _ s => Inv s) (init_inv numWorkers) ?_
    intro tr s i s' es hinv hguard hstep
    exact step_inv hinv hguard hstep
  rintro ⟨-, hnotified, hasleep, -⟩
  cases hinv.quiet hnotified .asleep hasleep

end MobileCore.ThreadPool
