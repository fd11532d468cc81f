import MobileCore.ConditionWaits
import MobileCore.LabelledRuns

/-!
# The worker pool of the starvation scenario

The constructor starts the workers, and each looks at the running flag before anything else. The
flag is false until a run sets it.
-/

namespace MobileCore.ScenarioPool

open MobileCore.ConditionWaits
open MobileCore.LabelledRuns

/-- Where a worker is outside the wait. Tasks are numbered. -/
inductive Code where
  | testing
  | entering
  | timedOut
  | working (task : Nat)
  | exited
deriving DecidableEq

/-- Where the owner is, in the constructor, in `run` or in `stop`. -/
inductive Owner where
  | constructing (left : Nat)
  | idle
  | resetting (num_tasks : Nat)
  | submitting (i num_tasks : Nat)
  | notifying (i num_tasks : Nat)
  | waiting (num_tasks wait_ms : Nat)
  | counting (num_tasks : Nat)
  | recording (num_tasks : Nat)
  | stopping
  | flagged
  | joining
deriving DecidableEq

structure State where
  owner : Owner
  running : Bool := false
  task_queue : List Nat := []
  tasks_completed : Nat := 0
  timeouts : Nat := 0
  workers : List (Place Code) := []

inductive Input where
  | owner
  | notify (n : Nat)
  | run (num_tasks : Nat)
  | stop
  | worker (n : Nat)
  | timeout (n : Nat)
  | spuriousWakeup (n : Nat)

inductive Event where
  | submitted (task : Nat)
  | executed (task : Nat)
deriving DecidableEq

def numWorkers (buggy : Bool) (hardware_concurrency : Nat) : Nat :=
  let num_workers := if buggy then 2 else hardware_concurrency
  if num_workers < 1 then 4 else num_workers

def init (buggy : Bool) (hardware_concurrency : Nat) : State where
  owner := .constructing (numWorkers buggy hardware_concurrency)

def State.place (s : State) (n : Nat) (place : Place Code) : State :=
  { s with workers := s.workers.set n place }

def isFree (s : State) : Bool := !s.workers.any Place.hasMutex

def hasExited : Place Code → Bool
  | .away .exited => true
  | _ => false

/-- A worker that has the mutex takes a task or goes back to the flag. -/
def State.take (s : State) (n : Nat) : State :=
  match s.task_queue with
  | [] => s.place n (.away .testing)
  | task :: rest => { s.place n (.away (.working task)) with task_queue := rest }

/-- The worker's next step; from the predicate to the pop it keeps the mutex. -/
def workerStep (s : State) (n : Nat) : Place Code → Option (State × List Event)
  | .away .testing => some (s.place n (.away (if s.running then .entering else .exited)), [])
  | .away .entering | .woken => if isFree s then some (s.place n .checking, []) else none
  | .checking =>
      if s.task_queue = [] ∧ s.running = true then some (s.place n .committed, [])
      else some (s.take n, [])
  | .committed => some (s.place n .asleep, [])
  | .away .timedOut => if isFree s then some (s.take n, []) else none
  | .away (.working task) =>
      some ({ s.place n (.away .testing) with tasks_completed := s.tasks_completed + 1 },
        [.executed task])
  | .asleep | .away .exited => none

/-- The owner's next step, as far as it has no choice. -/
def ownerStep (s : State) : Option (State × List Event) :=
  match s.owner with
  | .constructing 0 => some ({ s with owner := .idle }, [])
  | .constructing (left + 1) =>
      some
        ({ s with owner := .constructing left, workers := s.workers ++ [.away .testing] }, [])
  | .resetting num_tasks =>
      some ({ s with owner := .submitting 0 num_tasks, tasks_completed := 0, timeouts := 0 }, [])
  | .submitting i num_tasks =>
      if i < num_tasks then
        if isFree s then
          some
            ({ s with owner := .notifying i num_tasks, task_queue := s.task_queue ++ [i] },
              [.submitted i])
        else none
      else some ({ s with owner := .waiting num_tasks 0 }, [])
  | .waiting num_tasks wait_ms =>
      if s.tasks_completed < num_tasks ∧ wait_ms < 30000 then
        some ({ s with owner := .waiting num_tasks (wait_ms + 100) }, [])
      else some ({ s with owner := .counting num_tasks }, [])
  | .counting num_tasks =>
      if s.tasks_completed < num_tasks then some ({ s with owner := .recording num_tasks }, [])
      else some ({ s with owner := .stopping }, [])
  | .recording num_tasks =>
      some ({ s with owner := .stopping, timeouts := num_tasks - s.tasks_completed }, [])
  | .stopping => some ({ s with owner := .flagged, running := false }, [])
  | .flagged => some ({ s with owner := .joining, workers := notifyAll s.workers }, [])
  | .joining =>
      if s.workers.all hasExited then some ({ s with owner := .idle, workers := [] }, []) else none
  | .idle | .notifying _ _ => none

/-- `notify_one` after a submission; which worker is woken is open. -/
def notify (s : State) (n : Nat) : Option (State × List Event) :=
  match s.owner with
  | .notifying i num_tasks =>
      (notifyOne n s.workers).map fun workers =>
        ({ s with owner := .submitting (i + 1) num_tasks, workers := workers }, [])
  | _ => none

def step : Machine State Input Event
  | s, .owner => ownerStep s
  | s, .notify n => notify s n
  | s, .run num_tasks =>
      if s.owner = .idle then some ({ s with owner := .resetting num_tasks, running := true }, [])
      else none
  | s, .stop => if s.owner = .idle then some ({ s with owner := .stopping }, []) else none
  | s, .worker n => (s.workers[n]?).bind (workerStep s n)
  | s, .timeout n =>
      match s.workers[n]? with
      | some .asleep => some (s.place n (.away .timedOut), [])
      | _ => none
  | s, .spuriousWakeup n =>
      match s.workers[n]? with
      | some .asleep => some (s.place n .woken, [])
      | _ => none

/-- A worker that has not left its loop. -/
def Staffed (workers : List (Place Code)) : Prop := ∃ place ∈ workers, hasExited place = false

instance (workers : List (Place Code)) : Decidable (Staffed workers) :=
  inferInstanceAs (Decidable (∃ place ∈ workers, hasExited place = false))

/-- The flag is set and tasks are queued, and no worker is left to take one. -/
def Stuck (s : State) : Prop :=
  s.running = true ∧ s.task_queue ≠ [] ∧ ∀ place ∈ s.workers, hasExited place = true

/-- A run sets the flag while some worker has not found it unset. -/
def SetInTime (_ : List Event) (s : State) : Input → Prop
  | .run _ => Staffed s.workers
  | _ => True

instance (tr : List Event) (s : State) (i : Input) : Decidable (SetInTime tr s i) :=
  match i with
  | .run _ => inferInstanceAs (Decidable (Staffed s.workers))
  | .owner | .notify _ | .stop | .worker _ | .timeout _ | .spuriousWakeup _ => .isTrue trivial

section Steps

variable {workers : List (Place Code)}

theorem staffed_set {n : Nat} {place before : Place Code} (hbefore : workers[n]? = some before)
    (hplace : hasExited place = false) : Staffed (workers.set n place) := by
  obtain ⟨hn, _⟩ := List.getElem?_eq_some_iff.mp hbefore
  exact ⟨place, List.mem_set hn place, hplace⟩

theorem Staffed.notified (h : Staffed workers) : Staffed (notifyAll workers) := by
  obtain ⟨place, hmem, hplace⟩ := h
  refine ⟨place.notified, List.mem_map_of_mem hmem, ?_⟩
  cases place with
  | away code => exact hplace
  | _ => rfl

theorem Staffed.notifiedOne {workers' : List (Place Code)} {n : Nat} (h : Staffed workers)
    (hnotify : notifyOne n workers = some workers') : Staffed workers' := by
  rw [notifyOne] at hnotify
  split at hnotify
  · rename_i hsleeps
    obtain rfl := Option.some.inj hnotify
    exact staffed_set hsleeps rfl
  · split at hnotify
    · cases hnotify
    · obtain rfl := Option.some.inj hnotify
      exact h

/-- Whoever works while the flag is set. -/
def Manned (s : State) : Prop := s.running = true → Staffed s.workers

theorem manned_take {s : State} {n : Nat} {before : Place Code}
    (hbefore : s.workers[n]? = some before) : Manned (s.take n) := by
  intro _
  rw [State.take]
  split
  · exact staffed_set hbefore rfl
  · exact staffed_set hbefore rfl

theorem manned_workerStep {s s' : State} {n : Nat} {place : Place Code} {es : List Event}
    (hplace : s.workers[n]? = some place) (h : workerStep s n place = some (s', es)) :
    Manned s' := by
  rw [workerStep.eq_def] at h
  split at h
  · obtain ⟨rfl, rfl⟩ := Prod.mk.inj (Option.some.inj h)
    intro hrunning
    have hset : s.running = true := hrunning
    rw [hset]
    exact staffed_set hplace rfl
  · obtain ⟨_, h⟩ := Option.ite_none_right_eq_some.mp h
    obtain ⟨rfl, rfl⟩ := Prod.mk.inj (Option.some.inj h)
    exact fun _ => staffed_set hplace rfl
  · obtain ⟨_, h⟩ := Option.ite_none_right_eq_some.mp h
    obtain ⟨rfl, rfl⟩ := Prod.mk.inj (Option.some.inj h)
    exact fun _ => staffed_set hplace rfl
  · split at h
    · obtain ⟨rfl, rfl⟩ := Prod.mk.inj (Option.some.inj h)
      exact fun _ => staffed_set hplace rfl
    · obtain ⟨rfl, rfl⟩ := Prod.mk.inj (Option.some.inj h)
      exact manned_take hplace
  · obtain ⟨rfl, rfl⟩ := Prod.mk.inj (Option.some.inj h)
    exact fun _ => staffed_set hplace rfl
  · obtain ⟨_, h⟩ := Option.ite_none_right_eq_some.mp h
    obtain ⟨rfl, rfl⟩ := Prod.mk.inj (Option.some.inj h)
    exact manned_take hplace
  · obtain ⟨rfl, rfl⟩ := Prod.mk.inj (Option.some.inj h)
    exact fun _ => staffed_set hplace rfl
  · cases h
  · cases h

theorem manned_ownerStep {s s' : State} {es : List Event} (hs : Manned s)
    (h : ownerStep s = some (s', es)) : Manned s' := by
  rw [ownerStep.eq_def] at h
  split at h
  · obtain ⟨rfl, rfl⟩ := Prod.mk.inj (Option.some.inj h)
    exact hs
  · obtain ⟨rfl, rfl⟩ := Prod.mk.inj (Option.some.inj h)
    exact fun _ => ⟨.away .testing, List.mem_append_right _ List.mem_cons_self, rfl⟩
  · obtain ⟨rfl, rfl⟩ := Prod.mk.inj (Option.some.inj h)
    exact hs
  · split at h
    · obtain ⟨_, h⟩ := Option.ite_none_right_eq_some.mp h
      obtain ⟨rfl, rfl⟩ := Prod.mk.inj (Option.some.inj h)
      exact hs
    · obtain ⟨rfl, rfl⟩ := Prod.mk.inj (Option.some.inj h)
      exact hs
  · split at h
    · obtain ⟨rfl, rfl⟩ := Prod.mk.inj (Option.some.inj h)
      exact hs
    · obtain ⟨rfl, rfl⟩ := Prod.mk.inj (Option.some.inj h)
      exact hs
  · split at h
    · obtain ⟨rfl, rfl⟩ := Prod.mk.inj (Option.some.inj h)
      exact hs
    · obtain ⟨rfl, rfl⟩ := Prod.mk.inj (Option.some.inj h)
      exact hs
  · obtain ⟨rfl, rfl⟩ := Prod.mk.inj (Option.some.inj h)
    exact hs
  · obtain ⟨rfl, rfl⟩ := Prod.mk.inj (Option.some.inj h)
    exact nofun
  · obtain ⟨rfl, rfl⟩ := Prod.mk.inj (Option.some.inj h)
    exact fun hrunning => (hs hrunning).notified
  · -- a join of workers that are all gone, so the flag is not set
    obtain ⟨hgone, h⟩ := Option.ite_none_right_eq_some.mp h
    obtain ⟨rfl, rfl⟩ := Prod.mk.inj (Option.some.inj h)
    intro hrunning
    obtain ⟨place, hmem, hplace⟩ := hs hrunning
    have hexited : hasExited place = true := List.all_eq_true.mp hgone place hmem
    rw [hplace] at hexited
    cases hexited
  · cases h
  · cases h

theorem manned_step {tr : List Event} {s s' : State} {i : Input} {es : List Event}
    (hs : Manned s) (hguard : SetInTime tr s i) (h : step s i = some (s', es)) : Manned s' := by
  cases i with
  | owner => exact manned_ownerStep hs h
  | notify n =>
      rw [step, notify] at h
      split at h
      · obtain ⟨workers, hworkers, hpair⟩ := Option.map_eq_some_iff.mp h
        obtain ⟨rfl, rfl⟩ := Prod.mk.inj hpair
        exact fun hrunning => (hs hrunning).notifiedOne hworkers
      · cases h
  | run num_tasks =>
      obtain ⟨_, h⟩ := Option.ite_none_right_eq_some.mp h
      obtain ⟨rfl, rfl⟩ := Prod.mk.inj (Option.some.inj h)
      exact fun _ => hguard
  | stop =>
      obtain ⟨_, h⟩ := Option.ite_none_right_eq_some.mp h
      obtain ⟨rfl, rfl⟩ := Prod.mk.inj (Option.some.inj h)
      exact hs
  | worker n =>
      obtain ⟨place, hplace, hworker⟩ := Option.bind_eq_some_iff.mp h
      exact manned_workerStep hplace hworker
  | timeout n =>
      rw [step] at h
      split at h
      · rename_i hasleep
        obtain ⟨rfl, rfl⟩ := Prod.mk.inj (Option.some.inj h)
        exact fun _ => staffed_set hasleep rfl
      · cases h
  | spuriousWakeup n =>
      rw [step] at h
      split at h
      · rename_i hasleep
        obtain ⟨rfl, rfl⟩ := Prod.mk.inj (Option.some.inj h)
        exact fun _ => staffed_set hasleep rfl
      · cases h

end Steps

/-- Queued work has a worker in every run that sets the flag while a worker is still there. -/
theorem not_stuck {buggy : Bool} {hardware_concurrency : Nat} {tr : List Event} {s : State}
    (hrun : Run step SetInTime (init buggy hardware_concurrency) tr s) : ¬Stuck s := by
  have hmanned : Manned s := by
    refine hrun.invariant (I := fun _ s => Manned s) ?_ ?_
    · intro hrunning
      cases hrunning
    · intro tr s i s' es hs hguard hstep
      exact manned_step hs hguard hstep
  rintro ⟨hrunning, _, hexited⟩
  obtain ⟨place, hmem, hplace⟩ := hmanned hrunning
  rw [hexited place hmem] at hplace
  cases hplace

/-- One worker of two has exited when the run starts and submits its task. -/
theorem one_worker_left : ∃ tr s, Run step SetInTime (init true 8) tr s ∧ s.running = true ∧
    s.task_queue = [0] ∧ ¬Stuck s := by
  have hexec : (exec step (init true 8)
      [.owner, .owner, .owner, .worker 0, .run 1, .owner, .owner]).map
      (fun out => (out.1.running, out.1.task_queue)) = some (true, [0]) := rfl
  obtain ⟨tr, s, hrun, hseen⟩ := exists_run_of_exec (P := SetInTime) _ (by decide) hexec
  obtain ⟨hrunning, hqueue⟩ := Prod.mk.inj hseen
  exact ⟨tr, s, hrun, hrunning, hqueue, not_stuck hrun⟩

/-- Both workers of the pool look at the flag before the run sets it. -/
theorem workers_gone_before_run : ¬∀ (buggy : Bool) (hardware_concurrency : Nat) (tr : List Event)
    (s : State), Reach step (init buggy hardware_concurrency) tr s → ¬Stuck s := by
  intro h
  have hexec : (exec step (init true 8)
      [.owner, .owner, .owner, .worker 0, .worker 1, .run 1, .owner, .owner]).map
      (fun out => (out.1.running, out.1.task_queue, out.1.workers)) =
        some (true, [0], [.away .exited, .away .exited]) := rfl
  obtain ⟨tr, s, hrun, hseen⟩ := exists_reach_of_exec hexec
  obtain ⟨hrunning, hqueue, hworkers⟩ : s.running = true ∧ s.task_queue = [0] ∧
      s.workers = [.away .exited, .away .exited] := by
    simpa using hseen
  refine h true 8 tr s hrun ⟨hrunning, ?_, ?_⟩
  · rw [hqueue]
    exact List.cons_ne_nil 0 []
  · rw [hworkers]
    intro place hplace
    simp only [List.mem_cons, List.not_mem_nil, or_false, or_self] at hplace
    rw [hplace]
    rfl

end MobileCore.ScenarioPool
