import Mathlib.Algebra.Order.BigOperators.Group.List
import Mathlib.Algebra.Order.Ring.Nat
import MobileCore.Completion
import MobileCore.ConditionWaits

/-!
# The queue of the memory growth scenario

One producer and two consumers share a queue. The fixed variant lets the producer wait while the
queue is full; the other one pushes without a look at its length.
-/

namespace MobileCore.Backpressure

open MobileCore.ConditionWaits
open MobileCore.LabelledRuns

def MAX_Q : Nat := 10

def WORKERS : Nat := 2

/-- Where a consumer is outside its wait. -/
inductive Consumer where
  | entering
  | processing (item : Nat)
  | exited
deriving DecidableEq

/-- Where the producer is outside its wait: in its loop, in the one that waits for the consumers, or
behind the stop. -/
inductive Producer where
  | pushing
  | notifying
  | draining
  | flagged
  | halfNotified
  | joining
  | joined
deriving DecidableEq

/-- `next` is the item that the producer pushes next. -/
structure State where
  q : List Nat := []
  stop : Bool := false
  done : Nat := 0
  peak_depth : Nat := 0
  next : Nat := 0
  main : Place Producer := .away .pushing
  workers : List (Place Consumer) := List.replicate WORKERS (.away .entering)

inductive Input where
  | main
  | notify (k : Nat)
  | worker (k : Nat)
  | spuriousMain
  | spuriousWorker (k : Nat)
deriving DecidableEq

inductive Event where
  | pushed (item : Nat)
  | popped (item : Nat)
  | completed (item : Nat)
deriving DecidableEq

def State.place (s : State) (k : Nat) (place : Place Consumer) : State :=
  { s with workers := s.workers.set k place }

def isFree (s : State) : Bool := !s.main.hasMutex && !s.workers.any Place.hasMutex

def hasExited : Place Consumer → Bool
  | .away .exited => true
  | _ => false

/-- The push, with the mutex. -/
def push (s : State) : State × List Event :=
  ({ s with
      q := s.q ++ [s.next]
      peak_depth := max s.peak_depth (s.q.length + 1)
      next := s.next + 1
      main := .away .notifying },
    [.pushed s.next])

section Steps

variable (buggy : Bool) (n : Nat)

def mainStep (s : State) : Option (State × List Event) :=
  match s.main with
  | .away .pushing =>
    if s.next < n then
      if isFree s then some (if buggy then push s else ({ s with main := .checking }, [])) else none
    else some ({ s with main := .away .draining }, [])
  | .woken => if isFree s then some ({ s with main := .checking }, []) else none
  | .checking =>
    some (if s.q.length < MAX_Q ∨ s.stop then push s else ({ s with main := .committed }, []))
  | .committed => some ({ s with main := .asleep }, [])
  | .away .draining =>
    if s.done < n then none else some ({ s with stop := true, main := .away .flagged }, [])
  | .away .flagged =>
    some ({ s with workers := notifyAll s.workers, main := .away .halfNotified }, [])
  | .away .halfNotified => some ({ s with main := .away .joining }, [])
  | .away .joining =>
    if s.workers.all hasExited then some ({ s with main := .away .joined }, []) else none
  | .asleep | .away .notifying | .away .joined => none

/-- A consumer's next step; from the predicate to the notification it keeps the mutex. -/
def workerStep (s : State) (k : Nat) : Place Consumer → Option (State × List Event)
  | .away .entering | .woken => if isFree s then some (s.place k .checking, []) else none
  | .checking =>
    match s.q with
    | [] => some (s.place k (if s.stop then .away .exited else .committed), [])
    | item :: rest =>
      some
        ({ s.place k (.away (.processing item)) with
            q := rest
            main := if buggy then s.main else s.main.notified },
          [.popped item])
  | .committed => some (s.place k .asleep, [])
  | .away (.processing item) =>
    some ({ s.place k (.away .entering) with done := s.done + 1 }, [.completed item])
  | .asleep | .away .exited => none

/-- `notify_one` after a push; which consumer is woken is open. -/
def notify (s : State) (k : Nat) : Option (State × List Event) :=
  if s.main = .away .notifying then
    (notifyOne k s.workers).map fun workers =>
      ({ s with main := .away .pushing, workers := workers }, [])
  else none

def step : Machine State Input Event
  | s, .main => mainStep buggy n s
  | s, .notify k => notify s k
  | s, .worker k => (s.workers[k]?).bind (workerStep buggy s k)
  | s, .spuriousMain => if s.main = .asleep then some ({ s with main := .woken }, []) else none
  | s, .spuriousWorker k =>
    match s.workers[k]? with
    | some .asleep => some (s.place k .woken, [])
    | _ => none

end Steps

def init : State := {}

def Event.pushedItem : Event → Option Nat
  | .pushed item => some item
  | _ => none

def Event.poppedItem : Event → Option Nat
  | .popped item => some item
  | _ => none

def Event.completedItem : Event → Option Nat
  | .completed item => some item
  | _ => none

def pushed (tr : List Event) : List Nat := tr.filterMap Event.pushedItem

def popped (tr : List Event) : List Nat := tr.filterMap Event.poppedItem

def completed (tr : List Event) : List Nat := tr.filterMap Event.completedItem

def itemOf : Place Consumer → Option Nat
  | .away (.processing item) => some item
  | _ => none

def held (s : State) : List Nat := s.workers.filterMap itemOf

inductive Move (buggy : Bool) (n : Nat) (s : State) : Input → State → List Event → Prop where
  | pushNow (hmain : s.main = .away .pushing) (hbuggy : buggy = true) (hnext : s.next < n)
      (hfree : isFree s = true) : Move buggy n s .main (push s).1 (push s).2
  | look (hmain : s.main = .away .pushing ∧ s.next < n ∧ buggy = false ∨ s.main = .woken)
      (hfree : isFree s = true) : Move buggy n s .main { s with main := .checking } []
  | pushChecked (hmain : s.main = .checking) (hroom : s.q.length < MAX_Q ∨ s.stop = true) :
      Move buggy n s .main (push s).1 (push s).2
  | commit (hmain : s.main = .checking) (hfull : MAX_Q ≤ s.q.length) :
      Move buggy n s .main { s with main := .committed } []
  | sleep (hmain : s.main = .committed) : Move buggy n s .main { s with main := .asleep } []
  | drain (hmain : s.main = .away .pushing) (hnext : n ≤ s.next) :
      Move buggy n s .main { s with main := .away .draining } []
  | stop (hmain : s.main = .away .draining) (hdone : n ≤ s.done) :
      Move buggy n s .main { s with stop := true, main := .away .flagged } []
  | wakeAll (hmain : s.main = .away .flagged) :
      Move buggy n s .main
        { s with workers := notifyAll s.workers, main := .away .halfNotified } []
  | wokenAll (hmain : s.main = .away .halfNotified) :
      Move buggy n s .main { s with main := .away .joining } []
  | join (hmain : s.main = .away .joining) (hexited : s.workers.all hasExited = true) :
      Move buggy n s .main { s with main := .away .joined } []
  | notify (k : Nat) (workers : List (Place Consumer)) (hmain : s.main = .away .notifying)
      (hnotify : notifyOne k s.workers = some workers) :
      Move buggy n s (.notify k) { s with main := .away .pushing, workers := workers } []
  | wakeMain (hmain : s.main = .asleep) :
      Move buggy n s .spuriousMain { s with main := .woken } []
  | workerLook (k : Nat) (place : Place Consumer) (hplace : s.workers[k]? = some place)
      (hcode : place = .away .entering ∨ place = .woken) (hfree : isFree s = true) :
      Move buggy n s (.worker k) (s.place k .checking) []
  | pop (k item : Nat) (rest : List Nat) (hplace : s.workers[k]? = some .checking)
      (hq : s.q = item :: rest) :
      Move buggy n s (.worker k)
        { s.place k (.away (.processing item)) with
            q := rest
            main := if buggy then s.main else s.main.notified }
        [.popped item]
  | workerCommit (k : Nat) (hplace : s.workers[k]? = some .checking) (hq : s.q = [])
      (hstop : s.stop = false) : Move buggy n s (.worker k) (s.place k .committed) []
  | exit (k : Nat) (hplace : s.workers[k]? = some .checking) (hq : s.q = [])
      (hstop : s.stop = true) : Move buggy n s (.worker k) (s.place k (.away .exited)) []
  | workerSleep (k : Nat) (hplace : s.workers[k]? = some .committed) :
      Move buggy n s (.worker k) (s.place k .asleep) []
  | complete (k item : Nat) (hplace : s.workers[k]? = some (.away (.processing item))) :
      Move buggy n s (.worker k) { s.place k (.away .entering) with done := s.done + 1 }
        [.completed item]
  | wakeWorker (k : Nat) (hplace : s.workers[k]? = some .asleep) :
      Move buggy n s (.spuriousWorker k) (s.place k .woken) []

section Inversion

variable {buggy : Bool} {n : Nat} {s s' : State} {es : List Event}

theorem move_of_mainStep (h : mainStep buggy n s = some (s', es)) : Move buggy n s .main s' es := by
  unfold mainStep at h
  split at h
  · rename_i hmain
    split at h
    · rename_i hnext
      split at h
      · rename_i hfree
        cases buggy with
        | true =>
            obtain ⟨rfl, rfl⟩ := Prod.mk.inj (Option.some.inj h)
            exact .pushNow hmain rfl hnext hfree
        | false =>
            obtain ⟨rfl, rfl⟩ := Prod.mk.inj (Option.some.inj h)
            exact .look (.inl ⟨hmain, hnext, rfl⟩) hfree
      · cases h
    · rename_i hnext
      obtain ⟨rfl, rfl⟩ := Prod.mk.inj (Option.some.inj h)
      exact .drain hmain (Nat.le_of_not_lt hnext)
  · rename_i hmain
    split at h
    · rename_i hfree
      obtain ⟨rfl, rfl⟩ := Prod.mk.inj (Option.some.inj h)
      exact .look (.inr hmain) hfree
    · cases h
  · rename_i hmain
    split at h
    · rename_i hroom
      obtain ⟨rfl, rfl⟩ := Prod.mk.inj (Option.some.inj h)
      exact .pushChecked hmain hroom
    · rename_i hroom
      obtain ⟨rfl, rfl⟩ := Prod.mk.inj (Option.some.inj h)
      exact .commit hmain (Nat.le_of_not_lt (not_or.mp hroom).1)
  · rename_i hmain
    obtain ⟨rfl, rfl⟩ := Prod.mk.inj (Option.some.inj h)
    exact .sleep hmain
  · rename_i hmain
    split at h
    · cases h
    · rename_i hdone
      obtain ⟨rfl, rfl⟩ := Prod.mk.inj (Option.some.inj h)
      exact .stop hmain (Nat.le_of_not_lt hdone)
  · rename_i hmain
    obtain ⟨rfl, rfl⟩ := Prod.mk.inj (Option.some.inj h)
    exact .wakeAll hmain
  · rename_i hmain
    obtain ⟨rfl, rfl⟩ := Prod.mk.inj (Option.some.inj h)
    exact .wokenAll hmain
  · rename_i hmain
    split at h
    · rename_i hexited
      obtain ⟨rfl, rfl⟩ := Prod.mk.inj (Option.some.inj h)
      exact .join hmain hexited
    · cases h
  · cases h
  · cases h
  · cases h

theorem move_of_workerStep {k : Nat} {place : Place Consumer}
    (hplace : s.workers[k]? = some place) (h : workerStep buggy s k place = some (s', es)) :
    Move buggy n s (.worker k) s' es := by
  unfold workerStep at h
  split at h
  · split at h
    · rename_i hfree
      obtain ⟨rfl, rfl⟩ := Prod.mk.inj (Option.some.inj h)
      exact .workerLook k _ hplace (.inl rfl) hfree
    · cases h
  · split at h
    · rename_i hfree
      obtain ⟨rfl, rfl⟩ := Prod.mk.inj (Option.some.inj h)
      exact .workerLook k _ hplace (.inr rfl) hfree
    · cases h
  · split at h
    · rename_i hq
      obtain ⟨rfl, rfl⟩ := Prod.mk.inj (Option.some.inj h)
      cases hstop : s.stop with
      | true => exact .exit k hplace hq hstop
      | false => exact .workerCommit k hplace hq hstop
    · rename_i item rest hq
      obtain ⟨rfl, rfl⟩ := Prod.mk.inj (Option.some.inj h)
      exact .pop k item rest hplace hq
  · obtain ⟨rfl, rfl⟩ := Prod.mk.inj (Option.some.inj h)
    exact .workerSleep k hplace
  · rename_i item
    obtain ⟨rfl, rfl⟩ := Prod.mk.inj (Option.some.inj h)
    exact .complete k item hplace
  · cases h
  · cases h

theorem move_of_step {i : Input} (h : step buggy n s i = some (s', es)) :
    Move buggy n s i s' es := by
  cases i with
  | main => exact move_of_mainStep h
  | notify k =>
      simp only [step, Backpressure.notify] at h
      split at h
      · rename_i hmain
        obtain ⟨workers, hnotify, hpair⟩ := Option.map_eq_some_iff.mp h
        obtain ⟨rfl, rfl⟩ := Prod.mk.inj hpair
        exact .notify k workers hmain hnotify
      · cases h
  | worker k =>
      obtain ⟨place, hplace, hstep⟩ := Option.bind_eq_some_iff.mp h
      exact move_of_workerStep hplace hstep
  | spuriousMain =>
      simp only [step] at h
      split at h
      · rename_i hmain
        obtain ⟨rfl, rfl⟩ := Prod.mk.inj (Option.some.inj h)
        exact .wakeMain hmain
      · cases h
  | spuriousWorker k =>
      simp only [step] at h
      split at h
      · rename_i hplace
        obtain ⟨rfl, rfl⟩ := Prod.mk.inj (Option.some.inj h)
        exact .wakeWorker k hplace
      · cases h

end Inversion

section Lists

variable {α β : Type*} {l : List α} {k : Nat} {a : α}

theorem filterMap_set_perm (f : α → Option β) (h : l[k]? = some a) (b : α) :
    ((f a).toList ++ (l.set k b).filterMap f).Perm ((f b).toList ++ l.filterMap f) := by
  have hcons (c : α) (l : List α) : (c :: l).filterMap f = (f c).toList ++ l.filterMap f := by
    rw [List.filterMap_cons]
    cases f c <;> rfl
  induction l generalizing k with
  | nil => cases h
  | cons c l ih =>
      cases k with
      | zero =>
          obtain rfl := Option.some.inj h
          rw [List.set_cons_zero, hcons, hcons]
          exact List.perm_append_comm_assoc _ _ _
      | succ k =>
          rw [List.set_cons_succ, hcons, hcons]
          refine (List.perm_append_comm_assoc _ _ _).trans ?_
          exact ((ih h).append_left _).trans (List.perm_append_comm_assoc _ _ _)

theorem sum_map_set (w : α → Nat) (h : l[k]? = some a) (b : α) :
    w a + ((l.set k b).map w).sum = w b + (l.map w).sum := by
  induction l generalizing k with
  | nil => cases h
  | cons c l ih =>
      cases k with
      | zero =>
          obtain rfl := Option.some.inj h
          simp only [List.set_cons_zero, List.map_cons, List.sum_cons]
          omega
      | succ k =>
          have hih := ih h
          simp only [List.set_cons_succ, List.map_cons, List.sum_cons]
          omega

end Lists

section Order

variable {buggy : Bool} {n : Nat} {s s' : State} {tr es : List Event}

/-- Every item is in one place: in the queue, with a consumer, or completed. -/
structure Ordered (n : Nat) (tr : List Event) (s : State) : Prop where
  pushed : pushed tr = List.range s.next
  popped : popped tr ++ s.q = List.range s.next
  held : (completed tr ++ held s).Perm (Backpressure.popped tr)
  done : s.done = (completed tr).length
  next : s.next ≤ n

theorem held_place (s : State) {k : Nat} {before : Place Consumer}
    (hbefore : s.workers[k]? = some before) (place : Place Consumer) :
    ((itemOf before).toList ++ held (s.place k place)).Perm ((itemOf place).toList ++ held s) :=
  filterMap_set_perm itemOf hbefore place

theorem held_of_same {before place : Place Consumer} {k : Nat}
    (hbefore : s.workers[k]? = some before) (hsame : itemOf before = none ∧ itemOf place = none) :
    (held (s.place k place)).Perm (held s) := by
  have hperm := held_place s hbefore place
  rwa [hsame.1, hsame.2] at hperm

theorem filterMap_notified (workers : List (Place Consumer)) :
    (notifyAll workers).filterMap itemOf = workers.filterMap itemOf := by
  rw [notifyAll, List.filterMap_map]
  congr 1
  funext place
  cases place <;> rfl

theorem notifyOne_cases {k : Nat} {workers : List (Place Consumer)}
    (h : notifyOne k s.workers = some workers) :
    s.workers[k]? = some .asleep ∧ workers = s.workers.set k .woken ∨
      workers = s.workers ∧ s.workers.any Place.sleeps = false := by
  unfold notifyOne at h
  split at h
  · rename_i hplace
    exact .inl ⟨hplace, (Option.some.inj h).symm⟩
  · split at h
    · cases h
    · rename_i hasleep
      exact .inr ⟨(Option.some.inj h).symm, Bool.eq_false_iff.mpr hasleep⟩

theorem Ordered.silent (h : Ordered n tr s) (hq : s'.q = s.q) (hnext : s'.next = s.next)
    (hdone : s'.done = s.done) (hheld : (Backpressure.held s').Perm (Backpressure.held s)) :
    Ordered n (tr ++ []) s' := by
  rw [List.append_nil]
  exact ⟨hnext ▸ h.pushed, by rw [hq, hnext, h.popped], (hheld.append_left _).trans h.held,
    hdone ▸ h.done, hnext ▸ h.next⟩

theorem Ordered.push (h : Ordered n tr s) (hnext : s.next < n) :
    Ordered n (tr ++ (push s).2) (push s).1 := by
  have hpushed : Backpressure.pushed (tr ++ [.pushed s.next]) =
      Backpressure.pushed tr ++ [s.next] := List.filterMap_append
  have hpopped : Backpressure.popped (tr ++ [.pushed s.next]) = Backpressure.popped tr :=
    List.filterMap_append.trans (List.append_nil _)
  have hcompleted : completed (tr ++ [.pushed s.next]) = completed tr :=
    List.filterMap_append.trans (List.append_nil _)
  refine ⟨?_, ?_, ?_, ?_, hnext⟩
  · show Backpressure.pushed (tr ++ [.pushed s.next]) = List.range (s.next + 1)
    rw [hpushed, h.pushed, List.range_succ]
  · show Backpressure.popped (tr ++ [.pushed s.next]) ++ (s.q ++ [s.next]) = List.range (s.next + 1)
    rw [hpopped, ← List.append_assoc, h.popped, List.range_succ]
  · show (completed (tr ++ [.pushed s.next]) ++ Backpressure.held s).Perm _
    rw [hcompleted]
    exact hpopped ▸ h.held
  · show s.done = (completed (tr ++ [.pushed s.next])).length
    rw [hcompleted, h.done]

def inWait : Place Producer → Bool
  | .away _ => false
  | _ => true

def afterStop : Place Producer → Bool
  | .away .flagged | .away .halfNotified | .away .joining | .away .joined => true
  | _ => false

structure Phased (n : Nat) (s : State) : Prop where
  waiting : inWait s.main = true → s.next < n
  draining : s.main = .away .draining → n ≤ s.next
  stopped : s.stop = afterStop s.main
  finished : s.stop = true → n ≤ s.done

theorem inWait_notified (place : Place Producer) : inWait place.notified = inWait place := by
  cases place <;> rfl

theorem afterStop_notified (place : Place Producer) : afterStop place.notified = afterStop place := by
  cases place <;> rfl

theorem notified_eq_away {place : Place Producer} {code : Producer}
    (h : place.notified = .away code) : place = .away code := by
  cases place with
  | away other => exact h
  | _ => cases h

theorem phased_move {i : Input} (h : Phased n s) (hmove : Move buggy n s i s' es) :
    Phased n s' := by
  have hstopped := h.stopped
  cases hmove with
  | pushNow hmain | notify _ _ hmain =>
      rw [hmain] at hstopped
      exact ⟨nofun, nofun, hstopped, h.finished⟩
  | drain hmain hnext =>
      rw [hmain] at hstopped
      exact ⟨nofun, fun _ => hnext, hstopped, h.finished⟩
  | look hmain =>
      rcases hmain with ⟨hmain, hnext, -⟩ | hmain
      · rw [hmain] at hstopped
        exact ⟨fun _ => hnext, nofun, hstopped, h.finished⟩
      · have hnext := h.waiting (by rw [hmain]; rfl)
        rw [hmain] at hstopped
        exact ⟨fun _ => hnext, nofun, hstopped, h.finished⟩
  | pushChecked hmain =>
      rw [hmain] at hstopped
      exact ⟨nofun, nofun, hstopped, h.finished⟩
  | commit hmain | sleep hmain | wakeMain hmain =>
      have hnext := h.waiting (by rw [hmain]; rfl)
      rw [hmain] at hstopped
      exact ⟨fun _ => hnext, nofun, hstopped, h.finished⟩
  | stop hmain hdone => exact ⟨nofun, nofun, rfl, fun _ => hdone⟩
  | wakeAll hmain | wokenAll hmain | join hmain =>
      rw [hmain] at hstopped
      exact ⟨nofun, nofun, hstopped, h.finished⟩
  | pop =>
      cases buggy with
      | true => exact ⟨h.waiting, h.draining, hstopped, h.finished⟩
      | false =>
          refine ⟨fun hwait => h.waiting ?_, fun hmain => h.draining (notified_eq_away hmain), ?_,
            h.finished⟩
          · exact (inWait_notified s.main) ▸ hwait
          · exact hstopped.trans (afterStop_notified s.main).symm
  | complete => exact ⟨h.waiting, h.draining, hstopped, fun hstop => Nat.le_succ_of_le (h.finished hstop)⟩
  | workerLook | workerCommit | exit | workerSleep | wakeWorker =>
      exact ⟨h.waiting, h.draining, hstopped, h.finished⟩

theorem ordered_move {i : Input} (h : Ordered n tr s) (hphase : Phased n s)
    (hmove : Move buggy n s i s' es) : Ordered n (tr ++ es) s' := by
  cases hmove with
  | pushNow hmain hbuggy hnext => exact h.push hnext
  | pushChecked hmain => exact h.push (hphase.waiting (by rw [hmain]; rfl))
  | look | commit | sleep | drain | stop | wokenAll | join | wakeMain =>
      exact h.silent rfl rfl rfl (.refl _)
  | wakeAll => exact h.silent rfl rfl rfl (.of_eq (filterMap_notified s.workers))
  | notify k workers hmain hnotify =>
      obtain ⟨hplace, rfl⟩ | ⟨rfl, -⟩ := notifyOne_cases hnotify
      · exact h.silent rfl rfl rfl (held_of_same hplace ⟨rfl, rfl⟩)
      · exact h.silent rfl rfl rfl (.refl _)
  | workerLook k place hplace hcode =>
      rcases hcode with rfl | rfl
      · exact h.silent rfl rfl rfl (held_of_same hplace ⟨rfl, rfl⟩)
      · exact h.silent rfl rfl rfl (held_of_same hplace ⟨rfl, rfl⟩)
  | workerCommit k hplace | exit k hplace | workerSleep k hplace | wakeWorker k hplace =>
      exact h.silent rfl rfl rfl (held_of_same hplace ⟨rfl, rfl⟩)
  | pop k item rest hplace hq =>
      have hpushed : Backpressure.pushed (tr ++ [.popped item]) = Backpressure.pushed tr :=
        List.filterMap_append.trans (List.append_nil _)
      have hpopped : Backpressure.popped (tr ++ [.popped item]) = Backpressure.popped tr ++ [item] :=
        List.filterMap_append
      have hcompleted : completed (tr ++ [.popped item]) = completed tr :=
        List.filterMap_append.trans (List.append_nil _)
      have hheld : (Backpressure.held (s.place k (.away (.processing item)))).Perm
          (item :: Backpressure.held s) := held_place s hplace _
      refine ⟨hpushed.trans h.pushed, ?_, ?_, ?_, h.next⟩
      · have hbefore := h.popped
        rw [hq] at hbefore
        rw [hpopped, List.append_assoc]
        exact hbefore
      · rw [hcompleted, hpopped]
        refine (hheld.append_left _).trans ?_
        exact List.perm_middle.trans ((h.held.cons item).trans (List.perm_append_singleton _ _).symm)
      · rw [hcompleted]
        exact h.done
  | complete k item hplace =>
      have hpushed : Backpressure.pushed (tr ++ [.completed item]) = Backpressure.pushed tr :=
        List.filterMap_append.trans (List.append_nil _)
      have hpopped : Backpressure.popped (tr ++ [.completed item]) = Backpressure.popped tr :=
        List.filterMap_append.trans (List.append_nil _)
      have hcompleted : completed (tr ++ [.completed item]) = completed tr ++ [item] :=
        List.filterMap_append
      have hheld : (item :: Backpressure.held (s.place k (.away .entering))).Perm
          (Backpressure.held s) := held_place s hplace _
      refine ⟨hpushed.trans h.pushed, ?_, ?_, ?_, h.next⟩
      · rw [hpopped]
        exact h.popped
      · rw [hpopped, hcompleted, List.append_assoc]
        exact (hheld.append_left _).trans h.held
      · rw [hcompleted, List.length_append, ← h.done]
        rfl

theorem init_ordered (n : Nat) : Ordered n [] init := ⟨rfl, rfl, .nil, rfl, Nat.zero_le n⟩

theorem init_phased (n : Nat) : Phased n init := ⟨nofun, nofun, rfl, nofun⟩

theorem run_ordered (hrun : Reach (step buggy n) init tr s) : Ordered n tr s ∧ Phased n s := by
  refine hrun.invariant (I := fun tr s => Ordered n tr s ∧ Phased n s)
    ⟨init_ordered n, init_phased n⟩ ?_
  rintro tr s i s' es ⟨hordered, hphased⟩ - hstep
  have hmove := move_of_step hstep
  exact ⟨ordered_move hordered hphased hmove, phased_move hphased hmove⟩

end Order

section Waits

variable {n : Nat} {s s' : State} {es : List Event} {k : Nat} {before : Place Consumer}

def mutexes (workers : List (Place Consumer)) : Nat :=
  (workers.map fun place => place.hasMutex.toNat).sum

/-- How many threads have the mutex. -/
def holders (s : State) : Nat := s.main.hasMutex.toNat + mutexes s.workers

/-- With one thread at the mutex the producer waits only while the queue is full, a consumer goes to
sleep only when it is empty, and an item in the queue has a consumer that does not wait for it. -/
structure Synced (s : State) : Prop where
  exclusive : holders s ≤ 1
  depth : s.q.length ≤ MAX_Q
  peak : s.peak_depth ≤ MAX_Q
  full : s.main.waits = true → MAX_Q ≤ s.q.length
  empty : .committed ∈ s.workers → s.q = []
  served : s.q ≠ [] → s.main = .away .notifying ∨ ∃ place ∈ s.workers, place.waits = false
  size : s.workers.length = WORKERS
  staffed : s.stop = false → .away .exited ∉ s.workers

theorem mutexes_pos {workers : List (Place Consumer)} {place : Place Consumer}
    (hplace : place ∈ workers) (hmutex : place.hasMutex = true) : 1 ≤ mutexes workers := by
  have hle := List.le_sum_of_mem (List.mem_map_of_mem (f := fun place => place.hasMutex.toNat) hplace)
  rw [hmutex] at hle
  exact hle

theorem holders_of_free (h : isFree s = true) : holders s = 0 := by
  rw [isFree, Bool.and_eq_true, Bool.not_eq_true', Bool.not_eq_true', List.any_eq_false] at h
  obtain ⟨hmain, hworkers⟩ := h
  rw [holders, hmain, Bool.toNat_false, Nat.zero_add]
  apply List.sum_eq_zero
  intro x hx
  obtain ⟨place, hplace, rfl⟩ := List.mem_map.mp hx
  have hnone : place.hasMutex = false := Bool.eq_false_iff.mpr (hworkers place hplace)
  rw [hnone, Bool.toNat_false]

theorem holders_place (hbefore : s.workers[k]? = some before) (place : Place Consumer) :
    before.hasMutex.toNat + holders (s.place k place) = place.hasMutex.toNat + holders s := by
  have hsum : before.hasMutex.toNat + mutexes (s.workers.set k place) =
      place.hasMutex.toNat + mutexes s.workers :=
    sum_map_set (fun place => place.hasMutex.toNat) hbefore place
  show _ + (s.main.hasMutex.toNat + mutexes (s.workers.set k place)) =
    _ + (s.main.hasMutex.toNat + mutexes s.workers)
  omega

theorem Synced.alone (h : Synced s) (hbefore : s.workers[k]? = some before)
    (hmutex : before.hasMutex = true) : s.main.hasMutex = false := by
  have hexclusive := h.exclusive
  have hpos := mutexes_pos (List.mem_of_getElem? hbefore) hmutex
  rw [holders] at hexclusive
  cases hmain : s.main.hasMutex with
  | false => rfl
  | true =>
      rw [hmain, Bool.toNat_true] at hexclusive
      omega

theorem Synced.no_committed (h : Synced s)
    (hpushes : isFree s = true ∨ s.main.hasMutex = true) : .committed ∉ s.workers := by
  intro hcommitted
  have hpos := mutexes_pos hcommitted rfl
  rcases hpushes with hfree | hmain
  · have hzero := holders_of_free hfree
    rw [holders] at hzero
    omega
  · have hexclusive := h.exclusive
    rw [holders, hmain, Bool.toNat_true] at hexclusive
    omega

theorem Synced.setMain (h : Synced s) {place : Place Producer} {stop : Bool}
    (hmain : s.main ≠ .away .notifying)
    (hmutex : place.hasMutex = true → isFree s = true ∨ s.main.hasMutex = true)
    (hfull : place.waits = true → MAX_Q ≤ s.q.length) (hstop : stop = false → s.stop = false) :
    Synced { s with main := place, stop := stop } where
  exclusive := by
    have hexclusive := h.exclusive
    show place.hasMutex.toNat + mutexes s.workers ≤ 1
    rw [holders] at hexclusive
    cases hplace : place.hasMutex with
    | false =>
        rw [Bool.toNat_false]
        omega
    | true =>
        rw [Bool.toNat_true]
        rcases hmutex hplace with hfree | hhas
        · have hzero := holders_of_free hfree
          rw [holders] at hzero
          omega
        · rw [hhas, Bool.toNat_true] at hexclusive
          omega
  depth := h.depth
  peak := h.peak
  full := hfull
  empty := h.empty
  served hq := .inr ((h.served hq).resolve_left hmain)
  size := h.size
  staffed hoff := h.staffed (hstop hoff)

theorem Synced.setWorker (h : Synced s) (hbefore : s.workers[k]? = some before)
    {place : Place Consumer}
    (hmutex : place.hasMutex = true → isFree s = true ∨ before.hasMutex = true)
    (hempty : place.waits = true → s.q = []) (hstop : place = .away .exited → s.stop = true) :
    Synced (s.place k place) where
  exclusive := by
    have hexclusive := h.exclusive
    have hholders := holders_place hbefore place
    cases hplace : place.hasMutex with
    | false =>
        rw [hplace, Bool.toNat_false] at hholders
        omega
    | true =>
        rw [hplace, Bool.toNat_true] at hholders
        rcases hmutex hplace with hfree | hhas
        · have hzero := holders_of_free hfree
          omega
        · rw [hhas, Bool.toNat_true] at hholders
          omega
  depth := h.depth
  peak := h.peak
  full := h.full
  empty hcommitted := by
    rcases List.mem_or_eq_of_mem_set hcommitted with hother | hsame
    · exact h.empty hother
    · exact hempty (hsame ▸ rfl)
  served hq := by
    have hwaits : place.waits = false := Bool.eq_false_iff.mpr fun hwaits => hq (hempty hwaits)
    obtain ⟨hk, -⟩ := List.getElem?_eq_some_iff.mp hbefore
    exact .inr ⟨place, List.mem_set hk place, hwaits⟩
  size := (List.length_set ..).trans h.size
  staffed hoff hexited := by
    rcases List.mem_or_eq_of_mem_set hexited with hother | hsame
    · exact h.staffed hoff hother
    · exact absurd (hstop hsame.symm) (Bool.eq_false_iff.mp hoff)

theorem Synced.push (h : Synced s) (hpushes : isFree s = true ∨ s.main.hasMutex = true)
    (hroom : s.q.length < MAX_Q) : Synced (push s).1 where
  exclusive := by
    have hexclusive := h.exclusive
    rw [holders] at hexclusive
    show (false).toNat + mutexes s.workers ≤ 1
    rw [Bool.toNat_false]
    omega
  depth := by
    show (s.q ++ [s.next]).length ≤ MAX_Q
    rw [List.length_append]
    exact hroom
  peak := max_le h.peak hroom
  full := nofun
  empty hcommitted := by
    have hnone := h.no_committed hpushes
    exact absurd hcommitted hnone
  served _ := .inl rfl
  size := h.size
  staffed := h.staffed

theorem Synced.pop (h : Synced s) {item : Nat} {rest : List Nat}
    (hplace : s.workers[k]? = some .checking) (hq : s.q = item :: rest) :
    Synced { s.place k (.away (.processing item)) with q := rest, main := s.main.notified } where
  exclusive := by
    have hexclusive := h.exclusive
    have hholders := holders_place hplace (.away (.processing item))
    have hmain : s.main.notified.hasMutex = s.main.hasMutex := by
      cases s.main <;> rfl
    show s.main.notified.hasMutex.toNat + _ ≤ 1
    rw [hmain]
    exact (Nat.le_add_left _ _).trans (hholders.le.trans (by simpa [Place.hasMutex] using hexclusive))
  depth := by
    have hdepth := h.depth
    rw [hq, List.length_cons] at hdepth
    exact (Nat.le_succ _).trans hdepth
  peak := h.peak
  full hwaits := by
    have hmutex := h.alone hplace rfl
    have hawake : s.main.notified.waits = false := by
      apply Place.waits_notified
      intro hcommitted
      rw [hcommitted] at hmutex
      cases hmutex
    rw [hawake] at hwaits
    cases hwaits
  empty hcommitted := by
    rcases List.mem_or_eq_of_mem_set hcommitted with hother | hsame
    · rw [h.empty hother] at hq
      cases hq
    · cases hsame
  served _ := by
    obtain ⟨hk, -⟩ := List.getElem?_eq_some_iff.mp hplace
    exact .inr ⟨_, List.mem_set hk _, rfl⟩
  size := (List.length_set ..).trans h.size
  staffed hoff hexited := by
    rcases List.mem_or_eq_of_mem_set hexited with hother | hsame
    · exact h.staffed hoff hother
    · cases hsame

theorem Synced.notify (h : Synced s) {workers : List (Place Consumer)}
    (hmain : s.main = .away .notifying) (hnotify : notifyOne k s.workers = some workers) :
    Synced { s with main := .away .pushing, workers := workers } := by
  have hexclusive := h.exclusive
  rw [holders, hmain] at hexclusive
  obtain ⟨hplace, rfl⟩ | ⟨rfl, hnone⟩ := notifyOne_cases hnotify
  · have hwoken : Synced (s.place k .woken) := h.setWorker hplace nofun nofun nofun
    obtain ⟨hk, -⟩ := List.getElem?_eq_some_iff.mp hplace
    have hholders := hwoken.exclusive
    rw [holders] at hholders
    exact
      { exclusive := (Nat.zero_add _).trans_le ((Nat.le_add_left _ _).trans hholders)
        depth := h.depth
        peak := h.peak
        full := nofun
        empty := hwoken.empty
        served := fun _ => .inr ⟨.woken, List.mem_set hk _, rfl⟩
        size := hwoken.size
        staffed := hwoken.staffed }
  · refine ⟨hexclusive, h.depth, h.peak, nofun, h.empty, fun hq => .inr ?_, h.size, h.staffed⟩
    -- no consumer sleeps, and with an item in the queue none is about to
    have hsome : 0 < s.workers.length := h.size ▸ (by decide : 0 < WORKERS)
    refine ⟨s.workers[0], List.getElem_mem hsome, ?_⟩
    have hawake := List.any_eq_false.mp hnone _ (List.getElem_mem hsome)
    have hnot : s.workers[0] ≠ .committed := fun heq => hq (h.empty (heq ▸ List.getElem_mem hsome))
    cases hplace : s.workers[0] with
    | committed => exact absurd hplace hnot
    | asleep =>
        rw [hplace] at hawake
        exact absurd rfl hawake
    | _ => rfl

theorem Synced.wakeAll (h : Synced s) (hstop : s.stop = true) (hmain : s.main = .away .flagged) :
    Synced { s with workers := notifyAll s.workers, main := .away .halfNotified } := by
  have hmutex (place : Place Consumer) : place.notified.hasMutex = place.hasMutex := by
    cases place <;> rfl
  have hcommitted (place : Place Consumer) (heq : place.notified = .committed) :
      place = .committed := by
    cases place with
    | committed => rfl
    | _ => cases heq
  have hexclusive := h.exclusive
  rw [holders, hmain] at hexclusive
  have hsame : mutexes (notifyAll s.workers) = mutexes s.workers := by
    rw [mutexes, notifyAll, List.map_map]
    congr 2
    funext place
    exact congrArg Bool.toNat (hmutex place)
  refine ⟨?_, h.depth, h.peak, nofun, ?_, ?_, ?_, ?_⟩
  · show 0 + mutexes (notifyAll s.workers) ≤ 1
    rw [hsame]
    exact hexclusive
  · intro hmem
    obtain ⟨place, hplace, heq⟩ := List.mem_map.mp hmem
    exact h.empty (hcommitted place heq ▸ hplace)
  · intro hq
    obtain ⟨place, hplace, hwaits⟩ :=
      (h.served hq).resolve_left fun heq => Producer.noConfusion (Place.away.inj (hmain.symm.trans heq))
    exact .inr ⟨_, List.mem_map_of_mem hplace, Place.waits_notified_of_awake hwaits⟩
  · exact List.length_map .. |>.trans h.size
  · intro hoff
    exact absurd hstop (Bool.eq_false_iff.mp hoff)

theorem synced_move {i : Input} (h : Synced s) (hphase : Phased n s)
    (hmove : Move false n s i s' es) : Synced s' := by
  have hstopped := hphase.stopped
  cases hmove with
  | pushNow _ hbuggy => cases hbuggy
  | look hmain hfree =>
      refine h.setMain ?_ (fun _ => .inl hfree) nofun id
      rcases hmain with ⟨hmain, -⟩ | hmain
      · rw [hmain]
        nofun
      · rw [hmain]
        nofun
  | pushChecked hmain hroom =>
      rw [hmain] at hstopped
      have hmutex : s.main.hasMutex = true := by
        rw [hmain]
        rfl
      exact h.push (.inr hmutex) (hroom.resolve_right (Bool.eq_false_iff.mp hstopped))
  | commit hmain hfull =>
      refine h.setMain (by rw [hmain]; nofun) (fun _ => .inr ?_) (fun _ => hfull) id
      rw [hmain]
      rfl
  | sleep hmain =>
      refine h.setMain (by rw [hmain]; nofun) nofun (fun _ => h.full ?_) id
      rw [hmain]
      rfl
  | drain hmain | stop hmain | wokenAll hmain | join hmain | wakeMain hmain =>
      exact h.setMain (by rw [hmain]; nofun) nofun nofun (by first | exact id | nofun)
  | wakeAll hmain =>
      rw [hmain] at hstopped
      exact h.wakeAll hstopped hmain
  | notify k workers hmain hnotify => exact h.notify hmain hnotify
  | workerLook k place hplace hcode hfree =>
      exact h.setWorker hplace (fun _ => .inl hfree) nofun nofun
  | pop k item rest hplace hq => exact h.pop hplace hq
  | workerCommit k hplace hq => exact h.setWorker hplace (fun _ => .inr rfl) (fun _ => hq) nofun
  | exit k hplace hq hstop => exact h.setWorker hplace nofun nofun fun _ => hstop
  | workerSleep k hplace =>
      exact h.setWorker hplace nofun (fun _ => h.empty (List.mem_of_getElem? hplace)) nofun
  | complete k item hplace =>
      have hmoved : Synced (s.place k (.away .entering)) := h.setWorker hplace nofun nofun nofun
      exact ⟨hmoved.exclusive, hmoved.depth, hmoved.peak, hmoved.full, hmoved.empty, hmoved.served,
        hmoved.size, hmoved.staffed⟩
  | wakeWorker k hplace => exact h.setWorker hplace nofun nofun nofun

theorem init_synced : Synced init := by
  refine ⟨by decide, by decide, by decide, nofun, fun _ => rfl, fun hq => absurd rfl hq, rfl, ?_⟩
  intro _
  decide

theorem run_synced {tr : List Event} (hrun : Reach (step false n) init tr s) :
    Ordered n tr s ∧ Phased n s ∧ Synced s := by
  refine hrun.invariant (I := fun tr s => Ordered n tr s ∧ Phased n s ∧ Synced s)
    ⟨init_ordered n, init_phased n, init_synced⟩ ?_
  rintro tr s i s' es ⟨hordered, hphased, hsynced⟩ - hstep
  have hmove := move_of_step hstep
  exact ⟨ordered_move hordered hphased hmove, phased_move hphased hmove,
    synced_move hsynced hphased hmove⟩

end Waits

section Completion

variable {n : Nat} {s s' : State} {es : List Event}

def consumerWork : Place Consumer → Nat
  | .asleep => 0
  | .committed => 1
  | .checking => 2
  | .away .entering => 3
  | .woken => 3
  | .away (.processing _) => 4
  | .away .exited => 0

def producerWork : Place Producer → Nat
  | .committed => 1
  | .checking => 2
  | .away .pushing => 3
  | .woken => 3
  | .away .notifying => 7
  | _ => 0

/-- How many steps are left at most: an item is pushed, its push notifies a consumer, and its pop
wakes the producer. -/
def work (n : Nat) (s : State) : Nat :=
  12 * (n - s.next) + 6 * s.q.length + producerWork s.main + (s.workers.map consumerWork).sum

def Input.Proper : Input → Prop
  | .spuriousMain => False
  | .spuriousWorker _ => False
  | _ => True

theorem work_move {i : Input} (hphase : Phased n s) (hleft : s.done < n) (hproper : i.Proper)
    (hmove : Move false n s i s' es) : work n s' < work n s := by
  have hstop : s.stop ≠ true := fun hstop => Nat.not_le.mpr hleft (hphase.finished hstop)
  have hsum {k : Nat} {before : Place Consumer} (hbefore : s.workers[k]? = some before)
      (place : Place Consumer) :
      consumerWork before + ((s.place k place).workers.map consumerWork).sum =
        consumerWork place + (s.workers.map consumerWork).sum :=
    sum_map_set consumerWork hbefore place
  have hafter (hmain : afterStop s.main = true) : False := hstop (hphase.stopped.trans hmain)
  cases hmove with
  | pushNow _ hbuggy => cases hbuggy
  | look hmain =>
      have hwork : producerWork s.main = 3 := by
        rcases hmain with ⟨hmain, -⟩ | hmain
        · rw [hmain]
          rfl
        · rw [hmain]
          rfl
      have hchecking : producerWork .checking = 2 := rfl
      simp only [work, hwork, hchecking]
      omega
  | pushChecked hmain =>
      have hnext := hphase.waiting (by rw [hmain]; rfl)
      simp only [work, push, hmain, producerWork, List.length_append, List.length_singleton]
      omega
  | commit hmain | sleep hmain | drain hmain =>
      simp only [work, hmain, producerWork]
      omega
  | stop _ hdone => exact absurd hdone (Nat.not_le.mpr hleft)
  | wakeAll hmain | wokenAll hmain | join hmain => exact (hafter (by rw [hmain]; rfl)).elim
  | notify k workers hmain hnotify =>
      obtain ⟨hplace, rfl⟩ | ⟨rfl, -⟩ := notifyOne_cases hnotify
      · have hwoken := hsum hplace .woken
        simp only [work, hmain, producerWork]
        simp only [consumerWork, State.place] at hwoken
        omega
      · simp only [work, hmain, producerWork]
        omega
  | wakeMain | wakeWorker => exact hproper.elim
  | workerLook k place hplace hcode =>
      have hlooks := hsum hplace .checking
      have hbefore : consumerWork place = 3 := by
        rcases hcode with rfl | rfl
        · rfl
        · rfl
      rw [hbefore] at hlooks
      simp only [work, State.place, consumerWork] at hlooks ⊢
      omega
  | pop k item rest hplace hq =>
      have hpops := hsum hplace (.away (.processing item))
      have hmain : producerWork s.main.notified ≤ producerWork s.main + 3 := by
        cases s.main with
        | asleep => exact Nat.le_refl 3
        | _ => exact Nat.le_add_right _ 3
      simp only [work, State.place, consumerWork, hq, List.length_cons, Bool.false_eq_true,
        if_false] at hpops ⊢
      omega
  | workerCommit k hplace =>
      have hcommits := hsum hplace .committed
      simp only [work, State.place, consumerWork] at hcommits ⊢
      omega
  | exit _ _ _ hstopped => exact absurd hstopped hstop
  | workerSleep k hplace =>
      have hsleeps := hsum hplace .asleep
      simp only [work, State.place, consumerWork] at hsleeps ⊢
      omega
  | complete k item hplace =>
      have hcompletes := hsum hplace (.away .entering)
      simp only [work, State.place, consumerWork] at hcompletes ⊢
      omega

theorem worker_goes {k : Nat} {place : Place Consumer} (hplace : s.workers[k]? = some place)
    (hawake : place ≠ .asleep ∧ place ≠ .away .exited)
    (hmutex : place.hasMutex = true ∨ isFree s = true) :
    (step false n s (.worker k)).isSome := by
  simp only [step, hplace, Option.bind_some]
  cases place with
  | away code =>
      cases code with
      | entering =>
          rw [workerStep, if_pos (hmutex.resolve_left nofun)]
          rfl
      | processing item => rfl
      | exited => exact absurd rfl hawake.2
  | checking =>
      rw [workerStep]
      split
      · rfl
      · rfl
  | committed => rfl
  | asleep => exact absurd rfl hawake.1
  | woken =>
      rw [workerStep, if_pos (hmutex.resolve_left nofun)]
      rfl

theorem main_goes {tr : List Event} (hordered : Ordered n tr s) (hphase : Phased n s)
    (hsynced : Synced s) (hleft : s.done < n) (hfree : isFree s = true)
    (hasleep : ∀ place ∈ s.workers, place = .asleep) :
    ∃ i : Input, i.Proper ∧ (step false n s i).isSome := by
  have hstop : s.stop ≠ true := fun hstop => Nat.not_le.mpr hleft (hphase.finished hstop)
  have hserved (hmain : s.main ≠ .away .notifying) : s.q = [] := by
    by_contra hq
    obtain ⟨place, hplace, hwaits⟩ := (hsynced.served hq).resolve_left hmain
    rw [hasleep place hplace] at hwaits
    cases hwaits
  have hheld : held s = [] := by
    apply List.filterMap_eq_nil_iff.mpr
    intro place hplace
    rw [hasleep place hplace]
    rfl
  have hcount : s.done + s.q.length = s.next := by
    have hpopped := congrArg List.length hordered.popped
    have hperm := hordered.held.length_eq
    rw [hheld, List.append_nil] at hperm
    rw [List.length_append, List.length_range] at hpopped
    rw [hordered.done]
    omega
  have hmain (hsome : (mainStep false n s).isSome) : ∃ i : Input, i.Proper ∧ (step false n s i).isSome :=
    ⟨.main, trivial, hsome⟩
  cases hplace : s.main with
  | away code =>
      cases code with
      | pushing =>
          apply hmain
          simp only [mainStep, hplace, hfree, if_true]
          split
          · rfl
          · rfl
      | notifying =>
          have hsome : 0 < s.workers.length := hsynced.size ▸ (by decide : 0 < WORKERS)
          have hfirst : s.workers[0]? = some .asleep := by
            rw [List.getElem?_eq_getElem hsome, hasleep _ (List.getElem_mem hsome)]
          refine ⟨.notify 0, trivial, ?_⟩
          simp only [step, Backpressure.notify, hplace, if_true, notifyOne, hfirst]
          rfl
      | draining =>
          have hq := hserved (by rw [hplace]; nofun)
          have hnext := hphase.draining hplace
          rw [hq, List.length_nil] at hcount
          omega
      | _ =>
          refine (hstop ?_).elim
          rw [hphase.stopped, hplace]
          rfl
  | asleep =>
      have hq := hserved (by rw [hplace]; nofun)
      have hfull := hsynced.full (by rw [hplace]; rfl)
      rw [hq] at hfull
      exact absurd hfull (by decide)
  | woken =>
      apply hmain
      simp only [mainStep, hplace, hfree, if_true]
      rfl
  | _ =>
      rw [isFree, hplace] at hfree
      cases hfree

theorem goes {tr : List Event} (hordered : Ordered n tr s) (hphase : Phased n s)
    (hsynced : Synced s) (hleft : s.done < n) :
    ∃ i : Input, i.Proper ∧ (step false n s i).isSome := by
  have hstop : s.stop = false :=
    Bool.eq_false_iff.mpr fun hstop => Nat.not_le.mpr hleft (hphase.finished hstop)
  by_cases hmutex : isFree s = true
  · by_cases hasleep : ∀ place ∈ s.workers, place = .asleep
    · exact main_goes hordered hphase hsynced hleft hmutex hasleep
    · push Not at hasleep
      obtain ⟨place, hmem, hawake⟩ := hasleep
      obtain ⟨k, hplace⟩ := List.mem_iff_getElem?.mp hmem
      have hstays : place ≠ .away .exited := fun heq => hsynced.staffed hstop (heq ▸ hmem)
      exact ⟨.worker k, trivial, worker_goes hplace ⟨hawake, hstays⟩ (.inr hmutex)⟩
  · rw [isFree, Bool.and_eq_true, not_and_or, Bool.not_eq_true', Bool.not_eq_true',
      Bool.not_eq_false, Bool.not_eq_false, List.any_eq_true] at hmutex
    rcases hmutex with hmain | ⟨place, hmem, hplace⟩
    · refine ⟨.main, trivial, ?_⟩
      show (mainStep false n s).isSome
      unfold mainStep
      cases hat : s.main with
      | checking => rfl
      | committed => rfl
      | _ =>
          rw [hat] at hmain
          cases hmain
    · obtain ⟨k, hat⟩ := List.mem_iff_getElem?.mp hmem
      refine ⟨.worker k, trivial, worker_goes hat ⟨?_, ?_⟩ (.inl hplace)⟩
      · rintro rfl
        cases hplace
      · rintro rfl
        cases hplace

theorem progresses (n : Nat) :
    Completion.Progresses (step false n) (fun s => ∃ tr, Reach (step false n) init tr s) Input.Proper
      (fun s => n ≤ s.done) (work n) where
  keeps := by
    rintro s i s' es ⟨tr, hrun⟩ - hstep
    exact ⟨tr ++ es, Run.snoc hrun trivial hstep⟩
  stays := by
    rintro s i s' es - hdone - hstep
    have hmove := move_of_step hstep
    cases hmove with
    | complete => exact Nat.le_succ_of_le hdone
    | _ => exact hdone
  falls := by
    rintro s i s' es ⟨tr, hrun⟩ hleft hproper hstep
    exact work_move (run_synced hrun).2.1 (Nat.lt_of_not_le hleft) hproper (move_of_step hstep)
  goes := by
    rintro s ⟨tr, hrun⟩ hleft
    obtain ⟨hordered, hphased, hsynced⟩ := run_synced hrun
    exact goes hordered hphased hsynced (Nat.lt_of_not_le hleft)

/-- The fixed variant completes every item: until then some thread can go on, and it goes on only so
often. -/
theorem scenario3_completes (n : Nat) (tr : List Event) (s : State)
    (hrun : Reach (step false n) init tr s) :
    (s.done < n → ∃ i : Input, i.Proper ∧ (step false n s i).isSome) ∧
      ∀ (is : List Input) (s' : State) (tr' : List Event), (∀ i ∈ is, i.Proper) →
        exec (step false n) s is = some (s', tr') → s'.done < n → is.length ≤ work n s := by
  constructor
  · intro hleft
    exact (progresses n).goes ⟨tr, hrun⟩ (Nat.not_le.mpr hleft)
  · intro is s' tr' hproper hexec hleft
    have hle := (progresses n).length_le ⟨tr, hrun⟩ hproper hexec (Nat.not_le.mpr hleft)
    exact (Nat.le_add_right _ _).trans hle

def untilAsleep : List Input := (List.replicate MAX_Q [.main, .main, .notify 0]).flatten ++
  [.main, .main, .main]

theorem asleep_completes :
    ∃ tr s, Reach (step false 12) init tr s ∧ s.main = .asleep ∧ s.q.length = MAX_Q ∧
      (s.done < 12 → ∃ i : Input, i.Proper ∧ (step false 12 s i).isSome) ∧
      ∀ (is : List Input) (s' : State) (tr' : List Event), (∀ i ∈ is, i.Proper) →
        exec (step false 12) s is = some (s', tr') → s'.done < 12 → is.length ≤ work 12 s := by
  have hexec : (exec (step false 12) init untilAsleep).map (fun r => (r.1.main, r.1.q.length)) =
      some (.asleep, MAX_Q) := by
    decide +kernel
  obtain ⟨tr, s, hrun, hseen⟩ := exists_reach_of_exec hexec
  obtain ⟨hasleep, hfull⟩ := Prod.mk.inj hseen
  exact ⟨tr, s, hrun, hasleep, hfull, scenario3_completes 12 tr s hrun⟩

end Completion

section Results

variable {buggy : Bool} {n : Nat} {s : State} {tr : List Event}

theorem Ordered.complete (h : Ordered n tr s) (hdone : n ≤ s.done) :
    s.q = [] ∧ (completed tr).Perm (List.range n) := by
  have hpopped := congrArg List.length h.popped
  have hheld := h.held.length_eq
  have hcount := h.done
  have hnext := h.next
  rw [List.length_append, List.length_range] at hpopped
  rw [List.length_append] at hheld
  have hq : s.q = [] := List.eq_nil_of_length_eq_zero (by omega)
  have hnone : Backpressure.held s = [] := List.eq_nil_of_length_eq_zero (by omega)
  have hall : s.next = n := by omega
  have hperm := h.held
  have hrange := h.popped
  rw [hnone, List.append_nil] at hperm
  rw [hq, List.append_nil, hall] at hrange
  exact ⟨hq, hrange ▸ hperm⟩

theorem pushes_reach (n : Nat) {d : Nat} (hd : d ≤ n) :
    ∃ tr s, Reach (step true n) init tr s ∧ s.main = .away .pushing ∧ s.next = d ∧
      s.q.length = d ∧ s.peak_depth = d ∧ s.workers = init.workers := by
  induction d with
  | zero => exact ⟨[], init, .nil, rfl, rfl, rfl, rfl, rfl⟩
  | succ d ih =>
      obtain ⟨tr, s, hrun, hmain, hnext, hlength, hpeak, hworkers⟩ := ih (Nat.le_of_succ_le hd)
      have hfree : isFree s = true := by
        rw [isFree, hmain, hworkers]
        rfl
      have hpush : step true n s .main = some (push s) := by
        show mainStep true n s = _
        simp only [mainStep, hmain, hnext, hfree, if_true, if_pos (Nat.lt_of_succ_le hd)]
      have hnotify : step true n (push s).1 (.notify 0) =
          some ({ (push s).1 with main := .away .pushing }, []) := by
        simp only [step, notify, push, if_true, hworkers]
        rfl
      have hpushed : Reach (step true n) init (tr ++ (push s).2) (push s).1 :=
        Run.snoc hrun trivial hpush
      refine ⟨_, _, hpushed.silent (.notify 0) _ hnotify, rfl, ?_, ?_, ?_, hworkers⟩
      · exact congrArg (· + 1) hnext
      · show (s.q ++ [s.next]).length = d + 1
        rw [List.length_append, hlength]
        rfl
      · show max s.peak_depth (s.q.length + 1) = d + 1
        rw [hpeak, hlength]
        exact max_eq_right (Nat.le_succ d)

/-- No item is lost, doubled or overtaken in either variant; only the fixed one bounds the queue. -/
theorem scenario3_queue (n : Nat) :
    (∀ (buggy : Bool) (tr : List Event) (s : State), Reach (step buggy n) init tr s →
      pushed tr = List.range s.next ∧ popped tr ++ s.q = List.range s.next ∧
      (completed tr ++ held s).Perm (popped tr) ∧ s.next ≤ n ∧
      (s.stop = true → s.q = [] ∧ (completed tr).Perm (List.range n)) ∧
      (buggy = false → s.q.length ≤ MAX_Q ∧ s.peak_depth ≤ MAX_Q)) ∧
    ∀ d ≤ n, ∃ tr s, Reach (step true n) init tr s ∧ s.q.length = d ∧ s.peak_depth = d := by
  constructor
  · intro buggy tr s hrun
    obtain ⟨hordered, hphased⟩ := run_ordered hrun
    refine ⟨hordered.pushed, hordered.popped, hordered.held, hordered.next, ?_, ?_⟩
    · intro hstop
      exact hordered.complete (hphased.finished hstop)
    · rintro rfl
      obtain ⟨-, -, hsynced⟩ := run_synced hrun
      exact ⟨hsynced.depth, hsynced.peak⟩
  · intro d hd
    obtain ⟨tr, s, hrun, -, -, hlength, hpeak, -⟩ := pushes_reach n hd
    exact ⟨tr, s, hrun, hlength, hpeak⟩

end Results

section Hang

variable {buggy : Bool} {n : Nat} {s s' : State} {es : List Event}

def between (i peak : Nat) : State :=
  { init with done := i, next := i, peak_depth := peak }

def lastLook (n peak : Nat) : State := (between n peak).place 0 .committed

def oneItem (buggy : Bool) : List Input :=
  (if buggy then [.main] else [.main, .main]) ++
    [.notify 0, .worker 0, .worker 0, .worker 0]

/-- A consumer goes to sleep after the stop on what it saw before it. -/
def lateSleep : List Input :=
  [.worker 0, .worker 0, .main, .main, .main, .worker 0, .main]

theorem exec_oneItem (buggy : Bool) (peak : Nat) {i : Nat} (hi : i < n) : ∃ tr,
    exec (step buggy n) (between i peak) (oneItem buggy) =
      some (between (i + 1) (max peak 1), tr) := by
  have hmain : mainStep buggy n (between i peak) =
      some (if buggy then push (between i peak)
        else ({ between i peak with main := .checking }, [])) := by
    simp only [mainStep, between, init, hi, if_true]
    rfl
  cases buggy with
  | true =>
      refine ⟨[.pushed i, .popped i, .completed i], ?_⟩
      simp only [oneItem, if_true, List.cons_append, List.nil_append, exec, step, hmain]
      rfl
  | false =>
      refine ⟨[.pushed i, .popped i, .completed i], ?_⟩
      simp only [oneItem, Bool.false_eq_true, if_false, List.cons_append, List.nil_append, exec,
        step, hmain]
      rfl

theorem oneItem_proper : ∀ i ∈ oneItem buggy, i.Proper := by
  cases buggy <;> simp [oneItem, Input.Proper]

theorem lateSleep_proper : ∀ i ∈ lateSleep, i.Proper := by
  simp [lateSleep, Input.Proper]

theorem exec_items (buggy : Bool) {m : Nat} (hm : m ≤ n) : ∃ is peak tr, (∀ i ∈ is, i.Proper) ∧
    exec (step buggy n) init is = some (between m peak, tr) := by
  induction m with
  | zero => exact ⟨[], 0, [], by simp, rfl⟩
  | succ m ih =>
      obtain ⟨is, peak, tr, hproper, hexec⟩ := ih (Nat.le_of_succ_le hm)
      obtain ⟨tr', hitem⟩ := exec_oneItem buggy peak (Nat.lt_of_succ_le hm)
      refine ⟨is ++ oneItem buggy, _, _, ?_, exec_append _ _ _ _ _ _ _ _ hexec hitem⟩
      intro i hi
      rcases List.mem_append.mp hi with hi | hi
      · exact hproper i hi
      · exact oneItem_proper i hi

/-- The join has a sleeping consumer that nobody notifies any more. -/
def Hangs (s : State) : Prop :=
  s.main = .away .joining ∧ s.workers[0]? = some .asleep

theorem exec_lateSleep (buggy : Bool) (n peak : Nat) :
    ∃ s tr, exec (step buggy n) (between n peak) lateSleep = some (s, tr) ∧ s.done = n ∧ Hangs s := by
  have hdrain (s : State) (hmain : s.main = .away .pushing) (hnext : s.next = n) :
      mainStep buggy n s = some ({ s with main := .away .draining }, []) := by
    simp only [mainStep, hmain, hnext, Nat.lt_irrefl, if_false]
  have hstop (s : State) (hmain : s.main = .away .draining) (hdone : s.done = n) :
      mainStep buggy n s = some ({ s with stop := true, main := .away .flagged }, []) := by
    simp only [mainStep, hmain, hdone, Nat.lt_irrefl, if_false]
  have hbefore : exec (step buggy n) (between n peak) [.worker 0, .worker 0] =
      some (lastLook n peak, []) := rfl
  have hflagged : exec (step buggy n) (lastLook n peak) [.main, .main] =
      some ({ lastLook n peak with stop := true, main := .away .flagged }, []) := by
    simp only [exec, step]
    rw [hdrain (lastLook n peak) rfl rfl]
    dsimp only
    rw [hstop _ rfl rfl]
    rfl
  have hafter : exec (step buggy n) { lastLook n peak with stop := true, main := .away .flagged }
      [.main, .worker 0, .main] = some ({ (lastLook n peak).place 0 .asleep with
        stop := true, main := .away .joining }, []) := rfl
  exact ⟨_, _, exec_append _ _ _ _ _ _ _ _ hbefore (exec_append _ _ _ _ _ _ _ _ hflagged hafter),
    rfl, rfl, rfl⟩

theorem hangs_move {i : Input} (h : Hangs s) (hproper : i.Proper)
    (hmove : Move buggy n s i s' es) : Hangs s' := by
  obtain ⟨hmain, hasleep⟩ := h
  have hother {place : Place Producer} (hat : s.main = place) (hne : .away .joining ≠ place) :
      Hangs s' := absurd (hmain.symm.trans hat) hne
  have hworker {k : Nat} {place : Place Consumer} (hplace : s.workers[k]? = some place)
      (hawake : place ≠ .asleep) (after : Place Consumer) :
      (s.workers.set k after)[0]? = some .asleep := by
    rw [List.getElem?_set_ne, hasleep]
    rintro rfl
    exact hawake (Option.some.inj (hplace.symm.trans hasleep))
  cases hmove with
  | look hmain' =>
      rcases hmain' with ⟨hat, -⟩ | hat
      · exact hother hat nofun
      · exact hother hat nofun
  | pushNow hat | pushChecked hat | commit hat | sleep hat | drain hat | stop hat | wakeAll hat
  | wokenAll hat | notify _ _ hat => exact hother hat nofun
  | wakeMain | wakeWorker => exact hproper.elim
  | join _ hexited =>
      have hall := List.all_eq_true.mp hexited _ (List.mem_of_getElem? hasleep)
      cases hall
  | workerLook k place hplace hcode =>
      refine ⟨hmain, hworker hplace ?_ _⟩
      rintro rfl
      rcases hcode with hcode | hcode <;> cases hcode
  | pop k item rest hplace =>
      refine ⟨?_, hworker hplace nofun _⟩
      cases buggy with
      | true => exact hmain
      | false => exact congrArg Place.notified hmain
  | workerCommit k hplace | exit k hplace | workerSleep k hplace | complete k item hplace =>
      exact ⟨hmain, hworker hplace nofun _⟩

/-- The stop is set without the mutex: with every item completed the scenario can hang in its join. -/
theorem scenario3_join_hangs (buggy : Bool) (n : Nat) :
    ∃ is s tr, (∀ i ∈ is, i.Proper) ∧ exec (step buggy n) init is = some (s, tr) ∧ s.done = n ∧
      ∀ (is' : List Input) (s' : State) (tr' : List Event), (∀ i ∈ is', i.Proper) →
        exec (step buggy n) s is' = some (s', tr') → s'.main = .away .joining := by
  obtain ⟨is, peak, tr, hproper, hexec⟩ := exec_items buggy (Nat.le_refl n)
  obtain ⟨s, tr', hlate, hdone, hhangs⟩ := exec_lateSleep buggy n peak
  refine ⟨is ++ lateSleep, s, _, ?_, exec_append _ _ _ _ _ _ _ _ hexec hlate, hdone, ?_⟩
  · intro i hi
    rcases List.mem_append.mp hi with hi | hi
    · exact hproper i hi
    · exact lateSleep_proper i hi
  · intro is' s' tr'' hproper' hexec'
    have hkeeps : Hangs s' := by
      refine Completion.exec_keeps (G := Input.Proper) ?_ hhangs hproper' hexec'
      intro s i s' es hs hi hstep
      exact hangs_move hs hi (move_of_step hstep)
    exact hkeeps.1

end Hang

end MobileCore.Backpressure
