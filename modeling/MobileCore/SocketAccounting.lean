import MobileCore.PacketCounters
import MobileCore.SocketPath

namespace MobileCore.SocketAccounting

open MobileCore.LabelledRuns
open MobileCore.PacketCounters
open MobileCore.PacketRules
open MobileCore.SocketPath (WorkerPc)

variable {s s' : SocketPath.State} {tr es : List SocketPath.Event}

/-- The packets in flight: entering, queued, and popped but not counted. -/
def socketInFlight (s : SocketPath.State) : Nat :=
  s.entering.length + s.queue.length + s.worker.undecided

def endsEnqueue : SocketPath.Event → Bool
  | .handled _ => false
  | _ => true

/-- A packet is received by each call of `enqueue`, ended or under way. -/
def SocketAccounted (tr : List SocketPath.Event) (s : SocketPath.State) : Prop :=
  Accounted s.stats (tr.countP endsEnqueue + s.entering.length) (socketInFlight s)
    s.worker.unmatchedOnly

theorem loop_counts (draining : Bool) : (SocketPath.loop draining).undecided = 0 ∧
    (SocketPath.loop draining).unmatchedOnly = 0 := by
  cases draining <;> exact ⟨rfl, rfl⟩

theorem producerStep_accounted {n : Nat} (h : SocketAccounted tr s)
    (hstep : SocketPath.producerStep s n = some (s', es)) : SocketAccounted (tr ++ es) s' := by
  cases SocketPath.produced_of_producerStep hstep with
  | rejects hn hfull =>
      obtain ⟨hlt, -⟩ := List.getElem?_eq_some_iff.mp hn
      have hlength := List.length_eraseIdx_of_lt hlt
      apply Accounted.drop
      apply Accounted.moved h
      · simp only [List.countP_append, hlength]
        show _ = _ + 1 + _
        omega
      · simp only [socketInFlight, hlength]
        omega
  | accepts hn hroom =>
      obtain ⟨hlt, -⟩ := List.getElem?_eq_some_iff.mp hn
      have hlength := List.length_eraseIdx_of_lt hlt
      apply Accounted.moved h
      · simp only [List.countP_append, hlength]
        show _ = _ + 1 + _
        omega
      · simp only [socketInFlight, hlength, List.length_append, List.length_singleton]
        omega

theorem SocketAccounted.shows (h : SocketAccounted tr s) (hes : es.countP endsEnqueue = 0) :
    SocketAccounted (tr ++ es) s := by
  unfold SocketAccounted
  rw [List.countP_append, hes]
  exact h

theorem worker_moved (h : SocketAccounted tr s) (running : Bool) (worker : WorkerPc)
    (hundecided : s.worker.undecided = worker.undecided)
    (hunmatched : s.worker.unmatchedOnly = worker.unmatchedOnly) :
    SocketAccounted tr { s with running := running, worker := worker } := by
  unfold SocketAccounted socketInFlight at h ⊢
  rw [hundecided, hunmatched] at h
  exact h

theorem pop_accounted {pkt : Packet} {rest : List Packet} (h : SocketAccounted tr s)
    (hqueue : s.queue = pkt :: rest) (hworker : s.worker.undecided = 0)
    (hunmatched : s.worker.unmatchedOnly = 0) (draining : Bool) :
    SocketAccounted tr { s with queue := rest, worker := .processing draining pkt } := by
  unfold SocketAccounted at h
  rw [hunmatched] at h
  apply Accounted.moved h rfl
  show s.entering.length + s.queue.length + s.worker.undecided = s.entering.length + rest.length + 1
  rw [hqueue, hworker, List.length_cons]
  omega

theorem workerStep_accounted {rules : RuleTable} {nowNs : UInt64} (h : SocketAccounted tr s)
    (hstep : SocketPath.workerStep rules nowNs s = some (s', es)) :
    SocketAccounted (tr ++ es) s' := by
  cases SocketPath.worked_of_workerStep hstep with
  | stops hworker hqueue hrunning =>
      apply SocketAccounted.shows _ rfl
      exact worker_moved h s.running .draining (by rw [hworker]; rfl) (by rw [hworker]; rfl)
  | exits hworker hqueue =>
      apply SocketAccounted.shows _ rfl
      exact worker_moved h s.running .exited (by rw [hworker]; rfl) (by rw [hworker]; rfl)
  | takes hworker hqueue =>
      apply SocketAccounted.shows _ rfl
      apply pop_accounted h hqueue
      · rw [hworker]
        exact (loop_counts _).1
      · rw [hworker]
        exact (loop_counts _).2
  | marks hworker hmatch =>
      unfold SocketAccounted socketInFlight at h
      rw [hworker] at h
      apply SocketAccounted.shows _ rfl
      exact Accounted.unmatched h
  | processes hworker hmatch =>
      unfold SocketAccounted socketInFlight at h
      rw [hworker] at h
      apply SocketAccounted.shows _ rfl
      unfold SocketAccounted socketInFlight
      dsimp only
      rw [(loop_counts _).1, (loop_counts _).2]
      exact Accounted.processPacket h rules nowNs _
  | drops hworker =>
      unfold SocketAccounted socketInFlight at h
      rw [hworker] at h
      apply SocketAccounted.shows _ rfl
      unfold SocketAccounted socketInFlight
      dsimp only
      rw [(loop_counts _).1, (loop_counts _).2]
      exact Accounted.dropUnmatched h

theorem socketStep_accounted {rules : RuleTable} {i : SocketPath.Input}
    (h : SocketAccounted tr s) (hstep : SocketPath.step rules s i = some (s', es)) :
    SocketAccounted (tr ++ es) s' := by
  cases i with
  | start =>
      obtain ⟨hpc, rfl, rfl⟩ := SocketPath.start_eq_some hstep
      apply SocketAccounted.shows _ rfl
      apply worker_moved h true .waiting
      · rcases hpc with hpc | hpc <;> rw [hpc] <;> rfl
      · rcases hpc with hpc | hpc <;> rw [hpc] <;> rfl
  | stop =>
      obtain ⟨rfl, rfl⟩ := Prod.mk.inj (Option.some.inj hstep)
      exact SocketAccounted.shows h rfl
  | enqueue pkt =>
      obtain ⟨rfl, rfl⟩ := Prod.mk.inj (Option.some.inj hstep)
      apply SocketAccounted.shows _ rfl
      apply Accounted.moved (Accounted.receive h)
      · simp only [List.length_append, List.length_singleton]
        omega
      · simp only [socketInFlight, List.length_append, List.length_singleton]
        omega
  | producer n => exact producerStep_accounted h hstep
  | worker nowNs => exact workerStep_accounted h hstep

/-- No call of `enqueue` gets the mutex after the worker has looked at the queue for the last
time. -/
def SocketQuiet (_ : List SocketPath.Event) (s : SocketPath.State) : SocketPath.Input → Prop
  | .producer _ => s.worker ≠ .exited
  | _ => True

instance (tr : List SocketPath.Event) (s : SocketPath.State) (i : SocketPath.Input) :
    Decidable (SocketQuiet tr s i) := by
  unfold SocketQuiet
  split <;> infer_instance

/-- The worker exits when the queue is empty. -/
def SocketDrained (s : SocketPath.State) : Prop := s.worker = .exited → s.queue = []

theorem loop_ne_exited (draining : Bool) : SocketPath.loop draining ≠ .exited := by
  cases draining <;> rintro ⟨⟩

theorem workerStep_drained {rules : RuleTable} {nowNs : UInt64}
    (hstep : SocketPath.workerStep rules nowNs s = some (s', es)) : SocketDrained s' := by
  intro hexited
  cases SocketPath.worked_of_workerStep hstep with
  | stops | takes | marks => cases hexited
  | exits hworker hqueue => exact hqueue
  | processes | drops => exact (loop_ne_exited _ hexited).elim

theorem producerStep_worker {n : Nat}
    (hstep : SocketPath.producerStep s n = some (s', es)) : s'.worker = s.worker := by
  cases SocketPath.produced_of_producerStep hstep <;> rfl

theorem socketStep_drained {rules : RuleTable}
    {i : SocketPath.Input} (h : SocketDrained s) (hquiet : SocketQuiet tr s i)
    (hstep : SocketPath.step rules s i = some (s', es)) : SocketDrained s' := by
  cases i with
  | start =>
      obtain ⟨-, rfl, -⟩ := SocketPath.start_eq_some hstep
      rintro ⟨⟩
  | stop =>
      obtain ⟨rfl, -⟩ := Prod.ext_iff.mp (Option.some.inj hstep)
      exact h
  | enqueue pkt =>
      obtain ⟨rfl, -⟩ := Prod.ext_iff.mp (Option.some.inj hstep)
      exact h
  | producer n =>
      intro hexited
      exact (hquiet ((producerStep_worker hstep).symm.trans hexited)).elim
  | worker nowNs => exact workerStep_drained hstep

theorem socket_accounted {rules : RuleTable}
    (hrun : Reach (SocketPath.step rules) SocketPath.init tr s) : SocketAccounted tr s := by
  refine hrun.invariant (I := SocketAccounted) ?_ ?_
  · exact accounted_init
  · intro _ _ _ _ _ h _ hstep
    exact socketStep_accounted h hstep

theorem socket_drained {rules : RuleTable}
    (hrun : Run (SocketPath.step rules) SocketQuiet SocketPath.init tr s)
    (hexited : s.worker = .exited) (hidle : s.entering = []) :
    Accounted s.stats (tr.countP endsEnqueue) 0 0 := by
  have hdrained : SocketDrained s := by
    refine hrun.invariant (I := fun _ s => SocketDrained s) (fun _ => rfl) ?_
    intro _ _ _ _ _ h hquiet hstep
    exact socketStep_drained h hquiet hstep
  have haccounted := socket_accounted hrun.reach
  unfold SocketAccounted socketInFlight at haccounted
  rw [hexited, hidle, hdrained hexited] at haccounted
  exact haccounted

end MobileCore.SocketAccounting
