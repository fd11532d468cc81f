import MobileCore.SocketWaits
import MobileCore.ThreadPool

namespace MobileCore.LostWakeups

open MobileCore.LabelledRuns

universe u

/-- No worker sleeps on, in either queue, through a notification that does not fall between a
worker's look at the flag and its sleep. -/
theorem no_worker_stranded (rules : PacketRules.RuleTable) (T : Type u) (numWorkers : Nat) :
    (∀ tr s, Run (SocketWaits.step rules) SocketWaits.StopsAround SocketWaits.init tr s →
      ¬ SocketWaits.Stranded s) ∧
    ∀ (tr : List (ThreadPool.Event T)) (s : ThreadPool.State T),
      Run ThreadPool.step ThreadPool.ClosesAround (ThreadPool.init numWorkers) tr s →
        ¬ ThreadPool.Stranded s :=
  ⟨fun _ _ => SocketWaits.not_stranded, fun _ _ => ThreadPool.not_stranded⟩

def workerStopped : List SocketWaits.Input :=
  [.start, .worker 0, .worker 0, .worker 0, .stop, .stop, .worker 0, .worker 0, .worker 0]

def poolClosed : List (ThreadPool.Input Nat) :=
  [.submit 7, .worker 0, .worker 0, .notify 0, .worker 1, .worker 1, .worker 1, .worker 0,
    .worker 0, .worker 0, .worker 0, .close, .close, .worker 0, .worker 0, .worker 1, .worker 1]

theorem workers_leave :
    (∃ tr s, Run (SocketWaits.step {}) SocketWaits.StopsAround SocketWaits.init tr s ∧
      s.upper.stopper = .notified ∧ s.lower.worker = .exited ∧ ¬ SocketWaits.Stranded s) ∧
    (∃ tr s, Run ThreadPool.step ThreadPool.ClosesAround (ThreadPool.init 2) tr s ∧
      s.workers = [.away .exited, .away .exited] ∧ tr = [.submitted 7, .executed 7] ∧
      ¬ ThreadPool.Stranded s) := by
  obtain ⟨hsocket, hpool⟩ := no_worker_stranded {} Nat 2
  constructor
  · have hexec : (exec (SocketWaits.step {}) SocketWaits.init workerStopped).map (fun r =>
        (r.1.upper.stopper, r.1.lower.worker)) = some (.notified, .exited) := by decide +kernel
    obtain ⟨tr, s, hrun, hend⟩ :=
      exists_run_of_exec (P := SocketWaits.StopsAround) _ (by decide +kernel) hexec
    obtain ⟨hnotified, hexited⟩ := Prod.mk.inj hend
    exact ⟨tr, s, hrun, hnotified, hexited, hsocket tr s hrun⟩
  · have hexec : (exec ThreadPool.step (ThreadPool.init 2) poolClosed).map (fun r =>
        (r.1.workers, r.2)) =
        some ([.away .exited, .away .exited], [.submitted 7, .executed 7]) := by decide +kernel
    obtain ⟨tr, s, hrun, hend⟩ :=
      exists_run_of_exec (P := ThreadPool.ClosesAround) _ (by decide +kernel) hexec
    obtain ⟨hexited, htrace⟩ := Prod.mk.inj hend
    exact ⟨tr, s, hrun, hexited, htrace, hpool tr s hrun⟩

/-- The worker reads the flag, `stop` stores it and notifies, and the worker sleeps. -/
def workerOvertaken : List SocketWaits.Input :=
  [.start, .worker 0, .worker 0, .stop, .stop, .worker 0]

/-- The same with the destructor and the first of eight workers. -/
def poolOvertaken : List (ThreadPool.Input Nat) :=
  [.worker 0, .worker 0, .close, .close, .worker 0]

/-- In both queues a worker can sleep on. -/
theorem overtaken_workers_stranded :
    (∃ tr s, Reach (SocketWaits.step {}) SocketWaits.init tr s ∧ SocketWaits.Stranded s) ∧
    (∃ (tr : List (ThreadPool.Event Nat)) (s : ThreadPool.State Nat),
      Reach ThreadPool.step (ThreadPool.init 8) tr s ∧ ThreadPool.Stranded s) := by
  constructor
  · have hexec : (exec (SocketWaits.step {}) SocketWaits.init workerOvertaken).map (fun r =>
        decide (SocketWaits.Stranded r.1)) = some true := by decide +kernel
    obtain ⟨tr, s, hrun, hend⟩ := exists_reach_of_exec hexec
    exact ⟨tr, s, hrun, of_decide_eq_true hend⟩
  · have hexec : (exec ThreadPool.step (ThreadPool.init 8) poolOvertaken).map (fun r =>
        (r.1.stop, r.1.closer, decide (.asleep ∈ r.1.workers), r.1.pushed)) =
        some (true, .notified, true, 0) := by decide +kernel
    obtain ⟨tr, s, hrun, hend⟩ := exists_reach_of_exec hexec
    obtain ⟨hstop, hend⟩ := Prod.mk.inj hend
    obtain ⟨hnotified, hend⟩ := Prod.mk.inj hend
    obtain ⟨hasleep, hpushed⟩ := Prod.mk.inj hend
    exact ⟨tr, s, hrun, hstop, hnotified, of_decide_eq_true hasleep, hpushed⟩

end MobileCore.LostWakeups
