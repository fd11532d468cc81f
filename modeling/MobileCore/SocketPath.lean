import MobileCore.FastPath

/-!
# The socket data plane

`SocketPath`: any number of threads call `enqueue`, one worker waits for packets and handles them,
with `start` and `stop`. A critical section is one step, and so is each access to the counters.
-/

namespace MobileCore.SocketPath

open MobileCore.FastPath (PathStats processPacket)
open MobileCore.LabelledRuns
open MobileCore.PacketRules

def maxQueueDepth : Nat := 4096

/-- Where the worker is; `draining` tells the second loop of `worker_loop` from the first, and
`unmatched` is between the two counters of a packet without a PDR. -/
inductive WorkerPc where
  | notStarted
  | waiting
  | draining
  | processing (draining : Bool) (pkt : Packet)
  | unmatched (draining : Bool) (pkt : Packet)
  | exited
deriving DecidableEq

/-- `entering` holds the packets of the calls of `enqueue` that have not had the mutex yet. -/
structure State where
  entering : List Packet := []
  queue : List Packet := []
  running : Bool := false
  worker : WorkerPc := .notStarted
  stats : PathStats := {}

inductive Input where
  | start
  | stop
  | enqueue (pkt : Packet)
  | producer (n : Nat)
  | worker (nowNs : UInt64)

inductive Event where
  | accepted (pkt : Packet)
  | rejected (pkt : Packet)
  | handled (pkt : Packet)
deriving DecidableEq

def loop (draining : Bool) : WorkerPc := if draining then .draining else .waiting

/-- The critical section of the `n`-th call of `enqueue` under way. -/
def producerStep (s : State) (n : Nat) : Option (State × List Event) :=
  match s.entering[n]? with
  | none => none
  | some pkt =>
    let s := { s with entering := s.entering.eraseIdx n }
    if maxQueueDepth ≤ s.queue.length then
      some ({ s with stats := { s.stats with pktsDropped := s.stats.pktsDropped + 1 } },
        [.rejected pkt])
    else some ({ s with queue := s.queue ++ [pkt] }, [.accepted pkt])

/-- The wait of the worker ends when there is a packet or `running` is false. -/
def workerStep (rules : RuleTable) (nowNs : UInt64) (s : State) : Option (State × List Event) :=
  match s.worker with
  | .notStarted => none
  | .exited => none
  | .waiting =>
    match s.queue with
    | [] => if s.running then none else some ({ s with worker := .draining }, [])
    | pkt :: rest => some ({ s with queue := rest, worker := .processing false pkt }, [])
  | .draining =>
    match s.queue with
    | [] => some ({ s with worker := .exited }, [])
    | pkt :: rest => some ({ s with queue := rest, worker := .processing true pkt }, [])
  | .processing draining pkt =>
    match rules.matchPdr pkt with
    | none =>
      some ({ s with
        stats := { s.stats with pktsNoPdr := s.stats.pktsNoPdr + 1 }
        worker := .unmatched draining pkt }, [])
    | some _ =>
      some ({ s with
        stats := (processPacket rules nowNs pkt s.stats).2
        worker := loop draining }, [.handled pkt])
  | .unmatched draining pkt =>
    some ({ s with
      stats := { s.stats with pktsDropped := s.stats.pktsDropped + 1 }
      worker := loop draining }, [.handled pkt])

def step (rules : RuleTable) : Machine State Input Event
  | s, .start =>
    match s.worker with
    | .notStarted | .exited => some ({ s with running := true, worker := .waiting }, [])
    | _ => none
  | s, .stop => some ({ s with running := false }, [])
  | s, .enqueue pkt =>
    some ({ s with
      stats := { s.stats with pktsRx := s.stats.pktsRx + 1 }
      entering := s.entering ++ [pkt] }, [])
  | s, .producer n => producerStep s n
  | s, .worker nowNs => workerStep rules nowNs s

inductive Produced (s : State) (n : Nat) : State → List Event → Prop
  | rejects {pkt : Packet} (hn : s.entering[n]? = some pkt)
      (hfull : maxQueueDepth ≤ s.queue.length) :
      Produced s n { s with
        entering := s.entering.eraseIdx n
        stats := { s.stats with pktsDropped := s.stats.pktsDropped + 1 } } [.rejected pkt]
  | accepts {pkt : Packet} (hn : s.entering[n]? = some pkt)
      (hroom : s.queue.length < maxQueueDepth) :
      Produced s n { s with
        entering := s.entering.eraseIdx n
        queue := s.queue ++ [pkt] } [.accepted pkt]

theorem produced_of_producerStep {s s' : State} {n : Nat} {es : List Event}
    (hstep : producerStep s n = some (s', es)) : Produced s n s' es := by
  unfold producerStep at hstep
  split at hstep
  · cases hstep
  · rename_i pkt hn
    dsimp only at hstep
    split at hstep
    · rename_i hfull
      cases hstep
      exact .rejects hn hfull
    · rename_i hroom
      cases hstep
      exact .accepts hn (Nat.lt_of_not_le hroom)

inductive Worked (rules : RuleTable) (nowNs : UInt64) (s : State) : State → List Event → Prop
  | stops (hworker : s.worker = .waiting) (hqueue : s.queue = []) (hrunning : s.running = false) :
      Worked rules nowNs s { s with worker := .draining } []
  | exits (hworker : s.worker = .draining) (hqueue : s.queue = []) :
      Worked rules nowNs s { s with worker := .exited } []
  | takes {draining : Bool} {pkt : Packet} {rest : List Packet}
      (hworker : s.worker = loop draining) (hqueue : s.queue = pkt :: rest) :
      Worked rules nowNs s { s with queue := rest, worker := .processing draining pkt } []
  | marks {draining : Bool} {pkt : Packet} (hworker : s.worker = .processing draining pkt)
      (hmatch : rules.matchPdr pkt = none) :
      Worked rules nowNs s { s with
        stats := { s.stats with pktsNoPdr := s.stats.pktsNoPdr + 1 }
        worker := .unmatched draining pkt } []
  | processes {draining : Bool} {pkt : Packet} {pdr : PDR}
      (hworker : s.worker = .processing draining pkt) (hmatch : rules.matchPdr pkt = some pdr) :
      Worked rules nowNs s { s with
        stats := (processPacket rules nowNs pkt s.stats).2
        worker := loop draining } [.handled pkt]
  | drops {draining : Bool} {pkt : Packet} (hworker : s.worker = .unmatched draining pkt) :
      Worked rules nowNs s { s with
        stats := { s.stats with pktsDropped := s.stats.pktsDropped + 1 }
        worker := loop draining } [.handled pkt]

theorem worked_of_workerStep {rules : RuleTable} {nowNs : UInt64} {s s' : State} {es : List Event}
    (hstep : workerStep rules nowNs s = some (s', es)) : Worked rules nowNs s s' es := by
  unfold workerStep at hstep
  split at hstep
  · cases hstep
  · cases hstep
  · rename_i hworker
    split at hstep
    · rename_i hqueue
      split at hstep
      · cases hstep
      · rename_i hrunning
        cases hstep
        exact .stops hworker hqueue (Bool.eq_false_iff.mpr hrunning)
    · rename_i pkt rest hqueue
      cases hstep
      exact @Worked.takes rules nowNs s false pkt rest hworker hqueue
  · rename_i hworker
    split at hstep
    · rename_i hqueue
      cases hstep
      exact .exits hworker hqueue
    · rename_i pkt rest hqueue
      cases hstep
      exact @Worked.takes rules nowNs s true pkt rest hworker hqueue
  · rename_i draining pkt hworker
    split at hstep
    · rename_i hmatch
      cases hstep
      exact .marks hworker hmatch
    · rename_i pdr hmatch
      cases hstep
      exact .processes hworker hmatch
  · rename_i draining pkt hworker
    cases hstep
    exact .drops hworker

theorem start_eq_some {rules : RuleTable} {s s' : State} {es : List Event}
    (hstep : step rules s .start = some (s', es)) :
    (s.worker = .notStarted ∨ s.worker = .exited) ∧
      s' = { s with running := true, worker := .waiting } ∧ es = [] := by
  simp only [step] at hstep
  split at hstep
  · rename_i hpc
    obtain ⟨rfl, rfl⟩ := Prod.mk.inj (Option.some.inj hstep)
    exact ⟨.inl hpc, rfl, rfl⟩
  · rename_i hpc
    obtain ⟨rfl, rfl⟩ := Prod.mk.inj (Option.some.inj hstep)
    exact ⟨.inr hpc, rfl, rfl⟩
  · cases hstep

def init : State := {}

/-- The packets that were popped and are not in a counter yet. -/
def WorkerPc.undecided : WorkerPc → Nat
  | .processing _ _ => 1
  | .unmatched _ _ => 1
  | _ => 0

/-- The packets without a PDR that are not among the dropped ones yet. -/
def WorkerPc.unmatchedOnly : WorkerPc → Nat
  | .unmatched _ _ => 1
  | _ => 0

end MobileCore.SocketPath
