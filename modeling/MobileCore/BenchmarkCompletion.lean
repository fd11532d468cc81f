import MobileCore.Benchmark
import MobileCore.PacketAccounting

/-!
# When the benchmark is complete

`SocketPath` and `DpdkPath` under the benchmark. A failed `enqueue` counts its packet as dropped,
and the packet is sent again, so the sum that `wait_until_done` compares can run ahead of the
packets that were handled. Where every call finds room, it cannot.
-/

namespace MobileCore.BenchmarkCompletion

open MobileCore.Benchmark
open MobileCore.FastPath (PathStats EnqueuePc LcorePc enqueueStep lcoreStep ringSize)
open MobileCore.FastPathDelivery (FreshMbuf)
open MobileCore.LabelledRuns
open MobileCore.PacketAccounting
open MobileCore.PacketCounters
open MobileCore.PacketRules
open MobileCore.SocketAccounting
open MobileCore.SocketPath (WorkerPc)

section Socket

def socketPlane (rules : RuleTable) :
    Plane SocketPath.State SocketPath.Input SocketPath.Event where
  machine := SocketPath.step rules
  init := SocketPath.init
  start := .start
  stop := .stop
  enqueue := .enqueue
  own
    | .producer _ => true
    | .worker _ => true
    | _ => false
  stats := SocketPath.State.stats
  accepted?
    | .accepted pkt => some pkt
    | _ => none
  rejected?
    | .rejected pkt => some pkt
    | _ => none
  handled?
    | .handled pkt => some pkt
    | _ => none

/-- A call of `enqueue` that has the mutex finds room in the queue. -/
def SocketRoom (_ : List SocketPath.Event) (s : SocketPath.State) : SocketPath.Input → Prop
  | .producer _ => s.queue.length < SocketPath.maxQueueDepth
  | _ => True

instance (tr : List SocketPath.Event) (s : SocketPath.State) (i : SocketPath.Input) :
    Decidable (SocketRoom tr s i) :=
  match i with
  | .producer _ => Nat.decLt _ _
  | .start | .stop | .enqueue _ | .worker _ => .isTrue trivial

def taken : WorkerPc → List Packet
  | .processing _ pkt => [pkt]
  | .unmatched _ pkt => [pkt]
  | _ => []

theorem length_taken (worker : WorkerPc) : (taken worker).length = worker.undecided := by
  cases worker <;> rfl

theorem taken_loop (draining : Bool) : taken (SocketPath.loop draining) = [] := by
  cases draining <;> rfl

/-- The packets that the socket path has accepted and not counted yet. -/
def socketHeld (s : SocketPath.State) : Nat := s.queue.length + s.worker.undecided

variable {rules : RuleTable} {s s' : SocketPath.State} {tr es : List SocketPath.Event}

/-- Each operand of the sum stays, or it counts one packet. -/
def CountsOne (stats stats' : PathStats) : Prop :=
  (stats'.pktsForwarded = stats.pktsForwarded ∨ stats'.pktsForwarded = stats.pktsForwarded + 1) ∧
    (stats'.pktsDropped = stats.pktsDropped ∨ stats'.pktsDropped = stats.pktsDropped + 1)

theorem processPacket_countsOne (rules : RuleTable) (nowNs : UInt64) (pkt : Packet)
    (stats : PathStats) : CountsOne stats (FastPath.processPacket rules nowNs pkt stats).2 := by
  unfold FastPath.processPacket
  split
  · exact ⟨.inl rfl, .inr rfl⟩
  · dsimp only
    split
    · exact ⟨.inl rfl, .inr rfl⟩
    · split
      · exact ⟨.inl rfl, .inr rfl⟩
      · unfold PathStats.recordLatency
        split <;> exact ⟨.inr rfl, .inl rfl⟩

theorem workerStep_moves {nowNs : UInt64}
    (hstep : SocketPath.workerStep rules nowNs s = some (s', es)) : s'.entering = s.entering ∧
      ((es = [] ∧ taken s'.worker ++ s'.queue = taken s.worker ++ s.queue ∧
          s'.stats.pktsForwarded = s.stats.pktsForwarded ∧
          s'.stats.pktsDropped = s.stats.pktsDropped) ∨
        ∃ pkt, es = [.handled pkt] ∧ taken s.worker = [pkt] ∧ taken s'.worker = [] ∧
          s'.queue = s.queue ∧ CountsOne s.stats s'.stats) := by
  cases SocketPath.worked_of_workerStep hstep with
  | stops hworker hqueue hrunning =>
      rw [hworker]
      exact ⟨rfl, .inl ⟨rfl, rfl, rfl, rfl⟩⟩
  | exits hworker hqueue =>
      rw [hworker]
      exact ⟨rfl, .inl ⟨rfl, rfl, rfl, rfl⟩⟩
  | takes hworker hqueue =>
      rw [hworker, taken_loop, hqueue]
      exact ⟨rfl, .inl ⟨rfl, rfl, rfl, rfl⟩⟩
  | marks hworker hmatch =>
      rw [hworker]
      exact ⟨rfl, .inl ⟨rfl, rfl, rfl, rfl⟩⟩
  | @processes draining pkt pdr hworker hmatch =>
      rw [hworker]
      exact ⟨rfl, .inr ⟨pkt, rfl, rfl, taken_loop draining, rfl,
        processPacket_countsOne rules nowNs pkt s.stats⟩⟩
  | @drops draining pkt hworker =>
      rw [hworker]
      exact ⟨rfl, .inr ⟨pkt, rfl, rfl, taken_loop draining, rfl, .inl rfl, .inr rfl⟩⟩

theorem producerStep_of_room {n : Nat} (hroom : s.queue.length < SocketPath.maxQueueDepth)
    (hstep : SocketPath.producerStep s n = some (s', es)) :
    ∃ pkt, s.entering[n]? = some pkt ∧ es = [.accepted pkt] ∧
      s' = { s with entering := s.entering.eraseIdx n, queue := s.queue ++ [pkt] } := by
  cases SocketPath.produced_of_producerStep hstep with
  | rejects hn hfull => exact (Nat.not_le.mpr hroom hfull).elim
  | accepts hn _ => exact ⟨_, hn, rfl, rfl⟩

/-- No call has failed, and the accepted packets are the handled ones, the worker's and the queued
ones, in order. -/
structure SocketInv (rules : RuleTable) (tr : List SocketPath.Event) (s : SocketPath.State) :
    Prop where
  unrejected : (socketPlane rules).rejected tr = []
  delivered : (socketPlane rules).accepted tr =
    (socketPlane rules).handled tr ++ (taken s.worker ++ s.queue)

theorem SocketInv.silent (h : SocketInv rules tr s)
    (hmoved : taken s'.worker ++ s'.queue = taken s.worker ++ s.queue) :
    SocketInv rules (tr ++ []) s' := by
  rw [List.append_nil]
  refine ⟨h.unrejected, ?_⟩
  rw [hmoved]
  exact h.delivered

theorem socketStep_inv {i : SocketPath.Input} (h : SocketInv rules tr s)
    (hroom : SocketRoom tr s i) (hstep : SocketPath.step rules s i = some (s', es)) :
    SocketInv rules (tr ++ es) s' := by
  cases i with
  | start =>
      obtain ⟨hpc, rfl, rfl⟩ := SocketPath.start_eq_some hstep
      apply h.silent
      rcases hpc with hpc | hpc <;> rw [hpc] <;> rfl
  | stop =>
      obtain ⟨rfl, rfl⟩ := Prod.mk.inj (Option.some.inj hstep)
      exact h.silent rfl
  | enqueue pkt =>
      obtain ⟨rfl, rfl⟩ := Prod.mk.inj (Option.some.inj hstep)
      exact h.silent rfl
  | producer n =>
      obtain ⟨pkt, -, rfl, rfl⟩ := producerStep_of_room hroom hstep
      refine ⟨?_, ?_⟩
      · rw [Plane.rejected_append, h.unrejected]
        rfl
      · rw [Plane.accepted_append, Plane.handled_append, h.delivered]
        show _ ++ [pkt] = (_ ++ []) ++ (_ ++ (_ ++ [pkt]))
        simp only [List.append_nil, List.append_assoc]
  | worker nowNs =>
      obtain ⟨-, ⟨rfl, hmoved, -⟩ | ⟨pkt, rfl, htaken, htaken', hqueue, -⟩⟩ :=
        workerStep_moves hstep
      · exact h.silent hmoved
      · refine ⟨?_, ?_⟩
        · rw [Plane.rejected_append, h.unrejected]
          rfl
        · rw [Plane.accepted_append, Plane.handled_append, h.delivered, htaken, htaken', hqueue]
          show (_ ++ ([pkt] ++ _)) ++ [] = (_ ++ [pkt]) ++ ([] ++ _)
          simp only [List.append_nil, List.append_assoc, List.nil_append]

theorem socket_inv (hrun : Run (SocketPath.step rules) SocketRoom SocketPath.init tr s) :
    SocketInv rules tr s := by
  refine hrun.invariant (I := SocketInv rules) ⟨rfl, rfl⟩ ?_
  intro tr s i s' es h hroom hstep
  exact socketStep_inv h hroom hstep

theorem countP_endsEnqueue (tr : List SocketPath.Event) (h : (socketPlane rules).rejected tr = []) :
    tr.countP endsEnqueue = ((socketPlane rules).accepted tr).length := by
  induction tr with
  | nil => rfl
  | cons e tr ih =>
      cases e with
      | accepted pkt => exact (List.countP_cons_of_pos rfl).trans (congrArg (· + 1) (ih h))
      | rejected pkt => cases h
      | handled pkt => exact (List.countP_cons_of_neg (by rintro ⟨⟩)).trans (ih h)

theorem socket_answered {i : SocketPath.Input} (hroom : SocketRoom tr s i)
    (hown : (socketPlane rules).own i = true)
    (hstep : SocketPath.step rules s i = some (s', es)) (hone : s.entering.length ≤ 1) :
    (socketPlane rules).rejected es = [] ∧
      s.entering = (socketPlane rules).accepted es ++ s'.entering := by
  cases i with
  | start | stop | enqueue pkt => cases hown
  | producer n =>
      obtain ⟨pkt, hn, rfl, rfl⟩ := producerStep_of_room hroom hstep
      refine ⟨rfl, ?_⟩
      obtain ⟨hlt, hget⟩ := List.getElem?_eq_some_iff.mp hn
      obtain rfl : n = 0 := by omega
      obtain ⟨only, hentering⟩ := List.length_eq_one_iff.mp (show s.entering.length = 1 by omega)
      simp only [hentering, List.getElem_cons_zero] at hget
      rw [hentering, hget]
      rfl
  | worker nowNs =>
      obtain ⟨hentering, ⟨rfl, -⟩ | ⟨pkt, rfl, -⟩⟩ := workerStep_moves hstep
      · exact ⟨rfl, hentering.symm⟩
      · exact ⟨rfl, hentering.symm⟩

theorem socket_counts {i : SocketPath.Input} (hroom : SocketRoom tr s i)
    (hown : (socketPlane rules).own i = true)
    (hstep : SocketPath.step rules s i = some (s', es)) (first : Bool) :
    (socketPlane rules).operand s' first = (socketPlane rules).operand s first ∨
      (0 < socketHeld s ∧
        (socketPlane rules).operand s' first = (socketPlane rules).operand s first + 1) := by
  cases i with
  | start | stop | enqueue pkt => cases hown
  | producer n =>
      obtain ⟨pkt, -, -, rfl⟩ := producerStep_of_room hroom hstep
      exact .inl (by cases first <;> rfl)
  | worker nowNs =>
      obtain ⟨-, ⟨-, -, hforwarded, hdropped⟩ | ⟨pkt, -, htaken, -, -, hone⟩⟩ :=
        workerStep_moves hstep
      · exact .inl (by cases first <;> assumption)
      · have hheld : 0 < socketHeld s := by
          rw [socketHeld, ← length_taken, htaken]
          exact Nat.succ_pos _
        cases first with
        | true => exact hone.1.imp_right fun hnext => ⟨hheld, hnext⟩
        | false => exact hone.2.imp_right fun hnext => ⟨hheld, hnext⟩

theorem socket_delivers (rules : RuleTable) :
    Delivers (socketPlane rules) SocketRoom SocketPath.State.entering socketHeld where
  free := by
    intro tr s i hown
    cases i <;> trivial
  starts := rfl
  stops := rfl
  enqueues := fun _ => rfl
  idle := rfl
  controlled := by
    rintro s i s' es (rfl | rfl) hstep
    · have hnext : SocketPath.step rules s .start = some (s', es) := hstep
      obtain ⟨-, rfl, rfl⟩ := SocketPath.start_eq_some hnext
      exact ⟨rfl, rfl⟩
    · obtain ⟨rfl, rfl⟩ := Prod.mk.inj (Option.some.inj hstep)
      exact ⟨rfl, rfl⟩
  called := by
    intro s pkt s' es hstep
    obtain ⟨rfl, rfl⟩ := Prod.mk.inj (Option.some.inj hstep)
    exact ⟨rfl, rfl⟩
  answered := by
    intro tr s i s' es _ hroom hown hstep hone
    exact socket_answered hroom hown hstep hone
  counted := by
    intro tr s hrun
    obtain ⟨forwarded, dropped, -, hsum, -, -, hforwarded, hdropped, -⟩ := socket_accounted hrun.reach
    refine ⟨forwarded, dropped, hforwarded, hdropped, ?_⟩
    rw [← countP_endsEnqueue tr (socket_inv hrun).unrejected]
    unfold socketInFlight at hsum
    unfold socketHeld
    omega
  delivered := by
    intro tr s hrun hheld
    have hdelivered := (socket_inv hrun).delivered
    have hnone : taken s.worker ++ s.queue = [] := by
      apply List.eq_nil_of_length_eq_zero
      rw [List.length_append, length_taken, Nat.add_comm]
      exact hheld
    rw [hdelivered, hnone, List.append_nil]
  counts := by
    intro tr s i s' es _ hroom hown hstep first
    exact socket_counts hroom hown hstep first

end Socket

section Dpdk

def dpdkPlane (rules : RuleTable) : Plane DpdkState FastPath.Input FastPath.Event where
  machine := dpdkStep rules
  init := dpdkInit
  start := .start
  stop := .stop
  enqueue := .rxEnqueue
  own
    | .producer => true
    | .lcore _ => true
    | _ => false
  stats := fun s => s.path.stats
  accepted? := FastPath.Event.accepted?
  rejected?
    | .rejected pkt => some pkt
    | _ => none
  handled? := FastPath.Event.handled?

/-- A `push` that looks at the other end of the ring finds room. -/
def RingRoom (s : FastPath.State) : Prop :=
  match s.enqueue, s.ring.producer with
  | .pushing _ _, .loadTail _ _ nextH => nextH ≠ s.ring.ring.tail
  | _, _ => True

def hasRingRoom (s : FastPath.State) : Bool :=
  match s.enqueue, s.ring.producer with
  | .pushing _ _, .loadTail _ _ nextH => nextH != s.ring.ring.tail
  | _, _ => true

theorem hasRingRoom_iff {s : FastPath.State} : hasRingRoom s = true ↔ RingRoom s := by
  unfold hasRingRoom RingRoom
  split
  · exact bne_iff_ne
  · exact iff_of_true rfl trivial

instance (s : FastPath.State) : Decidable (RingRoom s) :=
  decidable_of_iff _ hasRingRoom_iff

/-- A call of `rx_enqueue` gets an mbuf that nobody uses and finds room in the ring. -/
def DpdkRoom (tr : List FastPath.Event) (s : DpdkState) : FastPath.Input → Prop
  | .producer => FreshMbuf tr s.path .producer ∧ RingRoom s.path
  | _ => True

instance (tr : List FastPath.Event) (s : DpdkState) (i : FastPath.Input) :
    Decidable (DpdkRoom tr s i) := by
  unfold DpdkRoom
  split <;> infer_instance

def entered : EnqueuePc → List Packet
  | .idle => []
  | .fetchAdd pkt | .wrapNext pkt | .countDrop pkt => [pkt]
  | .mark pkt _ | .fill pkt _ | .remark pkt _ | .callPush pkt _ | .pushing pkt _
  | .giveBack pkt _ => [pkt]

def Failing : EnqueuePc → Prop
  | .giveBack _ _ => True
  | .countDrop _ => True
  | _ => False

variable {rules : RuleTable} {tr es : List FastPath.Event}

theorem enqueueStep_moves {s s' : FastPath.State} (hcalm : ¬Failing s.enqueue)
    (hroom : RingRoom s) (hstep : enqueueStep s = some (s', es)) :
    ¬Failing s'.enqueue ∧ s'.stats = s.stats ∧
      ((es = [] ∧ entered s'.enqueue = entered s.enqueue) ∨
        ∃ pkt, es = [.accepted pkt] ∧ entered s.enqueue = [pkt] ∧ entered s'.enqueue = []) := by
  obtain ⟨ring, pool, running, enqueue, lcore, stats⟩ := s
  cases enqueue with
  | idle => cases hstep
  | giveBack pkt idx | countDrop pkt => exact (hcalm trivial).elim
  | fetchAdd pkt =>
      simp only [enqueueStep] at hstep
      split at hstep <;>
      · obtain ⟨rfl, rfl⟩ := Prod.mk.inj (Option.some.inj hstep)
        exact ⟨id, rfl, .inl ⟨rfl, rfl⟩⟩
  | wrapNext pkt | mark pkt idx | fill pkt idx | remark pkt idx =>
      obtain ⟨rfl, rfl⟩ := Prod.mk.inj (Option.some.inj hstep)
      exact ⟨id, rfl, .inl ⟨rfl, rfl⟩⟩
  | callPush pkt idx =>
      simp only [enqueueStep] at hstep
      split at hstep
      · cases hstep
      · obtain ⟨rfl, rfl⟩ := Prod.mk.inj (Option.some.inj hstep)
        exact ⟨id, rfl, .inl ⟨rfl, rfl⟩⟩
  | pushing pkt idx =>
      obtain ⟨ends, producer, consumer⟩ := ring
      simp only [enqueueStep, SpscRing.producerStep] at hstep
      cases producer with
      | idle => cases hstep
      | loadTail val h nextH =>
          have hfree : nextH ≠ ends.tail := hroom
          simp only [if_neg hfree] at hstep
          obtain ⟨rfl, rfl⟩ := Prod.mk.inj (Option.some.inj hstep)
          exact ⟨id, rfl, .inl ⟨rfl, rfl⟩⟩
      | writeBuf val h nextH =>
          obtain ⟨rfl, rfl⟩ := Prod.mk.inj (Option.some.inj hstep)
          exact ⟨id, rfl, .inl ⟨rfl, rfl⟩⟩
      | storeHead val nextH =>
          obtain ⟨rfl, rfl⟩ := Prod.mk.inj (Option.some.inj hstep)
          exact ⟨id, rfl, .inr ⟨pkt, rfl, rfl, rfl⟩⟩

theorem lcoreStep_countsOne {s s' : FastPath.State} {nowNs : UInt64}
    (hstep : lcoreStep rules nowNs s = some (s', es)) :
    s'.stats = s.stats ∨ (0 < s.lcore.toHandle.length ∧ CountsOne s.stats s'.stats) := by
  obtain ⟨ring, pool, running, enqueue, lcore, stats⟩ := s
  cases lcore with
  | notStarted | exited => cases hstep
  | check =>
      obtain ⟨rfl, -⟩ := Prod.mk.inj (Option.some.inj hstep)
      exact .inl rfl
  | freeing draining now m rest =>
      obtain ⟨rfl, -⟩ := Prod.mk.inj (Option.some.inj hstep)
      exact .inl rfl
  | callBurst draining =>
      simp only [lcoreStep] at hstep
      split at hstep
      · cases hstep
      · obtain ⟨rfl, -⟩ := Prod.mk.inj (Option.some.inj hstep)
        exact .inl rfl
  | popping draining =>
      simp only [lcoreStep] at hstep
      split at hstep
      · cases hstep
      all_goals
        obtain ⟨rfl, -⟩ := Prod.mk.inj (Option.some.inj hstep)
        exact .inl rfl
  | processing draining now burst =>
      cases burst with
      | nil =>
          obtain ⟨rfl, -⟩ := Prod.mk.inj (Option.some.inj hstep)
          exact .inl rfl
      | cons m rest =>
          obtain ⟨rfl, -⟩ := Prod.mk.inj (Option.some.inj hstep)
          exact .inr ⟨Nat.succ_pos _, processPacket_countsOne rules now _ stats⟩

def dpdkHeld (s : DpdkState) : Nat :=
  (SpscRing.contents ringSize s.path.ring.ring).length + s.path.lcore.toHandle.length

theorem dpdk_countsOne {s s' : DpdkState} {nowNs : UInt64}
    (hbetween : s.unmatched = true → InHand s.path)
    (hstep : dpdkStep rules s (.lcore nowNs) = some (s', es)) :
    (s'.path.stats.pktsForwarded = s.path.stats.pktsForwarded ∧
        s'.path.stats.pktsDropped = s.path.stats.pktsDropped) ∨
      (0 < dpdkHeld s ∧ CountsOne s.path.stats s'.path.stats) := by
  rcases dpdkStep_lcore hbetween hstep with ⟨-, path, hlcore, rfl⟩ |
    ⟨draining, now, m, rest, hpc, ⟨-, -, rfl⟩ | ⟨-, -, -, rfl⟩⟩
  · rcases lcoreStep_countsOne hlcore with hsame | ⟨hhand, hone⟩
    · exact .inl ⟨congrArg _ hsame, congrArg _ hsame⟩
    · exact .inr ⟨Nat.add_pos_right _ hhand, hone⟩
  · refine .inr ⟨Nat.add_pos_right _ ?_, .inl rfl, .inr rfl⟩
    rw [hpc]
    exact Nat.succ_pos _
  · exact .inl ⟨rfl, rfl⟩

theorem accepted_of_shows (rules : RuleTable) (es : List FastPath.Event)
    (h : es.countP endsRxEnqueue = 0) :
    (dpdkPlane rules).accepted es = [] ∧ (dpdkPlane rules).rejected es = [] := by
  rw [List.countP_eq_zero] at h
  constructor <;>
  · apply List.filterMap_eq_nil_iff.mpr
    intro e he
    cases e with
    | handled pkt => rfl
    | _ => exact (h _ he rfl).elim

theorem countP_endsRxEnqueue (tr : List FastPath.Event)
    (h : (dpdkPlane rules).rejected tr = []) :
    tr.countP endsRxEnqueue = ((dpdkPlane rules).accepted tr).length := by
  induction tr with
  | nil => rfl
  | cons e tr ih =>
      cases e with
      | accepted pkt => exact (List.countP_cons_of_pos rfl).trans (congrArg (· + 1) (ih h))
      | rejected pkt => cases h
      | handled pkt => exact (List.countP_cons_of_neg (by rintro ⟨⟩)).trans (ih h)

theorem dpdk_start {s s' : DpdkState} (hstep : dpdkStep rules s .start = some (s', es)) :
    es = [] ∧ s'.path.enqueue = s.path.enqueue := by
  obtain ⟨path, hnext, rfl⟩ := DpdkState.lift_eq_some hstep
  obtain ⟨-, rfl, rfl⟩ := FastPath.start_eq_some hnext
  exact ⟨rfl, rfl⟩

theorem dpdk_rxEnqueue {s s' : DpdkState} {pkt : Packet}
    (hstep : dpdkStep rules s (.rxEnqueue pkt) = some (s', es)) :
    es = [] ∧ s.path.enqueue = .idle ∧ s'.path.enqueue = .fetchAdd pkt := by
  obtain ⟨path, hnext, rfl⟩ := DpdkState.lift_eq_some hstep
  obtain ⟨hidle, rfl, rfl⟩ := FastPath.rxEnqueue_eq_some hnext
  exact ⟨rfl, hidle, rfl⟩

theorem dpdkStep_answers {s s' : DpdkState} {i : FastPath.Input} {items : List Nat}
    (hinv : DpdkInv tr s items) (hcalm : ¬Failing s.path.enqueue) (hroom : DpdkRoom tr s i)
    (hstep : dpdkStep rules s i = some (s', es)) :
    ¬Failing s'.path.enqueue ∧ (dpdkPlane rules).rejected es = [] ∧
      ((dpdkPlane rules).own i = true →
        entered s.path.enqueue = (dpdkPlane rules).accepted es ++ entered s'.path.enqueue) := by
  cases i with
  | start =>
      obtain ⟨rfl, hsame⟩ := dpdk_start hstep
      rw [hsame]
      exact ⟨hcalm, rfl, by rintro ⟨⟩⟩
  | stop =>
      obtain ⟨rfl, rfl⟩ := Prod.mk.inj (Option.some.inj hstep)
      exact ⟨hcalm, rfl, by rintro ⟨⟩⟩
  | rxEnqueue pkt =>
      obtain ⟨rfl, -, hnext⟩ := dpdk_rxEnqueue hstep
      rw [hnext]
      exact ⟨id, rfl, by rintro ⟨⟩⟩
  | producer =>
      obtain ⟨path, hnext, rfl⟩ := DpdkState.lift_eq_some hstep
      obtain ⟨hcalm', -, ⟨rfl, hsame⟩ | ⟨pkt, rfl, hbefore, hafter⟩⟩ :=
        enqueueStep_moves hcalm hroom.2 hnext
      · exact ⟨hcalm', rfl, fun _ => hsame.symm⟩
      · refine ⟨hcalm', rfl, fun _ => ?_⟩
        dsimp only
        rw [hbefore, hafter]
        rfl
  | lcore nowNs =>
      have hsame : s'.path.enqueue = s.path.enqueue ∧ es.countP endsRxEnqueue = 0 := by
        rcases dpdkStep_lcore hinv.between hstep with ⟨-, path, hlcore, rfl⟩ |
          ⟨draining, now, m, rest, -, ⟨-, rfl, rfl⟩ | ⟨-, -, rfl, rfl⟩⟩
        · obtain ⟨_, hcounts⟩ := lcoreStep_counts hinv.ring hlcore
          exact ⟨hcounts.enqueue, hcounts.shows⟩
        · exact ⟨rfl, rfl⟩
        · exact ⟨rfl, rfl⟩
      obtain ⟨henqueue, hshows⟩ := hsame
      obtain ⟨haccepted, hrejected⟩ := accepted_of_shows rules es hshows
      rw [henqueue, haccepted]
      exact ⟨hcalm, hrejected, fun _ => rfl⟩

theorem settled_frame (s : DpdkState) : (settled s).enqueue = s.path.enqueue ∧
    (settled s).pool = s.path.pool ∧ (settled s).ring = s.path.ring := by
  unfold settled
  split
  · split <;> exact ⟨rfl, rfl, rfl⟩
  · exact ⟨rfl, rfl, rfl⟩

theorem settled_toHandle {s : DpdkState} (hnone : s.path.lcore.toHandle = []) :
    (settled s).lcore.toHandle = [] := by
  unfold settled
  split
  · split
    · rename_i draining now m rest hpc
      rw [hpc] at hnone
      cases hnone
    · exact hnone
  · exact hnone

theorem DpdkRoom.fresh {s : DpdkState} {i : FastPath.Input} (h : DpdkRoom tr s i) :
    FreshMbuf tr (settled s) i := by
  obtain ⟨henqueue, hpool, -⟩ := settled_frame s
  cases i with
  | producer =>
      have hfresh : FreshMbuf tr s.path .producer := h.1
      unfold FreshMbuf at hfresh ⊢
      rw [henqueue, hpool]
      exact hfresh
  | _ => trivial

/-- No call has failed, and the mbufs of the accepted packets are owned as on the path that counts
in one step. -/
structure DpdkDelivery (rules : RuleTable) (tr : List FastPath.Event) (s : DpdkState) : Prop where
  counters : ∃ items, DpdkInv tr s items
  calm : ¬Failing s.path.enqueue
  unrejected : (dpdkPlane rules).rejected tr = []
  owned : ∃ items, FastPathDelivery.Inv tr (settled s) items

theorem dpdkStep_delivery {s s' : DpdkState} {i : FastPath.Input} (h : DpdkDelivery rules tr s)
    (hroom : DpdkRoom tr s i) (hstep : dpdkStep rules s i = some (s', es)) :
    DpdkDelivery rules (tr ++ es) s' := by
  obtain ⟨⟨items, hinv⟩, hcalm, hunrejected, items', howned⟩ := h
  obtain ⟨hcalm', hrejected, -⟩ := dpdkStep_answers hinv hcalm hroom hstep
  refine ⟨dpdkStep_inv hinv hstep, hcalm', ?_, ?_⟩
  · rw [Plane.rejected_append, hunrejected, hrejected]
    rfl
  · rcases dpdkStep_refines hinv.between hstep with hone | ⟨rfl, hsame⟩
    · exact FastPathDelivery.step_inv howned hroom.fresh hone
    · rw [hsame, List.append_nil]
      exact ⟨items', howned⟩

theorem dpdk_delivery {s : DpdkState} (hrun : Run (dpdkStep rules) DpdkRoom dpdkInit tr s) :
    DpdkDelivery rules tr s := by
  refine hrun.invariant (I := DpdkDelivery rules) ?_ ?_
  · exact ⟨⟨[], init_dpdkInv⟩, id, rfl, [], FastPathDelivery.init_inv⟩
  · intro tr s i s' es h hroom hstep
    exact dpdkStep_delivery h hroom hstep

theorem dpdk_counts {s s' : DpdkState} {i : FastPath.Input} (h : DpdkDelivery rules tr s)
    (hroom : DpdkRoom tr s i) (hown : (dpdkPlane rules).own i = true)
    (hstep : dpdkStep rules s i = some (s', es)) (first : Bool) :
    (dpdkPlane rules).operand s' first = (dpdkPlane rules).operand s first ∨
      (0 < dpdkHeld s ∧
        (dpdkPlane rules).operand s' first = (dpdkPlane rules).operand s first + 1) := by
  cases i with
  | start | stop | rxEnqueue pkt => cases hown
  | producer =>
      obtain ⟨path, hnext, rfl⟩ := DpdkState.lift_eq_some hstep
      obtain ⟨-, hstats, -⟩ := enqueueStep_moves h.calm hroom.2 hnext
      left
      cases first with
      | true => exact congrArg PathStats.pktsForwarded hstats
      | false => exact congrArg PathStats.pktsDropped hstats
  | lcore nowNs =>
      obtain ⟨_, hinv⟩ := h.counters
      rcases dpdk_countsOne hinv.between hstep with ⟨hforwarded, hdropped⟩ | ⟨hheld, hone⟩
      · exact .inl (by cases first <;> assumption)
      · cases first with
        | true => exact hone.1.imp_right fun hnext => ⟨hheld, hnext⟩
        | false => exact hone.2.imp_right fun hnext => ⟨hheld, hnext⟩

theorem dpdk_handled {s : DpdkState} (h : DpdkDelivery rules tr s) (hheld : dpdkHeld s = 0) :
    (dpdkPlane rules).handled tr = (dpdkPlane rules).accepted tr := by
  obtain ⟨items, howned⟩ := h.owned
  obtain ⟨hcontents, hnone⟩ := Nat.add_eq_zero_iff.mp hheld
  have hempty : items = [] := by
    rw [← howned.ring.ring.contents_eq (by decide), (settled_frame s).2.2]
    exact List.eq_nil_of_length_eq_zero hcontents
  have hdelivered := howned.delivered
  rw [hempty, settled_toHandle (List.eq_nil_of_length_eq_zero hnone)] at hdelivered
  exact (hdelivered.trans (List.append_nil _)).symm

theorem dpdk_delivers (rules : RuleTable) :
    Delivers (dpdkPlane rules) DpdkRoom (fun s => entered s.path.enqueue) dpdkHeld where
  free := by
    intro tr s i hown
    cases i <;> trivial
  starts := rfl
  stops := rfl
  enqueues := fun _ => rfl
  idle := rfl
  controlled := by
    rintro s i s' es (rfl | rfl) hstep
    · obtain ⟨rfl, hsame⟩ := dpdk_start hstep
      exact ⟨rfl, congrArg entered hsame⟩
    · obtain ⟨rfl, rfl⟩ := Prod.mk.inj (Option.some.inj hstep)
      exact ⟨rfl, rfl⟩
  called := by
    intro s pkt s' es hstep
    obtain ⟨rfl, hidle, hnext⟩ := dpdk_rxEnqueue hstep
    rw [hidle, hnext]
    exact ⟨rfl, rfl⟩
  answered := by
    intro tr s i s' es hrun hroom hown hstep _
    have h := dpdk_delivery hrun
    obtain ⟨_, hinv⟩ := h.counters
    obtain ⟨-, hrejected, hentered⟩ := dpdkStep_answers hinv h.calm hroom hstep
    exact ⟨hrejected, hentered hown⟩
  counted := by
    intro tr s hrun
    obtain ⟨forwarded, dropped, -, hsum, -, -, hforwarded, hdropped, -⟩ := dpdk_accounted hrun.reach
    refine ⟨forwarded, dropped, hforwarded, hdropped, ?_⟩
    rw [← countP_endsRxEnqueue tr (dpdk_delivery hrun).unrejected]
    unfold inFlight at hsum
    unfold dpdkHeld
    omega
  delivered := by
    intro tr s hrun hheld
    exact dpdk_handled (dpdk_delivery hrun) hheld
  counts := by
    intro tr s i s' es hrun hroom hown hstep first
    exact dpdk_counts (dpdk_delivery hrun) hroom hown hstep first

end Dpdk

/-- `wait_until_done` returns true only when every packet of the list has been handled, in every
run of the two benchmarks in which no call of `enqueue` finds the queue or the ring full and
`rx_enqueue` gets no mbuf that is in use. -/
theorem complete_of_room (rules : RuleTable) (pkts : Packets) :
    (∀ tr s, Run (step (socketPlane rules) pkts) (Guarded SocketRoom) (init (socketPlane rules)) tr s →
      Complete (socketPlane rules) pkts tr s) ∧
    ∀ tr s, Run (step (dpdkPlane rules) pkts) (Guarded DpdkRoom) (init (dpdkPlane rules)) tr s →
      Complete (dpdkPlane rules) pkts tr s := by
  constructor
  · intro tr s hrun
    exact complete_of_delivers (socket_delivers rules) hrun
  · intro tr s hrun
    exact complete_of_delivers (dpdk_delivers rules) hrun

def twoPackets : Packets where
  list := [{ seq := 1 }, { seq := 2 }]
  size_lt := by decide

/-- The first packet is handled while the call for the second one is under way. -/
def socketSchedule : List (Benchmark.Input SocketPath.Input) :=
  let call := .plane (.producer 0)
  let work := .plane (.worker 0)
  [.bench {}, .bench {}, .bench {}, call, work, .bench {}, .bench {}, work, call] ++
    List.replicate 4 work ++ List.replicate 3 (.bench {})

def dpdkSchedule : List (Benchmark.Input FastPath.Input) :=
  let call := .plane .producer
  let work := .plane (.lcore 0)
  List.replicate 3 (.bench {}) ++ List.replicate 8 call ++ [work, work, .bench {}, .bench {}] ++
    (List.replicate 4 [call, work]).flatten ++ List.replicate 4 call ++ List.replicate 10 work ++
    List.replicate 3 (.bench {})

theorem two_packets_complete :
    (∃ tr s, Run (step (socketPlane {}) twoPackets) (Guarded SocketRoom) (init (socketPlane {})) tr s ∧
      s.pc.succeeded = true ∧ AllHandled (socketPlane {}) twoPackets tr) ∧
    ∃ tr s, Run (step (dpdkPlane {}) twoPackets) (Guarded DpdkRoom) (init (dpdkPlane {})) tr s ∧
      s.pc.succeeded = true ∧ AllHandled (dpdkPlane {}) twoPackets tr := by
  obtain ⟨hsocket, hdpdk⟩ := complete_of_room {} twoPackets
  constructor
  · have hexec : (exec (step (socketPlane {}) twoPackets) (init (socketPlane {}))
        socketSchedule).map (fun r => r.1.pc.succeeded) = some true := by
      decide +kernel
    obtain ⟨tr, s, hrun, hok⟩ := exists_run_of_exec (P := Guarded SocketRoom) _ (by decide +kernel) hexec
    exact ⟨tr, s, hrun, hok, hsocket tr s hrun hok⟩
  · have hexec : (exec (step (dpdkPlane {}) twoPackets) (init (dpdkPlane {}))
        dpdkSchedule).map (fun r => r.1.pc.succeeded) = some true := by
      decide +kernel
    obtain ⟨tr, s, hrun, hok⟩ := exists_run_of_exec (P := Guarded DpdkRoom) _ (by decide +kernel) hexec
    exact ⟨tr, s, hrun, hok, hdpdk tr s hrun hok⟩

section Retries

abbrev socketStep (pkts : Packets) :
    Machine (State SocketPath.State) (Input SocketPath.Input) SocketPath.Event :=
  step (socketPlane {}) pkts

variable {pkts : Packets} {queue : List Packet} {worker : WorkerPc} {stats : PathStats}
  {pkt : Packet} {rest : List Packet}

def between (queue : List Packet) (worker : WorkerPc) (stats : PathStats) : SocketPath.State :=
  ⟨[], queue, true, worker, stats⟩

def within (pkt : Packet) (queue : List Packet) (worker : WorkerPc) (stats : PathStats) :
    SocketPath.State :=
  ⟨[pkt], queue, true, worker, { stats with pktsRx := stats.pktsRx + 1 }⟩

theorem reach_called : Reach (socketStep pkts) ⟨between queue worker stats, .attempt pkt rest⟩ []
    ⟨within pkt queue worker stats, .calling pkt rest⟩ :=
  Run.single (i := .bench {}) trivial rfl

theorem reach_producer {plane plane' : SocketPath.State} {es : List SocketPath.Event} {pc : Pc}
    (hnext : (socketPlane {}).machine plane (.producer 0) = some (plane', es)) :
    Reach (socketStep pkts) ⟨plane, pc⟩ es ⟨plane', returned (socketPlane {}) es pc⟩ := by
  have hown : (socketPlane {}).own (.producer 0) = true := rfl
  refine Run.single (i := .plane (.producer 0)) trivial ?_
  simp only [socketStep, step, hown, if_true, hnext, Option.map_some]

theorem reach_accepted (hroom : queue.length < SocketPath.maxQueueDepth) :
    Reach (socketStep pkts) ⟨within pkt queue worker stats, .calling pkt rest⟩ [.accepted pkt]
      ⟨between (queue ++ [pkt]) worker { stats with pktsRx := stats.pktsRx + 1 }, .send rest⟩ :=
  reach_producer (if_neg (Nat.not_le.mpr hroom))

theorem reach_rejected (hfull : SocketPath.maxQueueDepth ≤ queue.length) :
    Reach (socketStep pkts) ⟨within pkt queue worker stats, .calling pkt rest⟩ [.rejected pkt]
      ⟨between queue worker { stats with
        pktsRx := stats.pktsRx + 1, pktsDropped := stats.pktsDropped + 1 }, .attempt pkt rest⟩ :=
  reach_producer (if_pos hfull)

theorem reach_sent (n : Nat) (queue : List Packet) (stats : PathStats) (hroom : queue.length + n ≤ SocketPath.maxQueueDepth) :
    ∃ stats', stats'.pktsForwarded = stats.pktsForwarded ∧ stats'.pktsDropped = stats.pktsDropped ∧
      Reach (socketStep pkts) ⟨between queue worker stats, .send (List.replicate n pkt ++ rest)⟩
        (List.replicate n (.accepted pkt))
        ⟨between (queue ++ List.replicate n pkt) worker stats', .send rest⟩ := by
  induction n generalizing queue stats with
  | zero =>
      refine ⟨stats, rfl, rfl, ?_⟩
      rw [List.replicate_zero, List.append_nil]
      exact Run.nil
  | succ n ih =>
      have h := Reach.start (socketStep pkts)
        ⟨between queue worker stats, .send (List.replicate (n + 1) pkt ++ rest)⟩
      have h := Reach.silent h (.bench { nowNs := pkt.arrivalNs }) _ rfl
      have h := Reach.trans (Reach.trans h reach_called) (reach_accepted (by omega))
      obtain ⟨stats', hforwarded, hdropped, hrest⟩ := ih (queue ++ [pkt])
        { stats with pktsRx := stats.pktsRx + 1 }
        (by rw [List.length_append, List.length_singleton]; omega)
      refine ⟨stats', hforwarded, hdropped, ?_⟩
      rw [List.append_assoc, List.singleton_append] at hrest
      exact Reach.trans h hrest

/-- Every failed attempt counts the packet as dropped once more. -/
theorem reach_retried (n : Nat) (stats : PathStats) (hfull : SocketPath.maxQueueDepth ≤ queue.length) :
    ∃ stats', stats'.pktsForwarded = stats.pktsForwarded ∧
      stats'.pktsDropped = stats.pktsDropped + UInt64.ofNat n ∧
      Reach (socketStep pkts) ⟨between queue worker stats, .attempt pkt rest⟩
        (List.replicate n (.rejected pkt)) ⟨between queue worker stats', .attempt pkt rest⟩ := by
  induction n generalizing stats with
  | zero => exact ⟨stats, rfl, (UInt64.add_zero _).symm, Run.nil⟩
  | succ n ih =>
      have h := Reach.start (socketStep pkts) ⟨between queue worker stats, .attempt pkt rest⟩
      have h := Reach.trans (Reach.trans h reach_called) (reach_rejected hfull)
      obtain ⟨stats', hforwarded, hdropped, hrest⟩ := ih { stats with
        pktsRx := stats.pktsRx + 1, pktsDropped := stats.pktsDropped + 1 }
      refine ⟨stats', hforwarded, ?_, Reach.trans h hrest⟩
      rw [hdropped, ofNat_succ, UInt64.add_assoc, UInt64.add_comm 1]

/-- The worker takes a packet, the last one finds room, and the counters reach the number of
packets without it. -/
theorem reach_done {first : Packet} (hroom : queue.length < SocketPath.maxQueueDepth)
    (hmany : UInt64.ofNat pkts.list.length ≤ stats.pktsForwarded + stats.pktsDropped) :
    ∃ s, Reach (socketStep pkts) ⟨between (first :: queue) .waiting stats, .attempt pkt []⟩
      [.accepted pkt] s ∧ s.pc.succeeded = true := by
  have h := Reach.start (socketStep pkts) ⟨between (first :: queue) .waiting stats, .attempt pkt []⟩
  have h := Reach.trans h reach_called
  have h := Reach.silent h (.plane (.worker 0))
    ⟨within pkt queue (.processing false first) stats, .calling pkt []⟩ rfl
  have h := Reach.trans h (reach_accepted hroom)
  have h := Reach.silent h (.bench {}) _ rfl
  have h := Reach.silent h (.bench {}) _ rfl
  exact ⟨_, Reach.silent h (.bench {}) _ (if_pos hmany), rfl⟩

def queueful : List Packet := List.replicate SocketPath.maxQueueDepth {}

theorem length_queueful : queueful.length = SocketPath.maxQueueDepth := List.length_replicate

def overfull : Packets where
  list := queueful ++ [{}]
  size_lt := by
    rw [List.length_append, length_queueful]
    decide

/-- The worker has handled no packet, and the failed attempts of the last one let
`wait_until_done` return true. -/
theorem retries_end_the_wait : ¬∀ (rules : RuleTable) (pkts : Packets) tr s,
    Reach (step (socketPlane rules) pkts) (init (socketPlane rules)) tr s →
      Complete (socketPlane rules) pkts tr s := by
  intro hclaim
  have hstart : Reach (socketStep overfull) (init (socketPlane {})) []
      ⟨between [] .waiting {}, .send overfull.list⟩ := Run.single (i := .bench {}) trivial rfl
  obtain ⟨stats, hforwarded, hdropped, hsent⟩ : ∃ stats : PathStats, stats.pktsForwarded = 0 ∧
      stats.pktsDropped = 0 ∧ Reach (socketStep overfull) ⟨between [] .waiting {}, .send overfull.list⟩
        (List.replicate SocketPath.maxQueueDepth (.accepted {}))
        ⟨between queueful .waiting stats, .send [{}]⟩ :=
    reach_sent SocketPath.maxQueueDepth [] {} (Nat.le_of_eq (Nat.zero_add _))
  have hattempt := Reach.silent (Reach.trans hstart hsent) (.bench {})
    ⟨between queueful .waiting stats, .attempt {} []⟩ rfl
  obtain ⟨stats', hforwarded', hdropped', hretried⟩ := reach_retried overfull.list.length stats
    (Nat.le_of_eq length_queueful.symm)
  have hmany : UInt64.ofNat overfull.list.length ≤ stats'.pktsForwarded + stats'.pktsDropped := by
    rw [hforwarded', hdropped', hforwarded, hdropped, UInt64.zero_add, UInt64.zero_add]
    exact UInt64.le_refl _
  have hroom : (List.replicate 4095 ({} : Packet)).length < SocketPath.maxQueueDepth := by
    rw [List.length_replicate]
    decide
  obtain ⟨s, hdone, hok⟩ := reach_done hroom hmany
  have hrun := Reach.trans (Reach.trans hattempt hretried) hdone
  obtain ⟨sent, hall, hhandled⟩ := hclaim {} overfull _ s hrun hok
  have hnone : (socketPlane {}).handled ([] ++ List.replicate SocketPath.maxQueueDepth
      (.accepted {}) ++ List.replicate overfull.list.length (.rejected {}) ++ [.accepted {}]) =
      [] := by
    simp [Plane.handled, socketPlane]
  have hlength : overfull.list.length ≤ 0 := by
    rw [hall.length_eq]
    exact hhandled.length_le.trans (Nat.le_of_eq (congrArg List.length hnone))
  rw [overfull, List.length_append, List.length_singleton] at hlength
  omega

end Retries

end MobileCore.BenchmarkCompletion
