import MobileCore.FastPathDelivery
import MobileCore.SocketAccounting

/-!
# Every received packet is accounted for

`DpdkPath` with each access to its counters as a step of its own, and what both data planes say
about the packets they received.
-/

namespace MobileCore.PacketAccounting

open MobileCore.FastPath
open MobileCore.FastPathDelivery
open MobileCore.LabelledRuns
open MobileCore.PacketCounters
open MobileCore.PacketRules
open MobileCore.SocketAccounting

variable {s s' : FastPath.State} {es : List FastPath.Event} {items : List Nat}

/-- The event ends a call of `rx_enqueue`. -/
def endsRxEnqueue : FastPath.Event → Bool
  | .handled _ => false
  | _ => true

def entering : EnqueuePc → Nat
  | .idle => 0
  | _ => 1

def inFlight (s : FastPath.State) (items : List Nat) : Nat :=
  entering s.enqueue + items.length + s.lcore.toHandle.length

/-- The ring with the calls under way stands for the queue `items`. -/
structure RingInv (s : FastPath.State) (items : List Nat) : Prop where
  ring : SpscRing.Refines ringSize s.ring items
  push : PushUnderWay s.ring s.enqueue
  burst : BurstUnderWay s.ring s.lcore

theorem init_ringInv : RingInv FastPath.init [] where
  ring := SpscRing.init_refines (by decide) _
  push := trivial
  burst := trivial

/-- What a step of the receiving thread does to the counters, whatever the lcore does. -/
structure EnqueueCounts (es : List FastPath.Event) (s s' : FastPath.State)
    (items items' : List Nat) : Prop where
  inv : RingInv s' items'
  lcore : s'.lcore = s.lcore
  consumer : s'.ring.consumer = s.ring.consumer
  accounted : ∀ r held u,
    Accounted s.stats (r + entering s.enqueue) (entering s.enqueue + items.length + held) u →
    Accounted s'.stats (r + es.countP endsRxEnqueue + entering s'.enqueue)
      (entering s'.enqueue + items'.length + held) u

theorem pushing_counts {pkt : Packet} {idx : Nat} (hinv : RingInv s items)
    (hpc : s.enqueue = .pushing pkt idx) (hstep : enqueueStep s = some (s', es)) :
    ∃ items', EnqueueCounts es s s' items items' := by
  obtain ⟨ring, pool, running, enqueue, lcore, stats⟩ := s
  subst hpc
  simp only [enqueueStep] at hstep
  cases hpush : SpscRing.producerStep ring with
  | none => rw [hpush] at hstep; cases hstep
  | some next =>
      obtain ⟨ring', es'⟩ := next
      obtain ⟨hconsumer, hcases⟩ := SpscRing.producerStep_spec hinv.ring hinv.push hpush
      have hburst : BurstUnderWay ring' lcore := by
        have hbefore := hinv.burst
        cases lcore with
        | popping draining =>
            change ring'.consumer.InBurst
            rw [hconsumer]
            exact hbefore
        | _ => trivial
      rw [hpush] at hstep
      rcases hcases with ⟨rfl, hval, href⟩ | ⟨rfl, _, href⟩ | ⟨rfl, _, href⟩
      · cases hstep
        exact ⟨items, ⟨href, hval, hburst⟩, rfl, hconsumer, fun _ _ _ h => h⟩
      · cases hstep
        exact ⟨items, ⟨href, trivial, hburst⟩, rfl, hconsumer, fun _ _ _ h => h⟩
      · cases hstep
        refine ⟨items ++ [idx], ⟨href, trivial, hburst⟩, rfl, hconsumer, ?_⟩
        intro r held u h
        apply Accounted.moved h rfl
        simp only [entering, List.length_append, List.length_singleton]
        omega

theorem enqueueStep_counts (hinv : RingInv s items) (hstep : enqueueStep s = some (s', es)) :
    ∃ items', EnqueueCounts es s s' items items' := by
  cases hpc : s.enqueue with
  | idle => simp only [enqueueStep, hpc] at hstep; cases hstep
  | pushing pkt idx => exact pushing_counts hinv hpc hstep
  | callPush pkt idx =>
      obtain ⟨ring, pool, running, enqueue, lcore, stats⟩ := s
      subst hpc
      simp only [enqueueStep, SpscRing.step] at hstep
      split at hstep
      · cases hstep
      rename_i ring' es' hpush
      cases hstep
      split at hpush
      · cases hpush
        exact ⟨items, ⟨⟨hinv.ring.ring, ⟨rfl, SpscRing.mask_eq_mod (by decide) _⟩,
          hinv.ring.consumer⟩, rfl, hinv.burst⟩, rfl, rfl, fun _ _ _ h => h⟩
      · cases hpush
  | fetchAdd pkt =>
      obtain ⟨ring, pool, running, enqueue, lcore, stats⟩ := s
      subst hpc
      simp only [enqueueStep] at hstep
      split at hstep <;> cases hstep
      · exact ⟨items, ⟨hinv.ring, trivial, hinv.burst⟩, rfl, rfl, fun _ _ _ h => h⟩
      · exact ⟨items, ⟨hinv.ring, trivial, hinv.burst⟩, rfl, rfl, fun _ _ _ h => h⟩
  | countDrop pkt =>
      obtain ⟨ring, pool, running, enqueue, lcore, stats⟩ := s
      subst hpc
      cases hstep
      refine ⟨items, ⟨hinv.ring, trivial, hinv.burst⟩, rfl, rfl, ?_⟩
      intro r held u h
      apply Accounted.drop
      apply Accounted.moved h rfl
      simp only [entering]
      omega
  | wrapNext pkt | mark pkt idx | fill pkt idx | remark pkt idx | giveBack pkt idx =>
      obtain ⟨ring, pool, running, enqueue, lcore, stats⟩ := s
      subst hpc
      cases hstep
      exact ⟨items, ⟨hinv.ring, trivial, hinv.burst⟩, rfl, rfl, fun _ _ _ h => h⟩

/-- What a step of the lcore does to the counters. -/
structure LcoreCounts (es : List FastPath.Event) (s s' : FastPath.State)
    (items items' : List Nat) : Prop where
  inv : RingInv s' items'
  enqueue : s'.enqueue = s.enqueue
  shows : es.countP endsRxEnqueue = 0
  accounted : ∀ r u, Accounted s.stats r (inFlight s items) u →
    Accounted s'.stats r (inFlight s' items') u

theorem popping_counts {rules : RuleTable} {nowNs : UInt64} {draining : Bool}
    (hinv : RingInv s items) (hpc : s.lcore = .popping draining)
    (hstep : lcoreStep rules nowNs s = some (s', es)) : ∃ items', LcoreCounts es s s' items items' := by
  obtain ⟨ring, pool, running, enqueue, lcore, stats⟩ := s
  subst hpc
  simp only [lcoreStep] at hstep
  cases hpop : SpscRing.consumerStep ringSize ring with
  | none => rw [hpop] at hstep; cases hstep
  | some next =>
      obtain ⟨ring', es'⟩ := next
      obtain ⟨hproducer, hcases⟩ :=
        SpscRing.burstStep_spec (by decide) hinv.ring hinv.burst hpop
      have hpush : PushUnderWay ring' enqueue := by
        have hbefore := hinv.push
        cases enqueue with
        | pushing pkt idx =>
            change ring'.producer.val? = some idx
            rw [hproducer]
            exact hbefore
        | _ => trivial
      rw [hpop] at hstep
      rcases hcases with ⟨rfl, hburst, href⟩ | ⟨out, rest, rfl, rfl, _, href⟩
      · cases hstep
        exact ⟨items, ⟨href, hpush, hburst⟩, rfl, rfl, fun _ _ h => h⟩
      · cases out with
        | nil =>
            cases hstep
            cases draining <;> exact ⟨rest, ⟨href, hpush, trivial⟩, rfl, rfl, fun _ _ h => h⟩
        | cons m burst =>
            cases hstep
            refine ⟨rest, ⟨href, hpush, trivial⟩, rfl, rfl, ?_⟩
            intro r u h
            apply Accounted.moved h rfl
            simp only [inFlight, LcorePc.toHandle, List.length_append, List.length_nil]
            omega

theorem lcoreStep_counts {rules : RuleTable} {nowNs : UInt64} (hinv : RingInv s items)
    (hstep : lcoreStep rules nowNs s = some (s', es)) : ∃ items', LcoreCounts es s s' items items' := by
  cases hpc : s.lcore with
  | notStarted => simp only [lcoreStep, hpc] at hstep; cases hstep
  | exited => simp only [lcoreStep, hpc] at hstep; cases hstep
  | popping draining => exact popping_counts hinv hpc hstep
  | check =>
      obtain ⟨ring, pool, running, enqueue, lcore, stats⟩ := s
      subst hpc
      cases hstep
      exact ⟨items, ⟨hinv.ring, hinv.push, trivial⟩, rfl, rfl, fun _ _ h => h⟩
  | callBurst draining =>
      obtain ⟨ring, pool, running, enqueue, lcore, stats⟩ := s
      subst hpc
      simp only [lcoreStep, SpscRing.step] at hstep
      split at hstep
      · cases hstep
      rename_i ring' es' hcall
      cases hstep
      split at hcall
      · cases hcall
        refine ⟨items, ⟨⟨hinv.ring.ring, hinv.ring.producer, rfl⟩, ?_, trivial⟩, rfl, rfl, fun _ _ h => h⟩
        have hbefore := hinv.push
        cases enqueue with
        | pushing pkt idx => exact hbefore
        | _ => trivial
      · cases hcall
  | processing draining now burst =>
      obtain ⟨ring, pool, running, enqueue, lcore, stats⟩ := s
      subst hpc
      cases burst with
      | nil =>
          cases hstep
          cases draining <;> exact ⟨items, ⟨hinv.ring, hinv.push, trivial⟩, rfl, rfl, fun _ _ h => h⟩
      | cons m rest =>
          cases hstep
          refine ⟨items, ⟨hinv.ring, hinv.push, trivial⟩, rfl, rfl, ?_⟩
          intro r u h
          apply Accounted.processPacket (n := inFlight ⟨ring, pool, running, enqueue,
            .freeing draining now m rest, stats⟩ items)
          apply Accounted.moved h rfl
          simp only [inFlight, LcorePc.toHandle, List.length_cons]
          omega
  | freeing draining now m rest =>
      obtain ⟨ring, pool, running, enqueue, lcore, stats⟩ := s
      subst hpc
      cases hstep
      exact ⟨items, ⟨hinv.ring, hinv.push, trivial⟩, rfl, rfl, fun _ _ h => h⟩

/-- What the lcore knows about the ring on its way out. -/
def DrainFact (ring : SpscRing.State Nat) : LcorePc → Prop
  | .popping true =>
    match ring.consumer with
    | .burstLoadHead max _ => max = burstSize
    | .burstRead _ n _ _ => n = 0 → SpscRing.contents ringSize ring.ring = []
    | _ => True
  | .exited => SpscRing.contents ringSize ring.ring = []
  | _ => True

theorem popping_drained {rules : RuleTable} {nowNs : UInt64} {draining : Bool}
    (hinv : RingInv s items) (h : DrainFact s.ring s.lcore) (hpc : s.lcore = .popping draining)
    (hstep : lcoreStep rules nowNs s = some (s', es)) :
    DrainFact s'.ring s'.lcore := by
  obtain ⟨ring, pool, running, enqueue, lcore, stats⟩ := s
  subst hpc
  obtain ⟨⟨buf, head, tail⟩, producer, consumer⟩ := ring
  have hring := hinv.ring.ring
  have hcontents := hring.contents_eq (by decide)
  have hfact : DrainFact ⟨⟨buf, head, tail⟩, producer, consumer⟩ (.popping draining) := h
  have hconsumer := hinv.ring.consumer
  have hburst : consumer.InBurst := hinv.burst
  simp only [lcoreStep] at hstep
  cases consumer with
  | idle | popLoadHead | popRead | popStoreTail => exact hburst.elim
  | burstLoadHead max t =>
      cases hstep
      cases draining with
      | false => trivial
      | true =>
          intro hnone
          obtain rfl : max = burstSize := hfact
          obtain rfl : t = tail := hconsumer
          have havail := hring.avail_eq (by decide)
          dsimp only at havail hnone
          rw [havail] at hnone
          have hempty : items.length = 0 := by
            by_contra hne
            split at hnone
            · exact hne hnone
            · exact absurd hnone (by decide)
          exact hcontents.trans (List.eq_nil_of_length_eq_zero hempty)
  | burstRead t n i out =>
      obtain ⟨-, hn, hi, rfl⟩ := hconsumer
      rcases Nat.lt_or_ge i n with hlt | hge
      · have hread : SpscRing.consumerStep ringSize
            ⟨⟨buf, head, tail⟩, producer, .burstRead t n i (items.take i)⟩ =
            some (⟨⟨buf, head, tail⟩, producer, .burstRead t n (i + 1)
              (items.take i ++ [buf (SpscRing.mask ringSize (t + i))])⟩, []) := if_pos hlt
        rw [hread] at hstep
        cases hstep
        cases draining with
        | false => trivial
        | true => exact hfact
      obtain rfl : i = n := by omega
      rcases Nat.eq_zero_or_pos i with rfl | hpos
      · have hread : SpscRing.consumerStep ringSize
            ⟨⟨buf, head, tail⟩, producer, .burstRead t 0 0 (items.take 0)⟩ =
            some (⟨⟨buf, head, tail⟩, producer, .idle⟩, [.burst []]) := rfl
        rw [hread] at hstep
        cases hstep
        cases draining with
        | false => trivial
        | true => exact hfact rfl
      · obtain ⟨m, rest, rfl⟩ := List.exists_cons_of_length_pos (Nat.lt_of_lt_of_le hpos hn)
        obtain ⟨j, rfl⟩ := Nat.exists_eq_add_of_lt hpos
        have hread : SpscRing.consumerStep ringSize
            ⟨⟨buf, head, tail⟩, producer, .burstRead t (0 + j + 1) (0 + j + 1)
              ((m :: rest).take (0 + j + 1))⟩ =
            some (⟨⟨buf, head, SpscRing.mask ringSize (t + (0 + j + 1))⟩, producer, .idle⟩,
              [.burst (m :: rest.take (0 + j))]) := by
          simp only [SpscRing.consumerStep, if_neg (Nat.lt_irrefl _), if_pos hpos,
            List.take_succ_cons]
        rw [hread] at hstep
        cases hstep
        trivial

theorem lcoreStep_drained {rules : RuleTable} {nowNs : UInt64} (hinv : RingInv s items)
    (h : DrainFact s.ring s.lcore) (hstep : lcoreStep rules nowNs s = some (s', es)) :
    DrainFact s'.ring s'.lcore := by
  cases hpc : s.lcore with
  | notStarted => simp only [lcoreStep, hpc] at hstep; cases hstep
  | exited => simp only [lcoreStep, hpc] at hstep; cases hstep
  | popping draining => exact popping_drained hinv h hpc hstep
  | check =>
      obtain ⟨ring, pool, running, enqueue, lcore, stats⟩ := s
      subst hpc
      cases hstep
      trivial
  | callBurst draining =>
      obtain ⟨ring, pool, running, enqueue, lcore, stats⟩ := s
      subst hpc
      simp only [lcoreStep, SpscRing.step] at hstep
      split at hstep
      · cases hstep
      rename_i ring' es' hcall
      cases hstep
      split at hcall
      · cases hcall
        cases draining with
        | false => trivial
        | true => rfl
      · cases hcall
  | processing draining now burst =>
      obtain ⟨ring, pool, running, enqueue, lcore, stats⟩ := s
      subst hpc
      cases burst with
      | nil =>
          cases hstep
          cases draining <;> trivial
      | cons m rest =>
          cases hstep
          trivial
  | freeing draining now m rest =>
      obtain ⟨ring, pool, running, enqueue, lcore, stats⟩ := s
      subst hpc
      cases hstep
      trivial

/-- `DpdkPath` with each counter of a packet without a PDR as a step of its own; `unmatched` tells
that the lcore has counted the packet as one and not yet as dropped. -/
structure DpdkState where
  path : FastPath.State
  unmatched : Bool := false

def DpdkState.lift (s : DpdkState) (next : Option (FastPath.State × List FastPath.Event)) :
    Option (DpdkState × List FastPath.Event) :=
  next.map fun r => ({ s with path := r.1 }, r.2)

theorem DpdkState.lift_eq_some {s s' : DpdkState} {next : Option (FastPath.State × List FastPath.Event)}
    (h : s.lift next = some (s', es)) :
    ∃ path, next = some (path, es) ∧ s' = { s with path := path } := by
  obtain ⟨⟨path, es'⟩, hnext, hpair⟩ := Option.map_eq_some_iff.mp h
  obtain ⟨rfl, rfl⟩ := Prod.mk.inj hpair
  exact ⟨path, hnext, rfl⟩

def countDropped (stats : PathStats) : PathStats :=
  { stats with pktsDropped := stats.pktsDropped + 1 }

def dpdkStep (rules : RuleTable) : Machine DpdkState FastPath.Input FastPath.Event
  | s, .lcore nowNs =>
    match s.path.lcore with
    | .processing draining now (m :: rest) =>
      if s.unmatched then
        some (⟨{ s.path with
          stats := countDropped s.path.stats
          lcore := .freeing draining now m rest }, false⟩, [])
      else
        match rules.matchPdr (s.path.pool.slots m).pkt with
        | none =>
          some (⟨{ s.path with
            stats := { s.path.stats with pktsNoPdr := s.path.stats.pktsNoPdr + 1 } }, true⟩,
            [.handled (s.path.pool.slots m).pkt])
        | some _ => s.lift (lcoreStep rules nowNs s.path)
    | _ => s.lift (lcoreStep rules nowNs s.path)
  | s, i => s.lift (FastPath.step rules s.path i)

def dpdkInit : DpdkState := { path := FastPath.init }

def InHand (s : FastPath.State) : Prop :=
  ∃ draining now m rest, s.lcore = .processing draining now (m :: rest)

theorem dpdkStep_lcore {rules : RuleTable} {s s' : DpdkState} {nowNs : UInt64}
    (hbetween : s.unmatched = true → InHand s.path)
    (hstep : dpdkStep rules s (.lcore nowNs) = some (s', es)) :
    (s.unmatched = false ∧ ∃ path, lcoreStep rules nowNs s.path = some (path, es) ∧
      s' = ⟨path, false⟩) ∨
    ∃ draining now m rest, s.path.lcore = .processing draining now (m :: rest) ∧
      ((s.unmatched = true ∧ es = [] ∧ s' = ⟨{ s.path with
          stats := countDropped s.path.stats, lcore := .freeing draining now m rest }, false⟩) ∨
        (s.unmatched = false ∧ rules.matchPdr (s.path.pool.slots m).pkt = none ∧
          es = [.handled (s.path.pool.slots m).pkt] ∧ s' = ⟨{ s.path with
            stats := { s.path.stats with pktsNoPdr := s.path.stats.pktsNoPdr + 1 } }, true⟩)) := by
  obtain ⟨path, unmatched⟩ := s
  have hlift (hnone : unmatched = false)
      (h : DpdkState.lift ⟨path, unmatched⟩ (lcoreStep rules nowNs path) = some (s', es)) :
      ∃ path', lcoreStep rules nowNs path = some (path', es) ∧ s' = ⟨path', false⟩ := by
    obtain ⟨path', hnext, rfl⟩ := DpdkState.lift_eq_some h
    exact ⟨path', hnext, by rw [hnone]⟩
  simp only [dpdkStep] at hstep
  split at hstep
  · rename_i draining now m rest hpc
    split at hstep
    · rename_i hunmatched
      obtain ⟨rfl, rfl⟩ := Prod.ext_iff.mp (Option.some.inj hstep)
      exact .inr ⟨draining, now, m, rest, hpc, .inl ⟨hunmatched, rfl, rfl⟩⟩
    · rename_i hunmatched
      have hnone : unmatched = false := Bool.eq_false_iff.mpr hunmatched
      split at hstep
      · rename_i hmatch
        obtain ⟨rfl, rfl⟩ := Prod.ext_iff.mp (Option.some.inj hstep)
        exact .inr ⟨draining, now, m, rest, hpc, .inr ⟨hnone, hmatch, rfl, rfl⟩⟩
      · exact .inl ⟨hnone, hlift hnone hstep⟩
  · rename_i hother
    have hnone : unmatched = false := by
      cases unmatched with
      | false => rfl
      | true =>
          obtain ⟨draining, now, m, rest, hpc⟩ := hbetween rfl
          exact (hother draining now m rest hpc).elim
    exact .inl ⟨hnone, hlift hnone hstep⟩

structure DpdkInv (tr : List FastPath.Event) (s : DpdkState) (items : List Nat) : Prop where
  ring : RingInv s.path items
  between : s.unmatched = true → InHand s.path
  accounted : Accounted s.path.stats (tr.countP endsRxEnqueue + entering s.path.enqueue)
    (inFlight s.path items) s.unmatched.toNat

variable {tr : List FastPath.Event}

theorem DpdkInv.shows {s : DpdkState} (hinv : DpdkInv tr s items)
    (hes : es.countP endsRxEnqueue = 0) : DpdkInv (tr ++ es) s items := by
  refine ⟨hinv.ring, hinv.between, ?_⟩
  rw [List.countP_append, hes]
  exact hinv.accounted

theorem dpdkLcore_inv {rules : RuleTable} {s s' : DpdkState} {nowNs : UInt64}
    (hinv : DpdkInv tr s items) (hstep : dpdkStep rules s (.lcore nowNs) = some (s', es)) :
    ∃ items', DpdkInv (tr ++ es) s' items' := by
  have hcounted := hinv.accounted
  rcases dpdkStep_lcore hinv.between hstep with ⟨hnone, path, hlcore, rfl⟩ |
    ⟨draining, now, m, rest, hpc, ⟨hunmatched, rfl, rfl⟩ | ⟨hnone, _, rfl, rfl⟩⟩
  · rw [hnone] at hcounted
    obtain ⟨items', hcounts⟩ := lcoreStep_counts hinv.ring hlcore
    refine ⟨items', DpdkInv.shows ⟨hcounts.inv, by rintro ⟨⟩, ?_⟩ hcounts.shows⟩
    rw [hcounts.enqueue]
    exact hcounts.accounted _ 0 hcounted
  · rw [hunmatched] at hcounted
    refine ⟨items, DpdkInv.shows ⟨⟨hinv.ring.ring, hinv.ring.push, trivial⟩, by rintro ⟨⟩, ?_⟩ rfl⟩
    apply Accounted.dropUnmatched
    apply Accounted.moved hcounted rfl
    simp only [inFlight, hpc, LcorePc.toHandle, List.length_cons]
    omega
  · rw [hnone] at hcounted
    refine ⟨items, DpdkInv.shows ⟨⟨hinv.ring.ring, hinv.ring.push, hinv.ring.burst⟩, ?_,
      hcounted.unmatched⟩ rfl⟩
    intro _
    exact ⟨draining, now, m, rest, hpc⟩

theorem start_inv {s : DpdkState} (hinv : DpdkInv tr s items)
    (hnone : s.path.lcore.toHandle = []) :
    DpdkInv tr { s with path := { s.path with running := true, lcore := .check } } items := by
  have hfree : ¬InHand s.path := by
    rintro ⟨draining, now, m, rest, hpc⟩
    rw [hpc] at hnone
    cases hnone
  refine ⟨⟨hinv.ring.ring, hinv.ring.push, trivial⟩, ?_, ?_⟩
  · intro hunmatched
    exact (hfree (hinv.between hunmatched)).elim
  · apply Accounted.moved hinv.accounted rfl
    simp only [inFlight, hnone]
    rfl

theorem dpdkStep_inv {rules : RuleTable} {s s' : DpdkState} {i : FastPath.Input}
    (hinv : DpdkInv tr s items) (hstep : dpdkStep rules s i = some (s', es)) :
    ∃ items', DpdkInv (tr ++ es) s' items' := by
  cases i with
  | lcore nowNs => exact dpdkLcore_inv hinv hstep
  | stop =>
      obtain ⟨rfl, rfl⟩ := Prod.mk.inj (Option.some.inj hstep)
      refine ⟨items, DpdkInv.shows ⟨?_, hinv.between, hinv.accounted⟩ rfl⟩
      exact ⟨hinv.ring.ring, hinv.ring.push, hinv.ring.burst⟩
  | start =>
      obtain ⟨path, hnext, rfl⟩ := DpdkState.lift_eq_some hstep
      obtain ⟨hpc, rfl, rfl⟩ := FastPath.start_eq_some hnext
      refine ⟨items, DpdkInv.shows (start_inv hinv ?_) rfl⟩
      rcases hpc with hpc | hpc <;> rw [hpc] <;> rfl
  | rxEnqueue pkt =>
      obtain ⟨path, hnext, rfl⟩ := DpdkState.lift_eq_some hstep
      obtain ⟨hidle, rfl, rfl⟩ := FastPath.rxEnqueue_eq_some hnext
      refine ⟨items, DpdkInv.shows ⟨⟨hinv.ring.ring, trivial, hinv.ring.burst⟩, hinv.between,
        ?_⟩ rfl⟩
      apply Accounted.moved hinv.accounted.receive
      · simp only [hidle, entering]
      · simp only [inFlight, hidle, entering]
        omega
  | producer =>
      obtain ⟨path, hnext, rfl⟩ := DpdkState.lift_eq_some hstep
      obtain ⟨items', hcounts⟩ := enqueueStep_counts hinv.ring hnext
      refine ⟨items', hcounts.inv, ?_, ?_⟩
      · intro hunmatched
        unfold InHand
        rw [hcounts.lcore]
        exact hinv.between hunmatched
      · unfold inFlight
        rw [hcounts.lcore, List.countP_append]
        exact hcounts.accounted _ _ _ hinv.accounted

/-- The lcore has found the ring empty for the last time. -/
def foundEmpty (ring : SpscRing.State Nat) : LcorePc → Bool
  | .popping true =>
    match ring.consumer with
    | .burstRead _ n _ _ => n == 0
    | _ => false
  | .exited => true
  | _ => false

/-- No `rx_enqueue` goes on after the lcore has looked at the ring for the last time. -/
def DpdkQuiet (_ : List FastPath.Event) (s : DpdkState) : FastPath.Input → Prop
  | .producer => foundEmpty s.path.ring s.path.lcore = false
  | _ => True

instance (tr : List FastPath.Event) (s : DpdkState) (i : FastPath.Input) :
    Decidable (DpdkQuiet tr s i) := by
  unfold DpdkQuiet
  split <;> infer_instance

theorem drainFact_of_not_foundEmpty {ring ring' : SpscRing.State Nat} {lcore : LcorePc}
    (h : DrainFact ring lcore) (hquiet : foundEmpty ring lcore = false)
    (hconsumer : ring'.consumer = ring.consumer) : DrainFact ring' lcore := by
  cases lcore with
  | popping draining =>
      cases draining with
      | false => trivial
      | true =>
          unfold DrainFact at h ⊢
          unfold foundEmpty at hquiet
          dsimp only at h hquiet ⊢
          rw [hconsumer]
          split at h
          · exact h
          · rename_i hread
            rw [hread] at hquiet
            intro hnone
            exact absurd hnone (by simpa using hquiet)
          · trivial
  | exited => cases hquiet
  | _ => trivial

theorem dpdkStep_drained {rules : RuleTable} {s s' : DpdkState}
    {i : FastPath.Input} (hinv : DpdkInv tr s items) (h : DrainFact s.path.ring s.path.lcore)
    (hquiet : DpdkQuiet tr s i) (hstep : dpdkStep rules s i = some (s', es)) :
    DrainFact s'.path.ring s'.path.lcore := by
  cases i with
  | lcore nowNs =>
      rcases dpdkStep_lcore hinv.between hstep with ⟨_, path, hlcore, rfl⟩ |
        ⟨draining, now, m, rest, hpc, ⟨_, rfl, rfl⟩ | ⟨_, _, rfl, rfl⟩⟩
      · exact lcoreStep_drained hinv.ring h hlcore
      · trivial
      · exact h
  | stop =>
      obtain ⟨rfl, -⟩ := Prod.ext_iff.mp (Option.some.inj hstep)
      exact h
  | start =>
      obtain ⟨path, hnext, rfl⟩ := DpdkState.lift_eq_some hstep
      obtain ⟨-, rfl, -⟩ := FastPath.start_eq_some hnext
      trivial
  | rxEnqueue pkt =>
      obtain ⟨path, hnext, rfl⟩ := DpdkState.lift_eq_some hstep
      obtain ⟨-, rfl, -⟩ := FastPath.rxEnqueue_eq_some hnext
      exact h
  | producer =>
      obtain ⟨path, hnext, rfl⟩ := DpdkState.lift_eq_some hstep
      obtain ⟨_, hcounts⟩ := enqueueStep_counts hinv.ring hnext
      show DrainFact path.ring path.lcore
      rw [hcounts.lcore]
      exact drainFact_of_not_foundEmpty h hquiet hcounts.consumer

theorem init_dpdkInv : DpdkInv [] dpdkInit [] where
  ring := init_ringInv
  between := by rintro ⟨⟩
  accounted := accounted_init

theorem dpdk_inv {rules : RuleTable} {s : DpdkState}
    (hrun : Reach (dpdkStep rules) dpdkInit tr s) : ∃ items, DpdkInv tr s items := by
  refine hrun.invariant (I := fun tr s => ∃ items, DpdkInv tr s items) ?_ ?_
  · exact ⟨[], init_dpdkInv⟩
  · rintro _ _ _ _ _ ⟨items, hinv⟩ _ hstep
    exact dpdkStep_inv hinv hstep

/-- The packets in the ring are those between its indexes. -/
def DpdkAccounted (tr : List FastPath.Event) (s : DpdkState) : Prop :=
  Accounted s.path.stats (tr.countP endsRxEnqueue + entering s.path.enqueue)
    (inFlight s.path (SpscRing.contents ringSize s.path.ring.ring)) s.unmatched.toNat

theorem dpdk_accounted {rules : RuleTable} {s : DpdkState}
    (hrun : Reach (dpdkStep rules) dpdkInit tr s) : DpdkAccounted tr s := by
  obtain ⟨items, hinv⟩ := dpdk_inv hrun
  unfold DpdkAccounted
  rw [hinv.ring.ring.ring.contents_eq (by decide)]
  exact hinv.accounted

theorem dpdk_drained {rules : RuleTable} {s : DpdkState}
    (hrun : Run (dpdkStep rules) DpdkQuiet dpdkInit tr s) (hexited : s.path.lcore = .exited)
    (hidle : s.path.enqueue = .idle) :
    Accounted s.path.stats (tr.countP endsRxEnqueue) 0 0 := by
  have hdrained : (∃ items, DpdkInv tr s items) ∧ DrainFact s.path.ring s.path.lcore := by
    refine hrun.invariant (I := fun tr s => (∃ items, DpdkInv tr s items) ∧
      DrainFact s.path.ring s.path.lcore) ?_ ?_
    · exact ⟨⟨[], init_dpdkInv⟩, trivial⟩
    · rintro _ _ _ _ _ ⟨⟨items, hinv⟩, h⟩ hquiet hstep
      exact ⟨dpdkStep_inv hinv hstep, dpdkStep_drained hinv h hquiet hstep⟩
  obtain ⟨⟨items, hinv⟩, hfact⟩ := hdrained
  have hempty := hfact
  have hcounted := dpdk_accounted hrun.reach
  rw [hexited] at hempty
  have hfalse : s.unmatched = false := by
    by_contra hunmatched
    obtain ⟨_, _, _, _, hpc⟩ := hinv.between (by simpa using hunmatched)
    cases hexited.symm.trans hpc
  unfold DpdkAccounted inFlight at hcounted
  rw [hexited, hidle, hempty, hfalse] at hcounted
  exact hcounted

def settled (s : DpdkState) : FastPath.State :=
  if s.unmatched then
    match s.path.lcore with
    | .processing draining now (m :: rest) =>
      { s.path with stats := countDropped s.path.stats, lcore := .freeing draining now m rest }
    | _ => s.path
  else s.path

theorem settled_of_inHand {path : FastPath.State} {draining : Bool} {now : UInt64} {m : Nat}
    {rest : List Nat} (hpc : path.lcore = .processing draining now (m :: rest)) :
    settled ⟨path, true⟩ =
      { path with stats := countDropped path.stats, lcore := .freeing draining now m rest } := by
  simp only [settled, hpc, if_true]

theorem enqueueStep_frame {s s' : FastPath.State} (count : PathStats → PathStats)
    (lcore : LcorePc) (hcount : ∀ stats, count (countDropped stats) = countDropped (count stats))
    (hstep : enqueueStep s = some (s', es)) :
    enqueueStep { s with stats := count s.stats, lcore := lcore } =
      some ({ s' with stats := count s'.stats, lcore := lcore }, es) := by
  obtain ⟨ring, pool, running, enqueue, old, stats⟩ := s
  cases enqueue with
  | fetchAdd pkt =>
      simp only [enqueueStep] at hstep ⊢
      split at hstep
      · rename_i hwrap
        cases hstep
        exact if_pos hwrap
      · rename_i hwrap
        cases hstep
        exact if_neg hwrap
  | callPush pkt idx =>
      simp only [enqueueStep] at hstep ⊢
      cases hpush : SpscRing.step ringSize ring (.push idx) with
      | none => rw [hpush] at hstep; cases hstep
      | some next =>
          rw [hpush] at hstep
          cases hstep
          rfl
  | pushing pkt idx =>
      cases hpush : SpscRing.producerStep ring with
      | none => simp only [enqueueStep, hpush] at hstep; cases hstep
      | some next =>
          obtain ⟨ring', pushed⟩ := next
          simp only [enqueueStep, hpush] at hstep ⊢
          rcases pushed with _ | ⟨e, _ | ⟨e', rest⟩⟩
          · cases hstep
            rfl
          · cases e <;> cases hstep <;> rfl
          · cases e <;> cases hstep <;> rfl
  | countDrop pkt =>
      cases hstep
      apply congrArg fun stats => some (FastPath.State.mk ring pool running .idle lcore stats, _)
      exact (hcount stats).symm
  | idle => cases hstep
  | wrapNext pkt | mark pkt idx | fill pkt idx | remark pkt idx | giveBack pkt idx =>
      cases hstep
      rfl

theorem enqueueStep_lcore {s s' : FastPath.State} (hstep : enqueueStep s = some (s', es)) :
    s'.lcore = s.lcore := by
  have hagain := enqueueStep_frame id s.lcore (fun _ => rfl) hstep
  have hsame : (s', es) = ({ s' with lcore := s.lcore }, es) :=
    Option.some.inj (hstep.symm.trans hagain)
  exact congrArg (fun next => next.1.lcore) hsame

theorem setPkt_self (pool : MbufPool) (m : Nat) : pool.setPkt m (pool.slots m).pkt = pool := by
  unfold MbufPool.setPkt
  rw [show { pool.slots m with pkt := (pool.slots m).pkt } = pool.slots m from rfl,
    Function.update_eq_self]

theorem dpdkLcore_refines {rules : RuleTable} {s s' : DpdkState} {nowNs : UInt64}
    (hbetween : s.unmatched = true → InHand s.path)
    (hstep : dpdkStep rules s (.lcore nowNs) = some (s', es)) :
    lcoreStep rules nowNs (settled s) = some (settled s', es) ∨ (es = [] ∧ settled s' = settled s) := by
  obtain ⟨path, unmatched⟩ := s
  rcases dpdkStep_lcore hbetween hstep with ⟨hnone, path', hlcore, rfl⟩ |
    ⟨draining, now, m, rest, hpc, ⟨hunmatched, rfl, rfl⟩ | ⟨hnone, hmatch, rfl, rfl⟩⟩
  · left
    obtain rfl : unmatched = false := hnone
    exact hlcore
  · right
    obtain rfl : unmatched = true := hunmatched
    exact ⟨rfl, (settled_of_inHand hpc).symm⟩
  · left
    obtain rfl : unmatched = false := hnone
    obtain ⟨ring, pool, running, enqueue, lcore, stats⟩ := path
    obtain rfl : lcore = .processing draining now (m :: rest) := hpc
    dsimp only at hmatch
    have hprocessed : processPacket rules now (pool.slots m).pkt stats = ((pool.slots m).pkt,
        countDropped { stats with pktsNoPdr := stats.pktsNoPdr + 1 }) := by
      simp only [processPacket, hmatch, countDropped]
    show lcoreStep rules nowNs
        ⟨ring, pool, running, enqueue, .processing draining now (m :: rest), stats⟩ =
      some (⟨ring, pool, running, enqueue, .freeing draining now m rest, countDropped
        { stats with pktsNoPdr := stats.pktsNoPdr + 1 }⟩, [.handled (pool.slots m).pkt])
    simp only [lcoreStep, hprocessed, setPkt_self]

theorem dpdkStep_refines {rules : RuleTable} {s s' : DpdkState} {i : FastPath.Input}
    (hbetween : s.unmatched = true → InHand s.path)
    (hstep : dpdkStep rules s i = some (s', es)) :
    FastPath.step rules (settled s) i = some (settled s', es) ∨
      (es = [] ∧ settled s' = settled s) := by
  cases i with
  | lcore nowNs => exact dpdkLcore_refines hbetween hstep
  | stop =>
      left
      obtain ⟨path, unmatched⟩ := s
      obtain ⟨rfl, rfl⟩ := Prod.ext_iff.mp (Option.some.inj hstep)
      cases unmatched with
      | false => rfl
      | true =>
          obtain ⟨ring, pool, running, enqueue, lcore, stats⟩ := path
          obtain ⟨draining, now, m, rest, rfl⟩ : InHand _ := hbetween rfl
          rfl
  | start =>
      left
      obtain ⟨path, unmatched⟩ := s
      obtain ⟨path', hnext, rfl⟩ := DpdkState.lift_eq_some hstep
      cases unmatched with
      | false => exact hnext
      | true =>
          obtain ⟨ring, pool, running, enqueue, lcore, stats⟩ := path
          obtain ⟨draining, now, m, rest, rfl⟩ : InHand _ := hbetween rfl
          cases hnext
  | rxEnqueue pkt =>
      left
      obtain ⟨path, unmatched⟩ := s
      obtain ⟨path', hnext, rfl⟩ := DpdkState.lift_eq_some hstep
      cases unmatched with
      | false => exact hnext
      | true =>
          obtain ⟨ring, pool, running, enqueue, lcore, stats⟩ := path
          obtain ⟨draining, now, m, rest, rfl⟩ : InHand _ := hbetween rfl
          cases enqueue <;> cases hnext
          rfl
  | producer =>
      left
      obtain ⟨path, unmatched⟩ := s
      obtain ⟨path', hnext, rfl⟩ := DpdkState.lift_eq_some hstep
      cases unmatched with
      | false => exact hnext
      | true =>
          obtain ⟨draining, now, m, rest, hpc⟩ := hbetween rfl
          have hsame : path'.lcore = .processing draining now (m :: rest) :=
            (enqueueStep_lcore hnext).trans hpc
          have hframe := enqueueStep_frame countDropped (.freeing draining now m rest)
            (fun _ => rfl) hnext
          rw [settled_of_inHand hpc]
          apply hframe.trans
          exact congrArg (fun s => some (s, es)) (settled_of_inHand hsame).symm

/-- The machine that counts in two steps refines the one that handles a packet in one. -/
theorem dpdk_refines {rules : RuleTable} {s : DpdkState}
    (hrun : Reach (dpdkStep rules) dpdkInit tr s) :
    Reach (FastPath.step rules) FastPath.init tr (settled s) := by
  have hboth : (∃ items, DpdkInv tr s items) ∧
      Reach (FastPath.step rules) FastPath.init tr (settled s) := by
    refine hrun.invariant (I := fun tr s => (∃ items, DpdkInv tr s items) ∧
      Reach (FastPath.step rules) FastPath.init tr (settled s)) ?_ ?_
    · exact ⟨⟨[], init_dpdkInv⟩, Run.nil⟩
    · rintro tr s i s' es ⟨⟨items, hinv⟩, hreach⟩ _ hstep
      refine ⟨dpdkStep_inv hinv hstep, ?_⟩
      rcases dpdkStep_refines hinv.between hstep with hone | ⟨rfl, hsame⟩
      · exact hreach.snoc trivial hone
      · rw [hsame, List.append_nil]
        exact hreach
  exact hboth.2

/-- Each path accounts for every packet it counted as received: in every state with the packets in
flight, and without any once its enqueuing calls had ended before the worker's last look. -/
theorem packets_accounted (rules : RuleTable) :
    (∀ tr s, Reach (SocketPath.step rules) SocketPath.init tr s → SocketAccounted tr s) ∧
    (∀ tr s, Run (SocketPath.step rules) SocketQuiet SocketPath.init tr s →
      s.worker = .exited → s.entering = [] → Accounted s.stats (tr.countP endsEnqueue) 0 0) ∧
    (∀ tr s, Reach (dpdkStep rules) dpdkInit tr s → DpdkAccounted tr s) ∧
    (∀ tr s, Run (dpdkStep rules) DpdkQuiet dpdkInit tr s →
      s.path.lcore = .exited → s.path.enqueue = .idle →
        Accounted s.path.stats (tr.countP endsRxEnqueue) 0 0) := by
  refine ⟨?_, ?_, ?_, ?_⟩
  · intro tr s hrun
    exact socket_accounted hrun
  · intro tr s hrun hexited hidle
    exact socket_drained hrun hexited hidle
  · intro tr s hrun
    exact dpdk_accounted hrun
  · intro tr s hrun hexited hidle
    exact dpdk_drained hrun hexited hidle

/-- Two calls of `enqueue` at once, the second of them while the worker handles the packet of the
other, and `stop` before it has. -/
def socketSchedule : List SocketPath.Input :=
  [.start, .enqueue { seq := 1 }, .enqueue { seq := 2 }, .producer 1, .worker 0, .producer 0,
    .stop] ++ List.replicate 7 (.worker 0)

/-- A packet is received while the lcore handles another one, and `stop` comes before its turn. -/
def dpdkSchedule : List FastPath.Input :=
  [.start, .rxEnqueue { seq := 1 }] ++ List.replicate 8 .producer ++
    [.lcore 0, .lcore 0, .rxEnqueue { seq := 2 }] ++
    (List.replicate 4 [.producer, .lcore 0]).flatten ++ List.replicate 4 .producer ++
    List.replicate 6 (.lcore 0) ++ [.stop] ++ List.replicate 10 (.lcore 0)

theorem stopped_paths_accounted :
    (∃ tr s, Run (SocketPath.step {}) SocketQuiet SocketPath.init tr s ∧ s.worker = .exited ∧
      s.stats.pktsRx = 2 ∧ SocketAccounted tr s ∧ Accounted s.stats (tr.countP endsEnqueue) 0 0) ∧
    (∃ tr s, Run (dpdkStep {}) DpdkQuiet dpdkInit tr s ∧ s.path.stats.pktsRx = 2 ∧
      DpdkAccounted tr s ∧ Accounted s.path.stats (tr.countP endsRxEnqueue) 0 0) := by
  obtain ⟨hsocket, hsocketStopped, hdpdk, hdpdkStopped⟩ := packets_accounted {}
  constructor
  · have hexec : (exec (SocketPath.step {}) SocketPath.init socketSchedule).map (fun r =>
        (r.1.worker, r.1.entering, r.1.stats.pktsRx)) = some (.exited, [], 2) := by decide +kernel
    obtain ⟨tr, s, hrun, hend⟩ := exists_run_of_exec (P := SocketQuiet) _ (by decide +kernel) hexec
    obtain ⟨hexited, hrest⟩ := Prod.mk.inj hend
    obtain ⟨hidle, hrx⟩ := Prod.mk.inj hrest
    exact ⟨tr, s, hrun, hexited, hrx, hsocket tr s hrun.reach,
      hsocketStopped tr s hrun hexited hidle⟩
  · have hexec : (exec (dpdkStep {}) dpdkInit dpdkSchedule).map (fun r =>
        (r.1.path.lcore, r.1.path.enqueue, r.1.path.stats.pktsRx)) = some (.exited, .idle, 2) := by
      decide +kernel
    obtain ⟨tr, s, hrun, hend⟩ := exists_run_of_exec (P := DpdkQuiet) _ (by decide +kernel) hexec
    obtain ⟨hexited, hrest⟩ := Prod.mk.inj hend
    obtain ⟨hidle, hrx⟩ := Prod.mk.inj hrest
    exact ⟨tr, s, hrun, hrx, hdpdk tr s hrun.reach, hdpdkStopped tr s hrun hexited hidle⟩

/-- A packet whose call of `enqueue` has not had the mutex yet is counted as received and is in
none of the other places. -/
theorem entering_packet_unaccounted :
    ¬∀ (rules : RuleTable) tr s, Reach (SocketPath.step rules) SocketPath.init tr s →
      s.stats.pktsRx = s.stats.pktsForwarded + s.stats.pktsDropped +
        UInt64.ofNat (s.queue.length + s.worker.undecided) := by
  intro h
  have hrun : Reach (SocketPath.step {}) SocketPath.init [] _ :=
    Run.single (i := .enqueue {}) trivial rfl
  exact absurd (h {} [] _ hrun) (by decide)

end MobileCore.PacketAccounting
