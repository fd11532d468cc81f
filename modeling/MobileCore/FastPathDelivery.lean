import MobileCore.FastPath

/-!
# No packet is lost or overwritten while the pool hands out free mbufs

The mbufs held by the receiving thread, by the lcore and by the ring are pairwise different and
marked in use. That ownership is kept by every step except an allocation that hands out an mbuf
still in use.
-/

namespace MobileCore.FastPathDelivery

open MobileCore.LabelledRuns
open MobileCore.PacketRules
open MobileCore.FastPath

/-- The allocation under way is about to hand out an mbuf that nobody uses. -/
def FreshMbuf (_ : List Event) (s : State) (i : Input) : Prop :=
  match i, s.enqueue with
  | .producer, .mark _ idx => (s.pool.slots idx).inUse = false
  | _, _ => True

instance (tr : List Event) (s : State) (i : Input) : Decidable (FreshMbuf tr s i) := by
  unfold FreshMbuf
  split <;> infer_instance

/-- The mbufs in somebody's hands while the ring holds `items`. -/
def owned (s : State) (items : List Nat) : List Nat := s.enqueue.held ++ (s.lcore.held ++ items)

/-- The packet that an mbuf already filled by the receiving thread carries. -/
def Filled (pool : MbufPool) : EnqueuePc → Prop
  | .remark pkt idx => (pool.slots idx).pkt = pkt
  | .callPush pkt idx => (pool.slots idx).pkt = pkt
  | .pushing pkt idx => (pool.slots idx).pkt = pkt
  | _ => True

def PushUnderWay (ring : SpscRing.State Nat) : EnqueuePc → Prop
  | .pushing _ idx => ring.producer.val? = some idx
  | _ => True

def BurstUnderWay (ring : SpscRing.State Nat) : LcorePc → Prop
  | .popping _ => ring.consumer.InBurst
  | _ => True

structure Inv (tr : List Event) (s : State) (items : List Nat) : Prop where
  ring : SpscRing.Refines ringSize s.ring items
  push : PushUnderWay s.ring s.enqueue
  burst : BurstUnderWay s.ring s.lcore
  nodup : (owned s items).Nodup
  inUse : ∀ idx ∈ owned s items, (s.pool.slots idx).inUse = true
  filled : Filled s.pool s.enqueue
  delivered : accepted tr = handled tr ++
    (s.lcore.toHandle ++ items).map fun idx => (s.pool.slots idx).pkt

theorem init_inv : Inv [] init [] :=
  { ring := SpscRing.init_refines (by decide) _
    push := trivial
    burst := trivial
    nodup := List.nodup_nil
    inUse := fun _ hmem => by cases hmem
    filled := trivial
    delivered := rfl }

theorem toHandle_subset_held (pc : LcorePc) {idx : Nat} (hmem : idx ∈ pc.toHandle) :
    idx ∈ pc.held := by
  cases pc with
  | processing => exact hmem
  | freeing => exact List.mem_cons_of_mem _ hmem
  | _ => cases hmem

theorem waiting_setPkt (pool : MbufPool) (waiting : List Nat) (idx : Nat) (pkt : Packet)
    (hidx : idx ∉ waiting) :
    (waiting.map fun j => ((pool.setPkt idx pkt).slots j).pkt) =
      waiting.map fun j => (pool.slots j).pkt := by
  refine List.map_congr_left fun j hj => MbufPool.setPkt_pkt_ne pool pkt ?_
  rintro rfl
  exact hidx hj

theorem setInUse_true_of_inUse {pool : MbufPool} {owned : List Nat} (idx : Nat)
    (h : ∀ j ∈ owned, j ≠ idx → (pool.slots j).inUse = true) :
    ∀ j ∈ owned, ((pool.setInUse idx true).slots j).inUse = true := by
  intro j hj
  by_cases hji : j = idx
  · rw [hji, MbufPool.setInUse_inUse_same]
  · rw [MbufPool.setInUse_inUse_ne pool true hji]
    exact h j hj hji

theorem setInUse_false_of_not_mem {pool : MbufPool} {owned : List Nat} (idx : Nat)
    (hidx : idx ∉ owned) (h : ∀ j ∈ owned, (pool.slots j).inUse = true) :
    ∀ j ∈ owned, ((pool.setInUse idx false).slots j).inUse = true := by
  intro j hj
  have hne : j ≠ idx := by
    rintro rfl
    exact hidx hj
  rw [MbufPool.setInUse_inUse_ne pool false hne]
  exact h j hj

section EnqueueSteps

variable {tr es : List Event} {s s' : State} {items : List Nat}

theorem mark_inv {pkt : Packet} {idx : Nat} (hinv : Inv tr s items)
    (hpc : s.enqueue = .mark pkt idx) (hfresh : (s.pool.slots idx).inUse = false) :
    Inv tr { s with pool := s.pool.setInUse idx true, enqueue := .fill pkt idx } items := by
  obtain ⟨ring, pool, running, enqueue, lcore, stats⟩ := s
  subst hpc
  have hfree : idx ∉ lcore.held ++ items := fun hmem => by
    have := hinv.inUse idx hmem
    rw [hfresh] at this
    cases this
  refine ⟨hinv.ring, trivial, hinv.burst, ?_, ?_, trivial, ?_⟩
  · exact List.nodup_cons.mpr ⟨hfree, hinv.nodup⟩
  · refine setInUse_true_of_inUse idx fun j hj hne => ?_
    rcases List.mem_cons.mp hj with rfl | hj
    · exact absurd rfl hne
    · exact hinv.inUse j hj
  · simpa using hinv.delivered

theorem fill_inv {pkt : Packet} {idx : Nat} (hinv : Inv tr s items)
    (hpc : s.enqueue = .fill pkt idx) :
    Inv tr { s with pool := s.pool.setPkt idx pkt, enqueue := .remark pkt idx } items := by
  obtain ⟨ring, pool, running, enqueue, lcore, stats⟩ := s
  subst hpc
  have hfree : idx ∉ lcore.held ++ items := (List.nodup_cons.mp hinv.nodup).1
  have hnot : idx ∉ lcore.toHandle ++ items := by
    simp only [List.mem_append, not_or] at hfree ⊢
    exact ⟨fun hmem => hfree.1 (toHandle_subset_held lcore hmem), hfree.2⟩
  refine ⟨hinv.ring, trivial, hinv.burst, hinv.nodup, ?_, ?_, ?_⟩
  · intro j hj
    rw [MbufPool.setPkt_inUse]
    exact hinv.inUse j hj
  · exact MbufPool.setPkt_pkt_same pool idx pkt
  · change accepted tr = handled tr ++ (lcore.toHandle ++ items).map _
    rw [waiting_setPkt pool _ idx pkt hnot]
    exact hinv.delivered

theorem remark_inv {pkt : Packet} {idx : Nat} (hinv : Inv tr s items)
    (hpc : s.enqueue = .remark pkt idx) :
    Inv tr { s with pool := s.pool.setInUse idx true, enqueue := .callPush pkt idx } items := by
  obtain ⟨ring, pool, running, enqueue, lcore, stats⟩ := s
  subst hpc
  refine ⟨hinv.ring, trivial, hinv.burst, hinv.nodup, ?_, ?_, ?_⟩
  · exact setInUse_true_of_inUse idx fun j hj _ => hinv.inUse j hj
  · change ((pool.setInUse idx true).slots idx).pkt = pkt
    rw [MbufPool.setInUse_pkt]
    exact hinv.filled
  · simpa using hinv.delivered

theorem giveBack_inv {pkt : Packet} {idx : Nat} (hinv : Inv tr s items)
    (hpc : s.enqueue = .giveBack pkt idx) :
    Inv tr { s with pool := s.pool.setInUse idx false, enqueue := .countDrop pkt } items := by
  obtain ⟨ring, pool, running, enqueue, lcore, stats⟩ := s
  subst hpc
  obtain ⟨hfree, hnodup⟩ := List.nodup_cons.mp hinv.nodup
  refine ⟨hinv.ring, trivial, hinv.burst, hnodup, ?_, trivial, ?_⟩
  · refine setInUse_false_of_not_mem idx hfree fun j hj => hinv.inUse j ?_
    exact List.mem_cons_of_mem _ hj
  · simpa using hinv.delivered

theorem callPush_inv {pkt : Packet} {idx : Nat} (hinv : Inv tr s items)
    (hpc : s.enqueue = .callPush pkt idx)
    (hstep : enqueueStep s = some (s', es)) : Inv (tr ++ es) s' items := by
  obtain ⟨ring, pool, running, enqueue, lcore, stats⟩ := s
  subst hpc
  simp only [enqueueStep, SpscRing.step] at hstep
  split at hstep
  · cases hstep
  · rename_i ring' es' hpush
    cases hstep
    split at hpush
    · cases hpush
      refine ⟨⟨hinv.ring.ring, ⟨rfl, SpscRing.mask_eq_mod (by decide) _⟩, hinv.ring.consumer⟩,
        rfl, hinv.burst, hinv.nodup, hinv.inUse, hinv.filled, ?_⟩
      rw [List.append_nil]
      exact hinv.delivered
    · cases hpush

theorem pushing_inv {pkt : Packet} {idx : Nat} (hinv : Inv tr s items)
    (hpc : s.enqueue = .pushing pkt idx) (hstep : enqueueStep s = some (s', es)) :
    ∃ items', Inv (tr ++ es) s' items' := by
  obtain ⟨ring, pool, running, enqueue, lcore, stats⟩ := s
  subst hpc
  simp only [enqueueStep] at hstep
  cases hpush : SpscRing.producerStep ring with
  | none => rw [hpush] at hstep; cases hstep
  | some next =>
      obtain ⟨ring', es'⟩ := next
      obtain ⟨hconsumer, hcases⟩ := SpscRing.producerStep_spec hinv.ring hinv.push hpush
      have hburst : BurstUnderWay ring' lcore := by
        have := hinv.burst
        cases lcore with
        | popping draining => change ring'.consumer.InBurst; rw [hconsumer]; exact this
        | _ => trivial
      rw [hpush] at hstep
      rcases hcases with ⟨rfl, hval, href⟩ | ⟨rfl, _, href⟩ | ⟨rfl, _, href⟩
      · cases hstep
        refine ⟨items, href, hval, hburst, hinv.nodup, hinv.inUse, hinv.filled, ?_⟩
        rw [List.append_nil]
        exact hinv.delivered
      · cases hstep
        refine ⟨items, href, trivial, hburst, hinv.nodup, hinv.inUse, trivial, ?_⟩
        rw [List.append_nil]
        exact hinv.delivered
      · cases hstep
        have hmove : (lcore.held ++ (items ++ [idx])).Perm (idx :: (lcore.held ++ items)) := by
          rw [← List.append_assoc]
          exact List.perm_append_singleton idx _
        refine ⟨items ++ [idx], href, trivial, hburst, ?_, ?_, trivial, ?_⟩
        · exact hmove.nodup_iff.mpr hinv.nodup
        · exact fun j hj => hinv.inUse j (hmove.mem_iff.mp hj)
        · have hpkt : (pool.slots idx).pkt = pkt := hinv.filled
          have hbefore := hinv.delivered
          simp only [List.map_append] at hbefore ⊢
          simp [hbefore, hpkt, Event.accepted?, Event.handled?]

theorem enqueueStep_inv (hinv : Inv tr s items) (hfresh : FreshMbuf tr s .producer)
    (hstep : enqueueStep s = some (s', es)) : ∃ items', Inv (tr ++ es) s' items' := by
  cases hpc : s.enqueue with
  | idle => simp only [enqueueStep, hpc] at hstep; cases hstep
  | fetchAdd pkt =>
      simp only [enqueueStep, hpc] at hstep
      obtain ⟨ring, pool, running, enqueue, lcore, stats⟩ := s
      subst hpc
      refine ⟨items, ?_⟩
      split at hstep <;> cases hstep <;> rw [List.append_nil]
      · exact ⟨hinv.ring, trivial, hinv.burst, hinv.nodup, hinv.inUse, trivial, hinv.delivered⟩
      · exact ⟨hinv.ring, trivial, hinv.burst, hinv.nodup, hinv.inUse, trivial, hinv.delivered⟩
  | wrapNext pkt =>
      simp only [enqueueStep, hpc] at hstep
      obtain ⟨ring, pool, running, enqueue, lcore, stats⟩ := s
      subst hpc
      cases hstep
      rw [List.append_nil]
      exact ⟨items, hinv.ring, trivial, hinv.burst, hinv.nodup, hinv.inUse, trivial,
        hinv.delivered⟩
  | mark pkt idx =>
      simp only [enqueueStep, hpc] at hstep
      simp only [FreshMbuf, hpc] at hfresh
      cases hstep
      rw [List.append_nil]
      exact ⟨items, mark_inv hinv hpc hfresh⟩
  | fill pkt idx =>
      simp only [enqueueStep, hpc] at hstep
      cases hstep
      rw [List.append_nil]
      exact ⟨items, fill_inv hinv hpc⟩
  | remark pkt idx =>
      simp only [enqueueStep, hpc] at hstep
      cases hstep
      rw [List.append_nil]
      exact ⟨items, remark_inv hinv hpc⟩
  | callPush pkt idx => exact ⟨items, callPush_inv hinv hpc hstep⟩
  | pushing pkt idx => exact pushing_inv hinv hpc hstep
  | giveBack pkt idx =>
      simp only [enqueueStep, hpc] at hstep
      cases hstep
      rw [List.append_nil]
      exact ⟨items, giveBack_inv hinv hpc⟩
  | countDrop pkt =>
      simp only [enqueueStep, hpc] at hstep
      obtain ⟨ring, pool, running, enqueue, lcore, stats⟩ := s
      subst hpc
      cases hstep
      refine ⟨items, hinv.ring, trivial, hinv.burst, hinv.nodup, hinv.inUse, trivial, ?_⟩
      simpa [Event.accepted?, Event.handled?] using hinv.delivered

end EnqueueSteps

section LcoreSteps

variable {tr es : List Event} {s s' : State} {items : List Nat}

theorem callBurst_inv {rules : RuleTable} {nowNs : UInt64} {draining : Bool}
    (hinv : Inv tr s items) (hpc : s.lcore = .callBurst draining)
    (hstep : lcoreStep rules nowNs s = some (s', es)) : Inv (tr ++ es) s' items := by
  obtain ⟨ring, pool, running, enqueue, lcore, stats⟩ := s
  subst hpc
  simp only [lcoreStep, SpscRing.step] at hstep
  split at hstep
  · cases hstep
  · rename_i ring' es' hcall
    cases hstep
    split at hcall
    · cases hcall
      refine ⟨⟨hinv.ring.ring, hinv.ring.producer, rfl⟩, ?_, trivial, hinv.nodup, hinv.inUse,
        hinv.filled, ?_⟩
      · have := hinv.push
        cases enqueue with
        | pushing => exact this
        | _ => trivial
      · rw [List.append_nil]
        exact hinv.delivered
    · cases hcall

theorem popping_inv {rules : RuleTable} {nowNs : UInt64} {draining : Bool}
    (hinv : Inv tr s items) (hpc : s.lcore = .popping draining)
    (hstep : lcoreStep rules nowNs s = some (s', es)) :
    ∃ items', Inv (tr ++ es) s' items' := by
  obtain ⟨ring, pool, running, enqueue, lcore, stats⟩ := s
  subst hpc
  simp only [lcoreStep] at hstep
  cases hpop : SpscRing.consumerStep ringSize ring with
  | none => rw [hpop] at hstep; cases hstep
  | some next =>
      obtain ⟨ring', es'⟩ := next
      obtain ⟨hproducer, hcases⟩ :=
        SpscRing.burstStep_spec (by decide) hinv.ring hinv.burst hpop
      have hpush : PushUnderWay ring' enqueue := by
        have := hinv.push
        cases enqueue with
        | pushing pkt idx => change ring'.producer.val? = some idx; rw [hproducer]; exact this
        | _ => trivial
      rw [hpop] at hstep
      rcases hcases with ⟨rfl, hburst, href⟩ | ⟨out, rest, rfl, rfl, _, href⟩
      · cases hstep
        refine ⟨items, href, hpush, hburst, hinv.nodup, hinv.inUse, hinv.filled, ?_⟩
        rw [List.append_nil]
        exact hinv.delivered
      · cases out with
        | nil =>
            cases hstep
            cases draining <;>
              exact ⟨rest, href, hpush, trivial, hinv.nodup, hinv.inUse, hinv.filled,
                by rw [List.append_nil]; exact hinv.delivered⟩
        | cons m burst =>
            cases hstep
            refine ⟨rest, href, hpush, trivial, hinv.nodup, hinv.inUse, hinv.filled, ?_⟩
            rw [List.append_nil]
            exact hinv.delivered

theorem handle_inv {draining : Bool} {now : UInt64} {m : Nat}
    {rest : List Nat} (hinv : Inv tr s items)
    (hpc : s.lcore = .processing draining now (m :: rest)) (pkt' : Packet) (stats : PathStats) :
    Inv (tr ++ [.handled (s.pool.slots m).pkt])
      { s with pool := s.pool.setPkt m pkt', stats := stats
               lcore := .freeing draining now m rest } items := by
  obtain ⟨ring, pool, running, enqueue, lcore, _⟩ := s
  subst hpc
  have hnodup : (enqueue.held ++ ((m :: rest) ++ items)).Nodup := hinv.nodup
  have hm : m ∉ rest ++ items := (List.nodup_cons.mp (List.nodup_append.mp hnodup).2.1).1
  have hheld : ∀ idx ∈ enqueue.held, idx ≠ m := by
    intro idx hidx
    exact (List.nodup_append.mp hnodup).2.2 idx hidx m (by simp)
  refine ⟨hinv.ring, hinv.push, trivial, hinv.nodup, ?_, ?_, ?_⟩
  · intro j hj
    rw [MbufPool.setPkt_inUse]
    exact hinv.inUse j hj
  · have hfilled := hinv.filled
    cases enqueue with
    | remark pkt idx | callPush pkt idx | pushing pkt idx =>
        change ((pool.setPkt m pkt').slots idx).pkt = pkt
        rw [MbufPool.setPkt_pkt_ne pool pkt' (hheld idx (by simp [EnqueuePc.held]))]
        exact hfilled
    | _ => trivial
  · change accepted _ = handled _ ++ (rest ++ items).map _
    rw [waiting_setPkt pool _ m pkt' hm]
    have hbefore := hinv.delivered
    simp only [LcorePc.toHandle] at hbefore
    simp [hbefore, Event.accepted?, Event.handled?]

theorem freeing_inv {draining : Bool} {now : UInt64} {m : Nat} {rest : List Nat}
    (hinv : Inv tr s items) (hpc : s.lcore = .freeing draining now m rest) :
    Inv tr { s with pool := s.pool.setInUse m false, lcore := .processing draining now rest }
      items := by
  obtain ⟨ring, pool, running, enqueue, lcore, stats⟩ := s
  subst hpc
  have hmove : (enqueue.held ++ ((m :: rest) ++ items)).Perm
      (m :: (enqueue.held ++ (rest ++ items))) := List.perm_middle
  obtain ⟨hm, hnodup⟩ := List.nodup_cons.mp (hmove.nodup_iff.mp hinv.nodup)
  refine ⟨hinv.ring, hinv.push, trivial, hnodup, ?_, ?_, ?_⟩
  · refine setInUse_false_of_not_mem m hm fun j hj => hinv.inUse j ?_
    exact hmove.mem_iff.mpr (List.mem_cons_of_mem _ hj)
  · have hfilled := hinv.filled
    cases enqueue with
    | remark pkt idx | callPush pkt idx | pushing pkt idx =>
        change ((pool.setInUse m false).slots idx).pkt = pkt
        rw [MbufPool.setInUse_pkt]
        exact hfilled
    | _ => trivial
  · simpa [LcorePc.toHandle] using hinv.delivered

theorem lcoreStep_inv {rules : RuleTable} {nowNs : UInt64} (hinv : Inv tr s items)
    (hstep : lcoreStep rules nowNs s = some (s', es)) : ∃ items', Inv (tr ++ es) s' items' := by
  cases hpc : s.lcore with
  | notStarted => simp only [lcoreStep, hpc] at hstep; cases hstep
  | exited => simp only [lcoreStep, hpc] at hstep; cases hstep
  | check =>
      simp only [lcoreStep, hpc] at hstep
      obtain ⟨ring, pool, running, enqueue, lcore, stats⟩ := s
      subst hpc
      cases hstep
      rw [List.append_nil]
      exact ⟨items, hinv.ring, hinv.push, trivial, hinv.nodup, hinv.inUse, hinv.filled,
        hinv.delivered⟩
  | callBurst draining => exact ⟨items, callBurst_inv hinv hpc hstep⟩
  | popping draining => exact popping_inv hinv hpc hstep
  | processing draining now burst =>
      cases burst with
      | nil =>
          simp only [lcoreStep, hpc] at hstep
          obtain ⟨ring, pool, running, enqueue, lcore, stats⟩ := s
          subst hpc
          cases hstep
          rw [List.append_nil]
          cases draining <;>
            exact ⟨items, hinv.ring, hinv.push, trivial, hinv.nodup, hinv.inUse, hinv.filled,
              hinv.delivered⟩
      | cons m rest =>
          simp only [lcoreStep, hpc] at hstep
          cases hstep
          exact ⟨items, handle_inv hinv hpc _ _⟩
  | freeing draining now m rest =>
      simp only [lcoreStep, hpc] at hstep
      cases hstep
      rw [List.append_nil]
      exact ⟨items, freeing_inv hinv hpc⟩

end LcoreSteps

theorem step_inv {rules : RuleTable} {tr es : List Event} {s s' : State} {i : Input}
    {items : List Nat} (hinv : Inv tr s items) (hfresh : FreshMbuf tr s i)
    (hstep : step rules s i = some (s', es)) : ∃ items', Inv (tr ++ es) s' items' := by
  cases i with
  | start =>
      obtain ⟨hpc, rfl, rfl⟩ := start_eq_some hstep
      obtain ⟨ring, pool, running, enqueue, lcore, stats⟩ := s
      rw [List.append_nil]
      obtain rfl | rfl : lcore = .notStarted ∨ lcore = .exited := hpc
      · exact ⟨items, hinv.ring, hinv.push, trivial, hinv.nodup, hinv.inUse, hinv.filled,
          hinv.delivered⟩
      · exact ⟨items, hinv.ring, hinv.push, trivial, hinv.nodup, hinv.inUse, hinv.filled,
          hinv.delivered⟩
  | stop =>
      cases hstep
      rw [List.append_nil]
      exact ⟨items, hinv.ring, hinv.push, hinv.burst, hinv.nodup, hinv.inUse, hinv.filled,
        hinv.delivered⟩
  | rxEnqueue pkt =>
      obtain ⟨hidle, rfl, rfl⟩ := rxEnqueue_eq_some hstep
      obtain ⟨ring, pool, running, enqueue, lcore, stats⟩ := s
      obtain rfl : enqueue = .idle := hidle
      rw [List.append_nil]
      exact ⟨items, hinv.ring, trivial, hinv.burst, hinv.nodup, hinv.inUse, trivial,
        hinv.delivered⟩
  | producer => exact enqueueStep_inv hinv hfresh hstep
  | lcore nowNs => exact lcoreStep_inv hinv hstep

/-- While no allocation hands out an mbuf in use, the packets handled and then those still
waiting, with their contents, are exactly the packets accepted. -/
theorem accepted_eq_handled_append_waiting (rules : RuleTable) {tr : List Event} {s : State}
    (hrun : Run (step rules) FreshMbuf init tr s) : accepted tr = handled tr ++ waiting s := by
  have hinv : ∃ items, Inv tr s items := by
    refine hrun.invariant (I := fun tr s => ∃ items, Inv tr s items) ⟨[], init_inv⟩ ?_
    rintro tr s i s' es ⟨items, hinv⟩ hfresh hstep
    exact step_inv hinv hfresh hstep
  obtain ⟨items, hinv⟩ := hinv
  rw [hinv.delivered, waiting, hinv.ring.ring.contents_eq (by decide)]

section Overwriting

def enqueued (s : State) (pkt : Packet) (idx next : Nat) : State :=
  { s with
    ring := { s.ring with
      ring := { s.ring.ring with
        buf := Function.update s.ring.ring.buf s.ring.ring.head idx
        head := SpscRing.mask ringSize (s.ring.ring.head + 1) } }
    pool := (({ s.pool with next := next }.setInUse idx true).setPkt idx pkt).setInUse idx true
    stats := { s.stats with pktsRx := s.stats.pktsRx + 1 } }

theorem reach_filled {rules : RuleTable} {s : State} {pkt : Packet} {idx : Nat}
    (hproducer : s.ring.producer = .idle)
    (hroom : SpscRing.mask ringSize (s.ring.ring.head + 1) ≠ s.ring.ring.tail)
    (henqueue : s.enqueue = .mark pkt idx) :
    Reach (step rules) s [.accepted pkt]
      { s with
        ring := { s.ring with
          ring := { s.ring.ring with
            buf := Function.update s.ring.ring.buf s.ring.ring.head idx
            head := SpscRing.mask ringSize (s.ring.ring.head + 1) } }
        pool := ((s.pool.setInUse idx true).setPkt idx pkt).setInUse idx true
        enqueue := .idle } := by
  obtain ⟨⟨⟨buf, head, tail⟩, producer, consumer⟩, pool, running, enqueue, lcore, stats⟩ := s
  dsimp only at hproducer hroom henqueue
  subst hproducer henqueue
  have h := Reach.start (step rules)
    ⟨⟨⟨buf, head, tail⟩, .idle, consumer⟩, pool, running, .mark pkt idx, lcore, stats⟩
  have h := Reach.silent h .producer _ rfl
  have h := Reach.silent h .producer _ rfl
  have h := Reach.silent h .producer _ rfl
  have h := Reach.silent h .producer _ rfl
  have hload : SpscRing.producerStep (⟨⟨buf, head, tail⟩,
      .loadTail idx head (SpscRing.mask ringSize (head + 1)), consumer⟩ : SpscRing.State Nat) =
      some (⟨⟨buf, head, tail⟩, .writeBuf idx head (SpscRing.mask ringSize (head + 1)), consumer⟩,
        []) := if_neg hroom
  have h := Reach.silent h .producer ⟨⟨⟨buf, head, tail⟩,
      .writeBuf idx head (SpscRing.mask ringSize (head + 1)), consumer⟩,
      ((pool.setInUse idx true).setPkt idx pkt).setInUse idx true, running, .pushing pkt idx,
      lcore, stats⟩ (by simp only [step, enqueueStep, hload])
  have h := Reach.silent h .producer _ rfl
  exact Run.snoc (i := .producer) h trivial rfl

theorem reach_enqueued (rules : RuleTable) {s : State} (pkt : Packet)
    (hproducer : s.ring.producer = .idle) (henqueue : s.enqueue = .idle)
    (hroom : SpscRing.mask ringSize (s.ring.ring.head + 1) ≠ s.ring.ring.tail)
    (hnext : s.pool.next < s.pool.size) :
    Reach (step rules) s [.accepted pkt]
      (enqueued s pkt s.pool.next ((s.pool.next + 1) % 2 ^ 32)) := by
  obtain ⟨ring, pool, running, enqueue, lcore, stats⟩ := s
  dsimp only at henqueue hnext
  subst henqueue
  have h := Reach.start (step rules) ⟨ring, pool, running, .idle, lcore, stats⟩
  have h := Reach.silent h (.rxEnqueue pkt) _ rfl
  have h := Reach.silent h .producer _ (if_neg (Nat.not_le.mpr hnext))
  exact Reach.trans h (reach_filled hproducer hroom rfl)

theorem reach_enqueued_wrapped (rules : RuleTable) {s : State} (pkt : Packet)
    (hproducer : s.ring.producer = .idle) (henqueue : s.enqueue = .idle)
    (hroom : SpscRing.mask ringSize (s.ring.ring.head + 1) ≠ s.ring.ring.tail)
    (hnext : s.pool.size ≤ s.pool.next) :
    Reach (step rules) s [.accepted pkt] (enqueued s pkt 0 0) := by
  obtain ⟨ring, pool, running, enqueue, lcore, stats⟩ := s
  dsimp only at henqueue hnext
  subst henqueue
  have h := Reach.start (step rules) ⟨ring, pool, running, .idle, lcore, stats⟩
  have h := Reach.silent h (.rxEnqueue pkt) _ rfl
  have h := Reach.silent h .producer _ (if_pos hnext)
  have h := Reach.silent h .producer _ rfl
  exact Reach.trans h (reach_filled hproducer hroom rfl)

theorem reach_reads {rules : RuleTable} {s : State} {draining : Bool} (t n d : Nat) (hd : d ≤ n)
    (out : List Nat) (hlcore : s.lcore = .popping draining)
    (hconsumer : s.ring.consumer = .burstRead t n (n - d) out) :
    Reach (step rules) s [] { s with
      ring := { s.ring with
        consumer := .burstRead t n n (out ++
          (List.range' (n - d) d).map fun i => s.ring.ring.buf (SpscRing.mask ringSize (t + i))) } }
    := by
  obtain ⟨⟨ring, producer, consumer⟩, pool, running, enqueue, lcore, stats⟩ := s
  dsimp only at hlcore hconsumer
  subst hlcore hconsumer
  induction d generalizing out with
  | zero => simpa using Run.nil
  | succ d ih =>
      have hread : SpscRing.consumerStep ringSize
          (⟨ring, producer, .burstRead t n (n - (d + 1)) out⟩ : SpscRing.State Nat) =
          some (⟨ring, producer, .burstRead t n (n - d)
            (out ++ [ring.buf (SpscRing.mask ringSize (t + (n - (d + 1))))])⟩, []) := by
        have hnext : n - (d + 1) + 1 = n - d := by omega
        simp only [SpscRing.consumerStep, if_pos (by omega : n - (d + 1) < n), hnext]
      have h := Reach.start (step rules) ⟨⟨ring, producer, .burstRead t n (n - (d + 1)) out⟩, pool,
        running, enqueue, .popping draining, stats⟩
      have h := Reach.silent h (.lcore 0) ⟨⟨ring, producer, .burstRead t n (n - d)
        (out ++ [ring.buf (SpscRing.mask ringSize (t + (n - (d + 1))))])⟩, pool, running, enqueue,
        .popping draining, stats⟩ (by simp only [step, lcoreStep, hread])
      have h := Reach.trans h (ih (by omega) _)
      have hrange : List.range' (n - (d + 1)) (d + 1) =
          (n - (d + 1)) :: List.range' (n - d) d := by
        rw [List.range'_succ]
        congr 2
        omega
      simpa [hrange] using h

theorem processPacket_empty (nowNs : UInt64) (pkt : Packet) (stats : PathStats) :
    processPacket {} nowNs pkt stats = (pkt, { stats with
      pktsNoPdr := stats.pktsNoPdr + 1
      pktsDropped := stats.pktsDropped + 1 }) := by
  have hmatch : ({} : RuleTable).matchPdr pkt = none := by
    unfold RuleTable.matchPdr
    cases pkt.dir <;> rfl
  simp only [processPacket, hmatch]

theorem reach_handled {s : State} {now : UInt64} (burst : List Nat)
    (hlcore : s.lcore = .processing false now burst) :
    ∃ tr s', Reach (step {}) s tr s' ∧ accepted tr = [] ∧
      handled tr = (burst.map fun idx => (s.pool.slots idx).pkt) ∧
      s'.lcore = .processing false now [] ∧ s'.ring = s.ring ∧ s'.running = s.running ∧
      s'.enqueue = s.enqueue ∧ s'.pool.next = s.pool.next ∧ s'.pool.size = s.pool.size := by
  induction burst generalizing s with
  | nil => exact ⟨[], s, Run.nil, rfl, rfl, hlcore, rfl, rfl, rfl, rfl, rfl⟩
  | cons m rest ih =>
      obtain ⟨ring, pool, running, enqueue, lcore, stats⟩ := s
      dsimp only at hlcore
      subst hlcore
      let stats' : PathStats :=
        { stats with pktsNoPdr := stats.pktsNoPdr + 1, pktsDropped := stats.pktsDropped + 1 }
      let pkt := (pool.slots m).pkt
      have h : Reach (step {}) ⟨ring, pool, running, enqueue, .processing false now (m :: rest), stats⟩
          [.handled pkt]
          ⟨ring, pool.setPkt m pkt, running, enqueue, .freeing false now m rest, stats'⟩ :=
        Run.single (i := .lcore 0) trivial (by simp only [step, lcoreStep, processPacket_empty, pkt,
          stats'])
      have h := Reach.silent h (.lcore 0) _ rfl
      obtain ⟨tr, s', hrest, hacc, hhan, hkeep⟩ := ih (s := ⟨ring, (pool.setPkt m pkt).setInUse m
        false, running, enqueue, .processing false now rest, stats'⟩) rfl
      have hpkt : ∀ j, (((pool.setPkt m pkt).setInUse m false).slots j).pkt =
          (pool.slots j).pkt := by
        intro j
        rw [MbufPool.setInUse_pkt]
        by_cases hj : j = m
        · rw [hj, MbufPool.setPkt_pkt_same]
        · rw [MbufPool.setPkt_pkt_ne pool pkt hj]
      refine ⟨_, s', Reach.trans h hrest, ?_, ?_, hkeep⟩
      · simp [hacc, Event.accepted?]
      · simp only [hpkt] at hhan
        simp [hhan, Event.handled?, pkt]

theorem reach_burst {s : State} {n : Nat} (hlcore : s.lcore = .check) (hrunning : s.running = true)
    (hconsumer : s.ring.consumer = .idle)
    (havail : SpscRing.avail ringSize s.ring.ring.head s.ring.ring.tail = n) (hpos : 0 < n)
    (hle : n ≤ burstSize) :
    ∃ tr s', Reach (step {}) s tr s' ∧ accepted tr = [] ∧
      handled tr = ((SpscRing.contents ringSize s.ring.ring).map
        fun idx => (s.pool.slots idx).pkt) ∧
      s'.lcore = .check ∧ s'.ring = { s.ring with
        ring := { s.ring.ring with tail := SpscRing.mask ringSize (s.ring.ring.tail + n) } } ∧
      s'.running = true ∧ s'.enqueue = s.enqueue ∧ s'.pool.next = s.pool.next ∧
      s'.pool.size = s.pool.size := by
  obtain ⟨⟨ring, producer, consumer⟩, pool, running, enqueue, lcore, stats⟩ := s
  dsimp only at hlcore hrunning hconsumer havail
  subst hlcore hrunning hconsumer
  have h := Reach.start (step {}) ⟨⟨ring, producer, .idle⟩, pool, true, enqueue, .check, stats⟩
  have h := Reach.silent h (.lcore 0) _ rfl
  have h := Reach.silent h (.lcore 0) _ rfl
  have hload : SpscRing.consumerStep ringSize
      (⟨ring, producer, .burstLoadHead burstSize ring.tail⟩ : SpscRing.State Nat) =
      some (⟨ring, producer, .burstRead ring.tail n 0 []⟩, []) := by
    have hmin : (if n < burstSize then n else burstSize) = n := by split <;> omega
    simp only [SpscRing.consumerStep, havail, hmin]
  have h := Reach.silent h (.lcore 0) ⟨⟨ring, producer, .burstRead ring.tail n 0 []⟩, pool, true,
    enqueue, .popping false, stats⟩ (by simp only [step, lcoreStep, hload, Bool.not_true])
  have h := Reach.trans h (reach_reads ring.tail n n le_rfl [] rfl (by rw [Nat.sub_self]))
  have hcontents : [] ++ (List.range' (n - n) n).map
      (fun i => ring.buf (SpscRing.mask ringSize (ring.tail + i))) =
      SpscRing.contents ringSize ring := by
    rw [SpscRing.contents, havail, List.range_eq_range', Nat.sub_self, List.nil_append]
  rw [hcontents] at h
  have hlen : (SpscRing.contents ringSize ring).length = n := by
    simp [SpscRing.contents, havail]
  obtain ⟨m, rest, hburst⟩ : ∃ m rest, SpscRing.contents ringSize ring = m :: rest :=
    List.exists_cons_of_length_pos (by omega)
  have hreturn : SpscRing.consumerStep ringSize (⟨ring, producer, .burstRead ring.tail n n
      (m :: rest)⟩ : SpscRing.State Nat) = some (⟨{ ring with
        tail := SpscRing.mask ringSize (ring.tail + n) }, producer, .idle⟩, [.burst (m :: rest)]) := by
    simp only [SpscRing.consumerStep, Nat.lt_irrefl, if_false, if_pos hpos]
  rw [hburst] at h ⊢
  have h := Reach.silent h (.lcore 0)
    ⟨⟨{ ring with tail := SpscRing.mask ringSize (ring.tail + n) }, producer, .idle⟩, pool, true,
      enqueue, .processing false 0 (m :: rest), stats⟩ (by simp only [step, lcoreStep, hreturn])
  obtain ⟨tr, ⟨ring', pool', running', enqueue', lcore', stats'⟩, hrest, hacc, hhan, hlcore, hring,
    hrunning, henqueue, hnext, hsize⟩ := reach_handled (s := ⟨⟨{ ring with
      tail := SpscRing.mask ringSize (ring.tail + n) }, producer, .idle⟩, pool, true, enqueue,
      .processing false 0 (m :: rest), stats⟩) (m :: rest) rfl
  dsimp only at hlcore hring hrunning henqueue hnext hsize
  subst hlcore hring hrunning henqueue
  have h := Reach.silent (Reach.trans h hrest) (.lcore 0) _ rfl
  exact ⟨_, _, h, by simpa using hacc, by simpa using hhan, rfl, rfl, rfl, rfl, hnext, hsize⟩

structure AtRest (n : Nat) (s : State) : Prop where
  next : s.pool.next = n
  size : s.pool.size = poolSize
  head_lt : s.ring.ring.head < ringSize
  tail : s.ring.ring.tail = s.ring.ring.head
  producer : s.ring.producer = .idle
  consumer : s.ring.consumer = .idle
  running : s.running = true
  enqueue : s.enqueue = .idle
  lcore : s.lcore = .check

theorem mask_ring (x : Nat) : SpscRing.mask ringSize x = x % ringSize :=
  SpscRing.mask_eq_mod (by decide) x

theorem reach_round {n : Nat} {s : State} (hrest : AtRest n s) (hn : n < poolSize)
    (pkt : Packet) :
    ∃ tr s', Reach (step {}) s tr s' ∧ accepted tr = [pkt] ∧ handled tr = [pkt] ∧
      AtRest (n + 1) s' := by
  have hhead := hrest.head_lt
  have hroom : SpscRing.mask ringSize (s.ring.ring.head + 1) ≠ s.ring.ring.tail := by
    rw [mask_ring, hrest.tail]
    unfold ringSize at hhead ⊢
    omega
  have henq := reach_enqueued {} pkt hrest.producer hrest.enqueue hroom
    (by rw [hrest.next, hrest.size]; exact hn)
  have havail : SpscRing.avail ringSize (SpscRing.mask ringSize (s.ring.ring.head + 1))
      s.ring.ring.tail = 1 := by
    rw [SpscRing.avail, mask_ring, mask_ring, hrest.tail]
    unfold ringSize at hhead ⊢
    omega
  obtain ⟨tr, s', hburst, hacc, hhan, hlcore, hring, hrunning, henqueue, hnext, hsize⟩ :=
    reach_burst (s := enqueued s pkt s.pool.next ((s.pool.next + 1) % 2 ^ 32)) (n := 1)
      hrest.lcore hrest.running hrest.consumer havail Nat.one_pos (by decide)
  refine ⟨_, s', Reach.trans henq hburst, ?_, ?_, ?_⟩
  · simp [hacc, Event.accepted?]
  · have hslot : s.ring.ring.tail % ringSize = s.ring.ring.head := by
      rw [hrest.tail]
      exact Nat.mod_eq_of_lt hhead
    simp only [SpscRing.contents, enqueued, havail] at hhan
    simp [hhan, Event.handled?, mask_ring, hslot]
  · refine ⟨?_, hsize.trans hrest.size, ?_, ?_, ?_, ?_, hrunning, ?_, hlcore⟩
    · rw [hnext]
      change (s.pool.next + 1) % 2 ^ 32 = n + 1
      rw [hrest.next]
      unfold poolSize at hn
      omega
    · rw [hring]
      change SpscRing.mask ringSize (s.ring.ring.head + 1) < ringSize
      rw [mask_ring]
      exact Nat.mod_lt _ (by decide)
    · rw [hring]
      change SpscRing.mask ringSize (s.ring.ring.tail + 1) =
        SpscRing.mask ringSize (s.ring.ring.head + 1)
      rw [hrest.tail]
    · rw [hring]
      exact hrest.producer
    · rw [hring]
      exact hrest.consumer
    · rw [henqueue]
      exact hrest.enqueue

theorem reach_rounds (n : Nat) (hn : n ≤ poolSize) (pkt : Packet) :
    ∃ tr s, Reach (step {}) init tr s ∧ accepted tr = List.replicate n pkt ∧
      handled tr = List.replicate n pkt ∧ AtRest n s := by
  induction n with
  | zero =>
      refine ⟨[], _, Run.single (i := .start) trivial rfl, rfl, rfl, ?_⟩
      exact ⟨rfl, rfl, by decide, rfl, rfl, rfl, rfl, rfl, rfl⟩
  | succ n ih =>
      obtain ⟨tr, s, hreach, hacc, hhan, hrest⟩ := ih (by omega)
      obtain ⟨tr', s', hround, hacc', hhan', hrest'⟩ := reach_round hrest (by omega) pkt
      refine ⟨_, s', Reach.trans hreach hround, ?_, ?_, hrest'⟩
      · rw [accepted_append, hacc, hacc', List.replicate_succ']
      · rw [handled_append, hhan, hhan', List.replicate_succ']

/-- With all mbufs handed out once, two packets enqueued before the next poll share an mbuf. -/
theorem reach_overwritten {s : State} (hrest : AtRest poolSize s) (first second : Packet) :
    ∃ tr s', Reach (step {}) s tr s' ∧ accepted tr = [first, second] ∧
      handled tr = [second, second] := by
  have hhead := hrest.head_lt
  have hroom : SpscRing.mask ringSize (s.ring.ring.head + 1) ≠ s.ring.ring.tail := by
    rw [mask_ring, hrest.tail]
    unfold ringSize at hhead ⊢
    omega
  have hroom' : SpscRing.mask ringSize (SpscRing.mask ringSize (s.ring.ring.head + 1) + 1) ≠
      s.ring.ring.tail := by
    rw [mask_ring, mask_ring, hrest.tail]
    unfold ringSize at hhead ⊢
    omega
  have hfirst := reach_enqueued_wrapped {} first hrest.producer hrest.enqueue hroom
    (by rw [hrest.next, hrest.size])
  have hsecond := reach_enqueued {} (s := enqueued s first 0 0) second hrest.producer
    hrest.enqueue hroom' (by change 0 < s.pool.size; rw [hrest.size]; decide)
  have havail : SpscRing.avail ringSize
      (SpscRing.mask ringSize (SpscRing.mask ringSize (s.ring.ring.head + 1) + 1))
      s.ring.ring.tail = 2 := by
    rw [SpscRing.avail, mask_ring, mask_ring, mask_ring, hrest.tail]
    unfold ringSize at hhead ⊢
    omega
  obtain ⟨tr, s', hburst, hacc, hhan, _⟩ :=
    reach_burst (s := enqueued (enqueued s first 0 0) second 0 1) (n := 2) hrest.lcore
      hrest.running hrest.consumer havail (by decide) (by decide)
  refine ⟨_, s', Reach.trans (Reach.trans hfirst hsecond) hburst, ?_, ?_⟩
  · simp [hacc, Event.accepted?]
  · have hslot : s.ring.ring.head % ringSize = s.ring.ring.head := Nat.mod_eq_of_lt hhead
    have hne : s.ring.ring.head ≠ (s.ring.ring.head + 1) % ringSize := by
      rw [mask_ring, hrest.tail] at hroom
      exact hroom.symm
    simp only [SpscRing.contents, enqueued, havail] at hhan
    simp [hhan, Event.handled?, mask_ring, hslot, hrest.tail, List.range_succ, hne]

end Overwriting

/-- Once the pool has wrapped, a packet is handled twice and another accepted one never. -/
theorem second_packet_overwrites_first :
    ∃ tr s, Reach (step {}) init tr s ∧
      accepted tr = List.replicate poolSize ({} : Packet) ++ [{ seq := 1 }, { seq := 2 }] ∧
      handled tr = List.replicate poolSize ({} : Packet) ++ [{ seq := 2 }, { seq := 2 }] ∧
      ¬ handled tr <+: accepted tr := by
  obtain ⟨tr, s, hrounds, hacc, hhan, hrest⟩ := reach_rounds poolSize le_rfl {}
  obtain ⟨tr', s', hover, hacc', hhan'⟩ := reach_overwritten hrest { seq := 1 } { seq := 2 }
  refine ⟨_, s', Reach.trans hrounds hover, ?_, ?_, ?_⟩
  · rw [accepted_append, hacc, hacc']
  · rw [handled_append, hhan, hhan']
  · rw [handled_append, accepted_append, hacc, hhan, hacc', hhan', List.prefix_append_right_inj]
    decide

/-- A second packet is enqueued while the lcore handles the first one. -/
def twoPackets : List Input :=
  [.start, .rxEnqueue { seq := 1 }] ++ List.replicate 8 .producer ++
    [.lcore 0, .lcore 0, .rxEnqueue { seq := 2 }] ++
    (List.replicate 4 [.producer, .lcore 0]).flatten ++ List.replicate 4 .producer

theorem overlapping_packets_accounted_for :
    ∃ tr s, Run (step {}) FreshMbuf init tr s ∧ accepted tr = [{ seq := 1 }, { seq := 2 }] ∧
      waiting s = [{ seq := 2 }] ∧ accepted tr = handled tr ++ waiting s := by
  have hexec : (exec (step {}) init twoPackets).map (fun r => (accepted r.2, waiting r.1)) =
      some ([{ seq := 1 }, { seq := 2 }], [{ seq := 2 }]) := by
    decide +kernel
  obtain ⟨tr, s, hrun, hseen⟩ := exists_run_of_exec (P := FreshMbuf) _ (by decide +kernel) hexec
  obtain ⟨haccepted, hwaiting⟩ := Prod.mk.inj hseen
  exact ⟨tr, s, hrun, haccepted, hwaiting, accepted_eq_handled_append_waiting {} hrun⟩

end MobileCore.FastPathDelivery
