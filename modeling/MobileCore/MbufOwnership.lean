import MobileCore.FastPath

/-!
# Who owns an mbuf

`MbufPool` over sequences of `alloc` and `free_mbuf`: an mbuf is owned from the `alloc` that
returned it to its `free_mbuf`. `alloc` takes the slot at the bump index whoever owns it, and
returns a null pointer on no path.
-/

namespace MobileCore.MbufOwnership

open MobileCore.FastPath (EnqueuePc MbufPool)
open MobileCore.LabelledRuns
open MobileCore.PacketRules

/-- The slot that the next `alloc` takes. -/
def allocIndex (p : MbufPool) : Nat := if p.size ≤ p.next then 0 else p.next

def alloc (p : MbufPool) : Option Nat × MbufPool :=
  let idx := p.next
  let p := { p with next := (p.next + 1) % 2 ^ 32 }
  if p.size ≤ idx then (some 0, { p with next := 0 }.setInUse 0 true)
  else (some idx, p.setInUse idx true)

def freeMbuf (p : MbufPool) : Option Nat → MbufPool
  | none => p
  | some m => p.setInUse m false

theorem alloc_fst (p : MbufPool) : (alloc p).1 = some (allocIndex p) := by
  unfold alloc allocIndex
  dsimp only
  split <;> rfl

theorem alloc_size (p : MbufPool) : (alloc p).2.size = p.size := by
  unfold alloc
  dsimp only
  split <;> rfl

theorem alloc_slots (p : MbufPool) : (alloc p).2.slots = (p.setInUse (allocIndex p) true).slots := by
  unfold alloc allocIndex
  dsimp only
  split <;> rfl

theorem allocIndex_lt {p : MbufPool} (hpos : p.size ≠ 0) : allocIndex p < p.size := by
  unfold allocIndex
  split
  · exact Nat.pos_of_ne_zero hpos
  · rename_i hnext
    exact Nat.lt_of_not_le hnext

theorem rxEnqueue_allocs (rules : RuleTable) {s : FastPath.State} {pkt : Packet}
    (hpc : s.enqueue = .fetchAdd pkt) :
    Reach (FastPath.step rules) s []
      { s with pool := (alloc s.pool).2, enqueue := .fill pkt (allocIndex s.pool) } := by
  obtain ⟨ring, ⟨slots, size, next⟩, running, enqueue, lcore, stats⟩ := s
  obtain rfl : enqueue = .fetchAdd pkt := hpc
  rcases Nat.lt_or_ge next size with hlt | hge
  · have hindex : allocIndex ⟨slots, size, next⟩ = next := if_neg (Nat.not_le.mpr hlt)
    have halloc : (alloc ⟨slots, size, next⟩).2 =
        MbufPool.setInUse ⟨slots, size, (next + 1) % 2 ^ 32⟩ next true := by
      simp only [alloc, if_neg (Nat.not_le.mpr hlt)]
    rw [hindex, halloc]
    have hfetch : FastPath.step rules
        ⟨ring, ⟨slots, size, next⟩, running, .fetchAdd pkt, lcore, stats⟩ .producer =
        some (⟨ring, ⟨slots, size, (next + 1) % 2 ^ 32⟩, running, .mark pkt next, lcore, stats⟩,
          []) := if_neg (Nat.not_le.mpr hlt)
    exact ((Reach.start _ _).silent .producer _ hfetch).silent .producer _ rfl
  · have hindex : allocIndex ⟨slots, size, next⟩ = 0 := if_pos hge
    have halloc : (alloc ⟨slots, size, next⟩).2 =
        MbufPool.setInUse ⟨slots, size, 0⟩ 0 true := by
      simp only [alloc, if_pos hge]
    rw [hindex, halloc]
    have hfetch : FastPath.step rules
        ⟨ring, ⟨slots, size, next⟩, running, .fetchAdd pkt, lcore, stats⟩ .producer =
        some (⟨ring, ⟨slots, size, (next + 1) % 2 ^ 32⟩, running, .wrapNext pkt, lcore, stats⟩,
          []) := if_pos hge
    exact (((Reach.start _ _).silent .producer _ hfetch).silent .producer _ rfl).silent .producer _
      rfl

inductive Input where
  | alloc
  | freeMbuf (m : Option Nat)

inductive Event where
  | allocated (m : Option Nat)
  | freed (m : Nat)
deriving DecidableEq

/-- In a pool of capacity 0 `alloc` writes behind the end of the storage: it has no next state. -/
def step : Machine MbufPool Input Event
  | p, .alloc => if p.size = 0 then none else some ((alloc p).2, [.allocated (alloc p).1])
  | p, .freeMbuf none => some (p, [])
  | p, .freeMbuf (some m) => some (freeMbuf p (some m), [.freed m])

def own (owned : List Nat) : Event → List Nat
  | .allocated none => owned
  | .allocated (some m) => m :: owned
  | .freed m => owned.erase m

def allocated (tr : List Event) : List Nat := tr.foldl own []

theorem allocated_snoc (tr : List Event) (e : Event) :
    allocated (tr ++ [e]) = own (allocated tr) e := by
  unfold allocated
  rw [List.foldl_append]
  rfl

/-- Each mbuf is freed only while allocated. -/
def FreesAllocated (tr : List Event) (_ : MbufPool) : Input → Prop
  | .freeMbuf (some m) => m ∈ allocated tr
  | _ => True

/-- Besides, each `alloc` finds the slot at the bump index free. -/
def SlotFree (tr : List Event) (p : MbufPool) : Input → Prop
  | .alloc => (p.slots (allocIndex p)).inUse = false
  | i => FreesAllocated tr p i

instance (tr : List Event) (p : MbufPool) (i : Input) : Decidable (FreesAllocated tr p i) := by
  unfold FreesAllocated
  split <;> infer_instance

instance (tr : List Event) (p : MbufPool) (i : Input) : Decidable (SlotFree tr p i) := by
  unfold SlotFree
  split <;> infer_instance

/-- What `alloc` returns is not allocated, and it is null exactly when all mbufs are. -/
def Rightful (capacity : Nat) (before : List Event) : Event → Prop
  | .allocated m => (∀ i, m = some i → i ∉ allocated before) ∧
    (m = none ↔ ∀ i < capacity, i ∈ allocated before)
  | .freed _ => True

/-- The history of a pool: `alloc` hands out its own mbufs to one owner each. -/
def Owned (capacity : Nat) (tr : List Event) : Prop := Backed (Rightful capacity) tr

/-- The flags tell the mbufs that are allocated. -/
structure Inv (capacity : Nat) (tr : List Event) (p : MbufPool) : Prop where
  size : p.size = capacity
  distinct : (allocated tr).Nodup
  flags : ∀ m, (p.slots m).inUse = true ↔ m ∈ allocated tr

variable {capacity : Nat} {tr es : List Event} {p p' : MbufPool} {i : Input}

theorem inUse_setInUse (p : MbufPool) (idx m : Nat) (inUse : Bool) :
    ((p.setInUse idx inUse).slots m).inUse = if m = idx then inUse else (p.slots m).inUse := by
  split
  · rename_i hm
    rw [hm, MbufPool.setInUse_inUse_same]
  · rename_i hm
    exact MbufPool.setInUse_inUse_ne p inUse hm

theorem init_inv (capacity : Nat) : Inv capacity [] (MbufPool.create capacity) where
  size := rfl
  distinct := List.nodup_nil
  flags := by
    intro m
    constructor
    · rintro ⟨⟩
    · rintro ⟨⟩

/-- The slot at the bump index is rightly handed out exactly when it is free. -/
theorem rightful_iff_slotFree (hinv : Inv capacity tr p) (hpos : p.size ≠ 0) :
    Rightful capacity tr (.allocated (alloc p).1) ↔ (p.slots (allocIndex p)).inUse = false := by
  have hflag := hinv.flags (allocIndex p)
  rw [alloc_fst]
  constructor
  · rintro ⟨hown, -⟩
    apply Bool.eq_false_iff.mpr
    intro hused
    exact hown _ rfl (hflag.mp hused)
  · intro hfree
    have hown : allocIndex p ∉ allocated tr := by
      intro hmem
      rw [hflag.mpr hmem] at hfree
      cases hfree
    refine ⟨?_, ?_⟩
    · rintro _ ⟨⟩
      exact hown
    · constructor
      · rintro ⟨⟩
      · intro hall
        exact (hown (hall _ (hinv.size ▸ allocIndex_lt hpos))).elim

theorem alloc_inv (hinv : Inv capacity tr p) (hfree : (p.slots (allocIndex p)).inUse = false) :
    Inv capacity (tr ++ [.allocated (alloc p).1]) (alloc p).2 := by
  have hown : allocIndex p ∉ allocated tr := by
    intro hmem
    rw [(hinv.flags _).mpr hmem] at hfree
    cases hfree
  have hafter : allocated (tr ++ [.allocated (alloc p).1]) = allocIndex p :: allocated tr := by
    rw [allocated_snoc, alloc_fst]
    rfl
  refine ⟨(alloc_size p).trans hinv.size, ?_, ?_⟩
  · rw [hafter]
    exact List.nodup_cons.mpr ⟨hown, hinv.distinct⟩
  · intro m
    rw [hafter, alloc_slots, inUse_setInUse, List.mem_cons]
    split
    · rename_i hm
      simp only [hm, true_or]
    · rename_i hm
      simp only [hm, false_or, hinv.flags m]

theorem free_inv {m : Nat} (hinv : Inv capacity tr p) :
    Inv capacity (tr ++ [.freed m]) (freeMbuf p (some m)) := by
  have hafter : allocated (tr ++ [.freed m]) = (allocated tr).erase m := allocated_snoc tr _
  refine ⟨hinv.size, ?_, ?_⟩
  · rw [hafter]
    exact hinv.distinct.erase m
  · intro j
    show ((p.setInUse m false).slots j).inUse = true ↔ _
    rw [hafter, inUse_setInUse, hinv.distinct.mem_erase_iff]
    split
    · rename_i hj
      simp only [hj, ne_eq, not_true_eq_false, false_and, Bool.false_eq_true]
    · rename_i hj
      simp only [ne_eq, hj, not_false_eq_true, true_and, hinv.flags j]

theorem step_inv (hinv : Inv capacity tr p) (hguard : SlotFree tr p i)
    (hstep : step p i = some (p', es)) : Inv capacity (tr ++ es) p' := by
  cases i with
  | alloc =>
      simp only [step] at hstep
      split at hstep
      · cases hstep
      · obtain ⟨rfl, rfl⟩ := Prod.mk.inj (Option.some.inj hstep)
        exact alloc_inv hinv hguard
  | freeMbuf m =>
      cases m with
      | none =>
          obtain ⟨rfl, rfl⟩ := Prod.mk.inj (Option.some.inj hstep)
          rw [List.append_nil]
          exact hinv
      | some m =>
          obtain ⟨rfl, rfl⟩ := Prod.mk.inj (Option.some.inj hstep)
          exact free_inv hinv

theorem run_inv (hrun : Run step SlotFree (MbufPool.create capacity) tr p) :
    Inv capacity tr p := by
  refine hrun.invariant (I := Inv capacity) (init_inv capacity) ?_
  intro tr p i p' es hinv hguard hstep
  exact step_inv hinv hguard hstep

theorem step_owned (howned : Owned capacity tr) (hinv : Inv capacity tr p)
    (hguard : SlotFree tr p i) (hstep : step p i = some (p', es)) : Owned capacity (tr ++ es) := by
  cases i with
  | alloc =>
      simp only [step] at hstep
      split at hstep
      · cases hstep
      · rename_i hpos
        obtain ⟨rfl, rfl⟩ := Prod.mk.inj (Option.some.inj hstep)
        exact howned.snoc ((rightful_iff_slotFree hinv hpos).mpr hguard)
  | freeMbuf m =>
      cases m with
      | none =>
          obtain ⟨rfl, rfl⟩ := Prod.mk.inj (Option.some.inj hstep)
          rw [List.append_nil]
          exact howned
      | some m =>
          obtain ⟨rfl, rfl⟩ := Prod.mk.inj (Option.some.inj hstep)
          exact howned.snoc trivial

theorem slotFree_of_owned (hinv : Inv capacity tr p) (hfrees : FreesAllocated tr p i)
    (hstep : step p i = some (p', es)) (howned : Owned capacity (tr ++ es)) : SlotFree tr p i := by
  cases i with
  | alloc =>
      simp only [step] at hstep
      split at hstep
      · cases hstep
      · rename_i hpos
        obtain ⟨rfl, rfl⟩ := Prod.mk.inj (Option.some.inj hstep)
        exact (rightful_iff_slotFree hinv hpos).mp howned.last
  | freeMbuf m => exact hfrees

theorem owned_of_slotFree (hrun : Run step SlotFree (MbufPool.create capacity) tr p) :
    Owned capacity tr := by
  have hboth : Inv capacity tr p ∧ Owned capacity tr := by
    refine hrun.invariant (I := fun tr p => Inv capacity tr p ∧ Owned capacity tr) ?_ ?_
    · exact ⟨init_inv capacity, Backed.nil _⟩
    · rintro tr p i p' es ⟨hinv, howned⟩ hguard hstep
      exact ⟨step_inv hinv hguard hstep, step_owned howned hinv hguard hstep⟩
  exact hboth.2

/-- An exhausted pool hands out an mbuf that has an owner. -/
theorem exhausted_alloc (hrun : Run step SlotFree (MbufPool.create capacity) tr p)
    (hpos : capacity ≠ 0) (hall : ∀ m < capacity, m ∈ allocated tr) :
    ∃ m ∈ allocated tr, (alloc p).1 = some m := by
  obtain rfl : p.size = capacity := (run_inv hrun).size
  exact ⟨allocIndex p, hall _ (allocIndex_lt hpos), alloc_fst p⟩

theorem slotFree_of_owned_run (hrun : Run step FreesAllocated (MbufPool.create capacity) tr p)
    (howned : Owned capacity tr) : Run step SlotFree (MbufPool.create capacity) tr p := by
  induction hrun with
  | nil => exact Run.nil
  | snoc _ hfrees hstep ih =>
      have hbefore := ih howned.of_append
      exact hbefore.snoc (slotFree_of_owned (run_inv hbefore) hfrees hstep howned) hstep

/-- The mbufs have one owner each, and a null pointer tells that none is free, exactly when every
`alloc` finds the slot at the bump index free. -/
theorem owned_iff_slotFree (capacity : Nat) (tr : List Event) (p : MbufPool)
    (hrun : Run step FreesAllocated (MbufPool.create capacity) tr p) :
    Owned capacity tr ↔ Run step SlotFree (MbufPool.create capacity) tr p :=
  ⟨slotFree_of_owned_run hrun, owned_of_slotFree⟩

/-- The mbufs come back in the order in which they were handed out. -/
theorem round_owned : ∃ tr p, Run step FreesAllocated (MbufPool.create 2) tr p ∧
    tr = [.allocated (some 0), .allocated (some 1), .freed 0, .allocated (some 0)] ∧
    Owned 2 tr := by
  have hexec : (exec step (MbufPool.create 2)
      [.alloc, .alloc, .freeMbuf (some 0), .alloc]).map Prod.snd =
      some [.allocated (some 0), .allocated (some 1), .freed 0, .allocated (some 0)] := rfl
  obtain ⟨⟨p, tr⟩, hexec, rfl⟩ := Option.map_eq_some_iff.mp hexec
  have hrun : Run step FreesAllocated (MbufPool.create 2) _ p :=
    run_of_exec _ _ Run.nil (by decide) hexec
  have hslots : Run step SlotFree (MbufPool.create 2) _ p :=
    run_of_exec _ _ Run.nil (by decide) hexec
  exact ⟨_, p, hrun, rfl, (owned_iff_slotFree 2 _ p hrun).mpr hslots⟩

/-- The second of two mbufs comes back first: the next `alloc` returns the other one again. -/
theorem other_order_shares_mbuf : ¬∀ capacity tr p,
    Run step FreesAllocated (MbufPool.create capacity) tr p → Owned capacity tr := by
  intro h
  have hexec : (exec step (MbufPool.create 2)
      [.alloc, .alloc, .freeMbuf (some 1), .alloc]).map Prod.snd =
      some [.allocated (some 0), .allocated (some 1), .freed 1, .allocated (some 0)] := rfl
  obtain ⟨_, p, hrun, rfl⟩ := exists_run_of_exec (P := FreesAllocated) _ (by decide) hexec
  obtain ⟨hown, -⟩ := h 2 _ p hrun [.allocated (some 0), .allocated (some 1), .freed 1] _ [] rfl
  exact hown 0 rfl (by decide)

end MobileCore.MbufOwnership
