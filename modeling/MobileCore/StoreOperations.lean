import MobileCore.ShardedStore
import MobileCore.SplitTables

namespace MobileCore.StoreOperations

open MobileCore.LastWrite
open MobileCore.ShardedStore
open MobileCore.SplitTables

universe u

variable {ν : Type u}

/-- A map and the number of the next id. -/
structure PlainStore (ν : Type u) where
  contexts : Table UInt32 ν := ∅
  fresh : Nat := 1

inductive Op (ν : Type u) where
  | insert (ctx : ν)
  | find (id : UInt32)
  | remove (id : UInt32)
  | size
  | forEach

inductive Answer (ν : Type u) where
  | id (id : UInt32)
  | context (found : Option ν)
  | removed
  | count (n : Nat)
  | visited (contexts : List ν)

def sharded (st : UeContextStore ν) : Op ν → UeContextStore ν × Answer ν
  | .insert ctx => ((st.insert ctx).1, .id (st.insert ctx).2)
  | .find id => (st, .context (st.find id))
  | .remove id => (st.remove id, .removed)
  | .size => (st, .count st.size)
  | .forEach => (st, .visited st.forEach)

def plain (st : PlainStore ν) : Op ν → PlainStore ν × Answer ν
  | .insert ctx =>
    ({ contexts := st.contexts.insert (UInt32.ofNat st.fresh) ctx, fresh := st.fresh + 1 },
      .id (UInt32.ofNat st.fresh))
  | .find id => (st, .context (st.contexts.lookup id))
  | .remove id => ({ st with contexts := st.contexts.erase id }, .removed)
  | .size => (st, .count st.contexts.entries.length)
  | .forEach => (st, .visited (st.contexts.entries.map Sigma.snd))

def answers {σ : Type u} (step : σ → Op ν → σ × Answer ν) : σ → List (Op ν) → List (Answer ν)
  | _, [] => []
  | st, op :: ops => (step st op).2 :: answers step (step st op).1 ops

/-- The same answer, but for the order of the contexts that are visited. -/
def Agrees : Answer ν → Answer ν → Prop
  | .visited contexts, .visited contexts' => contexts.Perm contexts'
  | a, b => a = b

def Op.isInsert : Op ν → Bool
  | insert _ => true
  | _ => false

def Answer.id? : Answer ν → Option UInt32
  | id n => some n
  | _ => none

structure Refines (st : UeContextStore ν) (whole : PlainStore ν) : Prop where
  splits : Splits shard st.shards whole.contexts
  nextId : st.nextId = UInt32.ofNat whole.fresh

section Refinement

variable {st : UeContextStore ν} {whole : PlainStore ν}

theorem refines_init : Refines ({} : UeContextStore ν) {} where
  splits := splits_empty shard
  nextId := rfl

theorem Refines.step (h : Refines st whole) (op : Op ν) :
    Refines (sharded st op).1 (plain whole op).1 ∧ Agrees (sharded st op).2 (plain whole op).2 := by
  have hentries := h.splits.entries_perm (List.nodup_finRange numShards) fun k =>
    List.mem_finRange (shard k)
  cases op with
  | insert ctx =>
      refine ⟨⟨?_, ?_⟩, ?_⟩
      · rw [plain, ← h.nextId]
        exact h.splits.insert st.nextId ctx
      · show st.nextId + 1 = UInt32.ofNat (whole.fresh + 1)
        rw [UInt32.ofNat_add, h.nextId]
        rfl
      · exact congrArg Answer.id h.nextId
  | find id => exact ⟨h, congrArg Answer.context (h.splits.lookup id)⟩
  | remove id => exact ⟨⟨h.splits.erase id, h.nextId⟩, rfl⟩
  | size =>
      refine ⟨h, congrArg Answer.count ?_⟩
      rw [UeContextStore.size, ← hentries.length_eq, List.length_flatMap]
  | forEach =>
      refine ⟨h, ?_⟩
      show st.forEach.Perm (whole.contexts.entries.map Sigma.snd)
      rw [UeContextStore.forEach, ← List.map_flatMap]
      exact hentries.map Sigma.snd

theorem Refines.answers (h : Refines st whole) (ops : List (Op ν)) :
    List.Forall₂ Agrees (answers sharded st ops) (answers plain whole ops) := by
  induction ops generalizing st whole with
  | nil => exact .nil
  | cons op ops ih =>
      obtain ⟨hnext, hagrees⟩ := h.step op
      exact .cons hagrees (ih hnext)

theorem ids_sharded (ops : List (Op ν)) {n : Nat} (h : st.nextId = UInt32.ofNat n) :
    (StoreOperations.answers sharded st ops).filterMap Answer.id? =
      (List.range' n (ops.countP Op.isInsert)).map UInt32.ofNat := by
  induction ops generalizing st n with
  | nil => rfl
  | cons op ops ih =>
      cases op with
      | insert ctx =>
          have hnext : (st.insert ctx).1.nextId = UInt32.ofNat (n + 1) := by
            rw [UInt32.ofNat_add, ← h]
            rfl
          rw [List.countP_cons_of_pos rfl, List.range'_succ, List.map_cons, ← ih hnext, ← h]
          rfl
      | find id => exact ih h
      | remove id =>
          have hsame : (st.remove id).nextId = UInt32.ofNat n := h
          exact ih hsame
      | size => exact ih h
      | forEach => exact ih h

theorem nodup_ids {k : Nat} (hk : k < 2 ^ 32 - 1) :
    ((List.range' 1 k).map UInt32.ofNat).Nodup := by
  apply List.Nodup.map_on _ List.nodup_range'
  intro a ha b hb hab
  have hsmall {c : Nat} (hc : c ∈ List.range' 1 k) : (UInt32.ofNat c).toNat = c := by
    apply UInt32.toNat_ofNat_of_lt'
    rw [List.mem_range'_1] at hc
    show c < 2 ^ 32
    omega
  rw [← hsmall ha, ← hsmall hb, hab]

end Refinement

/-- A sequence of calls with fewer inserts than there are ids has the answers of the plain map, and
no id is returned twice. -/
theorem store_refines_map (ops : List (Op ν)) (h : ops.countP Op.isInsert < 2 ^ 32 - 1) :
    List.Forall₂ Agrees (answers sharded {} ops) (answers plain {} ops) ∧
      ((answers sharded {} ops).filterMap Answer.id?).Nodup := by
  refine ⟨refines_init.answers ops, ?_⟩
  rw [ids_sharded ops (n := 1) rfl]
  exact nodup_ids h

def twoContexts : List (Op String) :=
  [.insert "a", .insert "b", .find 1, .remove 1, .find 1, .find 2, .size, .forEach]

theorem one_removed :
    List.Forall₂ Agrees (answers sharded {} twoContexts) [.id 1, .id 2, .context (some "a"),
      .removed, .context none, .context (some "b"), .count 1, .visited ["b"]] ∧
      ((answers sharded {} twoContexts).filterMap Answer.id?).Nodup := by
  have hplain : answers plain {} twoContexts = [.id 1, .id 2, .context (some "a"), .removed,
      .context none, .context (some "b"), .count 1, .visited ["b"]] := rfl
  rw [← hplain]
  exact store_refines_map twoContexts (by decide)

end MobileCore.StoreOperations
