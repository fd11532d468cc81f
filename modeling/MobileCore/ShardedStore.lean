import MobileCore.LastWrite
import Mathlib.Data.UInt

namespace MobileCore.ShardedStore

open MobileCore.LastWrite

universe u

variable {ν : Type u}

def numShards : Nat := 64

structure UeContextStore (ν : Type u) where
  shards : Fin numShards → Table UInt32 ν := fun _ => ∅
  nextId : UInt32 := 1

def shard (id : UInt32) : Fin numShards :=
  ⟨id.toNat % numShards, Nat.mod_lt _ (by decide)⟩

def UeContextStore.insert (st : UeContextStore ν) (ctx : ν) : UeContextStore ν × UInt32 :=
  let id := st.nextId
  ({ shards := Function.update st.shards (shard id) ((st.shards (shard id)).insert id ctx),
     nextId := id + 1 }, id)

def UeContextStore.find (st : UeContextStore ν) (id : UInt32) : Option ν :=
  (st.shards (shard id)).lookup id

def UeContextStore.remove (st : UeContextStore ν) (id : UInt32) : UeContextStore ν :=
  { st with shards := Function.update st.shards (shard id) ((st.shards (shard id)).erase id) }

def UeContextStore.size (st : UeContextStore ν) : Nat :=
  ((List.finRange numShards).map fun i => (st.shards i).entries.length).sum

/-- The contexts that `fn` is called with, in the order of the calls; within a shard the source
leaves the order open. -/
def UeContextStore.forEach (st : UeContextStore ν) : List ν :=
  (List.finRange numShards).flatMap fun i => (st.shards i).entries.map Sigma.snd

@[simp] theorem insert_snd (st : UeContextStore ν) (ctx : ν) : (st.insert ctx).2 = st.nextId := rfl

@[simp] theorem find_insert_same (st : UeContextStore ν) (ctx : ν) :
    (st.insert ctx).1.find st.nextId = some ctx := by
  simp [UeContextStore.find, UeContextStore.insert]

theorem find_insert_ne (st : UeContextStore ν) (ctx : ν) {id : UInt32} (hne : id ≠ st.nextId) :
    (st.insert ctx).1.find id = st.find id := by
  simp only [UeContextStore.find, UeContextStore.insert]
  by_cases hshard : shard id = shard st.nextId
  · rw [hshard, Function.update_self, AList.lookup_insert_ne hne]
  · rw [Function.update_of_ne hshard]

end MobileCore.ShardedStore
