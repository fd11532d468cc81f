import Mathlib.Data.List.Nodup
import MobileCore.LastWrite

namespace MobileCore.SplitTables

open MobileCore.LastWrite

universe u v w

variable {κ : Type u} {ι : Type v} {ν : Type w} [DecidableEq κ]

/-- The parts have the entries of the whole table, each in the part of its key. -/
structure Splits (part : κ → ι) (parts : ι → Table κ ν) (whole : Table κ ν) : Prop where
  lookup : ∀ k, (parts (part k)).lookup k = whole.lookup k
  own : ∀ i, ∀ k ∈ parts i, part k = i

variable {part : κ → ι} {parts : ι → Table κ ν} {whole : Table κ ν}

theorem splits_empty (part : κ → ι) : Splits part (fun _ => (∅ : Table κ ν)) ∅ where
  lookup _ := rfl
  own _ k hk := absurd hk (AList.notMem_empty k)

/-- The parts together have the entries of the whole table once each. -/
theorem Splits.entries_perm (h : Splits part parts whole) {is : List ι} (hdistinct : is.Nodup)
    (hall : ∀ k, part k ∈ is) : (is.flatMap fun i => (parts i).entries).Perm whole.entries := by
  apply (List.perm_ext_iff_of_nodup _ whole.nodupKeys.nodup).mpr
  · rintro ⟨k, v⟩
    rw [List.mem_flatMap, ← AList.mem_lookup_iff, ← h.lookup k]
    constructor
    · rintro ⟨i, -, hentry⟩
      rw [← AList.mem_lookup_iff] at hentry
      have hkey : k ∈ parts i := AList.lookup_isSome.mp (Option.isSome_of_mem hentry)
      rwa [h.own i k hkey]
    · intro hentry
      exact ⟨part k, hall k, AList.mem_lookup_iff.mp hentry⟩
  · rw [List.nodup_flatMap]
    refine ⟨fun i _ => (parts i).nodupKeys.nodup, hdistinct.imp ?_⟩
    rintro i j hne ⟨k, v⟩ hi hj
    apply hne
    rw [← AList.mem_lookup_iff] at hi hj
    rw [← h.own i k (AList.lookup_isSome.mp (Option.isSome_of_mem hi)),
      h.own j k (AList.lookup_isSome.mp (Option.isSome_of_mem hj))]

section Updates

variable [DecidableEq ι]

theorem Splits.insert (h : Splits part parts whole) (k : κ) (v : ν) :
    Splits part (Function.update parts (part k) ((parts (part k)).insert k v))
      (whole.insert k v) := by
  constructor
  · intro other
    by_cases hkey : other = k
    · rw [hkey, Function.update_self, AList.lookup_insert, AList.lookup_insert]
    · rw [AList.lookup_insert_ne hkey, ← h.lookup other]
      by_cases hpart : part other = part k
      · rw [hpart, Function.update_self, AList.lookup_insert_ne hkey]
      · rw [Function.update_of_ne hpart]
  · intro i other hother
    by_cases hpart : i = part k
    · rw [hpart, Function.update_self, AList.mem_insert] at hother
      rcases hother with rfl | hother
      · exact hpart.symm
      · rw [hpart]
        exact h.own (part k) other hother
    · rw [Function.update_of_ne hpart] at hother
      exact h.own i other hother

theorem Splits.erase (h : Splits part parts whole) (k : κ) :
    Splits part (Function.update parts (part k) ((parts (part k)).erase k)) (whole.erase k) := by
  constructor
  · intro other
    by_cases hkey : other = k
    · rw [hkey, Function.update_self, AList.lookup_erase, AList.lookup_erase]
    · rw [AList.lookup_erase_ne hkey, ← h.lookup other]
      by_cases hpart : part other = part k
      · rw [hpart, Function.update_self, AList.lookup_erase_ne hkey]
      · rw [Function.update_of_ne hpart]
  · intro i other hother
    by_cases hpart : i = part k
    · rw [hpart, Function.update_self, AList.mem_erase] at hother
      rw [hpart]
      exact h.own (part k) other hother.2
    · rw [Function.update_of_ne hpart] at hother
      exact h.own i other hother

end Updates

end MobileCore.SplitTables
