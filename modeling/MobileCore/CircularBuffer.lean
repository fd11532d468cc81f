import Mathlib.Data.Nat.ModEq
import Mathlib.Logic.Function.Basic

namespace MobileCore.CircularBuffer

universe u

variable {T : Type u}

theorem slot_injective {N start i j : Nat} (hi : i < N) (hj : j < N)
    (hslot : (start + i) % N = (start + j) % N) : i = j := by
  have hmod : i ≡ j [MOD N] := Nat.ModEq.add_left_cancel' start hslot
  exact Nat.ModEq.eq_of_lt_of_lt hmod hi hj

/-- `buf` holds `items`, the first of them in slot `start`. -/
structure Holds (N : Nat) (buf : Nat → T) (start : Nat) (items : List T) : Prop where
  room : items.length < N
  slot : ∀ j (hj : j < items.length), buf ((start + j) % N) = items[j]

theorem Holds.nil {N : Nat} (hN : 0 < N) (buf : Nat → T) (start : Nat) :
    Holds N buf start [] :=
  ⟨by simpa using hN, by simp⟩

theorem Holds.write {N : Nat} {buf : Nat → T} {start : Nat} {items : List T}
    (h : Holds N buf start items) (v : T) :
    Holds N (Function.update buf ((start + items.length) % N) v) start items := by
  refine ⟨h.room, fun j hj => ?_⟩
  have hne : (start + j) % N ≠ (start + items.length) % N := by
    intro hslot
    have := slot_injective (Nat.lt_trans hj h.room) h.room hslot
    omega
  rw [Function.update_of_ne hne]
  exact h.slot j hj

theorem Holds.snoc {N : Nat} {buf : Nat → T} {start : Nat} {items : List T}
    (h : Holds N buf start items) (hroom : items.length + 1 < N) :
    Holds N buf start (items ++ [buf ((start + items.length) % N)]) := by
  refine ⟨by simpa using hroom, fun j hj => ?_⟩
  rw [List.getElem_append]
  split
  · exact h.slot j _
  · have hlast : j = items.length := by
      simp only [List.length_append, List.length_cons, List.length_nil] at hj
      omega
    subst hlast
    simp

theorem Holds.drop {N : Nat} {buf : Nat → T} {start : Nat} {items : List T}
    (h : Holds N buf start items) (n : Nat) :
    Holds N buf ((start + n) % N) (items.drop n) := by
  refine ⟨?_, fun j hj => ?_⟩
  · have := h.room
    simp only [List.length_drop]
    omega
  · simp only [List.length_drop] at hj
    rw [Nat.mod_add_mod, Nat.add_assoc, h.slot (n + j) (by omega), List.getElem_drop]

/-- The `i`-th of the items was written to the slot `i % N`, and those that no later item was written
over are still there. -/
def Retains (N : Nat) (buf : Nat → T) (items : List T) : Prop :=
  ∀ i (hi : i < items.length), items.length ≤ i + N → buf (i % N) = items[i]

theorem Retains.nil (N : Nat) (buf : Nat → T) : Retains N buf [] := by
  intro i hi
  cases hi

theorem Retains.write {N : Nat} {buf : Nat → T} {items : List T} (h : Retains N buf items) (v : T) :
    Retains N (Function.update buf (items.length % N) v) (items ++ [v]) := by
  intro i hi hlate
  rw [List.length_append, List.length_singleton] at hi hlate
  rcases Nat.lt_succ_iff_lt_or_eq.mp hi with hold | rfl
  · have hne : i % N ≠ items.length % N := by
      intro hslot
      have hback : (i + 0) % N = (i + (items.length - i)) % N := by
        rw [Nat.add_zero, Nat.add_sub_cancel' (Nat.le_of_lt hold)]
        exact hslot
      have hsame := slot_injective (by omega) (by omega) hback
      omega
    rw [Function.update_of_ne hne, List.getElem_append_left hold]
    exact h i hold (by omega)
  · rw [Function.update_self, List.getElem_append_right (Nat.le_refl _)]
    simp

/-- The last `n` items are read from `n` slots in a row. -/
theorem Retains.last {N : Nat} {buf : Nat → T} {items : List T} (h : Retains N buf items) {n : Nat}
    (hslots : n ≤ N) (hitems : n ≤ items.length) :
    ((List.range n).map fun j => buf ((items.length - n + j) % N)) =
      items.drop (items.length - n) := by
  apply List.ext_getElem
  · rw [List.length_map, List.length_range, List.length_drop]
    omega
  · intro j hj _
    rw [List.length_map, List.length_range] at hj
    rw [List.getElem_map, List.getElem_range, List.getElem_drop]
    exact h _ (by omega) (by omega)

end MobileCore.CircularBuffer
