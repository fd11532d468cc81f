import Mathlib.Data.List.Basic

namespace MobileCore.ItemRuns

universe u v

variable {β : Type u} {α : Type v}

abbrev ItemReader (β : Type u) (α : Type v) := List β → Option (α × List β)

/-- The reader takes the encoded item, whatever follows it. -/
def Inverts (read : ItemReader β α) (encode : α → List β) (x : α) : Prop :=
  ∀ rest, read (encode x ++ rest) = some (x, rest)

/-- A counted run, which ends with the input. -/
def readCounted (read : ItemReader β α) : Nat → List β → Option (List α)
  | 0, input => if input.isEmpty then some [] else none
  | n + 1, input => (read input).bind fun x => (readCounted read n x.2).map (x.1 :: ·)

def readWithin (read : ItemReader β α) : Nat → List β → Option (List α)
  | 0, input => if input.isEmpty then some [] else none
  | n + 1, input =>
    if input.isEmpty then some []
    else (read input).bind fun x => (readWithin read n x.2).map (x.1 :: ·)

/-- The run up to the end of the input, when each item of it takes an element at least. -/
def readAll (read : ItemReader β α) (input : List β) : Option (List α) :=
  readWithin read input.length input

theorem length_of_readCounted {read : ItemReader β α} {n : Nat} {input : List β} {xs : List α}
    (h : readCounted read n input = some xs) : xs.length = n := by
  induction n generalizing input xs with
  | zero =>
      rw [readCounted] at h
      split at h
      · obtain rfl := Option.some.inj h
        rfl
      · cases h
  | succ n ih =>
      obtain ⟨x, -, htail⟩ := Option.bind_eq_some_iff.mp h
      obtain ⟨tail, hrun, rfl⟩ := Option.map_eq_some_iff.mp htail
      rw [List.length_cons, ih hrun]

theorem readCounted_encoded {read : ItemReader β α} {encode : α → List β} {xs : List α}
    (h : ∀ x ∈ xs, Inverts read encode x) :
    readCounted read xs.length (xs.flatMap encode) = some xs := by
  induction xs with
  | nil => rfl
  | cons x xs ih =>
      have htail := ih fun y hy => h y (List.mem_cons_of_mem x hy)
      rw [List.flatMap_cons, List.length_cons, readCounted, h x List.mem_cons_self]
      rw [Option.bind_some, htail, Option.map_some]

theorem readWithin_encoded {read : ItemReader β α} {encode : α → List β} {xs : List α}
    (h : ∀ x ∈ xs, Inverts read encode x ∧ encode x ≠ []) {n : Nat} (hn : xs.length ≤ n) :
    readWithin read n (xs.flatMap encode) = some xs := by
  induction xs generalizing n with
  | nil =>
      cases n with
      | zero => rfl
      | succ n => rfl
  | cons x xs ih =>
      cases n with
      | zero => cases hn
      | succ n =>
          obtain ⟨hread, hne⟩ := h x List.mem_cons_self
          have htail := ih (fun y hy => h y (List.mem_cons_of_mem x hy)) (Nat.le_of_succ_le_succ hn)
          have hfull : ¬((x :: xs).flatMap encode).isEmpty = true := by
            rw [List.flatMap_cons, List.isEmpty_iff]
            exact List.append_ne_nil_of_left_ne_nil hne _
          rw [readWithin, if_neg hfull, List.flatMap_cons, hread, Option.bind_some, htail,
            Option.map_some]

theorem length_le_length_flatMap {encode : α → List β} {xs : List α}
    (h : ∀ x ∈ xs, encode x ≠ []) : xs.length ≤ (xs.flatMap encode).length := by
  induction xs with
  | nil => exact Nat.zero_le _
  | cons x xs ih =>
      have hhead := List.length_pos_of_ne_nil (h x List.mem_cons_self)
      have htail := ih fun y hy => h y (List.mem_cons_of_mem x hy)
      rw [List.flatMap_cons, List.length_append, List.length_cons]
      omega

theorem readAll_encoded {read : ItemReader β α} {encode : α → List β} {xs : List α}
    (h : ∀ x ∈ xs, Inverts read encode x ∧ encode x ≠ []) :
    readAll read (xs.flatMap encode) = some xs :=
  readWithin_encoded h (length_le_length_flatMap fun x hx => (h x hx).2)

end MobileCore.ItemRuns
