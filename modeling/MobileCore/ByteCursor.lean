import Mathlib.Data.List.Basic

namespace MobileCore.ByteCursor

universe u v w

variable {β : Type u} {α : Type v} {γ : Type w}

structure Cursor (β : Type u) where
  buf : List β
  pos : Nat
deriving DecidableEq, Repr

namespace Cursor

def advance (c : Cursor β) (n : Nat) : Cursor β := { c with pos := c.pos + n }

@[simp] theorem advance_buf (c : Cursor β) (n : Nat) : (c.advance n).buf = c.buf := rfl

@[simp] theorem advance_pos (c : Cursor β) (n : Nat) : (c.advance n).pos = c.pos + n := rfl

/-- The `n` elements from `offset` past the position on, when the buffer has them all. -/
def slice (c : Cursor β) (offset n : Nat) : Option (List β) :=
  if c.pos + offset + n ≤ c.buf.length then some ((c.buf.drop (c.pos + offset)).take n) else none

theorem slice_block (before block rest : List β) (offset n : Nat) (h : offset + n ≤ block.length) :
    slice ⟨before ++ (block ++ rest), before.length⟩ offset n =
      some ((block.drop offset).take n) := by
  have hfits : before.length + offset + n ≤ (before ++ (block ++ rest)).length := by
    simp only [List.length_append]
    omega
  have hdrop : (before ++ (block ++ rest)).drop (before.length + offset) =
      block.drop offset ++ rest := by
    rw [← List.drop_drop, List.drop_left, List.drop_append_of_le_length (by omega)]
  have hlong : n ≤ (block.drop offset).length := by
    rw [List.length_drop]
    omega
  rw [slice, if_pos hfits, hdrop, List.take_append_of_le_length hlong]

end Cursor

abbrev Reader (β : Type u) (α : Type v) := Cursor β → Option (α × Cursor β)

/-- Wherever the reader stands before the block, it takes the block and returns the value. -/
def Takes (read : Reader β α) (block : List β) (a : α) : Prop :=
  ∀ before rest, read ⟨before ++ (block ++ rest), before.length⟩ =
    some (a, ⟨before ++ (block ++ rest), before.length + block.length⟩)

/-- One reader after the other. -/
def readList : List (Reader β α) → Reader β (List α)
  | [], c => some ([], c)
  | read :: reads, c => (read c).bind fun x =>
      (readList reads x.2).map fun y => (x.1 :: y.1, y.2)

theorem takes_readList {read : γ → Reader β α} {block : γ → List β} {value : γ → α} (xs : List γ)
    (h : ∀ x ∈ xs, Takes (read x) (block x) (value x)) :
    Takes (readList (xs.map read)) (xs.flatMap block) (xs.map value) := by
  induction xs with
  | nil =>
      intro before rest
      rfl
  | cons x xs ih =>
      intro before rest
      have hhead := h x (by simp) before (xs.flatMap block ++ rest)
      have htail := ih (fun y hy => h y (by simp [hy])) (before ++ block x) rest
      simp only [List.append_assoc, List.length_append] at htail
      simp only [List.map_cons, List.flatMap_cons, List.append_assoc, List.length_append, readList]
      rw [hhead, Option.bind_some, htail, Option.map_some, Nat.add_assoc]

end MobileCore.ByteCursor
