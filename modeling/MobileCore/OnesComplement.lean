import Mathlib.Algebra.GroupWithZero.Nat
import Mathlib.Algebra.BigOperators.Group.List.Basic
import Mathlib.Data.List.Induction

/-!
# One's-complement sums

The sum of 16-bit words in which a carry out of the top comes back in at the bottom. It has two
zeros: nothing but zeros sums to 0, and any other multiple of 65535 to 65535.
-/

namespace MobileCore.OnesComplement

def add (a b : Nat) : Nat := if a + b < 2 ^ 16 then a + b else a + b - 65535

def sum (words : List Nat) : Nat := words.foldl add 0

/-- The bytes in pairs, the high one first. -/
def wordsOf : List UInt8 → List Nat
  | high :: low :: rest => (high.toNat * 256 + low.toNat) :: wordsOf rest
  | _ => []

theorem wordsOf_append {front : List UInt8} (h : front.length % 2 = 0) (back : List UInt8) :
    wordsOf (front ++ back) = wordsOf front ++ wordsOf back := by
  induction front using List.twoStepInduction with
  | nil => rfl
  | singleton b => cases h
  | cons_cons high low rest ih =>
      have hrest : rest.length % 2 = 0 := by
        rw [List.length_cons, List.length_cons] at h
        omega
      rw [List.cons_append, List.cons_append, wordsOf, wordsOf, ih hrest, List.cons_append]

theorem wordsOf_lt (bytes : List UInt8) : ∀ w ∈ wordsOf bytes, w < 2 ^ 16 := by
  induction bytes using List.twoStepInduction with
  | nil | singleton b => simp [wordsOf]
  | cons_cons high low rest ih =>
      intro w hw
      rw [wordsOf] at hw
      rcases List.mem_cons.mp hw with rfl | hw
      · have hhigh := high.toNat_lt
        have hlow := low.toNat_lt
        omega
      · exact ih w hw

theorem sum_wordsOf_le (bytes : List UInt8) : (wordsOf bytes).sum ≤ bytes.length * 2 ^ 15 := by
  induction bytes using List.twoStepInduction with
  | nil | singleton b => exact Nat.zero_le _
  | cons_cons high low rest ih =>
      have hhigh := high.toNat_lt
      have hlow := low.toNat_lt
      rw [wordsOf, List.sum_cons, List.length_cons, List.length_cons]
      omega

/-- Two numbers are the same word when they agree modulo 65535 and in being zero. -/
def SameWord (a b : Nat) : Prop := a % 65535 = b % 65535 ∧ (a = 0 ↔ b = 0)

theorem SameWord.trans {a b c : Nat} (h : SameWord a b) (h' : SameWord b c) : SameWord a c :=
  ⟨h.1.trans h'.1, h.2.trans h'.2⟩

theorem SameWord.add {a b : Nat} (h : SameWord a b) (w : Nat) : SameWord (a + w) (b + w) := by
  obtain ⟨hmod, hzero⟩ := h
  constructor
  · omega
  · omega

theorem add_sameWord (a b : Nat) : SameWord (add a b) (a + b) := by
  rw [add]
  split
  · exact ⟨rfl, Iff.rfl⟩
  · constructor
    · omega
    · omega

theorem add_lt {a b : Nat} (ha : a < 2 ^ 16) (hb : b < 2 ^ 16) : add a b < 2 ^ 16 := by
  rw [add]
  split
  · assumption
  · omega

theorem foldl_add {words : List Nat} (h : ∀ w ∈ words, w < 2 ^ 16) {n : Nat} (hn : n < 2 ^ 16) :
    words.foldl add n < 2 ^ 16 ∧ SameWord (words.foldl add n) (n + words.sum) := by
  induction words generalizing n with
  | nil => exact ⟨hn, rfl, Iff.rfl⟩
  | cons w words ih =>
      obtain ⟨hlt, hsame⟩ := ih (fun v hv => h v (List.mem_cons_of_mem w hv))
        (add_lt hn (h w List.mem_cons_self))
      refine ⟨hlt, hsame.trans ?_⟩
      rw [List.sum_cons, ← Nat.add_assoc]
      exact (add_sameWord n w).add words.sum

/-- The sums that a checksum is made to reach. -/
theorem sum_eq_ones {words : List Nat} (h : ∀ w ∈ words, w < 2 ^ 16)
    (hmod : words.sum % 65535 = 0) (hpos : words.sum ≠ 0) : sum words = 0xFFFF := by
  obtain ⟨hlt, hsame, hzero⟩ := foldl_add h (by decide : 0 < 2 ^ 16)
  rw [Nat.zero_add] at hsame hzero
  rw [sum]
  omega

end MobileCore.OnesComplement
