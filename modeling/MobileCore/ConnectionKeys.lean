import Mathlib.Data.Sym.Sym2

namespace MobileCore.ConnectionKeys

structure Endpoint where
  ip : UInt32
  port : UInt16
deriving DecidableEq, Repr

/-- The endpoint as one number of 48 bits, by which the two of a pair are ordered. -/
def Endpoint.rank (e : Endpoint) : UInt64 := (e.ip.toUInt64 <<< 16) ||| e.port.toUInt64

def connKey (a b : Endpoint) : UInt64 :=
  if a.rank < b.rank then (a.rank <<< 32) ||| b.rank else (b.rank <<< 32) ||| a.rank

def lower (a b : Endpoint) : Endpoint := if a.rank < b.rank then a else b

def upper (a b : Endpoint) : Endpoint := if a.rank < b.rank then b else a

structure Words where
  w₃ : UInt16
  w₂ : UInt16
  w₁ : UInt16
  w₀ : UInt16
deriving DecidableEq, Repr

def words (k : UInt64) : Words :=
  ⟨(k >>> 48).toUInt16, (k >>> 32).toUInt16, (k >>> 16).toUInt16, k.toUInt16⟩

/-- What a key has left of its two endpoints: the high half of the lower address is shifted out,
and the lower port shares its bits with the high half of the upper address. -/
def remains (lo hi : Endpoint) : Words :=
  ⟨lo.ip.toUInt16, lo.port ||| (hi.ip >>> 16).toUInt16, hi.ip.toUInt16, hi.port⟩

def join (w : Words) : UInt64 :=
  (w.w₃.toUInt64 <<< 48) ||| (w.w₂.toUInt64 <<< 32) ||| (w.w₁.toUInt64 <<< 16) ||| w.w₀.toUInt64

theorem join_words (k : UInt64) : join (words k) = k := by
  apply UInt64.toBitVec_inj.mp
  apply BitVec.eq_of_getLsbD_eq
  intro i hi
  simp [join, words, hi, -UInt64.toUInt64_toUInt16]
  grind

theorem words_injective : Function.Injective words :=
  Function.LeftInverse.injective join_words

theorem rank_getLsbD (e : Endpoint) (i : Nat) :
    e.rank.toBitVec.getLsbD i =
      if i < 16 then e.port.toBitVec.getLsbD i else e.ip.toBitVec.getLsbD (i - 16) := by
  have hport : 16 ≤ i → e.port.toBitVec.getLsbD i = false := e.port.toBitVec.getLsbD_of_ge i
  have hip : 48 ≤ i → e.ip.toBitVec.getLsbD (i - 16) = false :=
    fun h => e.ip.toBitVec.getLsbD_of_ge (i - 16) (by omega)
  simp [Endpoint.rank]
  grind

theorem rank_injective : Function.Injective Endpoint.rank := by
  intro e f h
  have hbit (i : Nat) := congrArg (fun k : UInt64 => k.toBitVec.getLsbD i) h
  simp only [rank_getLsbD] at hbit
  have hip : e.ip = f.ip := by
    apply UInt32.toBitVec_inj.mp
    apply BitVec.eq_of_getLsbD_eq
    intro i hi
    have hpast : ¬ 16 + i < 16 := by omega
    simpa [hpast] using hbit (16 + i)
  have hport : e.port = f.port := by
    apply UInt16.toBitVec_inj.mp
    apply BitVec.eq_of_getLsbD_eq
    intro i hi
    simpa [hi] using hbit i
  cases e
  cases f
  simp_all

theorem word_ext {v w : UInt16}
    (h : ∀ i < 16, v.toBitVec.getLsbD i = w.toBitVec.getLsbD i) : v = w :=
  UInt16.toBitVec_inj.mp (BitVec.eq_of_getLsbD_eq h)

theorem words_pack (lo hi : Endpoint) :
    words ((lo.rank <<< 32) ||| hi.rank) = remains lo hi := by
  have hport (e : Endpoint) (i : Nat) : 16 ≤ i → e.port.toBitVec.getLsbD i = false :=
    e.port.toBitVec.getLsbD_of_ge i
  have hip (e : Endpoint) (i : Nat) : 32 ≤ i → e.ip.toBitVec.getLsbD i = false :=
    e.ip.toBitVec.getLsbD_of_ge i
  simp only [words, remains, Words.mk.injEq]
  refine ⟨?_, ?_, ?_, ?_⟩
  · apply word_ext
    intro i hi
    simp [rank_getLsbD, hi, -BitVec.getLsbD_eq_getElem]
    grind
  · apply word_ext
    intro i hi
    simp [rank_getLsbD, hi, -BitVec.getLsbD_eq_getElem]
    grind
  · apply word_ext
    intro i hi
    simp [rank_getLsbD, hi, -BitVec.getLsbD_eq_getElem]
    grind
  · apply word_ext
    intro i hi
    simp [rank_getLsbD, hi]

theorem connKey_eq_pack (a b : Endpoint) :
    connKey a b = ((lower a b).rank <<< 32) ||| (upper a b).rank := by
  simp only [connKey, lower, upper]
  split <;> rfl

theorem connKey_eq_iff (a b c d : Endpoint) :
    connKey a b = connKey c d ↔
      remains (lower a b) (upper a b) = remains (lower c d) (upper c d) := by
  rw [← words_pack, ← words_pack, ← connKey_eq_pack, ← connKey_eq_pack]
  exact words_injective.eq_iff.symm

theorem rank_total {a b : Endpoint} (hba : ¬ b.rank < a.rank) (hab : ¬ a.rank < b.rank) : a = b :=
  rank_injective (UInt64.le_antisymm (UInt64.not_lt.mp hba) (UInt64.not_lt.mp hab))

theorem lower_comm (a b : Endpoint) : lower a b = lower b a := by
  simp only [lower]
  split
  · rename_i hlt
    rw [if_neg (UInt64.lt_asymm hlt)]
  · rename_i hge
    split
    · rfl
    · rename_i hle
      exact (rank_total hle hge).symm

theorem upper_comm (a b : Endpoint) : upper a b = upper b a := by
  simp only [upper]
  split
  · rename_i hlt
    rw [if_neg (UInt64.lt_asymm hlt)]
  · rename_i hge
    split
    · rfl
    · rename_i hle
      exact rank_total hle hge

theorem connKey_comm (a b : Endpoint) : connKey a b = connKey b a := by
  rw [connKey_eq_pack, connKey_eq_pack, lower_comm, upper_comm]

theorem lower_upper (a b : Endpoint) : s(lower a b, upper a b) = s(a, b) := by
  simp only [lower, upper]
  split
  · rfl
  · exact Sym2.eq_swap

theorem pair_eq_iff (a b c d : Endpoint) :
    s(a, b) = s(c, d) ↔ lower a b = lower c d ∧ upper a b = upper c d := by
  constructor
  · intro h
    rcases Sym2.eq_iff.mp h with ⟨rfl, rfl⟩ | ⟨rfl, rfl⟩
    · exact ⟨rfl, rfl⟩
    · exact ⟨lower_comm a b, upper_comm a b⟩
  · rintro ⟨hlower, hupper⟩
    rw [← lower_upper a b, ← lower_upper c d, hlower, hupper]

theorem connKey_of_pair {a b c d : Endpoint} (h : s(a, b) = s(c, d)) :
    connKey a b = connKey c d := by
  obtain ⟨hlower, hupper⟩ := (pair_eq_iff a b c d).mp h
  rw [connKey_eq_pack, connKey_eq_pack, hlower, hupper]

/-- Two pairs are told apart by their keys exactly when they are one pair or differ in the bits
that a key keeps. -/
theorem connKey_identifies_iff (a b c d : Endpoint) :
    (connKey a b = connKey c d ↔ s(a, b) = s(c, d)) ↔
      s(a, b) = s(c, d) ∨
        remains (lower a b) (upper a b) ≠ remains (lower c d) (upper c d) := by
  have hsame : s(a, b) = s(c, d) → connKey a b = connKey c d := connKey_of_pair
  rw [connKey_eq_iff] at hsame ⊢
  constructor
  · intro h
    by_cases hkept : remains (lower a b) (upper a b) = remains (lower c d) (upper c d)
    · exact Or.inl (h.mp hkept)
    · exact Or.inr hkept
  · rintro (hpair | hdiffer)
    · exact ⟨fun _ => hpair, hsame⟩
    · exact ⟨fun hkept => absurd hkept hdiffer, hsame⟩

/-- Ports 3868 and 1308 of one client, to one server port, have one key. -/
theorem connKey_ports_collide :
    connKey ⟨0x0A000001, 3868⟩ ⟨0x0A000002, 3868⟩ =
        connKey ⟨0x0A000001, 1308⟩ ⟨0x0A000002, 3868⟩ ∧
      s((⟨0x0A000001, 3868⟩ : Endpoint), ⟨0x0A000002, 3868⟩) ≠
        s((⟨0x0A000001, 1308⟩ : Endpoint), ⟨0x0A000002, 3868⟩) := by
  refine ⟨by decide, ?_⟩
  rw [Ne, Sym2.eq_iff]
  decide

end MobileCore.ConnectionKeys
