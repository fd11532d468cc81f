import MobileCore.SimplifiedAka

/-!
# Permanent and concealed identifiers

The null scheme conceals nothing: the last field of a SUCI is the MSIN. The fields are told by their
hyphens, and so is the last one.
-/

namespace MobileCore.SubscriptionIdentifiers

open MobileCore.CppText
open MobileCore.SimplifiedAka

def supi (plmn : Plmn) (ueId : Int) : Str := lit "imsi-" ++ plmn.mcc ++ plmn.mnc ++ msin ueId

def supiFromSuci (plmn : Plmn) (s : Str) : Str :=
  lit "imsi-" ++ plmn.mcc ++ plmn.mnc ++ msinFromSuci s

/-- The subscriber that the number stands for is the one that the home network finds behind the SUCI,
with its key, and no other number stands for it. -/
structure Resolved (plmn : Plmn) (n : Int) : Prop where
  subscriber : supiFromSuci plmn (suci plmn n) = supi plmn n
  key : kFor (msinFromSuci (suci plmn n)) = kFor (msin n)
  own : ∀ m, m ≠ n → supi plmn m ≠ supi plmn n ∧ suci plmn m ≠ suci plmn n

section Numbers

/-- The padding is told from the number, except that zero is all padding. -/
theorem dropWhile_msin (n : Int) :
    (msin n).dropWhile (· == 48) = if n = 0 then [] else intText n := by
  have hpad : (msin n).dropWhile (· == 48) = (intText n).dropWhile (· == 48) := by
    have hall : ∀ c ∈ List.replicate (10 - (intText n).length) (48 : UInt8), (c == 48) = true := by
      intro c hc
      rw [List.eq_of_mem_replicate hc]
      rfl
    rw [msin, padLeft, List.dropWhile_append_of_pos hall]
  rw [hpad]
  split
  · rename_i hzero
    rw [hzero]
    rfl
  · rename_i hnonzero
    obtain ⟨c, rest, htext⟩ : ∃ c rest, intText n = c :: rest := by
      cases n with
      | ofNat n => exact List.exists_cons_of_ne_nil (natText_ne_nil n)
      | negSucc n => exact ⟨45, _, rfl⟩
    rw [htext, List.dropWhile_cons_of_neg]
    intro hc
    obtain rfl : c = 48 := by simpa using hc
    cases n with
    | ofNat n =>
        have hhead : (natText n).head? = some 48 := by
          rw [show natText n = 48 :: rest from htext]
          rfl
        have hzero := natText_injective (b := 0) (natText_zero hhead)
        exact hnonzero (congrArg Int.ofNat hzero)
    | negSucc n => cases (List.cons.inj htext).1

theorem msin_injective {m n : Int} (h : msin m = msin n) : m = n := by
  have hstripped := congrArg (List.dropWhile (· == 48)) h
  have hne (k : Int) : intText k ≠ [] := by
    cases k with
    | ofNat k => exact natText_ne_nil k
    | negSucc k => exact List.cons_ne_nil _ _
  rw [dropWhile_msin, dropWhile_msin] at hstripped
  split at hstripped
  · split at hstripped
    · omega
    · exact absurd hstripped.symm (hne n)
  · split at hstripped
    · exact absurd hstripped (hne m)
    · exact intText_injective hstripped

end Numbers

variable (plmn : Plmn) (n : Int)

theorem supi_injective {m n : Int} (h : supi plmn m = supi plmn n) : m = n :=
  msin_injective (List.append_cancel_left h)

theorem suci_injective {m n : Int} (h : suci plmn m = suci plmn n) : m = n :=
  msin_injective (List.append_cancel_left h)

theorem msinFromSuci_suci (front : Str) {back : Str} (hmsin : lit "-" ++ msin n = front ++ 45 :: back)
    (hback : 45 ∉ back) : msinFromSuci (suci plmn n) = back := by
  have htext : suci plmn n =
      (lit "suci-0-" ++ plmn.mcc ++ lit "-" ++ plmn.mnc ++ lit "-0000-0-0" ++ front) ++
        45 :: back := by
    rw [List.append_assoc _ front, ← hmsin]
    simp [suci, lit]
  rw [msinFromSuci, htext, afterLast_append _ hback, Option.getD_some]

theorem not_mem_msin (k : Nat) : 45 ∉ msin k := by
  intro hmem
  rcases List.mem_append.mp hmem with hpad | hnumber
  · cases List.eq_of_mem_replicate hpad
  · exact not_mem_natText k 45 (Or.inl (by decide)) hnumber

/-- The home network finds the subscriber of every number that has no sign. -/
theorem resolved_iff : Resolved plmn n ↔ 0 ≤ n := by
  constructor
  · intro h
    by_contra hnegative
    obtain ⟨k, rfl⟩ := Int.eq_negSucc_of_lt_zero (Int.not_le.mp hnegative)
    have hfound : msinFromSuci (suci plmn (.negSucc k)) = natText (k + 1) := by
      apply msinFromSuci_suci plmn _
        (lit "-" ++ List.replicate (10 - (intText (.negSucc k)).length) 48)
      · exact (List.append_assoc _ _ _).symm
      · exact not_mem_natText (k + 1) 45 (Or.inl (by decide))
    have hsame := List.append_cancel_left h.subscriber
    rw [hfound] at hsame
    apply not_mem_natText (k + 1) 45 (Or.inl (by decide))
    rw [hsame]
    exact List.mem_append_right _ List.mem_cons_self
  · intro hnonneg
    obtain ⟨k, rfl⟩ := Int.eq_ofNat_of_zero_le hnonneg
    have hfound : msinFromSuci (suci plmn k) = msin k :=
      msinFromSuci_suci plmn k [] rfl (not_mem_msin k)
    refine ⟨?_, ?_, ?_⟩
    · rw [supiFromSuci, hfound, supi]
    · rw [hfound]
    · intro m hm
      exact ⟨fun h => hm (supi_injective plmn h), fun h => hm (suci_injective plmn h)⟩

/-- The SUCI of the number -1 ends in one digit behind a hyphen. -/
theorem not_resolved_minus_one : ¬Resolved {} (-1) := by
  intro h
  exact absurd h.subscriber (by decide)

end MobileCore.SubscriptionIdentifiers
