import Mathlib.Algebra.GroupWithZero.Nat
import Mathlib.Data.List.AList
import Mathlib.Data.List.Induction

namespace MobileCore.LastWrite

universe u v w

variable {α : Type u} {κ : Type v} {ν : Type w}

/-- The table type of `std::unordered_map` and `std::map`: at most one value a key. -/
abbrev Table (κ : Type v) (ν : Type w) := AList (fun _ : κ => ν)

/-- The last element of a history that satisfies `p`. -/
def lastWhere (p : α → Bool) (L : List α) : Option α := L.reverse.find? p

@[simp] theorem lastWhere_nil (p : α → Bool) : lastWhere p [] = none := rfl

@[simp] theorem lastWhere_snoc (p : α → Bool) (L : List α) (a : α) :
    lastWhere p (L ++ [a]) = if p a then some a else lastWhere p L := by
  cases h : p a <;> simp [lastWhere, h]

theorem lastWhere_eq_none (p : α → Bool) (L : List α) :
    lastWhere p L = none ↔ ∀ a ∈ L, p a = false := by
  simp [lastWhere]

theorem lastWhere_eq_some (p : α → Bool) (L : List α) (a : α) :
    lastWhere p L = some a ↔
      p a = true ∧ ∃ before after, L = before ++ a :: after ∧ ∀ b ∈ after, p b = false := by
  constructor
  · intro h
    obtain ⟨hp, front, back, hrev, hfront⟩ := List.find?_eq_some_iff_append.mp h
    refine ⟨hp, back.reverse, front.reverse, ?_, fun b hb => ?_⟩
    · simpa using congrArg List.reverse hrev
    · simpa using hfront b (List.mem_reverse.mp hb)
  · rintro ⟨hp, before, after, rfl, hafter⟩
    refine List.find?_eq_some_iff_append.mpr ⟨hp, after.reverse, before.reverse, by simp, ?_⟩
    intro b hb
    simpa using hafter b (List.mem_reverse.mp hb)

theorem lastWhere_of_split {p : α → Bool} {before after : List α} {a : α} (ha : p a = true)
    (hafter : ∀ b ∈ after, p b = false) : lastWhere p (before ++ a :: after) = some a :=
  (lastWhere_eq_some p _ a).mpr ⟨ha, before, after, rfl, hafter⟩

theorem lastWhere_of_imp {p q : α → Bool} {L : List α} {a : α} (himp : ∀ b, q b = true → p b = true)
    (h : lastWhere p L = some a) (ha : q a = true) : lastWhere q L = some a := by
  obtain ⟨_, before, after, rfl, hafter⟩ := (lastWhere_eq_some p L a).mp h
  refine lastWhere_of_split ha fun b hb => ?_
  by_contra hq
  have hp := himp b (by simpa using hq)
  rw [hafter b hb] at hp
  cases hp

theorem lastWhere_isSome_of_mem {p : α → Bool} {L : List α} {a : α} (ha : a ∈ L)
    (hp : p a = true) : ∃ b, lastWhere p L = some b := by
  cases h : lastWhere p L with
  | some b => exact ⟨b, rfl⟩
  | none =>
      have hmiss := (lastWhere_eq_none p L).mp h a ha
      rw [hp] at hmiss
      cases hmiss

theorem lastWhere_filter {p q : α → Bool} (himp : ∀ a, p a = true → q a = true) (L : List α) :
    lastWhere p (L.filter q) = lastWhere p L := by
  induction L using List.reverseRecOn with
  | nil => rfl
  | append_singleton L a ih =>
      rw [List.filter_append, lastWhere_snoc]
      rcases hq : q a with _ | _
      · have hp : p a = false := by
          by_contra hp
          rw [himp a (by simpa using hp)] at hq
          cases hq
        simp [hq, hp, ih]
      · simp [hq, ih]

theorem lastWhere_append_of_forall {p : α → Bool} (L : List α) {K : List α}
    (hK : ∀ a ∈ K, p a = false) : lastWhere p (L ++ K) = lastWhere p L := by
  induction K using List.reverseRecOn with
  | nil => simp
  | append_singleton K a ih =>
      rw [← List.append_assoc, lastWhere_snoc, hK a (by simp), ih fun b hb => hK b (by simp [hb])]
      rfl

section Writes

variable [DecidableEq κ]

/-- One guarded write: `a` is entered under its key when `guard a` holds. -/
def write (guard : α → Bool) (key : α → κ) (val : α → ν) (m : Table κ ν) (a : α) : Table κ ν :=
  if guard a then m.insert (key a) (val a) else m

theorem lookup_write (guard : α → Bool) (key : α → κ) (val : α → ν) (m : Table κ ν) (a : α)
    (k : κ) :
    (write guard key val m a).lookup k =
      if guard a && key a == k then some (val a) else m.lookup k := by
  cases hguard : guard a with
  | false => simp [write, hguard]
  | true =>
      by_cases hkey : key a = k
      · subst hkey
        simp [write, hguard]
      · simp [write, hguard, hkey, AList.lookup_insert_ne (Ne.symm hkey)]

/-- After a history of guarded writes a key holds what the last write that names it entered. -/
theorem lookup_foldl_write (guard : α → Bool) (key : α → κ) (val : α → ν) (L : List α) (k : κ) :
    (L.foldl (write guard key val) ∅).lookup k =
      (lastWhere (fun a => guard a && key a == k) L).map val := by
  induction L using List.reverseRecOn with
  | nil => rfl
  | append_singleton L a ih =>
      rw [List.foldl_append, List.foldl_cons, List.foldl_nil, lookup_write, lastWhere_snoc, ih]
      split <;> rfl

end Writes

section Sums

variable [DecidableEq κ]

theorem sum_insert (f : (Σ _ : κ, ν) → Nat) (m : Table κ ν) (k : κ) (v : ν) :
    ((m.insert k v).entries.map f).sum + ((m.lookup k).elim 0 fun old => f ⟨k, old⟩) =
      (m.entries.map f).sum + f ⟨k, v⟩ := by
  have herase (L : List (Σ _ : κ, ν)) : ((L.kerase k).map f).sum +
      ((L.dlookup k).elim 0 fun old => f ⟨k, old⟩) = (L.map f).sum := by
    induction L with
    | nil => rfl
    | cons e L ih =>
        by_cases hk : k = e.1
        · subst hk
          rw [List.kerase_cons_eq rfl, List.dlookup_cons_eq, List.map_cons, List.sum_cons,
            Nat.add_comm]
          rfl
        · rw [List.kerase_cons_ne hk, List.dlookup_cons_ne _ _ hk, List.map_cons, List.map_cons,
            List.sum_cons, List.sum_cons, Nat.add_assoc, ih]
  rw [AList.entries_insert, List.map_cons, List.sum_cons, Nat.add_assoc,
    AList.lookup, herase, Nat.add_comm]

end Sums

section Sequences

variable [DecidableEq κ]

/-- The table has the first `n` entries of a sequence and no others. -/
structure Filled (m : Table κ ν) (key : Nat → κ) (val : Nat → ν) (n : Nat) : Prop where
  entry : ∀ i < n, m.lookup (key i) = some (val i)
  other : ∀ k, (∀ i < n, key i ≠ k) → m.lookup k = none

variable {m : Table κ ν} {key : Nat → κ} {val : Nat → ν} {n : Nat}

theorem Filled.empty (key : Nat → κ) (val : Nat → ν) : Filled ∅ key val 0 :=
  ⟨fun i hi => absurd hi (Nat.not_lt_zero i), fun _ _ => rfl⟩

theorem Filled.insert (h : Filled m key val n) (hfresh : ∀ i < n, key i ≠ key n) :
    Filled (m.insert (key n) (val n)) key val (n + 1) := by
  constructor
  · intro i hi
    rcases Nat.lt_succ_iff_lt_or_eq.mp hi with hi | rfl
    · rw [AList.lookup_insert_ne (hfresh i hi)]
      exact h.entry i hi
    · exact AList.lookup_insert m
  · intro k hk
    rw [AList.lookup_insert_ne (hk n (Nat.lt_succ_self n)).symm]
    exact h.other k fun i hi => hk i (Nat.lt_succ_of_lt hi)

theorem Filled.of_lookup (h : Filled m key val n) {k : κ} {v : ν} (hlookup : m.lookup k = some v) :
    ∃ i < n, key i = k ∧ val i = v := by
  by_contra hnone
  have hother : ∀ i < n, key i ≠ k := by
    rintro i hi rfl
    rw [h.entry i hi] at hlookup
    exact hnone ⟨i, hi, rfl, Option.some.inj hlookup⟩
  rw [h.other k hother] at hlookup
  cases hlookup

end Sequences

end MobileCore.LastWrite
