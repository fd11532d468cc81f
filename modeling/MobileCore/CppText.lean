import Mathlib.Algebra.Group.Int.Defs
import Mathlib.Algebra.Group.Nat.Defs
import Mathlib.Data.List.Basic

/-!
# Byte strings with the operations of `std::string`

A string is its list of bytes. Numeric conversions return `none` where the C++ function throws.
-/

namespace MobileCore.CppText

abbrev Str := List UInt8

def lit (s : String) : Str := s.toList.map fun c => c.toNat.toUInt8

/-- The first position at which `needle` occurs. -/
def find (needle : Str) : Str → Option Nat
  | [] => if needle.isEmpty then some 0 else none
  | c :: rest =>
    if needle.isPrefixOf (c :: rest) then some 0 else (find needle rest).map (· + 1)

theorem find_isSome_iff (needle text : Str) :
    (find needle text).isSome = true ↔ needle <:+: text := by
  induction text with
  | nil => cases needle <;> simp [find]
  | cons c rest ih =>
      rw [find, List.infix_cons_iff, ← ih, ← List.isPrefixOf_iff_prefix]
      split
      · rename_i hfront
        exact iff_of_true rfl (Or.inl hfront)
      · rename_i hnot
        rw [Option.isSome_map]
        exact ⟨Or.inr, fun h => h.resolve_left hnot⟩

theorem prefix_of_find {needle text : Str} {p : Nat} (h : find needle text = some p) :
    needle <+: text.drop p := by
  induction text generalizing p with
  | nil =>
      rw [find] at h
      split at h
      · rename_i hempty
        rw [List.isEmpty_iff.mp hempty]
        exact List.nil_prefix
      · cases h
  | cons c rest ih =>
      rw [find] at h
      split at h
      · rename_i hfront
        obtain rfl := Option.some.inj h
        exact List.isPrefixOf_iff_prefix.mp hfront
      · obtain ⟨q, hq, rfl⟩ := Option.map_eq_some_iff.mp h
        exact ih hq

theorem find_first {needle front : Str} (rest : Str) (hneedle : needle ≠ [])
    (h : ¬needle <:+: (front ++ needle).dropLast) :
    find needle (front ++ (needle ++ rest)) = some front.length := by
  induction front with
  | nil =>
      obtain ⟨c, tail, rfl⟩ := List.exists_cons_of_ne_nil hneedle
      rw [List.nil_append, List.cons_append, find, if_pos]
      · rfl
      · rw [← List.cons_append, List.isPrefixOf_iff_prefix]
        exact List.prefix_append _ rest
  | cons c front ih =>
      have hlonger : front ++ needle ≠ [] := List.append_ne_nil_of_right_ne_nil front hneedle
      rw [List.cons_append, List.dropLast_cons_of_ne_nil hlonger, List.infix_cons_iff] at h
      rw [List.cons_append, find, if_neg, ih fun hinfix => h (Or.inr hinfix)]
      · rfl
      · intro hfront
        rw [List.isPrefixOf_iff_prefix] at hfront
        apply h
        left
        apply List.prefix_of_prefix_length_le hfront
        · rw [List.cons_prefix_cons]
          refine ⟨rfl, (List.dropLast_prefix _).trans ?_⟩
          rw [← List.append_assoc]
          exact List.prefix_append _ rest
        · have hpos := List.length_pos_of_ne_nil hneedle
          rw [List.length_cons, List.length_dropLast, List.length_append]
          omega

/-- Letters that a needle does not have keep its occurrences on their two sides apart. -/
theorem infix_separated {α : Type*} {needle front gap back : List α} (hgap : gap ≠ [])
    (hother : ∀ c ∈ gap, c ∉ needle) :
    needle <:+: front ++ gap ++ back ↔ needle <:+: front ∨ needle <:+: back := by
  constructor
  · rintro ⟨before, after, htext⟩
    rw [List.append_assoc before, List.append_assoc front] at htext
    rcases List.append_eq_append_iff.mp htext with ⟨mid, rfl, hrest⟩ | ⟨mid, rfl, hrest⟩
    · rcases List.append_eq_append_iff.mp hrest with ⟨tail, rfl, -⟩ | ⟨tail, rfl, hgapped⟩
      · exact Or.inl ⟨before, tail, List.append_assoc before needle tail⟩
      · cases tail with
        | nil => exact Or.inl ⟨before, [], by simp⟩
        | cons c tail =>
            cases gap with
            | nil => exact absurd rfl hgap
            | cons d gap =>
                obtain ⟨rfl, -⟩ := List.cons.inj hgapped
                exact absurd (List.mem_append_right mid List.mem_cons_self)
                  (hother d List.mem_cons_self)
    · rcases List.append_eq_append_iff.mp hrest with ⟨tail, rfl, hback⟩ | ⟨tail, rfl, hneedle⟩
      · exact Or.inr ⟨tail, after, by rw [hback]; simp⟩
      · cases tail with
        | nil => exact Or.inr ⟨[], after, by simpa using hneedle⟩
        | cons c tail =>
            cases needle with
            | nil => exact Or.inr List.nil_infix
            | cons d needle =>
                obtain ⟨rfl, -⟩ := List.cons.inj hneedle
                exact absurd List.mem_cons_self
                  (hother d (List.mem_append_right mid List.mem_cons_self))
  · rintro (h | h)
    · rw [List.append_assoc]
      exact List.infix_append_of_infix_left h
    · exact List.infix_append_of_infix_right h

def afterLast (c : UInt8) (text : Str) : Option Str :=
  if c ∈ text then some (text.reverse.takeWhile (· != c)).reverse else none

theorem afterLast_append {c : UInt8} (front : Str) {back : Str} (hback : c ∉ back) :
    afterLast c (front ++ c :: back) = some back := by
  have hall : ∀ d ∈ back.reverse, (d != c) = true := by
    intro d hd
    have hne : d ≠ c := fun heq => hback (heq ▸ List.mem_reverse.mp hd)
    simpa using hne
  rw [afterLast, if_pos (List.mem_append_right front List.mem_cons_self), List.reverse_append,
    List.reverse_cons, List.append_assoc, List.takeWhile_append_of_pos hall]
  simp

def isSpace (c : UInt8) : Bool := c == 32 || (9 ≤ c && c ≤ 13)

def digit? (base : Nat) (c : UInt8) : Option Nat :=
  let value :=
    if 48 ≤ c ∧ c ≤ 57 then c.toNat - 48
    else if 97 ≤ c ∧ c ≤ 102 then c.toNat - 87
    else if 65 ≤ c ∧ c ≤ 70 then c.toNat - 55
    else base
  if value < base then some value else none

def digitPrefix (base : Nat) : Str → List Nat
  | [] => []
  | c :: rest =>
    match digit? base c with
    | none => []
    | some d => d :: digitPrefix base rest

def unsignedPrefix (base : Nat) (text : Str) : Option Nat :=
  match digitPrefix base text with
  | [] => none
  | ds => some (ds.foldl (fun n d => n * base + d) 0)

/-- The subject sequence of `strtol`: blanks, a sign, the prefix `0x` in base sixteen, digits. -/
def strtol (base : Nat) (text : Str) : Option Int :=
  let magnitude (body : Str) : Option Nat :=
    match body with
    | 48 :: x :: d :: rest =>
      if base = 16 ∧ (x = 120 ∨ x = 88) ∧ (digit? 16 d).isSome then
        unsignedPrefix 16 (d :: rest)
      else unsignedPrefix base body
    | _ => unsignedPrefix base body
  match text.dropWhile isSpace with
  | 45 :: rest => (magnitude rest).map fun n => -(n : Int)
  | 43 :: rest => (magnitude rest).map fun n => (n : Int)
  | rest => (magnitude rest).map fun n => (n : Int)

def stoi (text : Str) : Option Int :=
  match strtol 10 text with
  | none => none
  | some n => if -2 ^ 31 ≤ n ∧ n < 2 ^ 31 then some n else none

def stoul (base : Nat) (text : Str) : Option Nat :=
  match strtol base text with
  | none => none
  | some n => if n.natAbs < 2 ^ 64 then some (n % 2 ^ 64).toNat else none

def natText (n : Nat) : Str := (Nat.toDigits 10 n).map fun c => c.toNat.toUInt8

theorem natText_of_lt {n : Nat} (h : n < 10) : natText n = [UInt8.ofNat (48 + n)] := by
  rw [natText, Nat.toDigits_of_lt_base h]
  revert n
  decide

theorem natText_of_le {n : Nat} (h : 10 ≤ n) :
    natText n = natText (n / 10) ++ [UInt8.ofNat (48 + n % 10)] := by
  have hlast := natText_of_lt (Nat.mod_lt n (by decide : 0 < 10))
  rw [natText, Nat.toDigits_of_lt_base (Nat.mod_lt n (by decide))] at hlast
  rw [natText, Nat.toDigits_of_base_le (by decide) h, List.map_append, ← natText]
  exact congrArg _ hlast

theorem natText_ne_nil (n : Nat) : natText n ≠ [] := by
  rcases Nat.lt_or_ge n 10 with h | h
  · rw [natText_of_lt h]
    simp
  · rw [natText_of_le h]
    simp

theorem digit_injective {a b : Nat} (ha : a < 10) (hb : b < 10)
    (h : UInt8.ofNat (48 + a) = UInt8.ofNat (48 + b)) : a = b := by
  have hnat := congrArg UInt8.toNat h
  rw [UInt8.toNat_ofNat_of_lt' (by show _ < 256; omega),
    UInt8.toNat_ofNat_of_lt' (by show _ < 256; omega)] at hnat
  omega

theorem natText_injective {a b : Nat} (h : natText a = natText b) : a = b := by
  induction a using Nat.strongRecOn generalizing b with
  | ind a ih =>
      rcases Nat.lt_or_ge a 10 with ha | ha
      · rcases Nat.lt_or_ge b 10 with hb | hb
        · rw [natText_of_lt ha, natText_of_lt hb] at h
          exact digit_injective ha hb (List.cons.inj h).1
        · rw [natText_of_lt ha, natText_of_le hb, ← List.nil_append [_]] at h
          exact absurd (List.append_singleton_inj.mp h).1.symm (natText_ne_nil _)
      · rcases Nat.lt_or_ge b 10 with hb | hb
        · rw [natText_of_le ha, natText_of_lt hb, ← List.nil_append [UInt8.ofNat (48 + b)]] at h
          exact absurd (List.append_singleton_inj.mp h).1 (natText_ne_nil _)
        · rw [natText_of_le ha, natText_of_le hb] at h
          obtain ⟨hfront, hlast⟩ := List.append_singleton_inj.mp h
          have hdiv := ih (a / 10) (by omega) hfront
          have hmod := digit_injective (Nat.mod_lt a (by decide)) (Nat.mod_lt b (by decide)) hlast
          omega

theorem length_natText_le {n k : Nat} (hk : k ≠ 0) (h : n < 10 ^ k) : (natText n).length ≤ k := by
  induction k generalizing n with
  | zero => exact absurd rfl hk
  | succ k ih =>
      rcases Nat.lt_or_ge n 10 with hsmall | hlarge
      · rw [natText_of_lt hsmall, List.length_singleton]
        exact Nat.succ_le_succ (Nat.zero_le k)
      · have hk' : k ≠ 0 := by
          rintro rfl
          omega
        have hdiv : n / 10 < 10 ^ k := by
          rw [Nat.pow_succ] at h
          omega
        rw [natText_of_le hlarge, List.length_append, List.length_singleton]
        exact Nat.succ_le_succ (ih hk' hdiv)

theorem natText_zero {n : Nat} (h : (natText n).head? = some 48) : natText n = [48] := by
  induction n using Nat.strongRecOn with
  | ind n ih =>
      rcases Nat.lt_or_ge n 10 with hn | hn
      · rw [natText_of_lt hn] at h ⊢
        rw [Option.some.inj h]
      · rw [natText_of_le hn, List.head?_append_of_ne_nil _ (natText_ne_nil _)] at h
        have hzero : n / 10 = 0 := natText_injective (ih (n / 10) (by omega) h)
        omega

theorem natText_digits (n : Nat) : ∀ c ∈ natText n, 48 ≤ c ∧ c ≤ 57 := by
  induction n using Nat.strongRecOn with
  | ind n ih =>
      have hdigit : ∀ d, d < 10 → 48 ≤ UInt8.ofNat (48 + d) ∧ UInt8.ofNat (48 + d) ≤ 57 := by decide
      intro c hc
      rcases Nat.lt_or_ge n 10 with h | h
      · rw [natText_of_lt h] at hc
        rw [List.mem_singleton.mp hc]
        exact hdigit n h
      · rw [natText_of_le h] at hc
        rcases List.mem_append.mp hc with hfront | hlast
        · exact ih (n / 10) (by omega) c hfront
        · rw [List.mem_singleton.mp hlast]
          exact hdigit (n % 10) (Nat.mod_lt n (by decide))

theorem not_mem_natText (n : Nat) (c : UInt8) (h : c < 48 ∨ 57 < c) : c ∉ natText n := by
  intro hc
  obtain ⟨hlow, hhigh⟩ := natText_digits n c hc
  rcases h with h | h
  · exact absurd hlow (by simpa using h)
  · exact absurd hhigh (by simpa using h)

theorem digit?_digit {d : Nat} (h : d < 10) : digit? 10 (UInt8.ofNat (48 + d)) = some d := by
  revert d
  decide

theorem digitPrefix_snoc {text : Str} (c : UInt8)
    (h : (digitPrefix 10 text).length = text.length) :
    digitPrefix 10 (text ++ [c]) = digitPrefix 10 text ++ (digit? 10 c).toList := by
  induction text with
  | nil =>
      rw [List.nil_append, digitPrefix, digitPrefix, List.nil_append]
      cases digit? 10 c <;> rfl
  | cons b text ih =>
      rw [List.cons_append, digitPrefix]
      rw [digitPrefix] at h ⊢
      cases hb : digit? 10 b with
      | none =>
          rw [hb] at h
          cases h
      | some d =>
          rw [hb] at h
          rw [ih (Nat.succ.inj h)]
          rfl

theorem digitPrefix_natText (n : Nat) :
    (digitPrefix 10 (natText n)).length = (natText n).length ∧
      (digitPrefix 10 (natText n)).foldl (fun n d => n * 10 + d) 0 = n := by
  induction n using Nat.strongRecOn with
  | ind n ih =>
      rcases Nat.lt_or_ge n 10 with h | h
      · rw [natText_of_lt h, digitPrefix, digit?_digit h]
        exact ⟨rfl, Nat.zero_add n⟩
      · obtain ⟨hlength, hvalue⟩ := ih (n / 10) (by omega)
        rw [natText_of_le h, digitPrefix_snoc _ hlength,
          digit?_digit (Nat.mod_lt n (by decide))]
        refine ⟨by simp [hlength], ?_⟩
        rw [Option.toList_some, List.foldl_append, hvalue]
        exact Nat.div_add_mod' n 10

theorem strtol_natText (n : Nat) : strtol 10 (natText n) = some (n : Int) := by
  have hunsigned : unsignedPrefix 10 (natText n) = some n := by
    obtain ⟨hlength, hvalue⟩ := digitPrefix_natText n
    rw [unsignedPrefix]
    split
    · rename_i hnil
      rw [hnil] at hlength
      exact absurd (List.eq_nil_of_length_eq_zero hlength.symm) (natText_ne_nil n)
    · rename_i hsome
      rw [hvalue]
  obtain ⟨c, rest, htext⟩ := List.exists_cons_of_ne_nil (natText_ne_nil n)
  obtain ⟨hlow, hhigh⟩ := natText_digits n c (htext ▸ List.mem_cons_self)
  have hother (b : UInt8) (hb : b < 48) : c ≠ b := by
    rintro rfl
    exact absurd hlow (by simpa using hb)
  have hspace : ¬isSpace c = true := by
    rw [isSpace, Bool.or_eq_true, Bool.and_eq_true, decide_eq_true_eq, beq_iff_eq]
    rintro (hc | ⟨-, hc⟩)
    · exact hother 32 (by decide) hc
    · rw [decide_eq_true_eq] at hc
      exact absurd (UInt8.le_trans hlow hc) (by decide)
  rw [strtol, htext, List.dropWhile_cons_of_neg hspace]
  split
  · rename_i hminus
    exact absurd (List.cons.inj hminus).1 (hother 45 (by decide))
  · rename_i hplus
    exact absurd (List.cons.inj hplus).1 (hother 43 (by decide))
  · dsimp only
    rw [← htext]
    split
    · rw [if_neg (by simp), hunsigned]
      rfl
    · rw [hunsigned]
      rfl

theorem stoul_natText {n : Nat} (h : n < 2 ^ 64) : stoul 10 (natText n) = some n := by
  rw [stoul, strtol_natText]
  simp
  omega

theorem stoi_natText {n : Nat} (h : n < 2 ^ 31) : stoi (natText n) = some (n : Int) := by
  rw [stoi, strtol_natText]
  dsimp only
  rw [if_pos (by omega)]

/-- `std::to_string` and `operator<<` of a signed integer. -/
def intText : Int → Str
  | .ofNat n => natText n
  | .negSucc n => 45 :: natText (n + 1)

theorem not_mem_intText (n : Int) (c : UInt8) (h : c < 45 ∨ 57 < c) : c ∉ intText n := by
  have hnat : c < 48 ∨ 57 < c := by
    rcases h with h | h
    · exact .inl (UInt8.lt_trans h (by decide))
    · exact .inr h
  cases n with
  | ofNat n => exact not_mem_natText n c hnat
  | negSucc n =>
      intro hc
      rcases List.mem_cons.mp hc with rfl | hc
      · exact absurd h (by decide)
      · exact not_mem_natText _ c hnat hc

theorem intText_injective {a b : Int} (h : intText a = intText b) : a = b := by
  have hminus (m n : Nat) : natText m ≠ 45 :: natText (n + 1) := by
    intro heq
    apply not_mem_natText m 45 (Or.inl (by decide))
    rw [heq]
    exact List.mem_cons_self
  cases a with
  | ofNat m =>
      cases b with
      | ofNat n => exact congrArg Int.ofNat (natText_injective h)
      | negSucc n => exact absurd h (hminus m n)
  | negSucc m =>
      cases b with
      | ofNat n => exact absurd h.symm (hminus n m)
      | negSucc n =>
          have hsucc := natText_injective (List.cons.inj h).2
          exact congrArg Int.negSucc (Nat.succ.inj hsucc)

theorem stoi_intText {n : Int} (hlow : -2 ^ 31 ≤ n) (hhigh : n < 2 ^ 31) :
    stoi (intText n) = some n := by
  cases n with
  | ofNat n => exact stoi_natText (Int.ofNat_lt.mp hhigh)
  | negSucc n =>
      have hunsigned : unsignedPrefix 10 (natText (n + 1)) = some (n + 1) := by
        obtain ⟨hlength, hvalue⟩ := digitPrefix_natText (n + 1)
        rw [unsignedPrefix]
        split
        · rename_i hnil
          rw [hnil] at hlength
          exact absurd (List.eq_nil_of_length_eq_zero hlength.symm) (natText_ne_nil (n + 1))
        · rw [hvalue]
      have hread : strtol 10 (intText (.negSucc n)) = some (.negSucc n) := by
        rw [strtol, intText, List.dropWhile_cons_of_neg (by decide)]
        dsimp only
        split
        · rename_i rest hminus
          obtain rfl := (List.cons.inj hminus).2
          split
          · rw [if_neg (by simp), hunsigned]
            rfl
          · rw [hunsigned]
            rfl
        · rename_i hplus
          exact absurd (List.cons.inj hplus).1 (by decide)
        · rename_i hother _
          exact absurd rfl (hother _)
      rw [stoi, hread]
      dsimp only
      rw [if_pos ⟨hlow, hhigh⟩]

/-- `std::setw` with a fill byte. -/
def padLeft (width : Nat) (fill : UInt8) (text : Str) : Str :=
  List.replicate (width - text.length) fill ++ text

end MobileCore.CppText
