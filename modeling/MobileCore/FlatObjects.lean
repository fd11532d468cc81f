import MobileCore.WireJson

/-!
# Looking up the members of a flat object

The getter searches for the quoted key, so it can only stop where the object has a quote. In
objects whose keys and strings have no quotes of their own that is the key of a member, unless
the key that is asked for looks like the text between two quotes.
-/

namespace MobileCore.FlatObjects

open MobileCore.CppText
open MobileCore.WireJson

def Quoteless (s : Str) : Prop := 34 ∉ s

instance (s : Str) : Decidable (Quoteless s) := inferInstanceAs (Decidable (34 ∉ s))

def needle (key : Str) : Str := 34 :: (key ++ [34, 58])

/-- What follows the first occurrence of a pattern. -/
def behind (pattern text : Str) : Option Str :=
  (find pattern text).map fun p => text.drop (p + pattern.length)

/-- The value at the front of a text: a quoted string, or a bare token. -/
def token : Str → Str
  | 34 :: value => value.takeWhile (· != 34)
  | value => value.takeWhile fun c => c != 44 && c != 125

theorem get_eq (text key : Str) : get text key = ((behind (needle key) text).map token).getD [] := by
  have hneedle : lit "\"" ++ key ++ lit "\":" = needle key := rfl
  simp only [WireJson.get, hneedle, behind]
  cases find (needle key) text with
  | none => rfl
  | some p => rfl

theorem behind_cons_of_not (pattern : Str) (c : UInt8) (rest : Str)
    (h : ¬pattern <+: c :: rest) : behind pattern (c :: rest) = behind pattern rest := by
  have hnot : pattern.isPrefixOf (c :: rest) = false := by
    rw [← Bool.not_eq_true, List.isPrefixOf_iff_prefix]
    exact h
  rw [behind, behind, find, if_neg (by simp [hnot]), Option.map_map]
  congr 1
  funext p
  show (c :: rest).drop (p + 1 + pattern.length) = rest.drop (p + pattern.length)
  rw [Nat.add_right_comm, List.drop_succ_cons]

theorem behind_front (pattern rest : Str) (c : UInt8) :
    behind (c :: pattern) (c :: pattern ++ rest) = some rest := by
  have hfirst : (c :: pattern).isPrefixOf (c :: (pattern ++ rest)) = true := by
    rw [List.isPrefixOf_iff_prefix]
    exact List.prefix_append (c :: pattern) rest
  rw [behind, List.cons_append, find, if_pos hfirst, Option.map_some, Nat.zero_add,
    ← List.cons_append, List.drop_left]

theorem behind_quoteless (pattern piece rest : Str) (h : Quoteless piece) :
    behind (34 :: pattern) (piece ++ rest) = behind (34 :: pattern) rest := by
  induction piece with
  | nil => rfl
  | cons c piece ih =>
      rw [List.cons_append, behind_cons_of_not, ih]
      · intro hmem
        exact h (List.mem_cons_of_mem c hmem)
      · intro hfront
        obtain ⟨hc, _⟩ := List.cons_prefix_cons.mp hfront
        exact h (hc ▸ List.mem_cons_self)

theorem quoteless_split {k key x y : Str} (hk : Quoteless k) (hkey : Quoteless key) :
    k ++ 34 :: x <+: key ++ 34 :: y ↔ k = key ∧ x <+: y := by
  induction k generalizing key with
  | nil =>
      cases key with
      | nil => simp [List.cons_prefix_cons]
      | cons d key =>
          have hd : ¬34 = d := fun h => hkey (h ▸ List.mem_cons_self)
          simp [List.cons_prefix_cons, hd]
  | cons c k ih =>
      have hc : ¬c = 34 := fun h => hk (h ▸ List.mem_cons_self)
      cases key with
      | nil => simp [List.cons_prefix_cons, hc]
      | cons d key =>
          have htail : k ++ 34 :: x <+: key ++ 34 :: y ↔ k = key ∧ x <+: y :=
            ih (fun h => hk (List.mem_cons_of_mem c h)) (fun h => hkey (List.mem_cons_of_mem d h))
          simp only [List.cons_append, List.cons_prefix_cons, htail, List.cons.injEq]
          exact and_assoc.symm

/-- A rendered value and what the getter makes of it. -/
inductive Flat : Str → Str → Prop where
  | quoted (s : Str) (h : Quoteless s) : Flat (str s) s
  | bare (s : Str) (h : Quoteless s) (hcomma : 44 ∉ s) (hbrace : 125 ∉ s) : Flat s s

/-- What stands behind a member: the end of the object, or the other members. -/
def rest : List (Str × Str) → Str
  | [] => [125]
  | kv => 44 :: (members kv ++ [125])

theorem rest_cons (m : Str × Str) (kv : List (Str × Str)) :
    rest (m :: kv) = 44 :: (members (m :: kv) ++ [125]) := rfl

/-- The value that a lookup of the key finds in the members. -/
def look (key : Str) (kv : List (Str × Str)) : Str :=
  ((behind (needle key) (members kv ++ [125])).map token).getD []

theorem get_obj (key : Str) (kv : List (Str × Str)) : get (obj kv) key = look key kv := by
  have hopen : ¬needle key <+: 123 :: (members kv ++ [125]) := by
    intro hfront
    exact absurd (List.cons_prefix_cons.mp hfront).1 (by decide)
  have hobj : obj kv = 123 :: (members kv ++ [125]) := rfl
  rw [get_eq, hobj, behind_cons_of_not _ _ _ hopen, look]

theorem members_cons (key value : Str) (kv : List (Str × Str)) :
    members ((key, value) :: kv) ++ [125] = 34 :: (key ++ 34 :: 58 :: (value ++ rest kv)) := by
  have hcolon : lit "\":" = [34, 58] := rfl
  have hquote : lit "\"" = [34] := rfl
  have hcomma : lit "," = [44] := rfl
  cases kv with
  | nil => simp [members, rest, hcolon, hquote]
  | cons m kv => simp [members, rest, hcolon, hquote, hcomma]

theorem token_flat {value content : Str} (h : Flat value content) (kv : List (Str × Str)) :
    token (value ++ rest kv) = content := by
  cases h with
  | quoted s h =>
      have hall : ∀ c ∈ content, (c != 34) = true := by
        intro c hc
        have hne : c ≠ 34 := fun heq => h (heq ▸ hc)
        simpa using hne
      have htext : str content ++ rest kv = 34 :: (content ++ 34 :: rest kv) := by
        show ([34] ++ content ++ [34]) ++ rest kv = _
        simp
      rw [htext, token, List.takeWhile_append_of_pos hall]
      simp
  | bare s h hcomma hbrace =>
      have hall : ∀ c ∈ value, (c != 44 && c != 125) = true := by
        intro c hc
        have hne : c ≠ 44 := fun heq => hcomma (heq ▸ hc)
        have hne' : c ≠ 125 := fun heq => hbrace (heq ▸ hc)
        simp [hne, hne']
      have hstop : (rest kv).takeWhile (fun c => c != 44 && c != 125) = [] := by
        cases kv <;> rfl
      have hhead : ∀ tail, value ++ rest kv ≠ 34 :: tail := by
        intro tail heq
        cases value with
        | nil => cases kv <;> cases heq
        | cons c value =>
            injection heq with hc
            exact h (hc ▸ List.mem_cons_self)
      have htoken : token (value ++ rest kv) =
          (value ++ rest kv).takeWhile fun c => c != 44 && c != 125 := by
        generalize htext : value ++ rest kv = text at hhead ⊢
        cases text with
        | nil => rfl
        | cons c tail =>
            have hc : c ≠ 34 := fun heq => hhead tail (heq ▸ rfl)
            rw [token]
            simpa using hc
      rw [htoken, List.takeWhile_append_of_pos hall, hstop, List.append_nil]

/-- A key that neither has a quote nor starts like what follows one. -/
def Plain (k : Str) : Prop := Quoteless k ∧ k.head? ≠ some 58 ∧ k.head? ≠ some 44

instance (k : Str) : Decidable (Plain k) :=
  inferInstanceAs (Decidable (34 ∉ k ∧ k.head? ≠ some 58 ∧ k.head? ≠ some 44))

theorem not_colon_rest (kv : List (Str × Str)) : ¬[58] <+: rest kv := by
  intro hfront
  cases kv with
  | nil => exact absurd (List.cons_prefix_cons.mp hfront).1 (by decide)
  | cons m kv => exact absurd (List.cons_prefix_cons.mp hfront).1 (by decide)

theorem behind_rest (k : Str) (kv : List (Str × Str)) :
    behind (needle k) (rest kv) = behind (needle k) (members kv ++ [125]) := by
  cases kv with
  | nil => rfl
  | cons m kv => exact behind_quoteless (k ++ [34, 58]) [44] _ (by decide)

/-- The search passes a member with another key when it cannot stop at the quotes that end the key
and the string. -/
theorem behind_entry {k key value content : Str} (kv : List (Str × Str)) (hk : Quoteless k)
    (hkey : Quoteless key) (hflat : Flat value content)
    (hcolon : ¬needle k <+: 34 :: 58 :: (value ++ rest kv))
    (hend : ¬needle k <+: 34 :: rest kv) :
    behind (needle k) (members ((key, value) :: kv) ++ [125]) =
      if key = k then some (value ++ rest kv) else behind (needle k) (members kv ++ [125]) := by
  rw [members_cons]
  split
  · rename_i heq
    have hsplit : 34 :: (key ++ 34 :: 58 :: (value ++ rest kv)) =
        needle key ++ (value ++ rest kv) := by
      simp [needle]
    rw [hsplit, ← heq, needle, behind_front]
  · rename_i hne
    have hopen : ¬needle k <+: 34 :: (key ++ 34 :: 58 :: (value ++ rest kv)) := by
      intro hfront
      have hkeys := (List.cons_prefix_cons.mp hfront).2
      exact hne ((quoteless_split hk hkey).mp hkeys).1.symm
    have hvalue : behind (needle k) (value ++ rest kv) = behind (needle k) (rest kv) := by
      cases hflat with
      | bare s h _ _ => exact behind_quoteless _ value (rest kv) h
      | quoted s h =>
          have htext : str content ++ rest kv = 34 :: (content ++ 34 :: rest kv) := by
            show ([34] ++ content ++ [34]) ++ rest kv = _
            simp
          have hinner : ¬needle k <+: 34 :: (content ++ 34 :: rest kv) := by
            intro hfront
            have hstring := (List.cons_prefix_cons.mp hfront).2
            exact not_colon_rest kv ((quoteless_split hk h).mp hstring).2
          rw [htext, behind_cons_of_not _ _ _ hinner, needle, behind_quoteless _ content _ h,
            ← needle, behind_cons_of_not _ _ _ hend]
    have hskip : behind (needle k) (58 :: (value ++ rest kv)) =
        behind (needle k) (value ++ rest kv) := behind_quoteless _ [58] _ (by decide)
    rw [behind_cons_of_not _ _ _ hopen, needle, behind_quoteless _ key _ hkey, ← needle,
      behind_cons_of_not _ _ _ hcolon, hskip, hvalue, behind_rest]

theorem look_member {k key value content : Str} (kv : List (Str × Str)) (hk : Quoteless k)
    (hkey : Quoteless key) (hflat : Flat value content)
    (hcolon : ¬needle k <+: 34 :: 58 :: (value ++ rest kv))
    (hend : ¬needle k <+: 34 :: rest kv) :
    look k ((key, value) :: kv) = if key = k then content else look k kv := by
  rw [look, behind_entry kv hk hkey hflat hcolon hend]
  split
  · rw [Option.map_some, Option.getD_some, token_flat hflat]
  · rfl

theorem Plain.not_colon {k : Str} (hk : Plain k) (x : Str) : ¬needle k <+: 34 :: 58 :: x := by
  obtain ⟨_, hcolon, _⟩ := hk
  intro hfront
  have hback := (List.cons_prefix_cons.mp hfront).2
  cases k with
  | nil => exact absurd (List.cons_prefix_cons.mp hback).1 (by decide)
  | cons c k =>
      rw [(List.cons_prefix_cons.mp hback).1] at hcolon
      exact hcolon rfl

theorem Plain.not_rest {k : Str} (hk : Plain k) (kv : List (Str × Str)) :
    ¬needle k <+: 34 :: rest kv := by
  obtain ⟨_, _, hcomma⟩ := hk
  intro hfront
  have hback := (List.cons_prefix_cons.mp hfront).2
  cases k with
  | nil =>
      cases kv with
      | nil => exact absurd (List.cons_prefix_cons.mp hback).1 (by decide)
      | cons m kv => exact absurd (List.cons_prefix_cons.mp hback).1 (by decide)
  | cons c k =>
      cases kv with
      | nil =>
          have hnil := List.prefix_nil.mp (List.cons_prefix_cons.mp hback).2
          simp at hnil
      | cons m kv =>
          rw [(List.cons_prefix_cons.mp hback).1] at hcomma
          exact hcomma rfl

theorem look_plain {k key value content : Str} (kv : List (Str × Str)) (hk : Plain k)
    (hkey : Quoteless key) (hflat : Flat value content) :
    look k ((key, value) :: kv) = if key = k then content else look k kv :=
  look_member kv hk.1 hkey hflat (hk.not_colon _) (hk.not_rest kv)

theorem flat_num (n : Int) : Flat (num n) (num n) :=
  .bare (num n) (not_mem_intText n 34 (.inl (by decide)))
    (not_mem_intText n 44 (.inl (by decide))) (not_mem_intText n 125 (.inr (by decide)))

theorem not_front_of_short {k r x y : Str} (hk : Quoteless k) (h : r.length < k.length) :
    ¬k ++ y <+: r ++ 34 :: x := by
  induction k generalizing r with
  | nil => simp at h
  | cons c k ih =>
      intro hfront
      cases r with
      | nil =>
          have hc := (List.cons_prefix_cons.mp hfront).1
          exact hk (hc ▸ List.mem_cons_self)
      | cons d r =>
          have hk' : Quoteless k := fun hmem => hk (List.mem_cons_of_mem c hmem)
          exact ih hk' (Nat.lt_of_succ_lt_succ h) (List.cons_prefix_cons.mp hfront).2

theorem behind_short {k s x : Str} (hk : Quoteless k) (h : s.length ≤ k.length) :
    behind (needle k) (s ++ 34 :: x) = behind (needle k) (34 :: x) := by
  induction s with
  | nil => rfl
  | cons c s ih =>
      have hshort : s.length < k.length := h
      have hnot : ¬needle k <+: c :: (s ++ 34 :: x) := by
        intro hfront
        exact not_front_of_short hk hshort (List.cons_prefix_cons.mp hfront).2
      rw [List.cons_append, behind_cons_of_not _ _ _ hnot, ih (Nat.le_of_lt hshort)]

theorem look_short_end {k key front s : Str} (kv : List (Str × Str)) (hk : Plain k)
    (hkey : Quoteless key) (hne : key ≠ k) (hfront : Quoteless front)
    (hhead : ∀ x, ¬k ++ [34, 58] <+: front ++ x) (hs : s.length ≤ k.length) :
    look k ((key, str (front ++ s)) :: kv) = look k kv := by
  have hopen : ¬needle k <+: 34 :: (key ++ 34 :: 58 :: (str (front ++ s) ++ rest kv)) := by
    intro h
    exact hne ((quoteless_split hk.1 hkey).mp (List.cons_prefix_cons.mp h).2).1.symm
  have hcolon : behind (needle k) (58 :: (str (front ++ s) ++ rest kv)) =
      behind (needle k) (str (front ++ s) ++ rest kv) := behind_quoteless _ [58] _ (by decide)
  have htext : str (front ++ s) ++ rest kv = 34 :: (front ++ (s ++ 34 :: rest kv)) := by
    show ([34] ++ (front ++ s) ++ [34]) ++ rest kv = _
    simp
  have hstring : ¬needle k <+: 34 :: (front ++ (s ++ 34 :: rest kv)) := by
    intro h
    exact hhead _ (List.cons_prefix_cons.mp h).2
  rw [look, members_cons, behind_cons_of_not _ _ _ hopen, needle, behind_quoteless _ key _ hkey,
    ← needle, behind_cons_of_not _ _ _ (hk.not_colon _), hcolon, htext,
    behind_cons_of_not _ _ _ hstring, needle, behind_quoteless _ front _ hfront, ← needle,
    behind_short hk.1 hs, behind_cons_of_not _ _ _ (hk.not_rest kv), behind_rest, look]

theorem behind_closing (k : Str) : behind (needle k) [125] = none := by
  have hnot : ¬needle k <+: [125] := by
    intro hfront
    exact absurd (List.cons_prefix_cons.mp hfront).1 (by decide)
  rw [behind_cons_of_not _ _ _ hnot]
  rfl

theorem look_nil (k : Str) : look k [] = [] := by
  rw [look]
  show ((behind (needle k) [125]).map token).getD [] = []
  rw [behind_closing]
  rfl

theorem quoteless_open {k s x : Str} {c d : UInt8} (hk : Quoteless (c :: k)) (hs : Quoteless s)
    (h : c :: (k ++ [34, 58]) <+: d :: 34 :: (s ++ 34 :: x)) :
    c = d ∧ k = [] ∧ s.head? = some 58 := by
  obtain ⟨hc, hback⟩ := List.cons_prefix_cons.mp h
  have hk' : Quoteless k := fun hmem => hk (List.mem_cons_of_mem c hmem)
  have hnil : Quoteless [] := by decide
  obtain ⟨hempty, hstring⟩ := (quoteless_split hk' hnil).mp hback
  refine ⟨hc, hempty, ?_⟩
  cases s with
  | nil => exact absurd (List.cons_prefix_cons.mp hstring).1 (by decide)
  | cons e s => exact congrArg some (List.cons_prefix_cons.mp hstring).1.symm

/-- Keys and strings without quotes are read back, and other keys are not found, except that a
single colon or comma can be what stands between two quotes of the object. -/
theorem get_obj_strings (kv : List (Str × Str)) (k : Str)
    (hkeys : ∀ m ∈ kv, Quoteless m.1) (hvalues : ∀ m ∈ kv, Quoteless m.2) (hk : Quoteless k)
    (hcolon : k = lit ":" → ∀ m ∈ kv, m.2.head? ≠ some 58)
    (hcomma : k = lit "," → ∀ m ∈ kv.tail, m.1.head? ≠ some 58) :
    get (obj (kv.map fun m => (m.1, str m.2))) k = (kv.lookup k).getD [] := by
  rw [get_obj]
  induction kv with
  | nil => exact look_nil k
  | cons m kv ih =>
      obtain ⟨key, value⟩ := m
      have hvalue : Quoteless value := hvalues _ List.mem_cons_self
      have hrest := ih (fun m hm => hkeys m (List.mem_cons_of_mem _ hm))
        (fun m hm => hvalues m (List.mem_cons_of_mem _ hm))
        (fun heq m hm => hcolon heq m (List.mem_cons_of_mem _ hm))
        (fun heq m hm => hcomma heq m (List.mem_of_mem_tail hm))
      have hclose : ¬needle k <+:
          34 :: 58 :: (str value ++ rest (kv.map fun m => (m.1, str m.2))) := by
        intro hfront
        have hback := (List.cons_prefix_cons.mp hfront).2
        have htext : str value = 34 :: (value ++ [34]) := rfl
        rw [htext, List.cons_append, List.append_assoc] at hback
        cases k with
        | nil => exact absurd (List.cons_prefix_cons.mp hback).1 (by decide)
        | cons c k =>
            obtain ⟨rfl, rfl, hhead⟩ := quoteless_open hk hvalue hback
            exact hcolon rfl _ List.mem_cons_self hhead
      have hend : ¬needle k <+: 34 :: rest (kv.map fun m => (m.1, str m.2)) := by
        intro hfront
        have hback := (List.cons_prefix_cons.mp hfront).2
        cases kv with
        | nil =>
            cases k with
            | nil => exact absurd (List.cons_prefix_cons.mp hback).1 (by decide)
            | cons c k =>
                have hnil := List.prefix_nil.mp (List.cons_prefix_cons.mp hback).2
                simp at hnil
        | cons m kv =>
            rw [List.map_cons, rest_cons, members_cons] at hback
            cases k with
            | nil => exact absurd (List.cons_prefix_cons.mp hback).1 (by decide)
            | cons c k =>
                obtain ⟨rfl, rfl, hhead⟩ := quoteless_open hk (hkeys m (by simp)) hback
                exact hcomma rfl m (by simp) hhead
      rw [List.map_cons, look_member _ hk (hkeys _ List.mem_cons_self)
        (.quoted value hvalue) hclose hend, hrest, List.lookup_cons]
      by_cases heq : key = k
      · simp [heq]
      · have hne : (k == key) = false := by simpa using fun h => heq h.symm
        simp [heq, hne]

theorem look_own (k value : Str) (kv : List (Str × Str)) :
    look k ((k, value) :: kv) = token (value ++ rest kv) := by
  have hsplit : 34 :: (k ++ 34 :: 58 :: (value ++ rest kv)) = needle k ++ (value ++ rest kv) := by
    simp [needle]
  rw [look, members_cons, hsplit, needle, behind_front]
  rfl

theorem quoteless_token (value tail : Str) : Quoteless (token (str value ++ tail)) := by
  have htext : str value ++ tail = 34 :: (value ++ 34 :: tail) := by
    show ([34] ++ value ++ [34]) ++ tail = _
    simp
  rw [htext, token]
  intro hmem
  have hne := List.all_eq_true.mp List.all_takeWhile 34 hmem
  simp at hne

theorem quoteless_of_look (kv : List (Str × Str)) (hkeys : ∀ m ∈ kv, Plain m.1)
    (hdistinct : (kv.map Prod.fst).Nodup)
    (h : ∀ m ∈ kv, look m.1 (kv.map fun m => (m.1, str m.2)) = (kv.lookup m.1).getD []) :
    ∀ m ∈ kv, Quoteless m.2 := by
  induction kv with
  | nil =>
      intro m hm
      cases hm
  | cons m kv ih =>
      obtain ⟨key, value⟩ := m
      rw [List.map_cons, List.nodup_cons] at hdistinct
      have hvalue : Quoteless value := by
        have hown := h (key, value) List.mem_cons_self
        rw [List.map_cons, look_own, List.lookup_cons_self, Option.getD_some] at hown
        exact hown ▸ quoteless_token value _
      have hrest : ∀ m ∈ kv, Quoteless m.2 := by
        refine ih (fun m hm => hkeys m (List.mem_cons_of_mem _ hm)) hdistinct.2 ?_
        intro m hm
        have hne : key ≠ m.1 := by
          rintro rfl
          exact hdistinct.1 (List.mem_map.mpr ⟨m, hm, rfl⟩)
        have hpass := h m (List.mem_cons_of_mem _ hm)
        rw [List.map_cons, look_plain _ (hkeys m (List.mem_cons_of_mem _ hm))
          (hkeys _ List.mem_cons_self).1 (.quoted value hvalue), if_neg hne,
          List.lookup_cons, beq_false_of_ne hne.symm] at hpass
        exact hpass
      rintro m (_ | ⟨_, hm⟩)
      · exact hvalue
      · exact hrest m hm

/-- The lookup of a key among strings gives its value, and nothing for a key that is not there. -/
def ReadsBack (kv : List (Str × Str)) (k : Str) : Prop :=
  get (obj (kv.map fun m => (m.1, str m.2))) k = (kv.lookup k).getD []

/-- Texts without quotes are read back; with keys as the messages have them, no others are. -/
theorem reads_back_iff (kv : List (Str × Str)) :
    (∀ k, (∀ m ∈ kv, Quoteless m.1) → (∀ m ∈ kv, Quoteless m.2) → Quoteless k →
      (k = lit ":" → ∀ m ∈ kv, m.2.head? ≠ some 58) →
      (k = lit "," → ∀ m ∈ kv.tail, m.1.head? ≠ some 58) → ReadsBack kv k) ∧
    ((∀ m ∈ kv, Plain m.1) → (kv.map Prod.fst).Nodup →
      ((∀ k, Plain k → ReadsBack kv k) ↔ ∀ m ∈ kv, Quoteless m.2)) := by
  constructor
  · intro k hkeys hvalues hk hcolon hcomma
    exact get_obj_strings kv k hkeys hvalues hk hcolon hcomma
  · intro hkeys hdistinct
    constructor
    · intro hback
      apply quoteless_of_look kv hkeys hdistinct
      intro m hm
      rw [← get_obj]
      exact hback m.1 (hkeys m hm)
    · rintro hvalues k ⟨hk, hcolon, hcomma⟩
      apply get_obj_strings kv k (fun m hm => (hkeys m hm).1) hvalues hk
      · rintro rfl
        exact absurd rfl hcolon
      · rintro rfl
        exact absurd rfl hcomma

/-- A registration request without a slice is read back, and with the slice it is not. -/
theorem registration_request_read_back :
    (∀ k, Plain k →
      ReadsBack [(lit "msgType", lit "RegistrationRequest"), (lit "suci", lit "suci-0-404-10")] k) ∧
    ¬∀ k, Plain k → ReadsBack [(lit "suci", lit "suci-0-404-10"),
      (lit "requestedNssai", lit "\x7b\"sst\":1,\"sd\":\"000001\"\x7d")] k := by
  constructor
  · exact ((reads_back_iff _).2 (by decide) (by decide)).mpr (by decide)
  · exact fun h => absurd (((reads_back_iff _).2 (by decide) (by decide)).mp h) (by decide)

/-- The requested slice, an object passed as a string, is cut at its first quote. -/
theorem requested_nssai_cut :
    ¬∀ (kv : List (Str × Str)) (k : Str), (kv.map Prod.fst).Nodup →
      get (obj (kv.map fun m => (m.1, str m.2))) k = (kv.lookup k).getD [] := by
  intro h
  have hcut := h [(lit "requestedNssai", lit "\x7b\"sst\":1,\"sd\":\"000001\"\x7d")]
    (lit "requestedNssai") (by decide)
  exact absurd hcut (by decide)

end MobileCore.FlatObjects
