import MobileCore.TextFiles

/-!
# The JSON texts that Python loads

The scanner takes a value off the front of a text. Objects and arrays nest as far as the stack has
room for them. What is no JSON raises another error than what goes beyond a limit of Python.
-/

namespace MobileCore.PythonJson

open MobileCore.TextFiles

/-- A float is given by its literal. -/
inductive Json where
  | null
  | bool (b : Bool)
  | int (n : Int)
  | float (literal : Text)
  | str (s : Text)
  | list (items : List Json)
  | dict (items : List (Text × Json))

inductive LoadError where
  | decode
  | value
  | recursion
deriving DecidableEq

abbrev Scanner (α : Type) := Text → Except LoadError (α × Text)

section Strings

/-- A character of a string, or the code of one that is escaped. -/
structure CodeUnit where
  code : Nat
  escaped : Bool := false

/-- Where in an escape the scanner is: `missing` digits follow the next one. -/
inductive Escape where
  | outside
  | begun
  | digits (missing value : Nat)

def hexValue? (c : Nat) : Option Nat :=
  if 48 ≤ c ∧ c ≤ 57 then some (c - 48)
  else if 97 ≤ c ∧ c ≤ 102 then some (c - 87)
  else if 65 ≤ c ∧ c ≤ 70 then some (c - 55)
  else none

/-- The characters that have an escape of two letters. -/
def shortEscapes : List (Nat × Nat) :=
  [(34, 34), (92, 92), (47, 47), (98, 8), (102, 12), (110, 10), (114, 13), (116, 9)]

def scanUnits : Escape → Text → Option (List CodeUnit × Text)
  | _, [] => none
  | .outside, c :: rest =>
    if c = 34 then some ([], rest)
    else if c = 92 then scanUnits .begun rest
    else if c < 32 then none
    else (scanUnits .outside rest).map fun (units, rest) => (⟨c, false⟩ :: units, rest)
  | .begun, c :: rest =>
    if c = 117 then scanUnits (.digits 3 0) rest
    else
      match shortEscapes.lookup c with
      | none => none
      | some code =>
        (scanUnits .outside rest).map fun (units, rest) => (⟨code, false⟩ :: units, rest)
  | .digits missing value, c :: rest =>
    match hexValue? c, missing with
    | none, _ => none
    | some d, 0 =>
      (scanUnits .outside rest).map fun (units, rest) => (⟨value * 16 + d, true⟩ :: units, rest)
    | some d, missing + 1 => scanUnits (.digits missing (value * 16 + d)) rest

/-- Two escaped surrogates in a row are one character. -/
def joinSurrogates : List CodeUnit → Text
  | [] => []
  | [u] => [u.code]
  | u :: v :: rest =>
    if u.escaped ∧ v.escaped ∧ 0xD800 ≤ u.code ∧ u.code ≤ 0xDBFF ∧ 0xDC00 ≤ v.code ∧
        v.code ≤ 0xDFFF then
      (0x10000 + (u.code - 0xD800) * 0x400 + (v.code - 0xDC00)) :: joinSurrogates rest
    else u.code :: joinSurrogates (v :: rest)

def scanString : Scanner Text := fun t =>
  match scanUnits .outside t with
  | none => .error .decode
  | some (units, rest) => .ok (joinSurrogates units, rest)

/-- What is spelled so in a string stands for the value, wherever the string goes on. -/
def Spells (spelled value : Text) : Prop :=
  ∀ rest, scanUnits .outside (spelled ++ rest) =
    (scanUnits .outside rest).map fun (units, rest) => (value.map (⟨·, false⟩) ++ units, rest)

theorem Spells.nil : Spells [] [] := by
  intro rest
  show scanUnits .outside rest = (scanUnits .outside rest).map fun (units, rest) => (units, rest)
  cases scanUnits .outside rest <;> rfl

theorem Spells.append {s t v w : Text} (hfront : Spells s v) (hback : Spells t w) :
    Spells (s ++ t) (v ++ w) := by
  intro rest
  rw [List.append_assoc, hfront, hback, Option.map_map]
  congr 1
  funext ⟨units, rest⟩
  simp

theorem Spells.plain {c : Nat} (hquote : c ≠ 34) (hescape : c ≠ 92) (hcontrol : 32 ≤ c) :
    Spells [c] [c] := by
  intro rest
  rw [List.singleton_append, scanUnits, if_neg hquote, if_neg hescape,
    if_neg (Nat.not_lt.mpr hcontrol)]
  rfl

theorem Spells.escape {letter code : Nat} (h : shortEscapes.lookup letter = some code) :
    Spells [92, letter] [code] := by
  intro rest
  have hletter : letter ≠ 117 := by
    rintro rfl
    have hnone : shortEscapes.lookup 117 = none := by decide
    rw [hnone] at h
    cases h
  show scanUnits .begun (letter :: rest) = _
  rw [scanUnits, if_neg hletter, h]
  rfl

theorem Spells.of_forall {t : Text} (h : ∀ c ∈ t, c ≠ 34 ∧ c ≠ 92 ∧ 32 ≤ c) : Spells t t := by
  induction t with
  | nil => exact Spells.nil
  | cons c t ih =>
      obtain ⟨⟨hquote, hescape, hcontrol⟩, ht⟩ := List.forall_mem_cons.mp h
      exact (Spells.plain hquote hescape hcontrol).append (ih ht)

theorem joinSurrogates_plain (t : Text) : joinSurrogates (t.map (⟨·, false⟩)) = t := by
  induction t with
  | nil => rfl
  | cons c t ih =>
      cases t with
      | nil => rfl
      | cons d t =>
          rw [List.map_cons, List.map_cons, joinSurrogates, if_neg fun h => Bool.false_ne_true h.1,
            ← List.map_cons (f := fun c => ({ code := c } : CodeUnit)), ih]

theorem scanString_spells {spelled value : Text} (h : Spells spelled value) (rest : Text) :
    scanString (spelled ++ 34 :: rest) = .ok (value, rest) := by
  have hunits : scanUnits .outside (spelled ++ 34 :: rest) =
      some (value.map (⟨·, false⟩), rest) := by
    rw [h, scanUnits, if_pos rfl]
    exact congrArg (fun units => some (units, rest)) (List.append_nil _)
  rw [scanString, hunits]
  exact congrArg (fun s => Except.ok (s, rest)) (joinSurrogates_plain value)

end Strings

section Numbers

def isDigit (c : Nat) : Bool := 48 ≤ c && c ≤ 57

def span (t : Text) : Text × Text := (t.takeWhile isDigit, t.dropWhile isDigit)

/-- A zero that comes first is the whole integer. -/
def wholePart : Text → Text × Text
  | 48 :: rest => ([48], rest)
  | t => span t

def fraction : Text → Text × Text
  | 46 :: rest =>
    if (span rest).1 = [] then ([], 46 :: rest) else (46 :: (span rest).1, (span rest).2)
  | t => ([], t)

def sign : Text → Text × Text
  | 43 :: rest => ([43], rest)
  | 45 :: rest => ([45], rest)
  | t => ([], t)

def exponent : Text → Text × Text
  | [] => ([], [])
  | c :: rest =>
    if c = 101 ∨ c = 69 then
      let (sgn, body) := sign rest
      if (span body).1 = [] then ([], c :: rest) else (c :: (sgn ++ (span body).1), (span body).2)
    else ([], c :: rest)

/-- The limit on the digits that are converted to an integer. -/
def maxStrDigits : Nat := 4300

def decimal (digits : Text) : Nat := digits.foldl (fun n d => n * 10 + (d - 48)) 0

def scanNumber : Scanner Json := fun t =>
  let (minus, body) := if t.head? = some 45 then ([45], t.tail) else ([], t)
  let (whole, rest) := wholePart body
  if whole = [] then .error .decode
  else
    let (frac, rest) := fraction rest
    let (exp, rest) := exponent rest
    if frac ≠ [] ∨ exp ≠ [] then .ok (.float (minus ++ whole ++ frac ++ exp), rest)
    else if maxStrDigits < whole.length then .error .value
    else .ok (.int (if minus = [] then decimal whole else -decimal whole), rest)

/-- What may stand behind an integer. -/
def EndsNumber (c : Nat) : Prop := isDigit c = false ∧ c ≠ 46 ∧ c ≠ 101 ∧ c ≠ 69

/-- The digits of a number, without zeros in front. -/
structure Decimal (digits : Text) : Prop where
  digit : ∀ d ∈ digits, isDigit d = true
  nonempty : digits ≠ []
  zero : digits.head? = some 48 → digits = [48]
  short : digits.length ≤ maxStrDigits

theorem span_digits {digits : Text} (hdigits : ∀ d ∈ digits, isDigit d = true) {c : Nat}
    (hc : isDigit c = false) (rest : Text) : span (digits ++ c :: rest) = (digits, c :: rest) := by
  have hnot : ¬isDigit c = true := by
    rw [hc]
    exact Bool.false_ne_true
  rw [span, List.takeWhile_append_of_pos hdigits, List.dropWhile_append_of_pos hdigits,
    List.takeWhile_cons_of_neg hnot, List.dropWhile_cons_of_neg hnot, List.append_nil]

theorem wholePart_decimal {digits : Text} (h : Decimal digits) {c : Nat} (hc : isDigit c = false)
    (rest : Text) : wholePart (digits ++ c :: rest) = (digits, c :: rest) := by
  by_cases hzero : digits.head? = some 48
  · rw [h.zero hzero]
    rfl
  · obtain ⟨d, tail, rfl⟩ := List.exists_cons_of_ne_nil h.nonempty
    have hd : d ≠ 48 := fun hd => hzero (congrArg some hd)
    rw [← span_digits h.digit hc rest, List.cons_append, wholePart]
    rintro _ ⟨⟩
    exact hd rfl

theorem fraction_none {c : Nat} (hc : c ≠ 46) (rest : Text) :
    fraction (c :: rest) = ([], c :: rest) := by
  rw [fraction]
  rintro _ ⟨⟩
  exact hc rfl

theorem exponent_none {c : Nat} (hlower : c ≠ 101) (hupper : c ≠ 69) (rest : Text) :
    exponent (c :: rest) = ([], c :: rest) := by
  rw [exponent, if_neg (not_or.mpr ⟨hlower, hupper⟩)]

theorem scanNumber_decimal {digits : Text} (h : Decimal digits) (negative : Bool) {c : Nat}
    (hc : EndsNumber c) (rest : Text) :
    scanNumber ((if negative then [45] else []) ++ digits ++ c :: rest) =
      .ok (.int (if negative then -decimal digits else decimal digits), c :: rest) := by
  obtain ⟨hdigit, hpoint, hlower, hupper⟩ := hc
  have hwhole := wholePart_decimal h hdigit rest
  have hshort : ¬maxStrDigits < digits.length := Nat.not_lt.mpr h.short
  have hbody : (if ((if negative then [45] else []) ++ digits ++ c :: rest).head? = some 45 then
      (([45], ((if negative then [45] else []) ++ digits ++ c :: rest).tail) : Text × Text)
      else ([], (if negative then [45] else []) ++ digits ++ c :: rest)) =
      (if negative then [45] else [], digits ++ c :: rest) := by
    cases negative with
    | true => rfl
    | false =>
        obtain ⟨d, tail, rfl⟩ := List.exists_cons_of_ne_nil h.nonempty
        have hd := h.digit d List.mem_cons_self
        refine if_neg ?_
        rintro ⟨⟩
        revert hd
        decide
  simp only [scanNumber, hbody, hwhole, if_neg h.nonempty, fraction_none hpoint,
    exponent_none hlower hupper, ne_eq, not_true_eq_false, or_self, if_false, if_neg hshort]
  cases negative <;> rfl

end Numbers

section Values

def isBlank (c : Nat) : Bool := c == 32 || c == 9 || c == 10 || c == 13

def skip (t : Text) : Text := t.dropWhile isBlank

def constants : List (Text × Json) :=
  [(text "null", .null), (text "true", .bool true), (text "false", .bool false),
    (text "NaN", .float (text "NaN")), (text "Infinity", .float (text "Infinity")),
    (text "-Infinity", .float (text "-Infinity"))]

/-- A key that is there keeps its place. -/
def setItem (key : Text) (value : Json) : List (Text × Json) → List (Text × Json)
  | [] => [(key, value)]
  | item :: items =>
    if item.1 = key then (key, value) :: items else item :: setItem key value items

/-- The members behind an opening brace or a comma. Each turn takes a quote at least, so that the
length of the text is fuel enough. -/
def scanMembers (scan : Scanner Json) : Nat → List (Text × Json) → Scanner Json
  | fuel + 1, items, 34 :: rest =>
    match scanString rest with
    | .error e => .error e
    | .ok (key, rest) =>
      match skip rest with
      | 58 :: rest =>
        match scan (skip rest) with
        | .error e => .error e
        | .ok (value, rest) =>
          match skip rest with
          | 125 :: rest => .ok (.dict (setItem key value items), rest)
          | 44 :: rest => scanMembers scan fuel (setItem key value items) (skip rest)
          | _ => .error .decode
      | _ => .error .decode
  | _, _, _ => .error .decode

def scanObject (scan : Scanner Json) : Scanner Json := fun t =>
  match skip t with
  | 125 :: rest => .ok (.dict [], rest)
  | rest => scanMembers scan t.length [] rest

def scanItems (scan : Scanner Json) : Nat → List Json → Scanner Json
  | 0, _, _ => .error .decode
  | fuel + 1, items, t =>
    match scan t with
    | .error e => .error e
    | .ok (value, rest) =>
      match skip rest with
      | 93 :: rest => .ok (.list (items ++ [value]), rest)
      | 44 :: rest => scanItems scan fuel (items ++ [value]) (skip rest)
      | _ => .error .decode

def scanArray (scan : Scanner Json) : Scanner Json := fun t =>
  match skip t with
  | 93 :: rest => .ok (.list [], rest)
  | rest => scanItems scan t.length [] rest

/-- A value, with the scanner for what is nested in it. -/
def scanValue (nested : Option (Scanner Json)) : Scanner Json
  | 34 :: rest => (scanString rest).map fun (s, rest) => (.str s, rest)
  | 123 :: rest =>
    match nested with
    | none => .error .recursion
    | some scan => scanObject scan rest
  | 91 :: rest =>
    match nested with
    | none => .error .recursion
    | some scan => scanArray scan rest
  | t =>
    match constants.find? fun constant => constant.1.isPrefixOf t with
    | some constant => .ok (constant.2, t.drop constant.1.length)
    | none => scanNumber t

/-- `depth` objects and arrays may be nested. -/
def scanOnce : Nat → Scanner Json
  | 0 => scanValue none
  | depth + 1 => scanValue (some (scanOnce depth))

/-- A byte order mark is refused. -/
def loads (depth : Nat) (t : Text) : Except LoadError Json :=
  if t.head? = some 0xFEFF then .error .decode
  else
    match scanOnce depth (skip t) with
    | .error e => .error e
    | .ok (value, rest) => if skip rest = [] then .ok value else .error .decode

/-- A value that is spelled so is scanned up to the comma or the brace behind it. -/
def Scans (scan : Scanner Json) (spelled : Text) (value : Json) : Prop :=
  ∀ c rest, c = 44 ∨ c = 125 → scan (skip (spelled ++ c :: rest)) = .ok (value, c :: rest)

theorem skip_cons {c : Nat} (hc : isBlank c = false) (rest : Text) :
    skip (c :: rest) = c :: rest := by
  rw [skip, List.dropWhile_cons_of_neg]
  rw [hc]
  exact Bool.false_ne_true

theorem skip_delimiter {c : Nat} (hc : c = 44 ∨ c = 125) (rest : Text) :
    skip (c :: rest) = c :: rest := by
  rcases hc with rfl | rfl <;> rfl

theorem skip_number {t : Text} (h : ∀ c rest, t = c :: rest → c = 45 ∨ (48 ≤ c ∧ c ≤ 57)) :
    skip t = t := by
  cases t with
  | nil => rfl
  | cons c rest =>
      have hc := h c rest rfl
      refine skip_cons ?_ rest
      simp only [isBlank, Bool.or_eq_false_iff, beq_eq_false_iff_ne]
      omega

theorem scans_str {spelled value : Text} (h : Spells spelled value)
    (nested : Option (Scanner Json)) :
    Scans (scanValue nested) (34 :: (spelled ++ [34])) (.str value) := by
  intro c rest _
  rw [List.cons_append, List.append_assoc, skip_cons rfl]
  show (scanString (spelled ++ 34 :: c :: rest)).map (fun (s, rest) => (Json.str s, rest)) = _
  rw [scanString_spells h]
  rfl

theorem constants_digit {d : Nat} (hd : 48 ≤ d ∧ d ≤ 57) (negative : Bool) (rest : Text) :
    constants.find? (fun constant => constant.1.isPrefixOf
      ((if negative then [45] else []) ++ d :: rest)) = none := by
  have hletters : ∀ constant ∈ constants, ∃ c letters, 57 < c ∧
      (constant.1 = c :: letters ∨ constant.1 = 45 :: c :: letters) := by
    rintro constant (_ | ⟨_, _ | ⟨_, _ | ⟨_, _ | ⟨_, _ | ⟨_, _ | ⟨_, ⟨⟩⟩⟩⟩⟩⟩⟩)
    · exact ⟨_, _, by decide, Or.inl rfl⟩
    · exact ⟨_, _, by decide, Or.inl rfl⟩
    · exact ⟨_, _, by decide, Or.inl rfl⟩
    · exact ⟨_, _, by decide, Or.inl rfl⟩
    · exact ⟨_, _, by decide, Or.inl rfl⟩
    · exact ⟨_, _, by decide, Or.inr rfl⟩
  rw [List.find?_eq_none]
  intro constant hmem
  obtain ⟨c, letters, hc, hconstant | hconstant⟩ := hletters constant hmem
  · cases negative <;> simp [hconstant] <;> omega
  · cases negative <;> simp [hconstant] <;> omega

theorem scans_int {digits : Text} (h : Decimal digits) (negative : Bool)
    (nested : Option (Scanner Json)) :
    Scans (scanValue nested) ((if negative then [45] else []) ++ digits)
      (.int (if negative then -decimal digits else decimal digits)) := by
  intro c rest hc
  have hends : EndsNumber c := by
    rcases hc with rfl | rfl
    · exact ⟨rfl, by decide⟩
    · exact ⟨rfl, by decide⟩
  rw [← scanNumber_decimal h negative hends rest]
  obtain ⟨d, tail, rfl⟩ := List.exists_cons_of_ne_nil h.nonempty
  have hd : 48 ≤ d ∧ d ≤ 57 := by simpa [isDigit] using h.digit d List.mem_cons_self
  have hconstant := constants_digit hd negative (tail ++ c :: rest)
  have hfirst : ∀ e t, (if negative then [45] else []) ++ d :: (tail ++ c :: rest) = e :: t →
      e = 45 ∨ (48 ≤ e ∧ e ≤ 57) := by
    intro e t htext
    cases negative <;> cases htext
    · exact Or.inr hd
    · exact Or.inl rfl
  rw [List.append_assoc, List.cons_append, skip_number hfirst]
  unfold scanValue
  split
  · exact absurd (hfirst _ _ (by assumption)) (by decide)
  · exact absurd (hfirst _ _ (by assumption)) (by decide)
  · exact absurd (hfirst _ _ (by assumption)) (by decide)
  · rw [hconstant]

/-- A member of an object: its value with how that is spelled. -/
structure Member where
  key : Text
  spelled : Text
  value : Json

def membersText : List Member → Text
  | [] => []
  | [m] => 34 :: (m.key ++ 34 :: 58 :: m.spelled)
  | m :: m' :: rest => 34 :: (m.key ++ 34 :: 58 :: (m.spelled ++ 44 :: membersText (m' :: rest)))

def objectText (members : List Member) : Text := 123 :: (membersText members ++ [125])

def setItems (members : List Member) (items : List (Text × Json)) : List (Text × Json) :=
  members.foldl (fun items m => setItem m.key m.value items) items

theorem membersText_cons (m m' : Member) (members : List Member) (rest : Text) :
    membersText (m :: m' :: members) ++ rest =
      34 :: (m.key ++ 34 :: 58 :: (m.spelled ++ 44 :: (membersText (m' :: members) ++ rest))) := by
  simp only [membersText, List.cons_append, List.append_assoc]

theorem length_le_membersText (members : List Member) (rest : Text) :
    members.length ≤ (membersText members ++ rest).length := by
  induction members with
  | nil => exact Nat.zero_le _
  | cons m members ih =>
      cases members with
      | nil => simp [membersText]
      | cons m' members =>
          rw [membersText_cons]
          simp only [List.length_cons, List.length_append] at ih ⊢
          omega

section Objects

variable {scan : Scanner Json} {m : Member}

def Member.Scans (scan : Scanner Json) (m : Member) : Prop :=
  Spells m.key m.key ∧ PythonJson.Scans scan m.spelled m.value

theorem scanMembers_member (hm : m.Scans scan) {c : Nat} (hc : c = 44 ∨ c = 125) (fuel : Nat)
    (items : List (Text × Json)) (rest : Text) :
    scanMembers scan (fuel + 1) items (34 :: (m.key ++ 34 :: 58 :: (m.spelled ++ c :: rest))) =
      if c = 44 then scanMembers scan fuel (setItem m.key m.value items) (skip rest)
      else .ok (.dict (setItem m.key m.value items), rest) := by
  obtain ⟨hkey, hvalue⟩ := hm
  have hcolon := skip_cons (c := 58) rfl (m.spelled ++ c :: rest)
  simp only [scanMembers, scanString_spells hkey, hcolon, hvalue c rest hc, skip_delimiter hc]
  rcases hc with rfl | rfl <;> rfl

theorem scanMembers_membersText {members : List Member} (hne : members ≠ [])
    (hmembers : ∀ m ∈ members, m.Scans scan) (fuel : Nat) (hfuel : members.length ≤ fuel)
    (items : List (Text × Json)) (rest : Text) :
    scanMembers scan fuel items (membersText members ++ 125 :: rest) =
      .ok (.dict (setItems members items), rest) := by
  induction members generalizing fuel items with
  | nil => exact absurd rfl hne
  | cons m members ih =>
      obtain ⟨hm, hrest⟩ := List.forall_mem_cons.mp hmembers
      obtain ⟨fuel, rfl⟩ := Nat.exists_eq_add_one_of_ne_zero (Nat.ne_of_gt (Nat.lt_of_lt_of_le
        (Nat.succ_pos members.length) hfuel))
      cases members with
      | nil =>
          have htext : membersText [m] ++ 125 :: rest =
              34 :: (m.key ++ 34 :: 58 :: (m.spelled ++ 125 :: rest)) := by
            simp only [membersText, List.cons_append, List.append_assoc]
          rw [htext, scanMembers_member hm (Or.inr rfl)]
          rfl
      | cons m' members =>
          have hskip : skip (membersText (m' :: members) ++ 125 :: rest) =
              membersText (m' :: members) ++ 125 :: rest := by
            cases members <;> exact skip_cons rfl _
          rw [membersText_cons, scanMembers_member hm (Or.inl rfl), if_pos rfl, hskip,
            ih (List.cons_ne_nil m' members) hrest fuel (Nat.le_of_succ_le_succ hfuel)]
          rfl

theorem loads_objectText {members : List Member} (depth : Nat) (hne : members ≠ [])
    (hmembers : ∀ m ∈ members, m.Scans (scanOnce depth)) :
    loads (depth + 1) (objectText members) = .ok (.dict (setItems members [])) := by
  have hobject : scanObject (scanOnce depth) (membersText members ++ [125]) =
      .ok (.dict (setItems members []), []) := by
    have hscan := scanMembers_membersText hne hmembers (membersText members ++ [125]).length
      (length_le_membersText members [125]) [] []
    obtain ⟨m, members, rfl⟩ := List.exists_cons_of_ne_nil hne
    cases members <;> exact hscan
  have honce : scanOnce (depth + 1) (skip (objectText members)) =
      .ok (.dict (setItems members []), []) := by
    rw [objectText, skip_cons rfl, scanOnce]
    exact hobject
  rw [loads, if_neg, honce]
  · rfl
  · rintro ⟨⟩

end Objects

end Values

end MobileCore.PythonJson
