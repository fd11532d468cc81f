import Mathlib.Algebra.Group.Nat.Defs
import Mathlib.Data.List.DropRight

/-!
# Text files as Python reads them

The bytes are decoded, whatever ends a line becomes a newline, and the text is given line by line.
A text is the list of its code points.
-/

namespace MobileCore.TextFiles

abbrev Text := List Nat

def text (s : String) : Text := s.toList.map Char.toNat

section Charsets

/-- Decoding with replacement in an encoding that has the ASCII bytes for the ASCII characters and
for nothing else. -/
structure Charset where
  decode : List UInt8 → Text
  decode_nil : decode [] = []
  decode_ascii : ∀ (front back : List UInt8) (c : UInt8), c.toNat < 0x80 →
    decode (front ++ c :: back) = decode front ++ c.toNat :: decode back
  decode_high : ∀ bytes : List UInt8, (∀ b ∈ bytes, 0x80 ≤ b.toNat) → ∀ c ∈ decode bytes, 0x80 ≤ c

variable (charset : Charset)

theorem Charset.decode_cons {c : UInt8} (hc : c.toNat < 0x80) (rest : List UInt8) :
    charset.decode (c :: rest) = c.toNat :: charset.decode rest := by
  have hsplit := charset.decode_ascii [] rest c hc
  rwa [charset.decode_nil] at hsplit

theorem Charset.decode_append {front : List UInt8} (hfront : ∀ b ∈ front, b.toNat < 0x80)
    (back : List UInt8) :
    charset.decode (front ++ back) = front.map UInt8.toNat ++ charset.decode back := by
  induction front with
  | nil => rfl
  | cons c front ih =>
      obtain ⟨hc, hrest⟩ := List.forall_mem_cons.mp hfront
      rw [List.cons_append, charset.decode_cons hc, ih hrest, List.map_cons, List.cons_append]

theorem Charset.decode_concat (front : List UInt8) {c : UInt8} (hc : c.toNat < 0x80) :
    charset.decode (front ++ [c]) = charset.decode front ++ [c.toNat] := by
  rw [charset.decode_ascii front [] c hc, charset.decode_nil]

/-- The induction takes the bytes up to an ASCII character at a time. -/
theorem ascii_induction {P : List UInt8 → Prop}
    (high : ∀ bytes : List UInt8, (∀ b ∈ bytes, 0x80 ≤ b.toNat) → P bytes)
    (ascii : ∀ (front back : List UInt8) (c : UInt8), c.toNat < 0x80 → P front → P back →
      P (front ++ c :: back)) (bytes : List UInt8) : P bytes := by
  induction hlength : bytes.length using Nat.strong_induction_on generalizing bytes with
  | _ n ih =>
      by_cases hhigh : ∀ b ∈ bytes, 0x80 ≤ b.toNat
      · exact high bytes hhigh
      · push Not at hhigh
        obtain ⟨c, hmem, hc⟩ := hhigh
        obtain ⟨front, back, rfl⟩ := List.append_of_mem hmem
        rw [List.length_append, List.length_cons] at hlength
        exact ascii front back c hc (ih front.length (by omega) front rfl)
          (ih back.length (by omega) back rfl)

/-- The encoding in which every byte stands for itself. -/
def latin1 : Charset where
  decode bytes := bytes.map UInt8.toNat
  decode_nil := rfl
  decode_ascii front back c _ := List.map_append
  decode_high := by
    intro bytes hhigh c hc
    obtain ⟨b, hb, rfl⟩ := List.mem_map.mp hc
    exact hhigh b hb

/-- The ASCII characters of a text are those of its bytes. -/
theorem Charset.mem_of_mem_decode (bytes : List UInt8) {c : Nat} (hc : c < 0x80) :
    c ∈ charset.decode bytes → ∃ b ∈ bytes, b.toNat = c := by
  induction bytes using ascii_induction with
  | high bytes hbytes =>
      intro hmem
      exact absurd (charset.decode_high bytes hbytes c hmem) (Nat.not_le.mpr hc)
  | ascii front back b hb hfront hback =>
      intro hmem
      rw [charset.decode_ascii front back b hb, List.mem_append, List.mem_cons] at hmem
      rcases hmem with hmem | rfl | hmem
      · obtain ⟨b', hb', hvalue⟩ := hfront hmem
        exact ⟨b', List.mem_append_left _ hb', hvalue⟩
      · exact ⟨b, List.mem_append_right front List.mem_cons_self, rfl⟩
      · obtain ⟨b', hb', hvalue⟩ := hback hmem
        exact ⟨b', List.mem_append_right front (List.mem_cons_of_mem b hb'), hvalue⟩

end Charsets

section UTF8

def replacement : Nat := 0xFFFD

/-- A character that is being read: the range that its next byte is in, how many follow that one,
and the value so far. No character is longer than it has to be. -/
structure Sequence where
  low : Nat := 0x80
  high : Nat := 0xBF
  more : Nat
  value : Nat
  low_high : 0x80 ≤ low := by decide
  long : 0x80 ≤ (value * 64 + (low - 0x80)) * 64 ^ more := by decide

/-- What a byte gives that no character is waiting for. -/
def start (b : Nat) : Text × Option Sequence :=
  if b < 0x80 then ([b], none)
  else if h : 0xC2 ≤ b ∧ b ≤ 0xDF then ([], some { more := 0, value := b - 0xC0, long := by omega })
  else if b = 0xE0 then ([], some { low := 0xA0, more := 1, value := 0 })
  else if h : 0xE1 ≤ b ∧ b ≤ 0xEF then
    ([], some {
      high := if b = 0xED then 0x9F else 0xBF
      more := 1
      value := b - 0xE0
      long := by omega })
  else if b = 0xF0 then ([], some { low := 0x90, more := 2, value := 0 })
  else if h : 0xF1 ≤ b ∧ b ≤ 0xF4 then
    ([], some {
      high := if b = 0xF4 then 0x8F else 0xBF
      more := 2
      value := b - 0xF0
      long := by omega })
  else ([replacement], none)

theorem Sequence.long_next {low value more b : Nat} (hlow : low ≤ b)
    (h : 0x80 ≤ (value * 64 + (low - 0x80)) * 64 ^ more) :
    0x80 ≤ (value * 64 + (b - 0x80)) * 64 ^ more :=
  Nat.le_trans h (Nat.mul_le_mul_right _ (by omega))

/-- A byte that does not go on with the character ends it. -/
def Sequence.next (q : Sequence) (b : Nat) : Text × Option Sequence :=
  if h : q.low ≤ b ∧ b ≤ q.high then
    match hmore : q.more with
    | 0 => ([q.value * 64 + (b - 0x80)], none)
    | more + 1 =>
      ([], some {
        more := more
        value := q.value * 64 + (b - 0x80)
        long := by
          have hlong := Sequence.long_next h.1 q.long
          rw [hmore, Nat.pow_succ', ← Nat.mul_assoc] at hlong
          simpa using hlong })
  else (replacement :: (start b).1, (start b).2)

def advance : Option Sequence → Nat → Text × Option Sequence
  | none, b => start b
  | some q, b => q.next b

def decodeFrom : Option Sequence → List UInt8 → Text
  | none, [] => []
  | some _, [] => [replacement]
  | q, b :: rest => (advance q b.toNat).1 ++ decodeFrom (advance q b.toNat).2 rest

theorem advance_ascii (q : Option Sequence) {b : Nat} (hb : b < 0x80) :
    advance q b = (decodeFrom q [] ++ [b], none) := by
  have hstart : start b = ([b], none) := by rw [start, if_pos hb]
  cases q with
  | none => exact hstart
  | some q =>
      have hout : ¬(q.low ≤ b ∧ b ≤ q.high) := by
        have := q.low_high
        omega
      rw [advance, Sequence.next, dif_neg hout, hstart]
      rfl

theorem decodeFrom_ascii (q : Option Sequence) (front back : List UInt8) {c : UInt8}
    (hc : c.toNat < 0x80) :
    decodeFrom q (front ++ c :: back) = decodeFrom q front ++ c.toNat :: decodeFrom none back := by
  induction front generalizing q with
  | nil =>
      rw [List.nil_append, decodeFrom, advance_ascii q hc, List.append_assoc]
      rfl
  | cons b front ih =>
      rw [List.cons_append, decodeFrom, ih, decodeFrom, List.append_assoc]

theorem start_high {b : Nat} (hb : 0x80 ≤ b) : ∀ c ∈ (start b).1, 0x80 ≤ c := by
  have hfirst : (start b).1 = [] ∨ (start b).1 = [replacement] := by
    unfold start
    rw [if_neg (Nat.not_lt.mpr hb)]
    split_ifs
    all_goals first | exact Or.inl rfl | exact Or.inr rfl
  rcases hfirst with hnone | hinvalid
  · rw [hnone]
    exact fun c hc => absurd hc List.not_mem_nil
  · rw [hinvalid]
    intro c hc
    rw [List.mem_singleton.mp hc, replacement]
    omega

theorem Sequence.next_high (q : Sequence) {b : Nat} (hb : 0x80 ≤ b) :
    ∀ c ∈ (q.next b).1, 0x80 ≤ c := by
  intro c hc
  unfold Sequence.next at hc
  split at hc
  · rename_i hnext
    split at hc
    · rename_i hmore
      have hlong := Sequence.long_next hnext.1 q.long
      rw [hmore, Nat.pow_zero, Nat.mul_one] at hlong
      rw [List.mem_singleton] at hc
      rw [hc]
      exact hlong
    · cases hc
  · rcases List.mem_cons.mp hc with rfl | hc
    · decide
    · exact start_high hb c hc

theorem advance_high (q : Option Sequence) {b : Nat} (hb : 0x80 ≤ b) :
    ∀ c ∈ (advance q b).1, 0x80 ≤ c := by
  cases q with
  | none => exact start_high hb
  | some q => exact q.next_high hb

theorem decodeFrom_high (q : Option Sequence) (bytes : List UInt8)
    (hbytes : ∀ b ∈ bytes, 0x80 ≤ b.toNat) : ∀ c ∈ decodeFrom q bytes, 0x80 ≤ c := by
  induction bytes generalizing q with
  | nil =>
      intro c hc
      cases q with
      | none => cases hc
      | some q =>
          obtain rfl := List.mem_singleton.mp hc
          decide
  | cons b bytes ih =>
      obtain ⟨hb, hrest⟩ := List.forall_mem_cons.mp hbytes
      intro c hc
      rw [decodeFrom, List.mem_append] at hc
      rcases hc with hc | hc
      · exact advance_high q hb c hc
      · exact ih _ hrest c hc

def utf8 : Charset where
  decode := decodeFrom none
  decode_nil := rfl
  decode_ascii := fun front back _ hc => decodeFrom_ascii none front back hc
  decode_high := decodeFrom_high none

/-- A euro sign, and two characters that are cut off. -/
example : utf8.decode [0xE2, 0x82, 0xAC, 0xC3, 0x22, 0xE2, 0x82] =
    [0x20AC, 0xFFFD, 0x22, 0xFFFD] := by
  decide +kernel

end UTF8

section Lines

/-- All ends of lines become newlines. -/
def translate : Text → Text
  | [] => []
  | 13 :: 10 :: rest => 10 :: translate rest
  | c :: rest => (if c = 13 then 10 else c) :: translate rest

/-- The lines with their newlines. The last may have none. -/
def splitLines : Text → List Text
  | [] => []
  | c :: rest =>
    if c = 10 then [10] :: splitLines rest
    else
      match splitLines rest with
      | [] => [[c]]
      | line :: lines => (c :: line) :: lines

def isSpace (c : Nat) : Bool :=
  (9 ≤ c && c ≤ 13) || (28 ≤ c && c ≤ 32) || (0x2000 ≤ c && c ≤ 0x200A) ||
    [0x85, 0xA0, 0x1680, 0x2028, 0x2029, 0x202F, 0x205F, 0x3000].contains c

def strip (t : Text) : Text := (t.rdropWhile isSpace).dropWhile isSpace

/-- The lines without the blanks around them, as far as anything is left. -/
def strippedLines (t : Text) : List Text := ((splitLines t).map strip).filter (· ≠ [])

variable {line rest front back : Text}

theorem translate_of_not_mem {t : Text} (h : 13 ∉ t) : translate t = t := by
  induction t using translate.induct with
  | case1 => rfl
  | case2 rest => exact absurd List.mem_cons_self h
  | case3 c rest hpair ih =>
      obtain ⟨hc, hrest⟩ := not_or.mp (mt List.mem_cons.mpr h)
      rw [translate, if_neg (Ne.symm hc), ih hrest]
      exact hpair

theorem splitLines_line (h : 10 ∉ line) :
    splitLines (line ++ 10 :: rest) = (line ++ [10]) :: splitLines rest := by
  induction line with
  | nil => rfl
  | cons c line ih =>
      obtain ⟨hc, hline⟩ := not_or.mp (mt List.mem_cons.mpr h)
      rw [List.cons_append, splitLines, if_neg (Ne.symm hc), ih hline, List.cons_append]

theorem splitLines_last (h : 10 ∉ line) (hne : line ≠ []) : splitLines line = [line] := by
  induction line with
  | nil => exact absurd rfl hne
  | cons c line ih =>
      obtain ⟨hc, hline⟩ := not_or.mp (mt List.mem_cons.mpr h)
      rw [splitLines, if_neg (Ne.symm hc)]
      cases line with
      | nil => rfl
      | cons d line => rw [ih hline (List.cons_ne_nil d line)]

theorem strip_concat_newline (t : Text) : strip (t ++ [10]) = strip t := by
  rw [strip, List.rdropWhile_concat_pos isSpace t 10 rfl, strip]

theorem strip_of_ends {c d : Nat} (hc : isSpace c = false) (hd : isSpace d = false) (t : Text) :
    strip (c :: (t ++ [d])) = c :: (t ++ [d]) := by
  have hlast : ¬isSpace d = true := by rw [hd]; exact Bool.false_ne_true
  rw [strip, ← List.cons_append, List.rdropWhile_concat_neg isSpace (c :: t) d hlast,
    List.cons_append, List.dropWhile_cons_of_neg]
  rw [hc]
  exact Bool.false_ne_true

theorem strippedLines_line (h : 10 ∉ line) :
    strippedLines (line ++ 10 :: rest) = strippedLines line ++ strippedLines rest := by
  by_cases hne : line = []
  · rw [hne]
    rfl
  · rw [strippedLines, splitLines_line h, List.map_cons, strip_concat_newline, strippedLines,
      splitLines_last h hne, strippedLines, ← List.filter_append]
    rfl

/-- No line reaches across a newline. -/
theorem strippedLines_append (front back : Text) :
    strippedLines (front ++ 10 :: back) = strippedLines front ++ strippedLines back := by
  induction hlength : front.length using Nat.strong_induction_on generalizing front with
  | _ n ih =>
      by_cases hmem : 10 ∈ front
      · obtain ⟨line, rest, rfl, hline⟩ := List.eq_append_cons_of_mem hmem
        rw [List.length_append, List.length_cons] at hlength
        rw [List.append_assoc, List.cons_append, strippedLines_line hline,
          ih rest.length (by omega) rest rfl, strippedLines_line hline, List.append_assoc]
      · exact strippedLines_line hmem

end Lines

end MobileCore.TextFiles
