import MobileCore.CppText
import Mathlib.Tactic.Positivity

/-!
# Doubles, read from and written as text

A double is kept exactly, as a sign, a mantissa of 53 bits and a binary exponent. `stod` throws
where `strtod` converts nothing or reports a range error.
-/

namespace MobileCore.BinaryFloats

open CppText

structure Finite where
  neg : Bool
  mantissa : Nat
  exponent : Int
  mantissa_lt : mantissa < 2 ^ 53
  exponent_ge : -1074 ≤ exponent
  exponent_le : exponent ≤ 971
deriving DecidableEq

inductive Double where
  | finite (x : Finite)
  | inf (neg : Bool)
  | nan (neg : Bool)
deriving DecidableEq

def zero (neg : Bool) : Double :=
  .finite ⟨neg, 0, 0, by decide, by decide, by decide⟩

/-- The quotient rounded to an integer, ties to even. -/
def roundHalfEven (n d : Nat) : Nat :=
  if 2 * (n % d) < d ∨ (2 * (n % d) = d ∧ n / d % 2 = 0) then n / d else n / d + 1

/-- Numerator and denominator of `n / d` divided by a power of the base. -/
def scale (base n d : Nat) (e : Int) : Nat × Nat :=
  if 0 ≤ e then (n, d * base ^ e.toNat) else (n * base ^ (-e).toNat, d)

/-- The exponent of the leading digit of `n / d`, whose terms have `i` and `j` digits. -/
def leading (base n d i j : Nat) : Int :=
  let e : Int := i - j
  let (p, q) := scale base n d e
  if p < q then e - 1 else e

def leadingBit (n d : Nat) : Int := leading 2 n d n.log2 d.log2

def leadingDigit (n d : Nat) : Int :=
  leading 10 n d (Nat.toDigits 10 n).length (Nat.toDigits 10 d).length

/-- Mantissa and exponent of the nearest double below the largest power of two. -/
def nearest (n d : Nat) : Nat × Int :=
  let e := max (leadingBit n d - 52) (-1074)
  let (p, q) := scale 2 n d e
  let m := roundHalfEven p q
  if m < 2 ^ 53 then (m, e) else (2 ^ 52, e + 1)

/-- A result that is too small for 53 bits and not exact. -/
def underflows (n d : Nat) : Bool :=
  let e := leadingBit n d
  let (p, q) := scale 2 n d (-1074)
  let (p', q') := scale 2 n d (e - 52)
  e < -1022 ∧ ¬(e = -1023 ∧ roundHalfEven p' q' = 2 ^ 53) ∧ p % q ≠ 0

theorem nearest_bounds (n d : Nat) :
    (nearest n d).1 < 2 ^ 53 ∧ -1074 ≤ (nearest n d).2 := by
  rw [nearest]
  split
  rename_i p q hscale
  dsimp only
  split
  · rename_i hsmall
    exact ⟨hsmall, le_max_right _ _⟩
  · have hlow : (-1074 : Int) ≤ max (leadingBit n d - 52) (-1074) := le_max_right _ _
    constructor
    · show 2 ^ 52 < 2 ^ 53
      decide
    · show (-1074 : Int) ≤ max (leadingBit n d - 52) (-1074) + 1
      omega

/-- The double of a fraction; `none` for a range error. -/
def ofFraction (neg : Bool) (n d : Nat) : Option Double :=
  if n = 0 then some (zero neg)
  else if h : (nearest n d).2 ≤ 971 then
    if underflows n d then none
    else some (.finite ⟨neg, (nearest n d).1, (nearest n d).2, (nearest_bounds n d).1,
      (nearest_bounds n d).2, h⟩)
  else none

def ofNat (n : Nat) : Double := (ofFraction false n 1).getD (.inf false)

/-- The digits of a numeral with an optional point: their value, how many stand behind the point,
and what follows. -/
def numeral (base : Nat) (text : Str) : Option (Nat × Nat × Str) :=
  let whole := digitPrefix base text
  let (frac, rest) :=
    match text.drop whole.length with
    | 46 :: rest => (digitPrefix base rest, rest.drop (digitPrefix base rest).length)
    | rest => ([], rest)
  match whole ++ frac with
  | [] => none
  | ds => some (ds.foldl (fun n d => n * base + d) 0, frac.length, rest)

def exponentPart (marks : Str) : Str → Int
  | [] => 0
  | c :: rest =>
    if c ∈ marks then
      match rest with
      | 45 :: ds => -(((unsignedPrefix 10 ds).getD 0 : Nat) : Int)
      | 43 :: ds => ((unsignedPrefix 10 ds).getD 0 : Nat)
      | ds => ((unsignedPrefix 10 ds).getD 0 : Nat)
    else 0

def decimal (neg : Bool) (text : Str) : Option Double :=
  match numeral 10 text with
  | none => none
  | some (n, k, rest) =>
    let (p, q) := scale 10 n 1 (k - exponentPart (lit "eE") rest)
    ofFraction neg p q

/-- The number behind `0x`; without a digit there the text is the number zero. -/
def hexadecimal (neg : Bool) (text : Str) : Option Double :=
  match numeral 16 text with
  | none => some (zero neg)
  | some (n, k, rest) =>
    let (p, q) := scale 2 n 1 (4 * k - exponentPart (lit "pP") rest)
    ofFraction neg p q

def lower (c : UInt8) : UInt8 := if 65 ≤ c ∧ c ≤ 90 then c + 32 else c

def magnitude (neg : Bool) (text : Str) : Option Double :=
  if lit "inf" <+: text.map lower then some (.inf neg)
  else if lit "nan" <+: text.map lower then some (.nan neg)
  else if lit "0x" <+: text.map lower then hexadecimal neg (text.drop 2)
  else decimal neg text

def stod (text : Str) : Option Double :=
  match text.dropWhile isSpace with
  | 45 :: rest => magnitude true rest
  | 43 :: rest => magnitude false rest
  | rest => magnitude false rest

namespace Finite

def fraction (x : Finite) : Nat × Nat := scale 2 x.mantissa 1 (-x.exponent)

end Finite

def Double.gt : Double → Nat → Bool
  | .finite x, n => !x.neg && n * x.fraction.2 < x.fraction.1
  | .inf neg, _ => !neg
  | .nan _, _ => false

/-- The conversion to `int`; values without one become the smallest, as the instruction has it. -/
def Double.toInt : Double → Int
  | .finite x =>
    let n : Int := (x.fraction.1 / x.fraction.2 : Nat)
    let n := if x.neg then -n else n
    if -2 ^ 31 ≤ n ∧ n < 2 ^ 31 then n else -2 ^ 31
  | _ => -2 ^ 31

def signed (neg : Bool) (text : Str) : Str := if neg then 45 :: text else text

def stripZeros (text : Str) : Str := (text.reverse.dropWhile (· == 48)).reverse

def withPoint (whole frac : Str) : Str :=
  if stripZeros frac = [] then whole else whole ++ lit "." ++ stripZeros frac

/-- Six significant digits, without trailing zeros, as `operator<<` writes a double. -/
def general (n d : Nat) : Str :=
  let x := leadingDigit n d
  let (p, q) := scale 10 n d (x - 5)
  let m := roundHalfEven p q
  let (digits, x) := if m < 10 ^ 6 then (natText m, x) else (natText (10 ^ 5), x + 1)
  if x < -4 ∨ 6 ≤ x then
    let sign := if x < 0 then lit "-" else lit "+"
    withPoint (digits.take 1) (digits.drop 1) ++ lit "e" ++ sign ++
      padLeft 2 48 (natText x.natAbs)
  else if 0 ≤ x then withPoint (digits.take (x.toNat + 1)) (digits.drop (x.toNat + 1))
  else withPoint (lit "0") (List.replicate ((-x).toNat - 1) 48 ++ digits)

def flt : Double → Str
  | .finite x =>
    signed x.neg (if x.mantissa = 0 then lit "0" else general x.fraction.1 x.fraction.2)
  | .inf neg => signed neg (lit "inf")
  | .nan neg => signed neg (lit "nan")

end MobileCore.BinaryFloats
