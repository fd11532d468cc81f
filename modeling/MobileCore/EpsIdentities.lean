import Mathlib.Data.List.Induction
import MobileCore.CppText

/-!
# EPS mobile identities

The NAS messages carry an IMSI as a row of half octets. The encoder takes the IMSI as a number and
writes the digits that the number has.
-/

namespace MobileCore.EpsIdentities

open CppText

/-- The country, the network and the subscriber. -/
structure Imsi where
  digits : List Nat
  length_eq : digits.length = 15
  decimal : ∀ d ∈ digits, d < 10

def value (digits : List Nat) : Nat := digits.foldl (fun n d => n * 10 + d) 0

/-- The form in which the simulators keep an IMSI. -/
def Imsi.number (imsi : Imsi) : UInt64 := UInt64.ofNat (value imsi.digits)

def packDigits : Str → List UInt8
  | lo :: hi :: rest => (((hi - 48) <<< 4) ||| (lo - 48)) :: packDigits rest
  | _ => []

def encodeEpsIdImsi (imsi : UInt64) : List UInt8 :=
  match natText imsi.toNat with
  | [] => []
  | first :: rest => (((first - 48) <<< 4) ||| ((1 : UInt8) <<< 3) ||| 0b001) :: packDigits rest

def unpackOctet (b : UInt8) : List Nat := [(b &&& 15).toNat, (b >>> 4).toNat]

/-- The layout of the identity: its type in the low three bits of the first octet, the parity of
the number of digits in the next, a digit in each half octet after that. An even number of digits
leaves the last half octet to a filler. -/
def decodeEpsIdImsi : List UInt8 → Option (List Nat)
  | [] => none
  | first :: rest =>
    let halves := (first >>> 4).toNat :: rest.flatMap unpackOctet
    let odd := first &&& 8 ≠ 0
    let digits := if odd then halves else halves.dropLast
    if first &&& 7 = 1 ∧ (odd ∨ halves.getLast? = some 15) ∧ ∀ d ∈ digits, d < 10 then some digits
    else none

def RoundTrips (imsi : Imsi) : Prop :=
  (encodeEpsIdImsi imsi.number).length = 8 ∧
    decodeEpsIdImsi (encodeEpsIdImsi imsi.number) = some imsi.digits

def digitText (digits : List Nat) : Str := digits.map fun d => UInt8.ofNat (48 + d)

theorem value_snoc (digits : List Nat) (d : Nat) :
    value (digits ++ [d]) = value digits * 10 + d := by
  rw [value, List.foldl_append]
  rfl

theorem value_lt {digits : List Nat} (h : ∀ d ∈ digits, d < 10) :
    value digits < 10 ^ digits.length := by
  induction digits using List.reverseRecOn with
  | nil => exact Nat.one_pos
  | append_singleton digits d ih =>
      have hfront := ih fun e he => h e (List.mem_append_left _ he)
      have hlast := h d (List.mem_append_right _ (List.mem_singleton_self d))
      rw [value_snoc, List.length_append, List.length_singleton, pow_succ]
      omega

theorem value_zero_cons (digits : List Nat) : value (0 :: digits) = value digits := rfl

theorem value_pos {d : Nat} (digits : List Nat) (h : d ≠ 0) : 0 < value (d :: digits) := by
  induction digits using List.reverseRecOn with
  | nil =>
      rw [value, List.foldl_cons, List.foldl_nil]
      omega
  | append_singleton digits e ih =>
      rw [← List.cons_append, value_snoc]
      omega

theorem natText_value {first : Nat} {digits : List Nat} (hfirst : first ≠ 0)
    (h : ∀ d ∈ first :: digits, d < 10) :
    natText (value (first :: digits)) = digitText (first :: digits) := by
  induction digits using List.reverseRecOn with
  | nil =>
      have hvalue : value [first] = first := Nat.zero_add first
      rw [hvalue]
      exact natText_of_lt (h first List.mem_cons_self)
  | append_singleton digits d ih =>
      rw [← List.cons_append] at h ⊢
      have hfront := ih fun e he => h e (List.mem_append_left _ he)
      have hlast := h d (List.mem_append_right _ (List.mem_singleton_self d))
      have hpos := value_pos digits hfirst
      have hdiv : (value (first :: digits) * 10 + d) / 10 = value (first :: digits) := by omega
      have hmod : (value (first :: digits) * 10 + d) % 10 = d := by omega
      rw [value_snoc, natText_of_le (by omega), hdiv, hmod, hfront, digitText, digitText,
        List.map_append]
      rfl

theorem length_packDigits (text : Str) : (packDigits text).length = text.length / 2 := by
  fun_induction packDigits text with
  | case1 lo hi rest ih =>
      rw [List.length_cons, ih, List.length_cons, List.length_cons]
      omega
  | case2 text hshort =>
      rcases text with - | ⟨lo, - | ⟨hi, rest⟩⟩
      · rfl
      · simp
      · exact absurd rfl (hshort lo hi rest)

theorem unpackOctet_pack {lo hi : Nat} (hlo : lo < 10) (hhi : hi < 10) :
    unpackOctet (((UInt8.ofNat (48 + hi) - 48) <<< 4) ||| (UInt8.ofNat (48 + lo) - 48)) =
      [lo, hi] := by
  have hall : ∀ hi < 10, ∀ lo < 10,
      unpackOctet (((UInt8.ofNat (48 + hi) - 48) <<< 4) ||| (UInt8.ofNat (48 + lo) - 48)) =
        [lo, hi] := by decide
  exact hall hi hhi lo hlo

theorem unpack_packDigits {digits : List Nat} (heven : digits.length % 2 = 0)
    (h : ∀ d ∈ digits, d < 10) : (packDigits (digitText digits)).flatMap unpackOctet = digits := by
  induction digits using List.twoStepInduction with
  | nil => rfl
  | singleton d => cases heven
  | cons_cons lo hi rest ih =>
      have hrestEven : rest.length % 2 = 0 := by
        rw [List.length_cons, List.length_cons] at heven
        omega
      have hrest := ih hrestEven fun d hd =>
        h d (List.mem_cons_of_mem lo (List.mem_cons_of_mem hi hd))
      have hpair := unpackOctet_pack (h lo List.mem_cons_self)
        (h hi (List.mem_cons_of_mem lo List.mem_cons_self))
      rw [digitText, List.map_cons, List.map_cons, packDigits, List.flatMap_cons, hpair]
      rw [digitText] at hrest
      rw [hrest]
      rfl

theorem decode_first {first : Nat} (h : first < 10) :
    let octet := ((UInt8.ofNat (48 + first) - 48) <<< 4) ||| ((1 : UInt8) <<< 3) ||| 0b001
    (octet >>> 4).toNat = first ∧ octet &&& 8 ≠ 0 ∧ octet &&& 7 = 1 := by
  revert first
  decide

theorem decode_digitText {first : Nat} {digits : List Nat} (heven : digits.length % 2 = 0)
    (h : ∀ d ∈ first :: digits, d < 10) :
    decodeEpsIdImsi ((((UInt8.ofNat (48 + first) - 48) <<< 4) ||| ((1 : UInt8) <<< 3) ||| 0b001) ::
      packDigits (digitText digits)) = some (first :: digits) := by
  obtain ⟨hdigit, hodd, hkind⟩ := decode_first (h first List.mem_cons_self)
  have hrest := unpack_packDigits heven fun d hd => h d (List.mem_cons_of_mem first hd)
  rw [decodeEpsIdImsi]
  simp only [hdigit, hrest, if_pos hodd]
  exact if_pos ⟨hkind, Or.inl hodd, h⟩

theorem Imsi.toNat_number (imsi : Imsi) : imsi.number.toNat = value imsi.digits := by
  have hlt := value_lt imsi.decimal
  rw [imsi.length_eq] at hlt
  exact UInt64.toNat_ofNat_of_lt' (Nat.lt_trans hlt (by decide))

/-- Of two digits that share no octet the last is lost. -/
theorem length_encodeEpsIdImsi (imsi : UInt64) :
    (encodeEpsIdImsi imsi).length = ((natText imsi.toNat).length + 1) / 2 := by
  rw [encodeEpsIdImsi]
  cases htext : natText imsi.toNat with
  | nil => exact absurd htext (natText_ne_nil _)
  | cons first rest =>
      rw [List.length_cons, length_packDigits, List.length_cons]
      omega

theorem Imsi.exists_digits (imsi : Imsi) :
    ∃ first digits, imsi.digits = first :: digits ∧ digits.length = 14 := by
  have hlength := imsi.length_eq
  cases hdigits : imsi.digits with
  | nil =>
      rw [hdigits] at hlength
      cases hlength
  | cons first digits =>
      rw [hdigits] at hlength
      exact ⟨first, digits, rfl, Nat.succ.inj hlength⟩

/-- The digits of an IMSI are those of its number when the first of them is not zero, and then
only: the number of any other IMSI is too short for the eight octets. -/
theorem roundTrips_iff (imsi : Imsi) : RoundTrips imsi ↔ imsi.digits.head? ≠ some 0 := by
  obtain ⟨first, digits, hdigits, hlength⟩ := imsi.exists_digits
  have hdecimal : ∀ d ∈ first :: digits, d < 10 := hdigits ▸ imsi.decimal
  rw [RoundTrips, length_encodeEpsIdImsi, imsi.toNat_number, hdigits, List.head?_cons]
  constructor
  · rintro ⟨hsize, -⟩ hzero
    obtain rfl := Option.some.inj hzero
    have hshort : value (0 :: digits) < 10 ^ 14 := by
      rw [value_zero_cons, ← hlength]
      exact value_lt fun d hd => hdecimal d (List.mem_cons_of_mem 0 hd)
    have htext := length_natText_le (by decide) hshort
    omega
  · intro hfirst
    have htext := natText_value (fun hzero => hfirst (congrArg some hzero)) hdecimal
    constructor
    · rw [htext, digitText, List.length_map, List.length_cons, hlength]
    · rw [encodeEpsIdImsi, imsi.toNat_number, hdigits, htext]
      exact decode_digitText (by rw [hlength]) hdecimal

/-- The first test subscriber of the test network 001 01. -/
def testImsi : Imsi :=
  ⟨[0, 0, 1, 0, 1, 0, 0, 0, 0, 0, 0, 0, 0, 0, 1], by decide, by decide⟩

/-- 1010000000001 has thirteen digits, which is seven octets. -/
theorem not_roundTrips_testImsi : ¬ RoundTrips testImsi := by
  have hlength : (natText testImsi.number.toNat).length ≤ 13 := by
    apply length_natText_le (by decide)
    decide
  rintro ⟨hsize, -⟩
  rw [length_encodeEpsIdImsi] at hsize
  omega

end MobileCore.EpsIdentities
