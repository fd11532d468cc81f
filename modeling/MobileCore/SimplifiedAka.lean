import MobileCore.CppText

namespace MobileCore.SimplifiedAka

open MobileCore.CppText

/-- The home network, `PLMN_MCC` and `PLMN_MNC` with their defaults. -/
structure Plmn where
  mcc : Str := lit "404"
  mnc : Str := lit "10"

def plmnDomain (plmn : Plmn) : Str :=
  let m := if plmn.mnc.length = 2 then lit "0" ++ plmn.mnc else plmn.mnc
  lit "mnc" ++ m ++ lit ".mcc" ++ plmn.mcc

def msin (ueId : Int) : Str := padLeft 10 48 (intText ueId)

def suci (plmn : Plmn) (ueId : Int) : Str :=
  lit "suci-0-" ++ plmn.mcc ++ lit "-" ++ plmn.mnc ++ lit "-0000-0-0-" ++ msin ueId

def msinFromSuci (s : Str) : Str := (afterLast 45 s).getD []

/-- Pairs of hex digits; a last unpaired digit is not read. -/
def fromHex : Str → Option (List UInt8)
  | a :: b :: rest =>
    match stoul 16 [a, b] with
    | none => none
    | some n => (fromHex rest).map (n.toUInt8 :: ·)
  | _ => some []

def hexDigit (n : Nat) : UInt8 := (lit "0123456789abcdef").getD n 0

def toHex (v : List UInt8) : Str :=
  v.flatMap fun b => [hexDigit (b.toNat / 16), hexDigit (b.toNat % 16)]

def xorBytes (a b : List UInt8) : List UInt8 :=
  a.mapIdx fun i x => x ^^^ b.getD (i % b.length) 0

def byteXor (aHex bHex : Str) : Option Str :=
  match fromHex aHex, fromHex bHex with
  | some a, some b => some (toHex (xorBytes a b))
  | _, _ => none

/-- The long-term key of a subscriber, from the last character of its MSIN. -/
def kFor (msin : Str) : Str :=
  let base := lit "00112233445566778899aabbccddee0"
  let last : UInt8 :=
    match msin.getLast? with
    | none => 0
    | some c => c - 48
  base.dropLast ++ [(lit "0123456789abcdef").getD (last &&& 0xF).toNat 0]

/-- RES* as the UE computes it in `doRegistration`. -/
def resStar (msin rand : Str) : Option Str := byteXor rand (kFor msin)

/-- XRES* as the UDM computes it in `handleAuthDataRequest`. -/
def xresStar (suci rnd : Str) : Option Str := byteXor rnd (kFor (msinFromSuci suci))

theorem fromHex_append (xs ys : Str) (heven : xs.length % 2 = 0) :
    fromHex (xs ++ ys) = (fromHex xs).bind fun a => (fromHex ys).map (a ++ ·) := by
  induction xs using fromHex.induct with
  | case1 a b rest hthrow => simp [fromHex, hthrow]
  | case2 a b rest n hn ih =>
      have hrest : rest.length % 2 = 0 := by
        simp only [List.length_cons] at heven
        omega
      simp only [List.cons_append, fromHex, hn, ih hrest]
      cases fromHex rest <;> cases fromHex ys <;> rfl
  | case3 xs hshort =>
      cases xs with
      | nil => simp [fromHex]
      | cons a rest =>
          cases rest with
          | nil => simp at heven
          | cons b rest => exact absurd rfl (hshort a b rest)

theorem stoul_hexDigits (high low : Nat) (hhigh : high < 16) (hlow : low < 16) :
    stoul 16 [hexDigit high, hexDigit low] = some (16 * high + low) := by
  have hall : ∀ high < 16, ∀ low < 16,
      stoul 16 [hexDigit high, hexDigit low] = some (16 * high + low) := by decide +kernel
  exact hall high hhigh low hlow

theorem fromHex_toHex (v : List UInt8) : fromHex (toHex v) = some v := by
  induction v with
  | nil => rfl
  | cons b v ih =>
      have hb : b.toNat < 256 := b.toNat_lt
      have hpair := stoul_hexDigits (b.toNat / 16) (b.toNat % 16) (by omega) (by omega)
      rw [Nat.div_add_mod] at hpair
      change fromHex (hexDigit (b.toNat / 16) :: hexDigit (b.toNat % 16) :: toHex v) = _
      simp only [fromHex, hpair, ih, Option.map_some]
      simp

/-- The fifteen bytes every key string decodes to. -/
def sharedKey : List UInt8 :=
  [0x00, 0x11, 0x22, 0x33, 0x44, 0x55, 0x66, 0x77, 0x88, 0x99, 0xaa, 0xbb, 0xcc, 0xdd, 0xee]

/-- The subscriber digit is the unpaired last digit of the key string, so decoding drops it. -/
theorem fromHex_kFor (msin : Str) : fromHex (kFor msin) = some sharedKey := by
  have hbase : fromHex (lit "00112233445566778899aabbccddee0").dropLast = some sharedKey := by
    decide +kernel
  unfold kFor
  rw [fromHex_append _ _ (by decide), hbase]
  rfl

theorem byteXor_kFor (rand : List UInt8) (msin : Str) :
    byteXor (toHex rand) (kFor msin) = some (toHex (xorBytes rand sharedKey)) := by
  simp only [byteXor, fromHex_toHex, fromHex_kFor]

/-- Whatever the two subscriber keys and the challenge are, one UE's RES* is the other's XRES*. -/
theorem resStar_eq_xresStar (msin suci : Str) (rand : List UInt8) :
    ∃ answer, resStar msin (toHex rand) = some answer ∧
      xresStar suci (toHex rand) = some answer :=
  ⟨_, byteXor_kFor rand msin, byteXor_kFor rand (msinFromSuci suci)⟩

/-- UE 1 answers a challenge meant for UE 2, whose key is another string. -/
theorem ue1_answers_challenge_of_ue2 :
    kFor (msin 1) ≠ kFor (msinFromSuci (suci {} 2)) ∧
      resStar (msin 1) (toHex (List.replicate 16 0)) =
        xresStar (suci {} 2) (toHex (List.replicate 16 0)) := by
  refine ⟨by decide +kernel, ?_⟩
  rw [resStar, xresStar, byteXor_kFor, byteXor_kFor]

end MobileCore.SimplifiedAka
