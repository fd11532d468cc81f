import Mathlib.Algebra.Group.Nat.Defs
import Mathlib.Data.List.Basic

namespace MobileCore.BigEndian

/-- The number that a row of bytes writes, the highest byte first. -/
def number (bytes : List UInt8) : Nat := bytes.foldl (fun n b => n * 256 + b.toNat) 0

theorem toNat_byte (x : UInt32) {s : UInt32} {d : Nat} (hs : s.toNat < 32) (hd : 2 ^ s.toNat = d) :
    (x >>> s).toUInt8.toNat = x.toNat / d % 256 := by
  rw [UInt32.toNat_toUInt8, UInt32.toNat_shiftRight, Nat.shiftRight_eq_div_pow,
    Nat.mod_eq_of_lt hs, hd]

end MobileCore.BigEndian
