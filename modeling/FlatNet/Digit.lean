import FlatNet.Binary

/-!
Digits.

* `Digit.value`, `Digit.hex?`: the values of digits;
* `Digit.number`: the number that digits form;
* `Binary.Format.ofDecimal`: the word nearest to a decimal number.
-/

namespace FlatNet

namespace Digit

/-- The value of a decimal digit. -/
def value (c : Char) : Nat := c.toNat - '0'.toNat

/-- The value of a hexadecimal digit, in either case. -/
def hex? (c : Char) : Option Nat :=
  if c.isDigit then some (value c)
  else if 'a' ≤ c ∧ c ≤ 'f' then some (c.toNat - 'a'.toNat + 10)
  else if 'A' ≤ c ∧ c ≤ 'F' then some (c.toNat - 'A'.toNat + 10)
  else none

/-- The number that digits form in a base, the highest one first. -/
def number (base : Nat) (ds : List Nat) : Nat := ds.foldl (fun acc d => acc * base + d) 0

end Digit

namespace Binary.Format

/-- The number of decimal places beyond which every number is infinite or zero in the formats
in use. -/
def decimalReach : Int := 400

/-- The bit pattern of the number nearest to `significand * 10 ^ exponent`. -/
def ofDecimal (f : Format) (significand : Nat) (exponent : Int) : Nat :=
  let places : Int := exponent + (Nat.toDigits 10 significand).length
  if significand = 0 ∨ places < -decimalReach then 0
  else if decimalReach < places then f.infinity
  else if 0 ≤ exponent then f.nearest (significand * Nat.pow 10 exponent.toNat) 1
  else f.nearest significand (Nat.pow 10 (-exponent).toNat)

end Binary.Format

end FlatNet
