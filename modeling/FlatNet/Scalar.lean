import FlatNet.Binary

/-!
Arithmetic on 32-bit numbers beyond the four operations.

* `Scalar.max`, `Scalar.clamp`: a maximum that ignores NaN, a clamp that keeps it;
* `Scalar.floor`, `Scalar.ceil`: whole numbers around a number;
* `Scalar.toIndex`: the whole part as an index;
* `Scalar.roundAway`: the nearest integer, halves away from zero.
-/

namespace FlatNet.Scalar

/-- The larger number; NaN only if both are. -/
def max (a b : Float32) : Float32 :=
  if a.isNaN then b else if b.isNaN then a else if a < b then b else a

/-- The number moved into `[lo, hi]`; NaN stays. -/
def clamp (x lo hi : Float32) : Float32 :=
  if x < lo then lo else if hi < x then hi else x

/-- A size as the nearest number. -/
def ofSize (n : Nat) : Float32 := n.toUInt64.toFloat32

/-- An integer as the nearest number. -/
def ofInt (n : Int) : Float32 := if n < 0 then -ofSize n.natAbs else ofSize n.natAbs

/-- From here on every number is whole. -/
def wholeFrom : Float32 := 8388608

/-- A number that is not negative, without its fraction. -/
def whole (x : Float32) : Float32 := if x < wholeFrom then x.toUInt64.toFloat32 else x

/-- The next whole number up, of a number that is not negative. -/
def wholeAbove (x : Float32) : Float32 :=
  if whole x == x then x else whole x + 1

/-- The largest whole number not above; NaN stays. -/
def floor (x : Float32) : Float32 :=
  if 0 ≤ x then whole x else if x < 0 then -wholeAbove (-x) else x

/-- The smallest whole number not below; NaN stays. -/
def ceil (x : Float32) : Float32 :=
  if 0 ≤ x then wholeAbove x else if x < 0 then -whole (-x) else x

/-- The whole part as an index: negative numbers and NaN give zero. -/
def toIndex (x : Float32) : Nat := x.toUInt64.toNat

/-- The nearest integer, halves away from zero; NaN gives zero. -/
def roundAway (x : Float32) : Int :=
  let up (y : Float32) : Nat :=
    if y < wholeFrom then
      let w := y.toUInt64.toNat
      if 0.5 ≤ y - ofSize w then w + 1 else w
    else y.toUInt64.toNat
  if 0 ≤ x then up x else if x < 0 then -(up (-x) : Int) else 0

end FlatNet.Scalar
