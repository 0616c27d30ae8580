/-!
Stored floating-point words.

A stored word is its bit pattern: two words are equal exactly when their bits are, so NaN
payloads and signed zeros survive storage.  Arithmetic happens on `Float32` and `Float`.

* `Binary32`, `Binary64`: the words, with `value` and `ofFloat`;
* `Binary.Format`: the parameters of a binary interchange format;
* `Binary.Format.Magnitude`: a finite word as an integer times a power of two.
-/

namespace FlatNet

/-- A 32-bit floating-point word. -/
structure Binary32 where
  /-- The bit pattern. -/
  bits : UInt32
  deriving DecidableEq, Repr, Inhabited

/-- A 64-bit floating-point word. -/
structure Binary64 where
  /-- The bit pattern. -/
  bits : UInt64
  deriving DecidableEq, Repr, Inhabited

namespace Binary32

/-- The number a word stands for. -/
def value (x : Binary32) : Float32 := Float32.ofBits x.bits

/-- The word of a number. -/
def ofFloat (x : Float32) : Binary32 := ⟨x.toBits⟩

end Binary32

namespace Binary64

/-- The number a word stands for. -/
def value (x : Binary64) : Float := Float.ofBits x.bits

/-- The word of a number. -/
def ofFloat (x : Float) : Binary64 := ⟨x.toBits⟩

end Binary64

namespace Binary

/-- A binary interchange format: a sign, `exponentBits` exponent bits and
`fractionBits` fraction bits. -/
structure Format where
  /-- The width of the exponent field. -/
  exponentBits : Nat
  /-- The width of the fraction field. -/
  fractionBits : Nat

namespace Format

/-- The 32-bit format. -/
def single : Format := ⟨8, 23⟩

/-- The 64-bit format. -/
def double : Format := ⟨11, 52⟩

/-- The exponent of the last place of the smallest numbers. -/
def minExponent (f : Format) : Int :=
  2 - (1 <<< (f.exponentBits - 1) : Nat) - f.fractionBits

/-- The exponent field of infinities and NaNs. -/
def topExponent (f : Format) : Nat := 1 <<< f.exponentBits - 1

/-- The bit pattern of the infinity without a sign. -/
def infinity (f : Format) : Nat := f.topExponent <<< f.fractionBits

/-- A finite magnitude `mantissa * 2 ^ exponent`. -/
structure Magnitude where
  /-- The integer factor. -/
  mantissa : Nat
  /-- The exponent of two. -/
  exponent : Int
  deriving Repr

/-- What a bit pattern stands for, its sign apart. -/
inductive Reading where
  /-- A finite magnitude. -/
  | finite (m : Magnitude)
  /-- An infinity. -/
  | infinite
  /-- Not a number. -/
  | notANumber
  deriving Repr

/-- Whether the sign bit is set. -/
def negative (f : Format) (bits : Nat) : Bool :=
  bits.testBit (f.exponentBits + f.fractionBits)

/-- Read a bit pattern: a zero exponent field has no hidden bit. -/
def read (f : Format) (bits : Nat) : Reading :=
  let fraction := bits % (1 <<< f.fractionBits)
  let field := (bits >>> f.fractionBits) % (1 <<< f.exponentBits)
  if field = f.topExponent then
    if fraction = 0 then .infinite else .notANumber
  else if field = 0 then .finite ⟨fraction, f.minExponent⟩
  else .finite ⟨1 <<< f.fractionBits + fraction, f.minExponent + (field - 1 : Nat)⟩

/-- The bit pattern of the number nearest to `num / den`, ties to the even mantissa; too
large a quotient gives the infinity. -/
def nearest (f : Format) (num den : Nat) : Nat :=
  if num = 0 then 0 else
    let estimate : Int := (num.log2 : Int) - den.log2
    let scaled (e : Int) : Nat × Nat :=
      if 0 ≤ e then (num, den <<< e.toNat) else (num <<< (-e).toNat, den)
    let first := max f.minExponent (estimate - f.fractionBits - 1)
    let (n₀, d₀) := scaled first
    let exponent :=
      if n₀ / d₀ < 1 <<< (f.fractionBits + 1) then first
      else if n₀ / d₀ < 1 <<< (f.fractionBits + 2) then first + 1 else first + 2
    let (n, d) := scaled exponent
    let floor := n / d
    let twice := 2 * (n % d)
    let rounded :=
      if twice < d then floor
      else if d < twice then floor + 1
      else if floor % 2 = 0 then floor else floor + 1
    let steps := (exponent - f.minExponent).toNat
    -- the mantissa carries into the exponent field by itself
    let pattern := steps <<< f.fractionBits + rounded
    min pattern f.infinity

end Format

end Binary

namespace Binary32

/-- What the word stands for, its sign apart. -/
def reading (x : Binary32) : Binary.Format.Reading := Binary.Format.single.read x.bits.toNat

/-- Whether the sign bit is set. -/
def negative (x : Binary32) : Bool := Binary.Format.single.negative x.bits.toNat

/-- Neither an infinity nor a NaN. -/
def finite (x : Binary32) : Bool :=
  match x.reading with
  | .finite _ => true
  | _ => false

end Binary32

namespace Binary64

/-- What the word stands for, its sign apart. -/
def reading (x : Binary64) : Binary.Format.Reading := Binary.Format.double.read x.bits.toNat

/-- Whether the sign bit is set. -/
def negative (x : Binary64) : Bool := Binary.Format.double.negative x.bits.toNat

end Binary64

end FlatNet
