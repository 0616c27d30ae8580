import FlatNet.Flat.Basic
import FlatNet.Scalar

/-!
Symmetric quantization of parameters.

Quantized numbers are integers from -127 to 127, the zero point is zero, and the scale takes
127 to the largest magnitude.

* `Quantize`: which parameters are quantized;
* `quantize`: the integers and the scale of numbers;
* `Quantization.number`: the number an integer stands for.
-/

namespace FlatNet

/-- Which parameters are quantized. -/
inductive Quantize where
  /-- None. -/
  | none
  /-- The kernels of convolutions. -/
  | int8Weights
  deriving DecidableEq, Repr, Inhabited

namespace Quantize

/-- The name of a choice. -/
def name : Quantize → String
  | none => "none"
  | int8Weights => "int8-weights"

/-- The choice of a name. -/
def ofName? (s : String) : Option Quantize :=
  if s = "none" then some none else if s = "int8-weights" then some int8Weights else Option.none

/-- The wording for a name that is none of a choice. -/
def unknownText (s : String) : String :=
  s!"unknown quantization `{s}` (expected `none` or `int8-weights`)"

end Quantize

/-! ### Quantizing -/

/-- The largest magnitude; NaN does not count. -/
def maxMagnitude (xs : List Float32) : Float32 := xs.foldl (fun m x => Scalar.max m x.abs) 0

/-- The scale that takes 127 to a magnitude; one if there is nothing to scale. -/
def scaleOf (magnitude : Float32) : Float32 := if 0 < magnitude then magnitude / 127 else 1

/-- The largest quantized integer. -/
def quantizedLimit : Int := 127

/-- The nearest integer to a scaled number, within the limits. -/
def quantizeNumber (scale x : Float32) : Int :=
  max (-quantizedLimit) (min quantizedLimit (Scalar.roundAway (x / scale)))

/-- The integers of numbers as bytes, and what they stand for. -/
def quantize (xs : List Binary32) : Bytes × Quantization :=
  let values := xs.map Binary32.value
  let scale := scaleOf (maxMagnitude values)
  (values.map fun x => (Int8.ofInt (quantizeNumber scale x)).toUInt8, ⟨.ofFloat scale, 0⟩)

/-! ### Reading back -/

/-- An integer of 32 bits; out of range is a fault. -/
def checkedInt32 {ε : Type} (n : Int) : Outcome ε Int :=
  if -0x80000000 ≤ n ∧ n < 0x80000000 then .value n else .fault

/-- The number an integer stands for. -/
def Quantization.number {ε : Type} (q : Quantization) (n : Int) : Outcome ε Float32 := do
  return Scalar.ofInt (← checkedInt32 (n - q.zeroPoint.toInt)) * q.scale.value

end FlatNet
