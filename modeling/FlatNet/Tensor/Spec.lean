import FlatNet.Scalar
import FlatNet.Tensor.Basic

/-!
Declared inputs and outputs, and probe inputs.

A specification leaves a dimension open by `none`; the batch dimension of an activation is
always open.  A probe is a reproducible input in `[-1, 1)`: a linear congruential sequence
of 64-bit states, whose top 24 bits make the values.

* `TensorSpec`, `ModelSpec`: what a model declares;
* `TensorSpec.probe`: the probe of a batch size and a seed.
-/

namespace FlatNet

/-- A declared input or output. -/
structure TensorSpec where
  /-- Its name. -/
  name : String
  /-- Its element type. -/
  dtype : DType
  /-- Its rank. -/
  rank : Nat
  /-- Its dimensions, `none` where the caller chooses. -/
  dims : List (Option Nat)
  deriving DecidableEq, Repr, Inhabited

/-- The declared inputs and outputs of a model, in order. -/
structure ModelSpec where
  /-- The inputs. -/
  inputs : List TensorSpec
  /-- The outputs. -/
  outputs : List TensorSpec
  deriving DecidableEq, Repr, Inhabited

/-! ### The probe sequence -/

/-- The next state of the sequence. -/
def nextState (s : UInt64) : UInt64 := s * 6364136223846793005 + 1442695040888963407

/-- Extend `acc` by the `n` states after `s`. -/
def statesAfter (acc : Array UInt64) (s : UInt64) : Nat → Array UInt64
  | 0 => acc
  | n + 1 => statesAfter (acc.push (nextState s)) (nextState s) n

/-- The `n` states after a state. -/
def states (s : UInt64) (n : Nat) : List UInt64 := (statesAfter #[] s n).toList

theorem size_statesAfter (acc : Array UInt64) (s : UInt64) (n : Nat) :
    (statesAfter acc s n).size = acc.size + n := by
  induction n generalizing acc s with
  | zero => rfl
  | succ n ih =>
    rw [statesAfter, ih, Array.size_push]
    omega

@[simp] theorem length_states (s : UInt64) (n : Nat) : (states s n).length = n := by
  rw [states, Array.length_toList, size_statesAfter]
  simp

/-- The number in `[0, 1)` made of the top 24 bits of a state. -/
def unitOf (s : UInt64) : Float32 := (s >>> 40).toFloat32 / 16777216

/-- The first state for a seed; it is odd. -/
def firstState (seed : UInt64) : UInt64 := seed * 0x9E3779B97F4A7C15 ||| 1

/-- The probe values of a seed. -/
def probeValues (seed : UInt64) (n : Nat) : List Binary32 :=
  (states (firstState seed) n).map fun s => .ofFloat (unitOf s * 2 - 1)

/-! ### Probes -/

/-- Why no probe is made. -/
inductive ProbeError where
  /-- Only floating-point inputs are probed. -/
  | elementType (dtype : DType) (name : String)
  /-- The values do not make a tensor. -/
  | tensor (e : TensorError)
  deriving Repr, DecidableEq

/-- The wording of an error. -/
def ProbeError.message : ProbeError → String
  | .elementType dtype name => s!"cannot probe {dtype.name} input `{name}`"
  | .tensor e => e.message

namespace TensorSpec

/-- An activation with its batch size left open. -/
def activation (name : String) (height width channels : Nat) : TensorSpec :=
  ⟨name, .f32, 4, [none, some height, some width, some channels]⟩

/-- The probe input of a specification, open dimensions set to `batch`. -/
def probe (spec : TensorSpec) (batch : Nat) (seed : UInt64) : Outcome ProbeError Tensor := do
  Outcome.require (spec.dtype = .f32) (.elementType spec.dtype spec.name)
  let shape := spec.dims.map (·.getD batch)
  let n ← Shape.count shape
  (Outcome.ofExcept (Tensor.ofSingles shape (probeValues seed n))).mapError .tensor

end TensorSpec

end FlatNet
