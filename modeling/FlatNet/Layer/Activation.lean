import FlatNet.Scalar

/-!
Activation functions.

* `Activation`, `Activation.apply`: the functions and what they do to a number.
-/

namespace FlatNet

/-- An activation function. -/
inductive Activation where
  /-- The identity. -/
  | linear
  /-- The positive part. -/
  | relu
  /-- The positive part, at most six. -/
  | relu6
  /-- The logistic function. -/
  | sigmoid
  deriving DecidableEq, Repr, Inhabited

namespace Activation

/-- The value at a number: NaN has the positive part zero and stays NaN otherwise. -/
def apply : Activation → Float32 → Float32
  | linear, x => x
  | relu, x => Scalar.max x 0
  | relu6, x => Scalar.clamp x 0 6
  | sigmoid, x => 1 / (1 + (-x).exp)

/-- The name of an activation function. -/
def name : Activation → String
  | linear => "linear"
  | relu => "relu"
  | relu6 => "relu6"
  | sigmoid => "sigmoid"

/-- The activation function of a name. -/
def ofName? (s : String) : Option Activation :=
  if s = "linear" then some linear
  else if s = "relu" then some relu
  else if s = "relu6" then some relu6
  else if s = "sigmoid" then some sigmoid
  else none

end Activation

end FlatNet
