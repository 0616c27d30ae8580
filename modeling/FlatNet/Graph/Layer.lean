import FlatNet.Feature.Resize
import FlatNet.Json.Basic
import FlatNet.Layer.Activation

/-!
Layer graphs.

A graph is a list of named layers, each reading layers that stand earlier in the list.  The
batch dimension is implicit throughout.

* `LayerKind`: what a layer computes;
* `Layer`, `Architecture`: named layers and their graph;
* `LayerKind.weights`: the parameters a layer needs;
* `Primitive`, `CustomOps`: the operations behind custom layers.
-/

namespace FlatNet

/-! ### Custom operations -/

/-- A built-in operation that custom operations lower to. -/
inductive Primitive where
  /-- Bilinear resizing to a height and width. -/
  | resizeBilinear (size : Nat × Nat) (sampling : Sampling)
  deriving DecidableEq, Repr, Inhabited

/-- The shape a primitive makes of its input. -/
def Primitive.outputShape : Primitive → Hwc → Hwc
  | .resizeBilinear size _, input => ⟨size.1, size.2, input.channels⟩

/-- A custom operation: the primitive for the arguments of a layer, or why there is none. -/
abbrev CustomOp := Json → Except String Primitive

/-- Custom operations by name. -/
abbrev CustomOps := Table CustomOp

namespace CustomOps

/-- The name of the corner-aligned resize. -/
def resizeName : String := "bilinear_resize"

/-- The size a resize layer asks for, else the fallback. -/
def resizeSize (fallback : Option Nat) (arguments : Json) : Except String Nat :=
  match arguments.member? "size" with
  | some given =>
    match given.natural? with
    | some n => .ok n
    | none => .error "`size` must be a positive integer"
  | none =>
    match fallback with
    | some n => .ok n
    | none => .error "missing `size` argument and no fallback size configured"

/-- Resize to a square with aligned corners. -/
def resize (fallback : Option Nat) : CustomOp := fun arguments => do
  let size ← resizeSize fallback arguments
  if size = 0 then .error "`size` must be greater than zero"
  else .ok (.resizeBilinear (size, size) ⟨true, false⟩)

/-- The operations of an ordinary checkpoint: the resize with an optional fallback size. -/
def standard (fallback : Option Nat) : CustomOps := Table.empty.insert resizeName (resize fallback)

end CustomOps

/-! ### Layers -/

/-- What a layer computes. -/
inductive LayerKind where
  /-- An input image. -/
  | input (shape : Hwc)
  /-- A convolution. -/
  | conv2d (filters : Nat) (window : Window) (activation : Activation) (useBias : Bool)
  /-- A convolution per channel. -/
  | depthwiseConv2d (window : Window) (activation : Activation) (useBias : Bool)
  /-- A normalisation per channel. -/
  | batchNorm (epsilon : Binary32)
  /-- An activation function. -/
  | activation (activation : Activation)
  /-- A sum. -/
  | add
  /-- A concatenation along the channels. -/
  | concat
  /-- A maximum over windows; without steps the windows do not overlap. -/
  | maxPool2d (pool : Nat × Nat) (strides : Option (Nat × Nat)) (padding : Padding)
  /-- A custom operation and its arguments. -/
  | custom (function : String) (arguments : Json)
  deriving Repr, Inhabited

namespace LayerKind

/-- The name of a kind in model files. -/
def className : LayerKind → String
  | input .. => "InputLayer"
  | conv2d .. => "Conv2D"
  | depthwiseConv2d .. => "DepthwiseConv2D"
  | batchNorm .. => "BatchNormalization"
  | activation .. => "Activation"
  | add => "Add"
  | concat => "Concatenate"
  | maxPool2d .. => "MaxPooling2D"
  | custom .. => "Lambda"

/-- The names and shapes of the parameters of a layer with the given input. -/
def weights (kind : LayerKind) (input : Hwc) : List (String × Shape) :=
  match kind with
  | conv2d filters w _ useBias =>
    ("kernel", [w.kernel.1, w.kernel.2, input.channels, filters])
      :: if useBias then [("bias", [filters])] else []
  | depthwiseConv2d w _ useBias =>
    ("depthwise_kernel", [w.kernel.1, w.kernel.2, input.channels, 1])
      :: if useBias then [("bias", [input.channels])] else []
  | batchNorm _ =>
    ["gamma", "beta", "moving_mean", "moving_variance"].map fun name => (name, [input.channels])
  | _ => []

/-- Whether the kind is an input. -/
def isInput : LayerKind → Bool
  | input .. => true
  | _ => false

/-- The window of a maximum. -/
def poolWindow (pool : Nat × Nat) (strides : Option (Nat × Nat)) (padding : Padding) : Window :=
  ⟨pool, strides.getD pool, padding⟩

end LayerKind

/-- A named layer. -/
structure Layer where
  /-- Its name. -/
  name : String
  /-- What it computes. -/
  kind : LayerKind
  /-- The layers it reads, in order. -/
  inbound : List String
  deriving Repr, Inhabited

/-- A layer graph. -/
structure Architecture where
  /-- The name of the model. -/
  name : String
  /-- The layers, each after the layers it reads. -/
  layers : List Layer
  /-- The layers that are fed. -/
  inputs : List String
  /-- The layers that are read off. -/
  outputs : List String
  deriving Repr, Inhabited

/-- The first layer of a name. -/
def Architecture.layer? (a : Architecture) (name : String) : Option Layer :=
  a.layers.find? (·.name = name)

end FlatNet
