import FlatNet.Layer.Window
import FlatNet.Tensor.Basic

/-!
Feature maps: batches of images.

Elements are stored by image, row, column and channel, the channel running fastest.

* `FeatureMap`, `FeatureMap.make`: feature maps, and the check of their length;
* `FeatureMap.at`, `FeatureMap.pixel`: an element, and the channels of a pixel;
* `FeatureMap.tabulate`: the feature map of a function of the position;
* `FeatureMap.ofTensor`, `FeatureMap.toTensor`: tensors of rank four;
* `KernelError`: why an operation on feature maps is refused.
-/

namespace FlatNet

/-- A batch of images. -/
structure FeatureMap where
  /-- The number of images. -/
  batch : Nat
  /-- The shape of each. -/
  hwc : Hwc
  /-- The elements. -/
  data : Array Float32

/-- Why an operation on feature maps is refused. -/
inductive KernelError where
  /-- The number of elements does not match the shape. -/
  | elementCount (found : Nat) (expected : Option Nat) (batch : Nat) (hwc : Hwc)
  /-- A tensor is not of rank four. -/
  | rank (shape : Shape)
  /-- A tensor is refused. -/
  | tensor (e : TensorError)
  /-- The number of elements of a result is no size. -/
  | tooLarge (batch : Nat) (hwc : Hwc)
  /-- There is no memory for a result. -/
  | allocation (count batch : Nat) (hwc : Hwc)
  /-- A convolution filter has the wrong length. -/
  | convFilter (found outChannels : Nat) (kernel : Nat × Nat) (channels : Nat)
  /-- A convolution bias has the wrong length. -/
  | convBias
  /-- A depthwise filter has the wrong length. -/
  | depthwiseFilter (found : Nat) (kernel : Nat × Nat) (channels : Nat)
  /-- A depthwise bias has the wrong length. -/
  | depthwiseBias
  /-- A side or a step of a window is zero. -/
  | degenerateWindow
  /-- A window does not fit its input. -/
  | windowMisfit (kernel : Nat × Nat) (input : Hwc)
  /-- A normalisation parameter has the wrong length. -/
  | normLength (name : String) (found expected : Nat)
  /-- The operands of a sum differ in shape. -/
  | addMismatch (lhs rhs : Hwc)
  /-- Nothing is to be concatenated. -/
  | concatEmpty
  /-- Concatenated images differ in size. -/
  | concatMismatch
  /-- A resize has an empty target. -/
  | resizeEmpty
  /-- A resize asks for two ways to place pixel centres. -/
  | resizeModes
  /-- A kernel to be transposed has the wrong length. -/
  | kernelLength (found : Nat) (dims : List Nat)
  deriving Repr, DecidableEq

/-- The wording of an error, followed by the wording of its cause. -/
def KernelError.chain : KernelError → List String
  | elementCount found expected batch hwc =>
    [s!"feature map holds {found} values, expected {describeSize expected} for batch {batch} of "
      ++ hwc.text]
  | rank shape => ["expected NHWC tensor, got shape " ++ shape.text]
  | tensor e => [e.message]
  | tooLarge batch hwc => [s!"feature map of batch {batch} and {hwc.text} is too large"]
  | allocation count batch hwc =>
    [s!"cannot allocate {count} values for batch {batch} of {hwc.text}",
      "memory allocation failed because the computed capacity exceeded the collection's maximum"]
  | convFilter found out kernel channels =>
    [s!"conv filter has {found} values, expected {out}x{kernel.1}x{kernel.2}x{channels}"]
  | convBias => ["conv bias length mismatch"]
  | depthwiseFilter found kernel channels =>
    [s!"depthwise filter has {found} values, expected {kernel.1}x{kernel.2}x{channels}"]
  | depthwiseBias => ["depthwise bias length mismatch"]
  | degenerateWindow => ["kernel size and strides must be non-zero"]
  | windowMisfit kernel input =>
    [s!"window {describePair kernel} does not fit input {input.text}"]
  | normLength name found expected =>
    [s!"batch norm {name} has {found} values, expected {expected}"]
  | addMismatch lhs rhs => [s!"add operands differ: {lhs.text} vs {rhs.text}"]
  | concatEmpty => ["nothing to concatenate"]
  | concatMismatch => ["concatenated inputs differ spatially"]
  | resizeEmpty => ["resize target must be non-empty"]
  | resizeModes => ["align_corners and half_pixel_centers are mutually exclusive"]
  | kernelLength found dims => [s!"kernel has {found} values, expected {Shape.text dims}"]

/-- An outcome of an operation on feature maps. -/
abbrev KernelOutcome := Outcome KernelError

/-! ### Lengths -/

/-- The number of elements of a batch of images, or `none` if a partial product is no
size. -/
def elementCount? (batch : Nat) (hwc : Hwc) : Option Nat :=
  Size.product? batch [hwc.height, hwc.width, hwc.channels]

/-- The largest number of bytes that can be allocated. -/
def maxAllocation : Nat := 0x7fffffffffffffff

/-- Make room for a result. -/
def reserve (batch : Nat) (hwc : Hwc) : KernelOutcome Unit :=
  match elementCount? batch hwc with
  | none => .error (.tooLarge batch hwc)
  | some n => if 4 * n ≤ maxAllocation then .value () else .error (.allocation n batch hwc)

namespace FeatureMap

/-- The feature map of as many elements as its shape says. -/
def make (batch : Nat) (hwc : Hwc) (data : Array Float32) : KernelOutcome FeatureMap :=
  if elementCount? batch hwc = some data.size then .value ⟨batch, hwc, data⟩
  else .error (.elementCount data.size (elementCount? batch hwc) batch hwc)

/-- Whether a feature map has as many elements as its shape says. -/
def WellSized (m : FeatureMap) : Prop := elementCount? m.batch m.hwc = some m.data.size

/-! ### Elements -/

/-- The place of an element. -/
def index {ε : Type} (m : FeatureMap) (n y x c : Nat) : Outcome ε Nat := do
  let row ← Size.add (← Size.mul n m.hwc.height) y
  let pixel ← Size.add (← Size.mul row m.hwc.width) x
  Size.add (← Size.mul pixel m.hwc.channels) c

/-- The element at an image, row, column and channel. -/
def «at» {ε : Type} (m : FeatureMap) (n y x c : Nat) : Outcome ε Float32 := do
  Outcome.orFault m.data[← m.index n y x c]?

/-- A part of an array, which must lie inside. -/
def part {ε α : Type} (xs : Array α) (start count : Nat) : Outcome ε (Array α) :=
  if start + count ≤ xs.size then .value (xs.extract start (start + count)) else .fault

/-- The channels of a pixel. -/
def pixel {ε : Type} (m : FeatureMap) (n y x : Nat) : Outcome ε (Array Float32) := do
  part m.data (← m.index n y x 0) m.hwc.channels

/-- The image, row, column and channel of a place. -/
def position (hwc : Hwc) (i : Nat) : Nat × Nat × Nat × Nat :=
  let pixel := i / hwc.channels
  let row := pixel / hwc.width
  (row / hwc.height, row % hwc.height, pixel % hwc.width, i % hwc.channels)

/-- The feature map whose element at every position is given by a function. -/
def tabulate (batch : Nat) (hwc : Hwc) (f : Nat → Nat → Nat → Nat → KernelOutcome Float32) :
    KernelOutcome FeatureMap := do
  reserve batch hwc
  let count := batch * hwc.height * hwc.width * hwc.channels
  let data ← (List.range count).mapM fun i =>
    let (n, y, x, c) := position hwc i
    f n y x c
  make batch hwc data.toArray

/-! ### Tensors -/

/-- The feature map of a tensor of rank four. -/
def ofTensor (t : Tensor) : KernelOutcome FeatureMap :=
  match t.shape with
  | [n, h, w, c] => do
    let xs ← (Outcome.ofExcept t.singles).mapError .tensor
    make n ⟨h, w, c⟩ (xs.map Binary32.value).toArray
  | shape => .error (.rank shape)

/-- The tensor of a feature map. -/
def toTensor (m : FeatureMap) : KernelOutcome Tensor :=
  (Outcome.ofExcept (Tensor.ofSingles [m.batch, m.hwc.height, m.hwc.width, m.hwc.channels]
    (m.data.toList.map Binary32.ofFloat))).mapError .tensor

end FeatureMap

end FlatNet
