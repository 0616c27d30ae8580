import FlatNet.Feature.Pointwise
import FlatNet.Feature.Resize
import FlatNet.Feature.Window
import FlatNet.Flat.Description
import FlatNet.Flat.Quantize

/-!
Prepared operators.

An operator is prepared once: its operands are looked up, its constants read and scaled.
The evaluation of a prepared operator needs only the values of the tensors it reads.

* `OperatorFault`: why an operator is not prepared;
* `FlatStep`, `FlatModel.step`: prepared operators, and the preparation;
* `FlatStep.eval`: the value of a prepared operator.
-/

namespace FlatNet

/-! ### Errors -/

/-- Why an operator is not prepared. -/
inductive OperatorFault where
  /-- A place is not in its table, or a constant has the wrong size. -/
  | format (e : FormatError)
  /-- An input is missing. -/
  | missingInput (code : Opcode) (n : Nat)
  /-- A tensor is left out that must be there. -/
  | negativeIndex (index : Int)
  /-- There is not exactly one output. -/
  | outputCount (code : Opcode)
  /-- A tensor is no constant. -/
  | noData (name : String)
  /-- The element type and the quantization of a constant do not go together. -/
  | constantType (name : String) (dtype : DType) (q : Option Quantization)
  /-- A constant cannot be read. -/
  | tensor (e : TensorError)
  /-- A filter is not of rank four. -/
  | filterRank
  /-- A convolution per channel has several outputs per channel. -/
  | multiplier (n : UInt32)
  /-- A filter per channel has the wrong shape. -/
  | depthwiseShape
  /-- A concatenation is not along the channels. -/
  | axis (n : Int32)
  /-- The size of a resize is no constant. -/
  | resizeVariable
  /-- The size of a resize is not a height and a width. -/
  | resizeLength
  /-- The size of a resize is negative. -/
  | resizeNegative
  /-- The size of a resize is not that of its output. -/
  | resizeShape (size : Nat × Nat) (output : Shape)
  /-- An operator has the options of another one. -/
  | options (code : Opcode) (given : OperatorOptions)
  deriving DecidableEq, Repr

/-- The wording for a negative number where a size is needed. -/
def negativeText : String := "number too small to fit in target type"

/-- The wording of a fault, followed by the wording of its cause. -/
def OperatorFault.chain : OperatorFault → List String
  | format e => [e.message]
  | missingInput code n => [s!"{code.name} is missing input {n}"]
  | negativeIndex index => [s!"tensor index {index} is negative", negativeText]
  | outputCount code => [s!"{code.name} must have exactly one output"]
  | noData name => [s!"tensor `{name}` has no constant data"]
  | constantType name dtype q =>
    [s!"unsupported constant `{name}`: {dtype.name} with quantization {describeQuantization q}"]
  | tensor e => [e.message]
  | filterRank => ["conv filter must be OHWI"]
  | multiplier n => [s!"depth multiplier {n} is not supported"]
  | depthwiseShape => ["depthwise filter must be [1, kh, kw, c]"]
  | axis n => [s!"only channel concatenation is supported, got axis {n}"]
  | resizeVariable => ["resize size must be a constant"]
  | resizeLength => ["resize size must hold [height, width]"]
  | resizeNegative => [negativeText]
  | resizeShape size output =>
    [s!"resize size {describePair size} disagrees with output shape {output.text}"]
  | options code given => [s!"{code.name} cannot take options {given.text}"]

/-! ### Prepared operators -/

/-- A prepared operator; the tensors it reads are given by their places. -/
inductive FlatStep where
  /-- A convolution. -/
  | conv (input : Nat) (filter : Array Float32) (outChannels : Nat)
      (bias : Option (Array Float32)) (window : Window) (activation : Activation)
  /-- A convolution per channel. -/
  | depthwise (input : Nat) (filter : Array Float32) (bias : Option (Array Float32))
      (window : Window) (activation : Activation)
  /-- A normalisation. -/
  | batchNorm (input : Nat) (params : FeatureMap.Norm) (epsilon : Binary32)
  /-- An activation function. -/
  | activate (input : Nat) (activation : Activation)
  /-- A sum. -/
  | add (lhs rhs : Nat) (activation : Activation)
  /-- A concatenation. -/
  | concat (inputs : List Nat) (activation : Activation)
  /-- A maximum over windows. -/
  | maxPool (input : Nat) (window : Window) (activation : Activation)
  /-- A resize. -/
  | resize (input : Nat) (size : Nat × Nat) (sampling : Sampling)

/-! ### Preparation -/

/-- An outcome of preparing an operator. -/
abbrev PrepareOutcome := Outcome OperatorFault

/-- The place of a tensor that must be there. -/
def placeOf (index : Int32) : PrepareOutcome Nat :=
  if 0 ≤ index.toInt then .value index.toInt.toNat else .error (.negativeIndex index.toInt)

/-- The side of a resized image. -/
def sideOf (n : Int32) : PrepareOutcome Nat :=
  if 0 ≤ n.toInt then .value n.toInt.toNat else .error .resizeNegative

/-- The window of an operator. -/
def windowOf (kernel : Nat × Nat) (strideH strideW : UInt32) (padding : Padding) : Window :=
  ⟨kernel, (strideH.toNat, strideW.toNat), padding⟩

namespace FlatModel

/-- A table lookup inside a preparation. -/
def lookup {α : Type} (x : Except FormatError α) : PrepareOutcome α :=
  (Outcome.ofExcept x).mapError .format

/-- The numbers of a constant operand. -/
def numbers (m : FlatModel) (index : Int32) : PrepareOutcome (Array Float32) := do
  let t ← lookup (m.tensor index)
  let data ← Outcome.orError (.noData t.name) (← lookup (m.constant index))
  match t.dtype, t.quantization with
  | .f32, none =>
    let xs ← (Outcome.ofExcept data.singles).mapError .tensor
    return (xs.map Binary32.value).toArray
  | .i8, some q =>
    let xs ← (Outcome.ofExcept data.smalls).mapError .tensor
    return (← xs.mapM q.number).toArray
  | dtype, q => .error (.constantType t.name dtype q)

/-- The numbers of a constant operand that may be left out. -/
def numbers? (m : FlatModel) (index : Int32) : PrepareOutcome (Option (Array Float32)) :=
  if index.toInt < 0 then .value none else do return some (← m.numbers index)

/-- The place of an input of an operator. -/
def argument (code : Opcode) (op : FlatOperator) (n : Nat) : PrepareOutcome Int32 :=
  Outcome.orError (.missingInput code n) op.inputs[n]?

/-- The size a resize asks for. -/
def resizeSize (m : FlatModel) (index : Int32) : PrepareOutcome (Nat × Nat) := do
  let data ← Outcome.orError .resizeVariable (← lookup (m.constant index))
  match ← (Outcome.ofExcept data.ints).mapError .tensor with
  | [height, width] => return (← sideOf height, ← sideOf width)
  | _ => .error .resizeLength

/-- The prepared form of an operator with the given code, input and output. -/
def stepOf (m : FlatModel) (op : FlatOperator) (code : Opcode) (input : Nat) (output : Int32) :
    PrepareOutcome FlatStep := do
  let arg := argument code op
  match code, op.options with
  | .conv2d, .conv2d padding strideH strideW activation =>
    let filter ← arg 1
    match (← lookup (m.tensor filter)).shape with
    | [out, kh, kw, _] =>
      let weights ← m.numbers filter
      let bias ← m.numbers? (op.inputs[2]?.getD (-1))
      return .conv input weights out bias (windowOf (kh, kw) strideH strideW padding)
        activation.activation
    | _ => .error .filterRank
  | .depthwiseConv2d, .depthwiseConv2d padding strideH strideW multiplier activation =>
    Outcome.require (multiplier = 1) (.multiplier multiplier)
    let filter ← arg 1
    match (← lookup (m.tensor filter)).shape with
    | [1, kh, kw, _] =>
      let weights ← m.numbers filter
      let bias ← m.numbers? (op.inputs[2]?.getD (-1))
      return .depthwise input weights bias (windowOf (kh, kw) strideH strideW padding)
        activation.activation
    | _ => .error .depthwiseShape
  | .batchNorm, .batchNorm epsilon =>
    let gamma ← m.numbers (← arg 1)
    let beta ← m.numbers (← arg 2)
    let mean ← m.numbers (← arg 3)
    let variance ← m.numbers (← arg 4)
    return .batchNorm input ⟨gamma, beta, mean, variance⟩ epsilon
  | .relu, _ => return .activate input .relu
  | .relu6, _ => return .activate input .relu6
  | .logistic, _ => return .activate input .sigmoid
  | .add, .add activation => return .add input (← placeOf (← arg 1)) activation.activation
  | .concatenation, .concatenation axis activation =>
    Outcome.require (axis = 3 || axis = -1) (.axis axis)
    return .concat (← op.inputs.mapM placeOf) activation.activation
  | .maxPool2d, .pool2d padding strideH strideW filterH filterW activation =>
    return .maxPool input (windowOf (filterH.toNat, filterW.toNat) strideH strideW padding)
      activation.activation
  | .resizeBilinear, .resizeBilinear alignCorners halfPixelCenters =>
    let size ← m.resizeSize (← arg 1)
    let shape := (← lookup (m.tensor output)).shape
    Outcome.require (shape.length = 4 && (shape.drop 1).take 2 = [size.1, size.2])
      (.resizeShape size shape)
    return .resize input size ⟨alignCorners, halfPixelCenters⟩
  | code, options => .error (.options code options)

/-- The prepared form of an operator, and the place of its output. -/
def step (m : FlatModel) (op : FlatOperator) : PrepareOutcome (FlatStep × Nat) := do
  let code ← lookup (m.opcode op)
  match op.outputs with
  | [output] =>
    let place ← placeOf output
    let input ← placeOf (← argument code op 0)
    return (← m.stepOf op code input output, place)
  | _ => .error (.outputCount code)

end FlatModel

/-! ### Evaluation -/

/-- The value of a prepared operator, from the values of tensors. -/
def FlatStep.eval {ε : Type} (get : Nat → Outcome ε FeatureMap) (refuse : KernelError → ε) :
    FlatStep → Outcome ε FeatureMap
  | conv input filter out bias w a => do
    ((← get input).conv2d filter out bias w a).mapError refuse
  | depthwise input filter bias w a => do
    ((← get input).depthwiseConv2d filter bias w a).mapError refuse
  | batchNorm input params epsilon => do
    ((← get input).batchNorm params epsilon.value).mapError refuse
  | activate input a => do return (← get input).activate a
  | add lhs rhs a => do
    let x ← get lhs
    let y ← get rhs
    (x.add y a).mapError refuse
  | concat inputs a => do
    let parts ← inputs.mapM get
    return (← (FeatureMap.concat parts).mapError refuse).activate a
  | maxPool input w a => do
    return (← ((← get input).maxPool2d w).mapError refuse).activate a
  | resize input size s => do ((← get input).resizeBilinear size s).mapError refuse

end FlatNet
