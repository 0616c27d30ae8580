import FlatNet.Feature.Window
import FlatNet.Flat.Quantize
import FlatNet.Graph.Model

/-!
Layers as short operator programs.

A layer lowers to a fragment: it is a source, another name of an earlier value, or a program
of constants and instructions.  Each instruction reads values of earlier layers, constants
of its program and the result of the instruction before it; the last one gives the value of
the layer.

* `Constant`, `Operand`, `Instruction`, `Fragment`: the parts;
* `LoweringError`: why a model is not lowered;
* `Layer.fragment`: the fragment of a layer.
-/

namespace FlatNet

/-! ### Parts -/

/-- A constant tensor. -/
structure Constant where
  /-- Its name. -/
  name : String
  /-- Its element type. -/
  dtype : DType
  /-- Its dimensions. -/
  shape : Shape
  /-- Its data. -/
  data : Bytes
  /-- How its integers are meant. -/
  quantization : Option Quantization
  deriving DecidableEq, Repr, Inhabited

/-- What an instruction reads. -/
inductive Operand where
  /-- The value of an earlier layer, by the place of its tensor. -/
  | value (index : Int32)
  /-- A constant of the program, counted from zero. -/
  | constant (k : Nat)
  /-- The result of the instruction before. -/
  | result
  /-- Nothing. -/
  | absent
  deriving DecidableEq, Repr, Inhabited

/-- An instruction. -/
structure Instruction where
  /-- What it computes. -/
  code : Opcode
  /-- What it reads. -/
  operands : List Operand
  /-- Its options. -/
  options : OperatorOptions
  /-- The name of its result. -/
  output : String
  deriving DecidableEq, Repr, Inhabited

/-- The lowered form of a layer. -/
inductive Fragment where
  /-- The layer is fed. -/
  | source
  /-- The layer has the value of an earlier one. -/
  | same (index : Int32)
  /-- The layer is computed. -/
  | program (constants : List Constant) (instructions : List Instruction)
  deriving DecidableEq, Repr, Inhabited

/-! ### Errors -/

/-- A number that must fit its place in a flat model. -/
inductive Quantity where
  /-- A step of a window. -/
  | stride
  /-- A side of a window. -/
  | poolSize
  /-- A side of a resized image. -/
  | resizeSize
  /-- A dimension of a tensor. -/
  | dimension
  deriving DecidableEq, Repr

/-- The name of a number. -/
def Quantity.text : Quantity → String
  | stride => "stride"
  | poolSize => "pool size"
  | resizeSize => "resize size"
  | dimension => "dimension"

/-- Why a layer has no lowered form. -/
inductive Unsupported where
  /-- A layer has no value. -/
  | noValue
  /-- A layer has no shape. -/
  | noShape
  /-- A parameter cannot be read. -/
  | weight (param : String)
  /-- A kernel cannot be transposed. -/
  | kernel (e : KernelError)
  /-- A number does not fit. -/
  | range (quantity : Quantity) (value : Nat)
  /-- A resize asks for two ways to place pixel centres. -/
  | resizeModes
  deriving DecidableEq, Repr

/-- The wording of a reason. -/
def Unsupported.text : Unsupported → String
  | noValue => "output was never produced"
  | noShape => "no inferred shape"
  | weight param => s!"unreadable weight `{param}`"
  | kernel e => ": ".intercalate e.chain
  | range quantity value => s!"{quantity.text} {value} exceeds the flat format range"
  | resizeModes => "RESIZE_BILINEAR with both align_corners and half_pixel_centers"

/-- Why a model is not lowered. -/
inductive LoweringError where
  /-- A custom operation is not registered. -/
  | unresolvedOperation (layer function : String)
  /-- A layer has no lowered form. -/
  | unsupported (layer : String) (reason : Unsupported)
  /-- The model is invalid. -/
  | invalidGraph (e : GraphError)
  deriving DecidableEq, Repr

/-- The wording of an error. -/
def LoweringError.message : LoweringError → String
  | unresolvedOperation layer function =>
    s!"layer `{layer}` uses custom operation `{function}` which is not registered"
  | unsupported layer reason => s!"layer `{layer}`: unsupported operation {reason.text}"
  | invalidGraph _ => "graph cannot be lowered"

/-- The error of an invalid graph. -/
def LoweringError.ofGraph : GraphError → LoweringError
  | .unresolvedOperation layer function => unresolvedOperation layer function
  | e => invalidGraph e

/-- An outcome of lowering. -/
abbrev LoweringOutcome := Outcome LoweringError

/-! ### Numbers -/

/-- A number as a 32-bit word. -/
def narrow (layer : String) (quantity : Quantity) (n : Nat) : LoweringOutcome UInt32 :=
  if n < 0x100000000 then .value (UInt32.ofNat n) else .error (.unsupported layer (.range quantity n))

/-- A number as a signed 32-bit word. -/
def narrowSigned (layer : String) (quantity : Quantity) (n : Nat) : LoweringOutcome Int32 :=
  if n < 0x80000000 then .value (Int32.ofNat n) else .error (.unsupported layer (.range quantity n))

/-- A fused activation function, and whether the logistic function must follow. -/
def fuse : Activation → FusedActivation × Bool
  | .linear => (.none, false)
  | .relu => (.relu, false)
  | .relu6 => (.relu6, false)
  | .sigmoid => (.none, true)

/-! ### Constants -/

/-- The shape of a planned layer. -/
def GraphPlan.shapeOf (p : GraphPlan) (layer : String) : LoweringOutcome Hwc :=
  Outcome.orError (.unsupported layer .noShape) (p.shape? layer)

/-- The words of a parameter. -/
def Model.weightWords (m : Model) (layer param : String) : LoweringOutcome (List Binary32) := do
  let unreadable := LoweringError.unsupported layer (.weight param)
  let t ← Outcome.orError unreadable (m.weight? layer param)
  (Outcome.ofExcept t.singles).mapError fun _ => unreadable

/-- A constant of floating-point words. -/
def Constant.ofSingles (name : String) (shape : Shape) (xs : List Binary32) : Constant :=
  ⟨name, .f32, shape, Bytes.ofSingles xs, none⟩

/-- The kernel of a convolution, quantized if so chosen. -/
def Constant.kernel (q : Quantize) (name : String) (shape : Shape) (xs : List Binary32) :
    Constant :=
  match q with
  | .none => ofSingles name shape xs
  | .int8Weights =>
    let (data, quantization) := quantize xs
    ⟨name, .i8, shape, data, some quantization⟩

/-- The bias of a layer, if it has one. -/
def Model.biasConstant (m : Model) (layer : String) (useBias : Bool) (length : Nat) :
    LoweringOutcome (Option Constant) :=
  if useBias then do
    return some (.ofSingles (layer ++ "/bias") [length] (← m.weightWords layer "bias"))
  else .value none

/-! ### Fragments -/

/-- The program of a convolution: the main instruction, and the logistic function behind it
if it must follow. -/
def convProgram (layer : String) (code : Opcode) (input : Int32) (filter : Constant)
    (bias : Option Constant) (options : OperatorOptions) (sigmoid : Bool) : Fragment :=
  let output := if sigmoid then layer ++ "/pre_activation" else layer
  let biasOperand := if bias.isSome then Operand.constant 1 else .absent
  let main : Instruction := ⟨code, [.value input, .constant 0, biasOperand], options, output⟩
  let final : Instruction := ⟨.logistic, [.result], .none, layer⟩
  .program (filter :: bias.toList) (main :: if sigmoid then [final] else [])

/-- The program of one instruction that reads values only. -/
def plainProgram (layer : String) (code : Opcode) (inputs : List Int32) (options : OperatorOptions) :
    Fragment :=
  .program [] [⟨code, inputs.map .value, options, layer⟩]

/-- The further summands of a sum; `i` of them are added. -/
def addInstructions (layer : String) (i : Nat) : List Int32 → List Instruction
  | [] => []
  | [rhs] => [⟨.add, [.result, .value rhs], .add .none, layer⟩]
  | rhs :: rest =>
    ⟨.add, [.result, .value rhs], .add .none, s!"{layer}/partial_{i}"⟩
      :: addInstructions layer (i + 1) rest

/-- The program of a sum, from left to right. -/
def addFragment (layer : String) : List Int32 → LoweringOutcome Fragment
  | [] => .fault
  | [only] => .value (.same only)
  | [lhs, rhs] => .value (plainProgram layer .add [lhs, rhs] (.add .none))
  | lhs :: rhs :: rest =>
    .value (.program [] (⟨.add, [.value lhs, .value rhs], .add .none, layer ++ "/partial_0"⟩
      :: addInstructions layer 1 rest))

/-- The parameters of a normalisation in the order of its operands. -/
def normParams : List String := ["gamma", "beta", "moving_mean", "moving_variance"]

/-- The program of a normalisation. -/
def normFragment (m : Model) (layer : String) (channels : Nat) (epsilon : Binary32)
    (input : Int32) : LoweringOutcome Fragment := do
  let constants ← normParams.mapM fun param => do
    return Constant.ofSingles s!"{layer}/{param}" [channels] (← m.weightWords layer param)
  let operands := Operand.value input :: (List.range constants.length).map .constant
  return .program constants [⟨.batchNorm, operands, .batchNorm epsilon, layer⟩]

/-- The program of a resize. -/
def resizeFragment (layer : String) (size : Nat × Nat) (s : Sampling) (input : Int32) :
    LoweringOutcome Fragment := do
  Outcome.require (!(s.alignCorners && s.halfPixelCenters)) (.unsupported layer .resizeModes)
  let height ← narrowSigned layer .resizeSize size.1
  let width ← narrowSigned layer .resizeSize size.2
  let data := Bytes.ofWord height.toUInt32 ++ Bytes.ofWord width.toUInt32
  let options := OperatorOptions.resizeBilinear s.alignCorners s.halfPixelCenters
  return .program [⟨layer ++ "/size", .i32, [2], data, none⟩]
    [⟨.resizeBilinear, [.value input, .constant 0], options, layer⟩]

/-- The fragment of a layer, from its shape and the places of the values it reads. -/
def Layer.fragment (m : Model) (p : GraphPlan) (q : Quantize) (l : Layer) (hwc : Hwc)
    (args : List Int32) : LoweringOutcome Fragment := do
  let first : LoweringOutcome Int32 := Outcome.orFault args.head?
  match l.kind with
  | .input _ => return .source
  | .conv2d filters w a useBias =>
    let input ← p.shapeOf (← Outcome.orFault l.inbound.head?)
    let (kh, kw) := w.kernel
    let hwio ← m.weightWords l.name "kernel"
    let ohwi ← (hwioToOhwi hwio.toArray (kh, kw, input.channels, filters)).mapError fun e =>
      .unsupported l.name (.kernel e)
    let filter := Constant.kernel q (l.name ++ "/kernel") [filters, kh, kw, input.channels]
      ohwi.toList
    let bias ← m.biasConstant l.name useBias filters
    let (fused, sigmoid) := fuse a
    let strideH ← narrow l.name .stride w.strides.1
    let strideW ← narrow l.name .stride w.strides.2
    return convProgram l.name .conv2d (← first) filter bias
      (.conv2d w.padding strideH strideW fused) sigmoid
  | .depthwiseConv2d w a useBias =>
    let (kh, kw) := w.kernel
    -- a filter with one output per channel has the same order with the one in front
    let words ← m.weightWords l.name "depthwise_kernel"
    let filter := Constant.kernel q (l.name ++ "/depthwise_kernel") [1, kh, kw, hwc.channels] words
    let bias ← m.biasConstant l.name useBias hwc.channels
    let (fused, sigmoid) := fuse a
    let strideH ← narrow l.name .stride w.strides.1
    let strideW ← narrow l.name .stride w.strides.2
    return convProgram l.name .depthwiseConv2d (← first) filter bias
      (.depthwiseConv2d w.padding strideH strideW 1 fused) sigmoid
  | .batchNorm epsilon => normFragment m l.name hwc.channels epsilon (← first)
  | .activation .linear => return .same (← first)
  | .activation .relu => return plainProgram l.name .relu [← first] .none
  | .activation .relu6 => return plainProgram l.name .relu6 [← first] .none
  | .activation .sigmoid => return plainProgram l.name .logistic [← first] .none
  | .add => addFragment l.name args
  | .concat => return plainProgram l.name .concatenation args (.concatenation 3 .none)
  | .maxPool2d pool strides padding =>
    let strides := strides.getD pool
    let strideH ← narrow l.name .stride strides.1
    let strideW ← narrow l.name .stride strides.2
    let filterH ← narrow l.name .poolSize pool.1
    let filterW ← narrow l.name .poolSize pool.2
    return plainProgram l.name .maxPool2d [← first]
      (.pool2d padding strideH strideW filterH filterW .none)
  | .custom function _ =>
    match p.primitive? l.name with
    | none => .error (.unresolvedOperation l.name function)
    | some (.resizeBilinear size s) => resizeFragment l.name size s (← first)

end FlatNet
