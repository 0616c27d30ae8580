import FlatNet.Layer.Activation
import FlatNet.Layer.Window
import FlatNet.Tensor.Basic

/-!
Flat models.

A flat model is a list of operators over a table of tensors.  Operators name their code by
its place in a table of codes, tensors by their place in the table of tensors, and constant
tensors their data by its place in a table of buffers.

* `Opcode`, `FusedActivation`, `OperatorOptions`: what operators do, with their numbers;
* `FlatTensor`, `FlatOperator`, `FlatModel`: the tables;
* `FormatError`: why a flat model is refused;
* `FlatModel.checkIndices`: every place that is named exists;
* `FlatModel.constant`: the data of a constant tensor.
-/

namespace FlatNet

/-! ### Errors -/

/-- A part of a stored flat model. -/
inductive FlatPart where
  /-- The version of the format. -/
  | version
  /-- The description. -/
  | description
  /-- The notes. -/
  | metadata
  /-- The key of a note. -/
  | metadataKey
  /-- The value of a note. -/
  | metadataValue
  /-- The table of operator codes. -/
  | operatorCodes
  /-- The table of tensors. -/
  | tensors
  /-- The name of a tensor. -/
  | tensorName
  /-- The element type of a tensor. -/
  | tensorDType
  /-- The dimensions of a tensor. -/
  | tensorShape
  /-- The buffer of a tensor. -/
  | tensorBuffer
  /-- The quantization of a tensor. -/
  | tensorQuantization
  /-- The list of operators. -/
  | operators
  /-- The code of an operator. -/
  | operatorCode
  /-- The inputs of an operator. -/
  | operatorInputs
  /-- The outputs of an operator. -/
  | operatorOutputs
  /-- The options of an operator. -/
  | operatorOptions
  /-- A fused activation function. -/
  | fusedActivation
  /-- The inputs of the model. -/
  | graphInputs
  /-- The outputs of the model. -/
  | graphOutputs
  /-- The table of buffers. -/
  | bufferTable
  deriving DecidableEq, Repr

/-- The name of a part. -/
def FlatPart.text : FlatPart → String
  | version => "version"
  | description => "description"
  | metadata => "metadata"
  | metadataKey => "metadata key"
  | metadataValue => "metadata value"
  | operatorCodes => "operator codes"
  | tensors => "tensors"
  | tensorName => "tensor name"
  | tensorDType => "tensor dtype"
  | tensorShape => "tensor shape"
  | tensorBuffer => "tensor buffer"
  | tensorQuantization => "tensor quantization"
  | operators => "operators"
  | operatorCode => "operator code index"
  | operatorInputs => "operator inputs"
  | operatorOutputs => "operator outputs"
  | operatorOptions => "operator options"
  | fusedActivation => "fused activation"
  | graphInputs => "graph inputs"
  | graphOutputs => "graph outputs"
  | bufferTable => "buffer table"

/-- A table that places refer to. -/
inductive FlatTable where
  /-- The operator codes. -/
  | codes
  /-- The tensors. -/
  | tensors
  /-- The buffers. -/
  | buffers
  deriving DecidableEq, Repr

/-- The name of the entries of a table. -/
def FlatTable.text : FlatTable → String
  | codes => "operator code"
  | tensors => "tensor"
  | buffers => "buffer"

/-- Why a flat model is refused. -/
inductive FormatError where
  /-- It does not start as a flat model. -/
  | badMagic
  /-- The version of the format is another one. -/
  | unsupportedVersion (version : UInt32)
  /-- It ends within a part. -/
  | truncated (part : FlatPart)
  /-- A part is not text. -/
  | invalidUtf8 (part : FlatPart)
  /-- There is no such operator. -/
  | unknownOpcode (code : UInt32)
  /-- There is no such element type. -/
  | unknownDType (tag : UInt8)
  /-- There is no such padding. -/
  | unknownPadding (tag : UInt8)
  /-- There is no such fused activation function. -/
  | unknownActivation (tag : UInt8)
  /-- There are no such options. -/
  | unknownOptions (tag : UInt8)
  /-- A place is not in its table. -/
  | badIndex (table : FlatTable) (index : Int) (length : Nat)
  /-- A buffer goes beyond the end. -/
  | bufferOutOfBounds (index : Nat)
  /-- A constant has the wrong size; a size out of range is the largest one. -/
  | bufferSize (tensor : String) (expected : Option Nat) (found : Nat)
  deriving DecidableEq, Repr

/-- The wording of an error. -/
def FormatError.message : FormatError → String
  | badMagic => "not a flat model (bad magic)"
  | unsupportedVersion version => s!"unsupported flat format version {version}"
  | truncated part => s!"truncated input while reading {part.text}"
  | invalidUtf8 part => s!"invalid UTF-8 in {part.text}"
  | unknownOpcode code => s!"unknown builtin operator code {code}"
  | unknownDType tag => s!"unknown dtype tag {tag}"
  | unknownPadding tag => s!"unknown padding tag {tag}"
  | unknownActivation tag => s!"unknown fused activation tag {tag}"
  | unknownOptions tag => s!"unknown operator options tag {tag}"
  | badIndex table index length => s!"{table.text} index {index} out of range (len {length})"
  | bufferOutOfBounds index => s!"buffer {index} spans past the end of the file"
  | bufferSize tensor expected found =>
    let size := expected.getD (Size.bound - 1)
    s!"buffer for tensor `{tensor}` holds {found} bytes, expected {size}"

/-! ### Operators -/

/-- What an operator computes. -/
inductive Opcode where
  /-- A sum. -/
  | add
  /-- A concatenation. -/
  | concatenation
  /-- A convolution. -/
  | conv2d
  /-- A convolution per channel. -/
  | depthwiseConv2d
  /-- The logistic function. -/
  | logistic
  /-- A maximum over windows. -/
  | maxPool2d
  /-- The positive part. -/
  | relu
  /-- The positive part, at most six. -/
  | relu6
  /-- A bilinear resize. -/
  | resizeBilinear
  /-- A normalisation per channel. -/
  | batchNorm
  deriving DecidableEq, Repr, Inhabited

namespace Opcode

/-- Every operator. -/
def all : List Opcode :=
  [add, concatenation, conv2d, depthwiseConv2d, logistic, maxPool2d, relu, relu6, resizeBilinear,
    batchNorm]

/-- The number of an operator. -/
def code : Opcode → UInt32
  | add => 0
  | concatenation => 2
  | conv2d => 3
  | depthwiseConv2d => 4
  | logistic => 14
  | maxPool2d => 17
  | relu => 19
  | relu6 => 21
  | resizeBilinear => 23
  | batchNorm => 128

/-- The operator of a number. -/
def ofCode? (code : UInt32) : Option Opcode := all.find? (·.code = code)

/-- The name of an operator. -/
def name : Opcode → String
  | add => "ADD"
  | concatenation => "CONCATENATION"
  | conv2d => "CONV_2D"
  | depthwiseConv2d => "DEPTHWISE_CONV_2D"
  | logistic => "LOGISTIC"
  | maxPool2d => "MAX_POOL_2D"
  | relu => "RELU"
  | relu6 => "RELU6"
  | resizeBilinear => "RESIZE_BILINEAR"
  | batchNorm => "BATCH_NORM"

/-- An operator is that of its number. -/
@[simp] theorem ofCode?_code (op : Opcode) : ofCode? op.code = some op := by cases op <;> rfl

end Opcode

/-- An activation function that an operator applies to its result. -/
inductive FusedActivation where
  /-- The identity. -/
  | none
  /-- The positive part. -/
  | relu
  /-- The positive part, at most six. -/
  | relu6
  deriving DecidableEq, Repr, Inhabited

namespace FusedActivation

/-- Every fused activation function. -/
def all : List FusedActivation := [none, relu, relu6]

/-- The number of a fused activation function. -/
def tag : FusedActivation → UInt8
  | none => 0
  | relu => 1
  | relu6 => 3

/-- The fused activation function of a number. -/
def ofTag? (tag : UInt8) : Option FusedActivation := all.find? (·.tag = tag)

/-- The activation function itself. -/
def activation : FusedActivation → Activation
  | none => .linear
  | relu => .relu
  | relu6 => .relu6

/-- A fused activation function is that of its number. -/
@[simp] theorem ofTag?_tag (a : FusedActivation) : ofTag? a.tag = some a := by cases a <;> rfl

end FusedActivation

/-- The number of a padding. -/
def Padding.tag : Padding → UInt8
  | same => 0
  | valid => 1

/-- The padding of a number. -/
def Padding.ofTag? (tag : UInt8) : Option Padding := [same, valid].find? (·.tag = tag)

/-- A padding is that of its number. -/
@[simp] theorem Padding.ofTag?_tag (p : Padding) : ofTag? p.tag = some p := by cases p <;> rfl

/-- The number of an element type. -/
def DType.tag : DType → UInt8
  | f32 => 0
  | i32 => 2
  | u8 => 3
  | i8 => 9

/-- The element type of a number. -/
def DType.ofTag? (tag : UInt8) : Option DType := all.find? (·.tag = tag)

/-- An element type is that of its number. -/
@[simp] theorem DType.ofTag?_tag (t : DType) : ofTag? t.tag = some t := by cases t <;> rfl

/-- The options of an operator. -/
inductive OperatorOptions where
  /-- No options. -/
  | none
  /-- Those of a convolution. -/
  | conv2d (padding : Padding) (strideH strideW : UInt32) (activation : FusedActivation)
  /-- Those of a convolution per channel. -/
  | depthwiseConv2d (padding : Padding) (strideH strideW multiplier : UInt32)
      (activation : FusedActivation)
  /-- Those of a maximum over windows. -/
  | pool2d (padding : Padding) (strideH strideW filterH filterW : UInt32)
      (activation : FusedActivation)
  /-- Those of a concatenation. -/
  | concatenation (axis : Int32) (activation : FusedActivation)
  /-- Those of a sum. -/
  | add (activation : FusedActivation)
  /-- Those of a resize. -/
  | resizeBilinear (alignCorners halfPixelCenters : Bool)
  /-- Those of a normalisation. -/
  | batchNorm (epsilon : Binary32)
  deriving DecidableEq, Repr, Inhabited

/-! ### Models -/

/-- How integers stand for numbers: a stored integer less the zero point, times the
scale. -/
structure Quantization where
  /-- The scale. -/
  scale : Binary32
  /-- The integer that stands for zero. -/
  zeroPoint : Int32
  deriving DecidableEq, Repr, Inhabited

/-- An entry of the table of tensors. -/
structure FlatTensor where
  /-- Its name. -/
  name : String
  /-- Its element type. -/
  dtype : DType
  /-- Its dimensions. -/
  shape : Shape
  /-- The place of its data; the first buffer means that it is no constant. -/
  buffer : UInt32
  /-- How its integers are meant. -/
  quantization : Option Quantization
  deriving DecidableEq, Repr, Inhabited

/-- An operator. -/
structure FlatOperator where
  /-- The place of its code. -/
  opcode : UInt32
  /-- The places of its inputs; a negative one is an input left out. -/
  inputs : List Int32
  /-- The places of its outputs. -/
  outputs : List Int32
  /-- Its options. -/
  options : OperatorOptions
  deriving DecidableEq, Repr, Inhabited

/-- A flat model. -/
structure FlatModel where
  /-- The version of the format. -/
  version : UInt32
  /-- A description. -/
  description : String
  /-- Notes, in order. -/
  metadata : List (String × String)
  /-- The operator codes. -/
  codes : List Opcode
  /-- The tensors. -/
  tensors : List FlatTensor
  /-- The operators, in the order of execution. -/
  operators : List FlatOperator
  /-- The places of the inputs. -/
  inputs : List Int32
  /-- The places of the outputs. -/
  outputs : List Int32
  /-- The buffers. -/
  buffers : List Bytes
  deriving DecidableEq, Repr, Inhabited

namespace FlatModel

/-- The version of the format. -/
def formatVersion : UInt32 := 1

/-- The entry of a list at an integer place. -/
def entry? {α : Type} (xs : List α) (index : Int) : Option α :=
  if 0 ≤ index then xs[index.toNat]? else none

/-- The code of an operator. -/
def opcode (m : FlatModel) (op : FlatOperator) : Except FormatError Opcode :=
  match m.codes[op.opcode.toNat]? with
  | some code => .ok code
  | none => .error (.badIndex .codes op.opcode.toNat m.codes.length)

/-- The tensor at a place. -/
def tensor (m : FlatModel) (index : Int32) : Except FormatError FlatTensor :=
  match entry? m.tensors index.toInt with
  | some t => .ok t
  | none => .error (.badIndex .tensors index.toInt m.tensors.length)

/-- The first note of a key. -/
def metadata? (m : FlatModel) (key : String) : Option String := m.metadata.lookup key

/-- The operators of a code, in the order of execution. -/
def operatorsOf (m : FlatModel) (code : Opcode) : List FlatOperator :=
  m.operators.filter fun op => m.codes[op.opcode.toNat]? = some code

/-- The data of a tensor, not yet scaled; `none` if it is no constant. -/
def constant (m : FlatModel) (index : Int32) : Except FormatError (Option Tensor) := do
  let t ← m.tensor index
  if t.buffer = 0 then return none
  match m.buffers[t.buffer.toNat]? with
  | none => throw (.badIndex .buffers t.buffer.toNat m.buffers.length)
  | some bytes =>
    let expected := Shape.byteCount? t.shape t.dtype
    if expected = some bytes.length then return some ⟨t.dtype, t.shape, bytes⟩
    else throw (.bufferSize t.name expected bytes.length)

/-- The number of bytes in all buffers. -/
def constantBytes (m : FlatModel) : Nat := m.buffers.foldl (fun n bytes => n + bytes.length) 0

/-! ### Places -/

/-- Check the buffer of a tensor. -/
def checkBuffer (m : FlatModel) (t : FlatTensor) : Except FormatError Unit :=
  if t.buffer.toNat < m.buffers.length then .ok ()
  else .error (.badIndex .buffers t.buffer.toNat m.buffers.length)

/-- Check the place of a tensor. -/
def checkTensor (m : FlatModel) (index : Int32) : Except FormatError Unit := do
  let _ ← m.tensor index

/-- Check the places of an operator; inputs may be left out. -/
def checkOperator (m : FlatModel) (op : FlatOperator) : Except FormatError Unit := do
  let _ ← m.opcode op
  op.inputs.forM fun index => if 0 ≤ index then m.checkTensor index else .ok ()
  op.outputs.forM m.checkTensor

/-- Check every place that is named. -/
def checkIndices (m : FlatModel) : Except FormatError Unit := do
  m.tensors.forM m.checkBuffer
  m.operators.forM m.checkOperator
  m.inputs.forM m.checkTensor
  m.outputs.forM m.checkTensor

end FlatModel

end FlatNet
