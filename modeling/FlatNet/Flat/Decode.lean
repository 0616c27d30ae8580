import FlatNet.Flat.Encode

/-!
Reading stored flat models.

A reader takes its value from the front of the bytes and leaves the rest.  The number of
entries of a table is refused as soon as the bytes left cannot hold that many of the
shortest ones.

* `Reader`: readers, with `Reader.take`, `Reader.count`, `Reader.table`;
* `readTensor`, `readOperator`: the entries of tables;
* `FlatModel.decode`: the model of a byte string, every place in it checked.
-/

namespace FlatNet

/-- A reader of values from the front of bytes. -/
abbrev Reader (α : Type) := StateT Bytes (Outcome FormatError) α

namespace Reader

/-- Refuse. -/
def fail {α : Type} (e : FormatError) : Reader α := fun _ => .error e

/-- A value that may be missing. -/
def orFail {α : Type} (e : FormatError) : Option α → Reader α
  | some a => pure a
  | none => fail e

/-- Whether bytes are at least as many as a number. -/
def holds : Nat → Bytes → Bool
  | 0, _ => true
  | _ + 1, [] => false
  | n + 1, _ :: rest => holds n rest

@[simp] theorem holds_eq (n : Nat) (bs : Bytes) : holds n bs = decide (n ≤ bs.length) := by
  induction n generalizing bs with
  | zero => simp [holds]
  | succ n ih => cases bs <;> simp [holds, ih]

/-- The next bytes of a part. -/
def take (part : FlatPart) (n : Nat) : Reader Bytes := fun bs =>
  if holds n bs then .value (bs.take n, bs.drop n) else .error (.truncated part)

/-- The next number of `width` bytes. -/
def number (part : FlatPart) (width : Nat) : Reader Nat := do
  return ofLittleEndian (← take part width)

/-- The next byte. -/
def byte (part : FlatPart) : Reader UInt8 := do return UInt8.ofNat (← number part 1)

/-- The next 32-bit word. -/
def word (part : FlatPart) : Reader UInt32 := do return UInt32.ofNat (← number part 4)

/-- The next place. -/
def index (part : FlatPart) : Reader Int32 := do return (← word part).toInt32

/-- The next floating-point word. -/
def single (part : FlatPart) : Reader Binary32 := do return ⟨← word part⟩

/-- The next truth value; every byte but zero is true. -/
def flag (part : FlatPart) : Reader Bool := do return (← byte part) ≠ 0

/-- The next count, of entries of at least `least` bytes each. -/
def count (part : FlatPart) (least : Nat) : Reader Nat := do
  let n ← number part 4
  fun bs => if holds (n * least) bs then .value (n, bs) else .error (.truncated part)

/-- A number of entries, one after the other. -/
def «repeat» {α : Type} (entry : Reader α) : Nat → Reader (List α)
  | 0 => pure []
  | n + 1 => do
    let a ← entry
    let rest ← «repeat» entry n
    return a :: rest

/-- A table of entries of at least `least` bytes each. -/
def table {α : Type} (part : FlatPart) (least : Nat) (entry : Reader α) : Reader (List α) := do
  «repeat» entry (← count part least)

/-- The next text. -/
def text (part : FlatPart) : Reader String := do
  let bytes ← take part (← count part 1)
  orFail (.invalidUtf8 part) (Bytes.text? bytes)

/-- The next list of places. -/
def indices (part : FlatPart) : Reader (List Int32) := table part 4 (index part)

end Reader

/-! ### Entries -/

/-- A fused activation function. -/
def readActivation : Reader FusedActivation := do
  let tag ← Reader.byte .fusedActivation
  Reader.orFail (.unknownActivation tag) (FusedActivation.ofTag? tag)

/-- A padding. -/
def readPadding : Reader Padding := do
  let tag ← Reader.byte .operatorOptions
  Reader.orFail (.unknownPadding tag) (Padding.ofTag? tag)

/-- The options of an operator. -/
def readOptions : Reader OperatorOptions := do
  let word := Reader.word .operatorOptions
  match ← Reader.byte .operatorOptions with
  | 0 => return .none
  | 1 => return .conv2d (← readPadding) (← word) (← word) (← readActivation)
  | 2 => return .depthwiseConv2d (← readPadding) (← word) (← word) (← word) (← readActivation)
  | 3 => return .pool2d (← readPadding) (← word) (← word) (← word) (← word) (← readActivation)
  | 4 => return .concatenation (← Reader.index .operatorOptions) (← readActivation)
  | 5 => return .add (← readActivation)
  | 6 => return .resizeBilinear (← Reader.flag .operatorOptions) (← Reader.flag .operatorOptions)
  | 7 => return .batchNorm (← Reader.single .operatorOptions)
  | tag => Reader.fail (.unknownOptions tag)

/-- A quantization, if there is one. -/
def readQuantization : Reader (Option Quantization) := do
  if ← Reader.flag .tensorQuantization then
    return some ⟨← Reader.single .tensorQuantization, ← Reader.index .tensorQuantization⟩
  else return none

/-- An element type. -/
def readDType : Reader DType := do
  let tag ← Reader.byte .tensorDType
  Reader.orFail (.unknownDType tag) (DType.ofTag? tag)

/-- An entry of the table of tensors. -/
def readTensor : Reader FlatTensor := do
  let name ← Reader.text .tensorName
  let dtype ← readDType
  let shape ← Reader.table .tensorShape 4 (Reader.number .tensorShape 4)
  let buffer ← Reader.word .tensorBuffer
  return ⟨name, dtype, shape, buffer, ← readQuantization⟩

/-- An operator. -/
def readOperator : Reader FlatOperator := do
  let opcode ← Reader.word .operatorCode
  let inputs ← Reader.indices .operatorInputs
  let outputs ← Reader.indices .operatorOutputs
  return ⟨opcode, inputs, outputs, ← readOptions⟩

/-- A note. -/
def readNote : Reader (String × String) := do
  let key ← Reader.text .metadataKey
  return (key, ← Reader.text .metadataValue)

/-- An operator code. -/
def readCode : Reader Opcode := do
  let code ← Reader.word .operatorCodes
  Reader.orFail (.unknownOpcode code) (Opcode.ofCode? code)

/-- The place and length of a buffer. -/
def readSpan : Reader (Nat × Nat) := do
  let offset ← Reader.number .bufferTable 8
  return (offset, ← Reader.number .bufferTable 8)

/-! ### Models -/

/-- The start of every flat model. -/
def readMagic : Reader Unit := fun bs =>
  if flatMagic.isPrefixOf bs then .value ((), bs.drop flatMagic.length) else .error .badMagic

/-- The version of the format. -/
def readVersion : Reader UInt32 := do
  let version ← Reader.word .version
  if version = FlatModel.formatVersion then return version
  else Reader.fail (.unsupportedVersion version)

/-- The tables of a model, its buffers by place and length. -/
def readTables : Reader (FlatModel × List (Nat × Nat)) := do
  readMagic
  let version ← readVersion
  let description ← Reader.text .description
  let metadata ← Reader.table .metadata 8 readNote
  let codes ← Reader.table .operatorCodes 4 readCode
  let tensors ← Reader.table .tensors 14 readTensor
  let operators ← Reader.table .operators 13 readOperator
  let inputs ← Reader.indices .graphInputs
  let outputs ← Reader.indices .graphOutputs
  let spans ← Reader.table .bufferTable 16 readSpan
  return (⟨version, description, metadata, codes, tensors, operators, inputs, outputs, []⟩, spans)

/-- The buffer of a place and length in a data section that starts at `start`. -/
def buffer? (bs : Bytes) (start : Nat) (span : Nat × Nat) : Option Bytes := do
  let first ← Size.add? span.1 start
  let last ← Size.add? first span.2
  bs.slice? first last

/-- The buffers of places and lengths. -/
def readBuffers (bs : Bytes) (start : Nat) (spans : List (Nat × Nat)) :
    Outcome FormatError (List Bytes) :=
  spans.zipIdx.mapM fun p => Outcome.orError (.bufferOutOfBounds p.2) (buffer? bs start p.1)

/-- The start of the data section behind a number of bytes. -/
def dataStart (used : Nat) : Outcome FormatError Nat := do
  Size.mul (← Size.divCeil used bufferAlignment) bufferAlignment

/-- The model of a byte string. -/
def FlatModel.decode (bs : Bytes) : Outcome FormatError FlatModel := do
  let ((tables, spans), rest) ← readTables.run bs
  let start ← dataStart (← Size.sub bs.length rest.length)
  let model := { tables with buffers := ← readBuffers bs start spans }
  Outcome.ofExcept model.checkIndices
  return model

end FlatNet
