import FlatNet.Archive.Reader
import FlatNet.Archive.Writer
import FlatNet.Container.Basic
import FlatNet.Graph.Text
import FlatNet.Quoted

/-!
Reading and writing containers.

A container is stored as a tensor archive; graph and training configuration are JSON texts
among the texts of the archive.

* `Container.decode`: the container of a byte string, with or without training state;
* `Container.encode`: the byte string of a container;
* `Container.Written`: byte strings of a container, with its texts in any order.
-/

namespace FlatNet

open Archive (ReadFault WriteFault)

/-! ### Names in the archive -/

namespace Container

/-- The name of the text that holds the encoding. -/
def encodingKey : String := "liteport.format"

/-- The name of the text that holds the version of the format. -/
def versionKey : String := "liteport.format_version"

/-- The version of the format. -/
def version : String := "1"

/-- The name of the text that holds the graph. -/
def graphKey : String := "model_config"

/-- The name of the text that holds the training configuration. -/
def trainingKey : String := "training_config"

end Container

namespace DType

/-- The element type of an archive. -/
def elementType : DType → ElementType
  | f32 => .f32
  | i32 => .i32
  | i8 => .i8
  | u8 => .u8

/-- The tensor type of an element type. -/
def ofElementType? : ElementType → Option DType
  | .f32 => some f32
  | .i32 => some i32
  | .i8 => some i8
  | .u8 => some u8
  | _ => none

/-- A tensor type is that of its element type. -/
@[simp] theorem ofElementType?_elementType (t : DType) : ofElementType? t.elementType = some t := by
  cases t <;> rfl

end DType

namespace Container

/-! ### Reading -/

/-- Why a byte string is no container. -/
inductive DecodeFault where
  /-- The archive is not read. -/
  | archive (e : ReadFault)
  /-- The archive has no texts. -/
  | noInfo
  /-- A text is missing. -/
  | missing (key : String)
  /-- The encoding is not one of a container. -/
  | encoding (name : String)
  /-- The version of the format is another one. -/
  | version (found : Option String)
  /-- The graph is not read. -/
  | graph
  /-- The training configuration is not read. -/
  | training
  /-- A tensor has an element type that tensors do not have. -/
  | elementType (name : String) (type : ElementType)
  /-- A tensor is refused. -/
  | tensor (name : String) (e : TensorError)
  deriving DecidableEq, Repr

/-- The wording of a fault. -/
def DecodeFault.message : DecodeFault → String
  | archive e => s!"unreadable container header: {e.message}"
  | noInfo => "container has no metadata"
  | missing key => s!"missing `{key}`"
  | encoding name => s!"unknown encoding `{name}`"
  | version found =>
    s!"unsupported format version {Quoted.describe? found}, expected {Container.version}"
  | graph => "invalid model config"
  | training => "invalid training config"
  | elementType name type => s!"tensor `{name}` has unsupported dtype {type.name}"
  | tensor name e => s!"tensor `{name}`: {e.message}"

/-- Why a file is not read as a container. -/
inductive DecodeError where
  /-- It is a flat model. -/
  | flatModel
  /-- It is damaged. -/
  | corrupt (fault : DecodeFault)
  deriving DecidableEq, Repr

/-- The encoding of a container, from its texts. -/
def readEncoding (info : Table String) : Except DecodeFault Encoding :=
  match info.get? encodingKey with
  | none => .error (.missing encodingKey)
  | some name =>
    match Encoding.ofName? name with
    | some .checkpoint => .ok .checkpoint
    | some .intermediate => .ok .intermediate
    | _ => .error (.encoding name)

/-- Check the version of the format. -/
def checkVersion (info : Table String) : Except DecodeFault Unit :=
  let found := info.get? versionKey
  if found = some version then .ok () else .error (.version found)

/-- The graph of a container, from its texts. -/
def readGraph (info : Table String) : Except DecodeFault Architecture :=
  match info.get? graphKey with
  | none => .error (.missing graphKey)
  | some text =>
    match Architecture.parse? text with
    | some a => .ok a
    | none => .error .graph

/-- The training configuration, if it is wanted and there is one. -/
def readTraining (withTraining : Bool) (info : Table String) : Except DecodeFault (Option Json) :=
  match info.get? trainingKey with
  | some text =>
    if withTraining then
      match Json.parse? text with
      | some j => .ok (some j)
      | none => .error .training
    else .ok none
  | none => .ok none

/-- The tensor of an array. -/
def readTensor (name : String) (e : Archive.Entry) : Except DecodeFault Tensor :=
  match DType.ofElementType? e.type with
  | none => .error (.elementType name e.type)
  | some dtype =>
    match Tensor.ofBytes dtype e.shape e.bytes with
    | .ok t => .ok t
    | .error fault => .error (.tensor name fault)

/-- The tensors of an archive, without slots if training state is not wanted. -/
def readTensors (withTraining : Bool) (entries : Table Archive.Entry) :
    Except DecodeFault (Table Tensor) := do
  let kept := entries.filter fun name _ => withTraining || !isSlot name
  let tensors ← kept.entries.mapM fun p => do
    return (p.1, ← readTensor p.1 p.2)
  return Table.ofList tensors

/-- The container of an archive. -/
def ofArchive (withTraining : Bool) (a : Archive) : Except DecodeFault Container := do
  match a.info with
  | none => .error .noInfo
  | some info =>
    let encoding ← readEncoding info
    checkVersion info
    let architecture ← readGraph info
    let training ← readTraining withTraining info
    return ⟨encoding, architecture, training, ← readTensors withTraining a.entries⟩

/-- The container of a byte string.  Slots and the training configuration are left out
unless they are wanted. -/
def decode (withTraining : Bool) (bs : Bytes) : Outcome DecodeError Container := do
  Outcome.require (!flatMagic.isPrefixOf bs) .flatModel
  let archive ← (Archive.decode bs).mapError fun e => .corrupt (.archive e)
  (Outcome.ofExcept (ofArchive withTraining archive)).mapError .corrupt

/-! ### Writing -/

/-- Why a container is not written: a tensor of it is refused. -/
structure EncodeFault where
  /-- The name of the tensor. -/
  name : String
  /-- What is wrong with it. -/
  cause : WriteFault
  deriving DecidableEq, Repr

/-- The wording of a fault. -/
def EncodeFault.message (e : EncodeFault) : String := s!"tensor `{e.name}`: {e.cause.message}"

/-- The texts of a container. -/
def info (c : Container) : List (String × String) :=
  [(encodingKey, c.encoding.name), (versionKey, version), (graphKey, c.architecture.text)]
    ++ c.training.toList.map fun j => (trainingKey, j.text)

/-- The array of a tensor. -/
def entry (t : Tensor) : Archive.Entry := ⟨t.dtype.elementType, t.shape, t.bytes⟩

/-- The arrays of a container. -/
def entries (c : Container) : Table Archive.Entry := c.tensors.map fun _ => entry

/-- The byte string of a container, with its texts in the order given. -/
def encodeWith (texts : List (String × String)) (c : Container) : Outcome EncodeFault Bytes := do
  c.entries.entries.forM fun p => p.2.check.mapError fun e => ⟨p.1, e⟩
  return Archive.encode texts c.entries

/-- The byte string of a container. -/
def encode (c : Container) : Outcome EncodeFault Bytes := c.encodeWith c.info

/-- A byte string that a container may be written as.  The texts are kept in a table without an
order, so they may come in any. -/
def Written (c : Container) (bytes : Bytes) : Prop :=
  ∃ texts : List (String × String), texts.Perm c.info ∧ c.encodeWith texts = .value bytes

end Container

end FlatNet
