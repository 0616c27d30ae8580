import FlatNet.Encoding
import FlatNet.Flat.Basic

/-!
The stored form of flat models.

Tables stand one after the other, each behind the number of its entries; the buffers follow
in a data section, every buffer at a multiple of sixteen bytes.  Numbers are stored with the
least significant byte first; counts and dimensions keep their low 32 bits.

* `FlatModel.head`: everything before the data section;
* `offsets`, `dataAt`: the places of buffers in the data section, and the section itself;
* `FlatModel.encode`: the stored form.
-/

namespace FlatNet

/-! ### Parts -/

/-- The alignment of buffers. -/
def bufferAlignment : Nat := 16

/-- The next place of a buffer. -/
def align (n : Nat) : Nat := (n + bufferAlignment - 1) / bufferAlignment * bufferAlignment

/-- A count or dimension. -/
def encodeCount (n : Nat) : Bytes := littleEndian 4 n

/-- A text behind its length. -/
def encodeText (s : String) : Bytes := encodeCount (Bytes.ofText s).length ++ Bytes.ofText s

/-- The entries of a table behind their number. -/
def encodeTable {α : Type} (entry : α → Bytes) (entries : List α) : Bytes :=
  encodeCount entries.length ++ entries.flatMap entry

/-- A place. -/
def encodeIndex (i : Int32) : Bytes := Bytes.ofWord i.toUInt32

/-- A list of places. -/
def encodeIndices (indices : List Int32) : Bytes := encodeTable encodeIndex indices

/-- A truth value. -/
def encodeFlag (b : Bool) : Bytes := [if b then 1 else 0]

/-- The options of an operator behind their number. -/
def OperatorOptions.encode : OperatorOptions → Bytes
  | none => [0]
  | conv2d padding strideH strideW activation =>
    [1, padding.tag] ++ Bytes.ofWord strideH ++ Bytes.ofWord strideW ++ [activation.tag]
  | depthwiseConv2d padding strideH strideW multiplier activation =>
    [2, padding.tag] ++ Bytes.ofWord strideH ++ Bytes.ofWord strideW ++ Bytes.ofWord multiplier
      ++ [activation.tag]
  | pool2d padding strideH strideW filterH filterW activation =>
    [3, padding.tag] ++ Bytes.ofWord strideH ++ Bytes.ofWord strideW ++ Bytes.ofWord filterH
      ++ Bytes.ofWord filterW ++ [activation.tag]
  | concatenation axis activation => [4] ++ encodeIndex axis ++ [activation.tag]
  | add activation => [5, activation.tag]
  | resizeBilinear alignCorners halfPixelCenters =>
    [6] ++ encodeFlag alignCorners ++ encodeFlag halfPixelCenters
  | batchNorm epsilon => [7] ++ Bytes.ofWord epsilon.bits

/-- A quantization behind a mark that there is one. -/
def encodeQuantization : Option Quantization → Bytes
  | some q => [1] ++ Bytes.ofWord q.scale.bits ++ encodeIndex q.zeroPoint
  | none => [0]

/-- An entry of the table of tensors. -/
def FlatTensor.encode (t : FlatTensor) : Bytes :=
  encodeText t.name ++ [t.dtype.tag] ++ encodeTable encodeCount t.shape ++ Bytes.ofWord t.buffer
    ++ encodeQuantization t.quantization

/-- An operator. -/
def FlatOperator.encode (op : FlatOperator) : Bytes :=
  Bytes.ofWord op.opcode ++ encodeIndices op.inputs ++ encodeIndices op.outputs
    ++ op.options.encode

/-! ### The data section -/

/-- The places of buffers behind `used` bytes of the data section. -/
def offsets (used : Nat) : List Bytes → List Nat
  | [] => []
  | b :: rest => align used :: offsets (align used + b.length) rest

/-- Zero bytes. -/
def zeros (n : Nat) : Bytes := List.replicate n 0

/-- Buffers at their places, with zeros before each; the data section starts at `start`, and
`used` bytes are written. -/
def dataAt (start used : Nat) : List (Nat × Bytes) → Bytes
  | [] => []
  | (offset, b) :: rest =>
    zeros (start + offset - used) ++ b ++ dataAt start (start + offset + b.length) rest

namespace FlatModel

/-- The place and length of a buffer. -/
def encodeSpan (p : Nat × Bytes) : Bytes := littleEndian 8 p.1 ++ littleEndian 8 p.2.length

/-- The buffers with their places. -/
def placed (m : FlatModel) : List (Nat × Bytes) := (offsets 0 m.buffers).zip m.buffers

/-- Everything before the data section. -/
def head (m : FlatModel) : Bytes :=
  flatMagic ++ Bytes.ofWord m.version ++ encodeText m.description
    ++ encodeTable (fun p => encodeText p.1 ++ encodeText p.2) m.metadata
    ++ encodeTable (fun code => Bytes.ofWord code.code) m.codes
    ++ encodeTable FlatTensor.encode m.tensors
    ++ encodeTable FlatOperator.encode m.operators
    ++ encodeIndices m.inputs ++ encodeIndices m.outputs
    ++ encodeTable encodeSpan m.placed

/-- The stored form: the data section starts at the first multiple of the alignment. -/
def encode (m : FlatModel) : Bytes :=
  let head := m.head
  let start := align head.length
  head ++ zeros (start - head.length) ++ dataAt start start m.placed

end FlatModel

end FlatNet
