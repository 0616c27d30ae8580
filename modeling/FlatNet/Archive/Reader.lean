import FlatNet.Archive.Basic
import FlatNet.Json.Reader

/-!
Reading tensor archives.

An archive starts with the length of its header in eight bytes; the header is a JSON object
that gives for every array its type, its shape and its place in the data behind it.  The
arrays must fill the data without gaps and overlaps.

* `Archive.Extent`: the place of an array;
* `Archive.Header`, `Archive.Header.parse?`: headers, and the header of a text;
* `Archive.Header.dataLength`: the length of the data, every array checked;
* `Archive.decode`: the archive of a byte string.
-/

namespace FlatNet.Archive

open Json (Tree)

/-! ### Errors -/

/-- Why an archive is not read. -/
inductive ReadFault where
  /-- There is no room for the length of the header. -/
  | tooSmall
  /-- The header is longer than allowed. -/
  | tooLarge
  /-- The header goes beyond the end. -/
  | headerLength
  /-- The header is not text. -/
  | headerText
  /-- The header is not of the form described. -/
  | headerForm
  /-- An array does not start where the one before it ends. -/
  | offset (name : String)
  /-- The size of an array is out of range. -/
  | overflow
  /-- The elements of an array do not fill whole bytes. -/
  | partialByte
  /-- The place of an array does not have its size. -/
  | extent
  /-- The arrays do not end where the data end. -/
  | uncovered
  deriving DecidableEq, Repr

/-- The wording of a fault. -/
def ReadFault.message : ReadFault → String
  | tooSmall => "header too small"
  | tooLarge => "header too large"
  | headerLength => "invalid header length"
  | headerText => "invalid UTF-8 in header"
  | headerForm => "invalid JSON in header"
  | offset name => s!"invalid offset for tensor `{name}`"
  | overflow => "overflow computing buffer size from shape and/or element type"
  | partialByte => partialByteText
  | extent => "invalid shape, data type, or offset for tensor"
  | uncovered => "incomplete metadata, file not fully covered"

/-! ### Headers -/

/-- The type and shape of an array, and where its bytes start and stop in the data. -/
structure Extent where
  /-- The element type. -/
  type : ElementType
  /-- The dimensions. -/
  shape : List Nat
  /-- The first byte. -/
  start : Nat
  /-- The end. -/
  stop : Nat
  deriving DecidableEq, Repr, Inhabited

/-- What a header says. -/
structure Header where
  /-- The texts about the arrays. -/
  info : Option (Table String)
  /-- The arrays. -/
  extents : Table Extent

namespace Extent

/-- The extent of a tree read in full before: an object, or an array of its fields. -/
def ofTree? (depth : Nat) (t : Tree) : Option Extent :=
  let inner := depth - 1
  let type? (t : Tree) : Option ElementType := (t.word? true inner).bind ElementType.ofName?
  let shape? (t : Tree) : Option (List Nat) := t.list? inner fun _ => Tree.size?
  match t with
  | .array [type, shape, place] => do
    let type ← type? type
    let shape ← shape? shape
    let (start, stop) ← place.sizePair? inner
    return ⟨type, shape, start, stop⟩
  | t => do
    let ms ← t.record? depth
    let type ← ms.required? "dtype" type?
    let shape ← ms.required? "shape" shape?
    let (start, stop) ← ms.required? "data_offsets" (Tree.sizePair? inner)
    return ⟨type, shape, start, stop⟩

/-- Whether an array comes before another in the data. -/
def before (a b : Extent) : Bool := a.start < b.start || (a.start = b.start && a.stop ≤ b.stop)

/-- The end of an array that must start at `start` and have the size of its shape. -/
def check (start : Nat) (p : String × Extent) : Outcome ReadFault Nat := do
  let e := p.2
  Outcome.require (e.start = start && e.start ≤ e.stop) (.offset p.1)
  let count ← Outcome.orError .overflow (Size.product? 1 e.shape)
  let bits ← Outcome.orError .overflow (Size.mul? count e.type.bits)
  Outcome.require (bits % 8 = 0) .partialByte
  Outcome.require (e.stop - e.start = bits / 8) .extent
  return e.stop

end Extent

namespace Header

/-- The texts of a tree: null, or an object of strings. -/
def info? (depth : Nat) : Tree → Option (Option (Table String))
  | .null => some none
  | t => do
    let ms ← t.record? depth
    let entries ← ms.mapM fun p => p.2.text?.map fun s => (p.1, s)
    return some (Table.ofList entries)

/-- The header of a tree.  The table of texts is given at most once; an array given again
replaces the one before. -/
def ofTree? (depth : Nat) (t : Tree) : Option Header := do
  let ms ← t.record? depth
  let inner := depth - 1
  let info ← ms.optional? infoKey (info? inner) none
  let extents ← (ms.filter (·.1 ≠ infoKey)).mapM fun p =>
    if (p.2.value? inner).isNone then none
    else (Extent.ofTree? inner p.2).map fun e => (p.1, e)
  return ⟨info, Table.ofList extents⟩

/-- The header of a text. -/
def parse? (s : String) : Option Header := (Tree.parse? s).bind (ofTree? Json.depthLimit)

/-- The arrays in the order of the data. -/
def inOrder (h : Header) : List (String × Extent) :=
  h.extents.entries.mergeSort fun a b => a.2.before b.2

/-- The length of the data, every array checked. -/
def dataLength (h : Header) : Outcome ReadFault Nat := h.inOrder.foldlM Extent.check 0

end Header

/-! ### Archives -/

/-- The largest length of a header. -/
def maxHeader : Nat := 100000000

/-- The bytes of the length of a header. -/
def lengthWidth : Nat := 8

/-- The header of an archive, and the data behind it. -/
def split (bs : Bytes) : Outcome ReadFault (Header × Bytes) := do
  Outcome.require (lengthWidth ≤ bs.length) .tooSmall
  let n := ofLittleEndian (bs.take lengthWidth)
  Outcome.require (n ≤ maxHeader) .tooLarge
  let rest := bs.drop lengthWidth
  Outcome.require (n ≤ rest.length) .headerLength
  let text ← Outcome.orError .headerText (Bytes.text? (rest.take n))
  let header ← Outcome.orError .headerForm (Header.parse? text)
  let size ← Size.add (← Size.add (← header.dataLength) lengthWidth) n
  Outcome.require (size = bs.length) .uncovered
  return (header, rest.drop n)

/-- The archive of a byte string. -/
def decode (bs : Bytes) : Outcome ReadFault Archive := do
  let (header, data) ← split bs
  return ⟨header.info, header.extents.map fun _ e =>
    ⟨e.type, e.shape, (data.drop e.start).take (e.stop - e.start)⟩⟩

end FlatNet.Archive
