import FlatNet.Bytes
import FlatNet.Size
import FlatNet.Table

/-!
Tensor archives.

An archive holds named arrays of elements and a table of texts about them.  Element types
have a width in bits, and the arrays of narrow types must still fill whole bytes.

* `ElementType`: the element types, with names, widths and ranks;
* `Archive.Entry`: an array, and the check of its size;
* `Archive`: the texts and the arrays.
-/

namespace FlatNet

/-- An element type of an archive. -/
inductive ElementType where
  /-- Truth values. -/
  | bool
  /-- 4-bit numbers. -/
  | f4
  /-- 6-bit numbers with two exponent bits. -/
  | f6e2m3
  /-- 6-bit numbers with three exponent bits. -/
  | f6e3m2
  /-- Unsigned 8-bit integers. -/
  | u8
  /-- Signed 8-bit integers. -/
  | i8
  /-- 8-bit numbers with five exponent bits. -/
  | f8e5m2
  /-- 8-bit numbers with four exponent bits. -/
  | f8e4m3
  /-- 8-bit powers of two. -/
  | f8e8m0
  /-- Signed 16-bit integers. -/
  | i16
  /-- Unsigned 16-bit integers. -/
  | u16
  /-- 16-bit numbers. -/
  | f16
  /-- 16-bit numbers with eight exponent bits. -/
  | bf16
  /-- Signed 32-bit integers. -/
  | i32
  /-- Unsigned 32-bit integers. -/
  | u32
  /-- 32-bit numbers. -/
  | f32
  /-- 64-bit numbers. -/
  | f64
  /-- Signed 64-bit integers. -/
  | i64
  /-- Unsigned 64-bit integers. -/
  | u64
  deriving DecidableEq, Repr, Inhabited

namespace ElementType

/-- The element types in ascending rank. -/
def all : List ElementType :=
  [bool, f4, f6e2m3, f6e3m2, u8, i8, f8e5m2, f8e4m3, f8e8m0, i16, u16, f16, bf16, i32, u32, f32,
    f64, i64, u64]

/-- The name of a type. -/
def name : ElementType → String
  | bool => "BOOL"
  | f4 => "F4"
  | f6e2m3 => "F6_E2M3"
  | f6e3m2 => "F6_E3M2"
  | u8 => "U8"
  | i8 => "I8"
  | f8e5m2 => "F8_E5M2"
  | f8e4m3 => "F8_E4M3"
  | f8e8m0 => "F8_E8M0"
  | i16 => "I16"
  | u16 => "U16"
  | f16 => "F16"
  | bf16 => "BF16"
  | i32 => "I32"
  | u32 => "U32"
  | f32 => "F32"
  | f64 => "F64"
  | i64 => "I64"
  | u64 => "U64"

/-- The type of a name. -/
def ofName? (s : String) : Option ElementType := all.find? (·.name = s)

/-- The width of an element in bits. -/
def bits : ElementType → Nat
  | f4 => 4
  | f6e2m3 | f6e3m2 => 6
  | bool | u8 | i8 | f8e5m2 | f8e4m3 | f8e8m0 => 8
  | i16 | u16 | f16 | bf16 => 16
  | i32 | u32 | f32 => 32
  | f64 | i64 | u64 => 64

/-- The rank of a type; arrays of higher rank are stored first. -/
def rank (t : ElementType) : Nat := all.idxOf t

end ElementType

namespace Archive

/-- The key of the table of texts, which no array can have. -/
def infoKey : String := "__metadata__"

/-- A named array. -/
structure Entry where
  /-- The element type. -/
  type : ElementType
  /-- The dimensions; the number of elements is their product. -/
  shape : List Nat
  /-- The elements. -/
  bytes : Bytes
  deriving DecidableEq, Repr, Inhabited

/-- Why an archive is not written. -/
inductive WriteFault where
  /-- The elements of an array do not fill whole bytes. -/
  | partialByte
  /-- The bytes of an array do not match its shape. -/
  | size (type : ElementType) (shape : List Nat) (found : Nat)
  deriving DecidableEq, Repr

/-- The wording for elements that do not fill whole bytes. -/
def partialByteText : String :=
  "The slice is slicing for subbytes dtypes, and the slice does not end up at a byte boundary, "
    ++ "this is invalid."

/-- The wording of a fault. -/
def WriteFault.message : WriteFault → String
  | partialByte => partialByteText
  | size type shape found =>
    let dims := ", ".intercalate (shape.map toString)
    s!"tensor of type {type.name} and shape ({dims}) can't be created from {found} bytes"

/-- Check the size of an array. -/
def Entry.check (e : Entry) : Outcome WriteFault Unit := do
  let bits ← Size.mul (← Size.product e.shape) e.type.bits
  Outcome.require (bits % 8 = 0) .partialByte
  Outcome.require (bits / 8 = e.bytes.length) (.size e.type e.shape e.bytes.length)

end Archive

/-- A tensor archive. -/
structure Archive where
  /-- The texts about the arrays, if there are any. -/
  info : Option (Table String)
  /-- The arrays. -/
  entries : Table Archive.Entry

end FlatNet
