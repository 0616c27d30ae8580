import FlatNet.Bytes
import FlatNet.Size

/-!
Dense tensors.

A tensor is its element type, its dimensions and its bytes, elements one after the other
with the least significant byte first.  A tensor always holds at least one element, also
when a dimension is zero.

* `DType`: the element types;
* `Shape.count`, `Shape.count?`: the number of elements, faulting or partial;
* `Tensor`, `Tensor.ofBytes`: tensors, and the check of their size;
* `Tensor.singles`, `Tensor.ints`, `Tensor.smalls`: the elements of one type.
-/

namespace FlatNet

/-- An element type. -/
inductive DType where
  /-- 32-bit floating-point words. -/
  | f32
  /-- 32-bit signed integers. -/
  | i32
  /-- 8-bit signed integers. -/
  | i8
  /-- 8-bit unsigned integers. -/
  | u8
  deriving DecidableEq, Repr, Inhabited

namespace DType

/-- Every element type. -/
def all : List DType := [f32, i32, i8, u8]

/-- The bytes of an element. -/
def width : DType → Nat
  | f32 | i32 => 4
  | i8 | u8 => 1

/-- The name of an element type. -/
def name : DType → String
  | f32 => "f32"
  | i32 => "i32"
  | i8 => "i8"
  | u8 => "u8"

end DType

/-! ### Shapes -/

/-- The dimensions of a tensor. -/
abbrev Shape := List Nat

namespace Shape

/-- The number of elements: the product of the dimensions, at least one. -/
def count {ε : Type} (s : Shape) : Outcome ε Nat := do
  return max (← Size.product s) 1

/-- The number of elements, or `none` if a partial product is no size. -/
def count? (s : Shape) : Option Nat := (Size.product? 1 s).map fun n => max n 1

/-- The number of bytes of a tensor, or `none` if it is no size. -/
def byteCount? (s : Shape) (t : DType) : Option Nat :=
  s.count?.bind fun n => Size.mul? n t.width

/-- The dimensions as a list in brackets. -/
def text (s : Shape) : String := "[" ++ ", ".intercalate (s.map toString) ++ "]"

end Shape

/-- A size that may be missing. -/
def describeSize : Option Nat → String
  | some n => s!"Some({n})"
  | none => "None"

/-! ### Tensors -/

/-- A dense tensor. -/
structure Tensor where
  /-- The element type. -/
  dtype : DType
  /-- The dimensions. -/
  shape : Shape
  /-- The elements. -/
  bytes : Bytes
  deriving DecidableEq, Repr, Inhabited

/-- Why tensor data are refused. -/
inductive TensorError where
  /-- The bytes do not match the shape. -/
  | byteCount (found : Nat) (expected : Option Nat) (shape : Shape) (dtype : DType)
  /-- The elements are of another type. -/
  | elementType (expected found : DType)
  deriving Repr, DecidableEq

/-- The wording of an error. -/
def TensorError.message : TensorError → String
  | .byteCount found expected shape dtype =>
    s!"tensor byte size mismatch: got {found}, expected {describeSize expected} for "
      ++ s!"{shape.text} {dtype.name}"
  | .elementType expected found => s!"expected {expected.name} tensor, found {found.name}"

namespace Tensor

/-- Whether a tensor holds exactly the bytes of its shape. -/
def WellSized (t : Tensor) : Prop := t.shape.byteCount? t.dtype = some t.bytes.length

instance (t : Tensor) : Decidable t.WellSized := inferInstanceAs (Decidable (_ = _))

/-- The tensor of bytes that match its shape. -/
def ofBytes (dtype : DType) (shape : Shape) (bytes : Bytes) : Except TensorError Tensor :=
  if shape.byteCount? dtype = some bytes.length then .ok ⟨dtype, shape, bytes⟩
  else .error (.byteCount bytes.length (shape.byteCount? dtype) shape dtype)

/-- The tensor of floating-point words. -/
def ofSingles (shape : Shape) (xs : List Binary32) : Except TensorError Tensor :=
  ofBytes .f32 shape (Bytes.ofSingles xs)

/-- The tensor of integers. -/
def ofInts (shape : Shape) (xs : List Int32) : Except TensorError Tensor :=
  ofBytes .i32 shape (xs.flatMap fun n => Bytes.ofWord n.toUInt32)

/-- Refuse a tensor of another element type. -/
def expect (t : Tensor) (dtype : DType) : Except TensorError Unit :=
  if t.dtype = dtype then .ok () else .error (.elementType dtype t.dtype)

/-- The floating-point words of a tensor. -/
def singles (t : Tensor) : Except TensorError (List Binary32) := do
  t.expect .f32
  return t.bytes.words.map Binary32.mk

/-- The 32-bit integers of a tensor. -/
def ints (t : Tensor) : Except TensorError (List Int32) := do
  t.expect .i32
  return t.bytes.words.map UInt32.toInt32

/-- The 8-bit integers of a tensor. -/
def smalls (t : Tensor) : Except TensorError (List Int) := do
  t.expect .i8
  return t.bytes.map fun b => b.toInt8.toInt

/-- A tensor is accepted exactly when it is well sized. -/
theorem ofBytes_eq_ok_iff {dtype : DType} {shape : Shape} {bytes : Bytes} {t : Tensor} :
    ofBytes dtype shape bytes = .ok t ↔ t = ⟨dtype, shape, bytes⟩ ∧ t.WellSized := by
  unfold ofBytes WellSized
  constructor
  · intro h
    split at h
    · cases h
      simp_all
    · cases h
  · rintro ⟨rfl, h⟩
    simp_all

end Tensor

end FlatNet
