import FlatNet.Proofs.Bytes
import FlatNet.Proofs.Size
import FlatNet.Tensor.Basic

/-!
Tensors that hold what their shape says.

* `Shape.volume`: the exact number of elements of a shape without empty dimensions;
* `Shape.byteCount?_eq_some_iff`: the number of bytes of such a shape;
* `Tensor.singles_of_wellSized`: a well-sized tensor of floating-point words has one word for
  each element;
* `Tensor.ofSingles_eq_ok`: words make a tensor if there is one for each element;
* `Tensor.image`, `Tensor.StackOf`: parts of a tensor along the first dimension, and tensors one
  after the other.
-/

namespace FlatNet

lemma DType.one_le_width (t : DType) : 1 ≤ t.width := by
  cases t <;> decide

namespace Shape

/-- The product of the dimensions. -/
def volume (s : Shape) : Nat := s.foldl (· * ·) 1

lemma volume_pos {s : Shape} (full : 0 ∉ s) : 1 ≤ s.volume := Size.le_foldl_mul full 1

/-- Each dimension of a shape without empty ones is at most its volume. -/
lemma le_volume {s : Shape} (full : 0 ∉ s) {d : Nat} (hd : d ∈ s) : d ≤ s.volume := by
  rw [volume, ← List.prod_eq_foldl]
  refine List.single_le_prod (fun n hn => Nat.one_le_iff_ne_zero.2 ?_) d hd
  rintro rfl
  exact full hn

/-- The elements of a shape without empty dimensions. -/
lemma count?_eq_some_iff {s : Shape} {n : Nat} (full : 0 ∉ s) :
    s.count? = some n ↔ s.volume < Size.bound ∧ s.volume = n := by
  have pos := volume_pos full
  simp only [count?, Option.map_eq_some_iff,
    Size.product?_eq_some_iff full (show 1 < Size.bound by decide)]
  constructor
  · rintro ⟨_, ⟨small, rfl⟩, rfl⟩
    exact ⟨small, (max_eq_left pos).symm⟩
  · rintro ⟨small, rfl⟩
    exact ⟨_, ⟨small, rfl⟩, max_eq_left pos⟩

/-- The bytes of a shape without empty dimensions. -/
lemma byteCount?_eq_some_iff {s : Shape} {t : DType} {n : Nat} (full : 0 ∉ s) :
    s.byteCount? t = some n ↔ s.volume * t.width < Size.bound ∧ s.volume * t.width = n := by
  have le : s.volume ≤ s.volume * t.width := Nat.le_mul_of_pos_right _ t.one_le_width
  simp only [byteCount?, Option.bind_eq_some_iff, count?_eq_some_iff full,
    Size.mul?_eq_some_iff]
  constructor
  · rintro ⟨_, ⟨-, rfl⟩, small⟩
    exact small
  · rintro ⟨small, rfl⟩
    exact ⟨_, ⟨lt_of_le_of_lt le small, rfl⟩, small, rfl⟩

end Shape

namespace Tensor

/-- A tensor without empty dimensions is well sized if it holds the bytes of its elements. -/
lemma wellSized_iff {t : Tensor} (full : 0 ∉ t.shape) :
    t.WellSized ↔ t.bytes.length < Size.bound ∧ t.bytes.length = t.shape.volume * t.dtype.width := by
  rw [WellSized, Shape.byteCount?_eq_some_iff full]
  constructor
  · rintro ⟨small, same⟩
    exact ⟨same ▸ small, same.symm⟩
  · rintro ⟨small, same⟩
    exact ⟨same ▸ small, same.symm⟩

lemma singles_eq {t : Tensor} (dtype : t.dtype = .f32) :
    t.singles = .ok (t.bytes.words.map Binary32.mk) := by
  rw [singles, expect, if_pos dtype]
  rfl

lemma singles_eq_ok_iff {t : Tensor} {xs : List Binary32} :
    t.singles = .ok xs ↔ t.dtype = .f32 ∧ t.bytes.words.map Binary32.mk = xs := by
  constructor
  · intro h
    have dtype : t.dtype = .f32 := by
      by_contra other
      rw [singles, expect, if_neg other] at h
      cases h
    rw [singles_eq dtype] at h
    exact ⟨dtype, Except.ok.inj h⟩
  · rintro ⟨dtype, rfl⟩
    exact singles_eq dtype

lemma smalls_eq {t : Tensor} (dtype : t.dtype = .i8) :
    t.smalls = .ok (t.bytes.map fun b => b.toInt8.toInt) := by
  rw [smalls, expect, if_pos dtype]
  rfl

/-- A well-sized tensor of floating-point words has one word for each element. -/
lemma singles_of_wellSized {t : Tensor} (dtype : t.dtype = .f32) (full : 0 ∉ t.shape)
    (sized : t.WellSized) :
    ∃ xs, t.singles = .ok xs ∧ xs.length = t.shape.volume ∧ 4 * xs.length < Size.bound := by
  obtain ⟨small, length⟩ := (wellSized_iff full).1 sized
  rw [dtype, show DType.f32.width = 4 from rfl] at length
  refine ⟨_, singles_eq dtype, ?_, ?_⟩ <;> rw [List.length_map, Bytes.length_words] <;> omega

/-- Words make a tensor if there is one for each element. -/
lemma ofSingles_eq_ok {shape : Shape} {xs : List Binary32} (full : 0 ∉ shape)
    (length : xs.length = shape.volume) (small : 4 * xs.length < Size.bound) :
    ofSingles shape xs = .ok ⟨.f32, shape, Bytes.ofSingles xs⟩ := by
  rw [ofSingles, ofBytes_eq_ok_iff]
  refine ⟨rfl, (wellSized_iff full).2 ?_⟩
  rw [Bytes.length_ofSingles, length, show DType.f32.width = 4 from rfl, Nat.mul_comm]
  exact ⟨by omega, rfl⟩

end Tensor

/-! ### Images -/

namespace Tensor

/-- The tensor at `k` along the first dimension. -/
def image (t : Tensor) (k : Nat) : Tensor :=
  match t.shape with
  | [] => t
  | _ :: dims =>
    let size := Shape.volume dims * t.dtype.width
    ⟨t.dtype, 1 :: dims, (t.bytes.drop (k * size)).take size⟩

lemma image_eq {t : Tensor} {n : Nat} {dims : Shape} (shape : t.shape = n :: dims) (k : Nat) :
    t.image k = ⟨t.dtype, 1 :: dims, (t.bytes.drop (k * (Shape.volume dims * t.dtype.width))).take
      (Shape.volume dims * t.dtype.width)⟩ := by
  rw [image, shape]

/-- A tensor of `n` images has the tensor `p` at `k`. -/
def ImageAt (n k : Nat) (t p : Tensor) : Prop :=
  ∃ dims, t.shape = n :: dims ∧ t.bytes.length = n * (Shape.volume dims * t.dtype.width) ∧
    p = t.image k

end Tensor

end FlatNet
