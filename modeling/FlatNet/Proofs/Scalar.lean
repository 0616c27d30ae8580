import FlatNet.Scalar
import Mathlib

/-!
The order of numbers.

NaN is neither below nor above any number.  The other numbers are ordered by their places: by kind
first, from one infinity over negative numbers, zeros and positive numbers to the other, then by
exponent and mantissa.  So comparisons are transitive, and the larger of two numbers that are not
NaN is an upper bound of both.

* `place`, `lt_iff`, `le_iff`: where a number stands, and what that says of comparisons;
* `le_trans`, `le_max`: the order, and the larger of two numbers;
* `foldl_max_mem`, `max_negInfinity`: a maximum of several numbers, and where it starts;
* `isNaN_abs`: an absolute value is NaN only if the number is;
* `sub_self_eq`, `add_zero_of_isFinite`, `add_nan_mul`: the difference of a number and itself, and
  what zero and NaN do to a sum;
* `infinity_le_iff`: nothing but infinity is as large as infinity.
-/

namespace FlatNet.Scalar

open Float.Model (UnpackedFloat Format)

/-! ### Places -/

/-- Where a number that is not NaN stands among all numbers. -/
def position : UnpackedFloat → Int ×ₗ Int ×ₗ Int
  | .infinity .negative => toLex (-2, toLex (0, 0))
  | .finite .negative m e _ => toLex (-1, toLex (-e, -m))
  | .zero _ | .notANumber => toLex (0, toLex (0, 0))
  | .finite .positive m e _ => toLex (1, toLex (e, m))
  | .infinity .positive => toLex (2, toLex (0, 0))

lemma compare_cast (m n : Nat) : compare (m : Int) n = compare m n := by
  rw [← cmp_eq_compare, ← cmp_eq_compare]
  exact Nat.strictMono_cast.cmp_map_eq m n

lemma compare_neg (a b : Int) : compare (-a) (-b) = (compare a b).swap := by
  rw [← cmp_eq_compare, ← cmp_eq_compare, cmp_swap]
  exact StrictAnti.cmp_map_eq (fun _ _ h => Int.neg_lt_neg h) a b

/-- Numbers are compared as their positions are. -/
lemma compare_eq {a b : UnpackedFloat} (ha : a.isNaN = false) (hb : b.isNaN = false) :
    a.compare b = some (compare (position a) (position b)) := by
  match a, b with
  | .notANumber, _ => cases ha
  | _, .notANumber => cases hb
  | .infinity s, .infinity t => cases s <;> cases t <;> rfl
  | .infinity s, .zero t => cases s <;> rfl
  | .infinity s, .finite t .. => cases s <;> cases t <;> rfl
  | .zero s, .infinity t => cases t <;> rfl
  | .zero s, .zero t => rfl
  | .zero s, .finite t .. => cases t <;> rfl
  | .finite s .., .infinity t => cases s <;> cases t <;> rfl
  | .finite s .., .zero t => cases s <;> rfl
  | .finite .negative .., .finite .positive .. => rfl
  | .finite .positive .., .finite .negative .. => rfl
  -- both compare the exponents first, negative numbers the other way round
  | .finite .positive m e hm, .finite .positive n d hn =>
    have same : compare (position (.finite .positive m e hm)) (position (.finite .positive n d hn))
        = (compare e d).then (compare (m : Int) n) := rfl
    rw [same, compare_cast]
    rfl
  | .finite .negative m e hm, .finite .negative n d hn =>
    have same : compare (position (.finite .negative m e hm)) (position (.finite .negative n d hn))
        = (compare (-e) (-d)).then (compare (-m : Int) (-n)) := rfl
    rw [same, compare_neg, compare_neg, compare_cast, ← Ordering.swap_then]
    rfl

lemma compare_eq_some_iff {a b : UnpackedFloat} {o : Ordering} :
    a.compare b = some o ↔
      a.isNaN = false ∧ b.isNaN = false ∧ compare (position a) (position b) = o := by
  cases ha : a.isNaN
  · cases hb : b.isNaN
    · simp [compare_eq ha hb]
    · rw [UnpackedFloat.isNaN_iff.1 hb]
      cases a <;> simp [UnpackedFloat.compare]
  · rw [UnpackedFloat.isNaN_iff.1 ha]
    simp [UnpackedFloat.compare]

/-! ### Order -/

/-- The place of a number among all numbers. -/
def place (x : Float32) : Int ×ₗ Int ×ₗ Int := position x.toModel.unpack

variable {x y z : Float32}

lemma lt_iff : x < y ↔ x.isNaN = false ∧ y.isNaN = false ∧ place x < place y := by
  have known : x < y ↔ x.toModel.unpack.compare y.toModel.unpack = some .lt := by
    rw [← beq_iff_eq]
    exact decide_eq_true_iff
  rw [known, compare_eq_some_iff, compare_lt_iff_lt]
  exact Iff.rfl

lemma le_iff : x ≤ y ↔ x.isNaN = false ∧ y.isNaN = false ∧ place x ≤ place y := by
  have known : x ≤ y ↔ ∃ o, x.toModel.unpack.compare y.toModel.unpack = some o ∧ o.isLE := by
    rw [← Option.any_eq_true]
    exact decide_eq_true_iff
  simp only [known, compare_eq_some_iff]
  constructor
  · rintro ⟨o, ⟨hx, hy, rfl⟩, h⟩
    exact ⟨hx, hy, compare_le_iff_le.1 (Ordering.isLE_iff_ne_gt.1 h)⟩
  · rintro ⟨hx, hy, h⟩
    exact ⟨_, ⟨hx, hy, rfl⟩, Ordering.isLE_iff_ne_gt.2 (compare_le_iff_le.2 h)⟩

lemma le_refl (hx : x.isNaN = false) : x ≤ x := le_iff.2 ⟨hx, hx, le_rfl⟩

lemma le_trans (h : x ≤ y) (h' : y ≤ z) : x ≤ z := by
  obtain ⟨hx, -, below⟩ := le_iff.1 h
  obtain ⟨-, hz, above⟩ := le_iff.1 h'
  exact le_iff.2 ⟨hx, hz, below.trans above⟩

/-- The larger of two numbers is an upper bound of both. -/
lemma le_max (hx : x.isNaN = false) (hy : y.isNaN = false) : x ≤ max x y ∧ y ≤ max x y := by
  have larger : max x y = if x < y then y else x := by
    simp only [max, hx, hy, Bool.false_eq_true, if_false]
  rw [larger]
  by_cases less : x < y
  · rw [if_pos less]
    exact ⟨le_iff.2 ⟨hx, hy, (lt_iff.1 less).2.2.le⟩, le_refl hy⟩
  · rw [if_neg less]
    have below : place y ≤ place x := not_lt.1 fun h => less (lt_iff.2 ⟨hx, hy, h⟩)
    exact ⟨le_refl hx, le_iff.2 ⟨hy, hx, below⟩⟩

lemma max_eq_or (x y : Float32) : max x y = x ∨ max x y = y := by
  unfold max
  split_ifs <;> simp

/-- The maximum of numbers is one of them. -/
lemma foldl_max_mem (x : Float32) (xs : List Float32) : xs.foldl max x ∈ x :: xs := by
  induction xs generalizing x with
  | nil => exact List.mem_singleton_self x
  | cons y xs ih =>
    rw [List.foldl_cons]
    rcases List.mem_cons.1 (ih (max x y)) with here | later
    · rw [here]
      rcases max_eq_or x y with same | same <;> simp [same]
    · exact List.mem_cons_of_mem x (List.mem_cons_of_mem y later)

/-! ### Absolute values, differences and sums -/

lemma eq_of_unpack (h : x.toModel.unpack = y.toModel.unpack) : x = y := by
  have patterns := (UnpackedFloat.unpack_inj_of_valid x.toModel.valid y.toModel.valid).1 h
  exact Float32.toBits_inj.1 (UInt32.toBitVec_inj.1 patterns)


/-- A pattern is not NaN if some bit of its exponent is not set. -/
lemma isNaN_unpack {b : BitVec (Format.numBits .binary32)}
    (h : UnpackedFloat.unpackExponent b ≠ -1#_) :
    (UnpackedFloat.unpack .binary32 b).isNaN = false := by
  simp only [UnpackedFloat.unpack, if_neg h]
  split
  · split <;> rfl
  · rfl

/-- Only NaN is packed as NaN: a number that is too large becomes an infinity. -/
lemma isNaN_pack (u : UnpackedFloat) : (Float32.Model.pack u).unpack.isNaN = u.isNaN := by
  change (UnpackedFloat.unpack .binary32 (UnpackedFloat.pack .binary32 u)).isNaN = _
  have infinite (s : UnpackedFloat.Sign) : (UnpackedFloat.unpack .binary32
      (UnpackedFloat.packedInfinity .binary32 s)).isNaN = false := by
    cases s <;> decide +kernel
  cases u with
  | notANumber => decide +kernel
  | infinity s => exact infinite s
  | zero s => cases s <;> decide +kernel
  | finite s m e pos =>
    -- a finite number is packed as an infinity or with an exponent field that is not full
    simp only [UnpackedFloat.pack]
    split
    · exact infinite s
    rename_i small
    split
    · refine isNaN_unpack ?_
      rw [UnpackedFloat.unpackExponent_packComponents]
      intro full
      have full := congrArg BitVec.toNat full
      simp only [BitVec.toNat_ofNat, BitVec.toNat_neg] at full
      omega
    · refine isNaN_unpack ?_
      rw [UnpackedFloat.unpackExponent_packComponents]
      decide

lemma isNaN_abs (x : Float32) : x.abs.isNaN = x.isNaN := by
  have same : x.toModel.unpack.abs.isNaN = x.toModel.unpack.isNaN := by
    cases x.toModel.unpack <;> rfl
  exact (isNaN_pack x.toModel.unpack.abs).trans same

/-- The difference of a number and itself is NaN unless the number is finite. -/
lemma sub_self_eq (x : Float32) : x - x = if x.isFinite then 0 else 0 / 0 := by
  have zero : (0 : Float32) = .ofModel (.pack (.zero .positive)) := by decide +kernel
  have nan : (0 / 0 : Float32) = .ofModel (.pack .notANumber) := by decide +kernel
  change Float32.ofModel (.pack (UnpackedFloat.sub .binary32 x.toModel.unpack x.toModel.unpack))
    = if x.toModel.unpack.isFinite then 0 else 0 / 0
  cases x.toModel.unpack with
  | notANumber => exact nan.symm
  | infinity s => cases s <;> exact nan.symm
  | zero s => cases s <;> exact zero.symm
  | finite s m e pos =>
    -- both mantissas are shifted to one exponent, and then their difference is normalised
    simp only [UnpackedFloat.sub, sub_self]
    exact zero.symm

/-- Nothing is added to a finite number, but a negative zero becomes a positive one. -/
lemma add_zero_of_isFinite (finite : x.isFinite = true) : x + 0 = x ∨ x = -0 := by
  have zero : (0 : Float32).toModel.unpack = .zero .positive := by rfl
  have sum : x + 0 = .ofModel (.pack (UnpackedFloat.add .binary32 x.toModel.unpack
    (0 : Float32).toModel.unpack)) := rfl
  have whole : Float32.ofModel (.pack x.toModel.unpack) = x := Float32.ofBits_toBits x
  have known : x.toModel.unpack.isFinite = true := finite
  rw [sum, zero]
  cases shape : x.toModel.unpack with
  | notANumber => exact nomatch shape ▸ known
  | infinity s => exact nomatch shape ▸ known
  | zero s =>
    cases s with
    | positive =>
      rw [shape] at whole
      exact .inl whole
    | negative => exact .inr (eq_of_unpack (shape.trans (by rfl)))
  | finite s m e pos =>
    rw [shape] at whole
    exact .inl whole

/-- NaN stays. -/
lemma add_nan_mul (x y : Float32) : x + 0 / 0 * y = 0 / 0 := by
  have known : (0 / 0 : Float32).toModel.unpack = .notANumber :=
    UnpackedFloat.isNaN_iff.1 (by decide +kernel : (0 / 0 : Float32).isNaN = true)
  have nan : (0 / 0 : Float32) = .ofModel (.pack .notANumber) := by decide +kernel
  have product : 0 / 0 * y = 0 / 0 := by
    change Float32.ofModel (.pack (UnpackedFloat.mul .binary32 (0 / 0 : Float32).toModel.unpack
      y.toModel.unpack)) = 0 / 0
    rw [known, nan]
    rfl
  rw [product]
  change Float32.ofModel (.pack (UnpackedFloat.add .binary32 x.toModel.unpack
    (0 / 0 : Float32).toModel.unpack)) = 0 / 0
  rw [known, nan]
  cases x.toModel.unpack <;> rfl

/-! ### Infinity -/

/-- Only infinity is at the last position. -/
lemma eq_of_le_position {u : UnpackedFloat} (h : position (.infinity .positive) ≤ position u) :
    u = .infinity .positive := by
  have kind : 2 ≤ (ofLex (position u)).1 := Prod.Lex.monotone_fst _ _ h
  match u with
  | .infinity .positive => rfl
  | .infinity .negative => exact absurd kind (by decide)
  | .zero _ | .notANumber => exact absurd (show (2 : Int) ≤ 0 from kind) (by decide)
  | .finite .positive .. => exact absurd (show (2 : Int) ≤ 1 from kind) (by decide)
  | .finite .negative .. => exact absurd (show (2 : Int) ≤ -1 from kind) (by decide)

/-- Only negative infinity is at the first position. -/
lemma eq_of_position_le {u : UnpackedFloat} (h : position u ≤ position (.infinity .negative)) :
    u = .infinity .negative := by
  have kind : (ofLex (position u)).1 ≤ -2 := Prod.Lex.monotone_fst _ _ h
  match u with
  | .infinity .negative => rfl
  | .infinity .positive => exact absurd kind (by decide)
  | .zero _ | .notANumber => exact absurd (show (0 : Int) ≤ -2 from kind) (by decide)
  | .finite .positive .. => exact absurd (show (1 : Int) ≤ -2 from kind) (by decide)
  | .finite .negative .. => exact absurd (show (-1 : Int) ≤ -2 from kind) (by decide)

/-- No number is larger than infinity. -/
lemma infinity_le_iff : 1 / 0 ≤ x ↔ x = 1 / 0 := by
  constructor
  · intro h
    have last : place (1 / 0) = position (.infinity .positive) := by decide +kernel
    have top := eq_of_le_position (last ▸ (le_iff.1 h).2.2)
    exact eq_of_unpack (top.trans (eq_of_le_position last.ge).symm)
  · rintro rfl
    decide +kernel

/-- Negative infinity is the start of every maximum. -/
lemma max_negInfinity (hx : x.isNaN = false) : max (-1 / 0) x = x := by
  have start : (-1 / 0 : Float32).isNaN = false := by decide +kernel
  have larger : max (-1 / 0) x = if -1 / 0 < x then x else -1 / 0 := by
    simp only [max, hx, start, Bool.false_eq_true, if_false]
  rw [larger]
  split
  · rfl
  · rename_i least
    have first : place (-1 / 0) = position (.infinity .negative) := by decide +kernel
    have below : place x ≤ place (-1 / 0) := not_lt.1 fun h => least (lt_iff.2 ⟨start, hx, h⟩)
    have bottom := eq_of_position_le (first ▸ below)
    exact (eq_of_unpack (bottom.trans (eq_of_position_le first.le).symm)).symm

end FlatNet.Scalar
