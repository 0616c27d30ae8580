import FlatNet.Proofs.Scalar.Rounding

/-!
Numbers and their values.

A number that is not negative, and has all of its 24 digits, shows a rational number.  The number is
determined by what it shows, comparisons compare it, and an operation shows the exact result after
one rounding.  Whole parts need no rounding: from `wholeFrom` on every number is an integer, and
below it every integer has its digits.

* `Shows`, `Shows.unique`, `Shows.lt_iff`: a number and its value;
* `shows_ofSize`, `Shows.div`, `Shows.sub`, `Shows.add`: conversions and operations round once;
* `Shows.floor`, `Shows.ceil`, `Shows.toIndex_eq`, `Shows.sub_floor`: the whole numbers around a
  number, and what is left of it, are exact.
-/

namespace FlatNet.Scalar

open Float.Model (UnpackedFloat Format)
open Float.Model.UnpackedFloat

/-! ### Unpacked numbers -/

/-- A pattern whose exponent is neither that of small numbers nor that of infinity. -/
lemma unpack_packComponents {m b : ℕ} (low : 2 ^ 23 ≤ m) (high : m < 2 ^ 24) (least : 0 < b)
    (most : b < 255) :
    UnpackedFloat.unpack .binary32
        (packComponents .binary32 .positive (BitVec.ofNat 8 b) (BitVec.ofNat 23 m))
      = .finite .positive m (b - 150) (by omega) := by
  have biased : (BitVec.ofNat 8 b).toNat = b := by
    rw [BitVec.toNat_ofNat]
    omega
  have normal : BitVec.ofNat 8 b ≠ 0#8 ∧ BitVec.ofNat 8 b ≠ -1#8 := by
    constructor <;> intro h <;> have h := congrArg BitVec.toNat h <;> rw [biased] at h
    · exact least.ne' h
    · exact most.ne h
  simp only [UnpackedFloat.unpack, unpackExponent_packComponents, unpackMantissa_packComponents,
    unpackSign_packComponents]
  rw [if_neg normal.2, if_neg normal.1]
  congr 1
  · -- the first digit is not stored
    rw [BitVec.toNat_append, ← Nat.shiftLeft_add_eq_or_of_lt (BitVec.isLt _), BitVec.toNat_ofNat]
    change 1 * 2 ^ 23 + m % 2 ^ 23 = m
    omega
  · rw [biased]
    rfl

namespace Denotes

variable {u v : UnpackedFloat} {x y : ℚ}

lemma nonneg (h : Denotes u x) : 0 ≤ x := by
  cases h with
  | zero => exact le_rfl
  | digits digits value => exact (value ▸ digits.value_pos).le

lemma isNaN (h : Denotes u x) : u.isNaN = false := by
  cases h <;> rfl

/-- A positive number stands behind zero. -/
lemma position_zero_lt {m : ℕ} {e : ℤ} (pos : 0 < m) (s : Sign) :
    position (.zero s) < position (.finite .positive m e pos) :=
  Prod.Lex.toLex_lt_toLex.2 (.inl Int.zero_lt_one)

/-- Numbers stand in the order of their values. -/
lemma position_lt (hu : Denotes u x) (hv : Denotes v y) (less : x < y) :
    position u < position v := by
  cases hv with
  | zero => exact absurd hu.nonneg (not_le.2 less)
  | @digits n d _ _ hn value' =>
    cases hu with
    | zero => exact position_zero_lt _ _
    | @digits m e _ _ hm value =>
      rw [value, value'] at less
      have inner : toLex (e, (m : ℤ)) < toLex (d, (n : ℤ)) := by
        rcases (hm.exponent_le hn less.le).lt_or_eq with below | rfl
        · exact Prod.Lex.toLex_lt_toLex.2 (.inl below)
        · have mantissas : (m : ℚ) < n := lt_of_mul_lt_mul_right less (by positivity)
          exact Prod.Lex.toLex_lt_toLex.2 (.inr ⟨rfl, Int.ofNat_lt.2 (Nat.cast_lt.1 mantissas)⟩)
      exact Prod.Lex.toLex_lt_toLex.2 (.inr ⟨rfl, inner⟩)

lemma unique (hu : Denotes u x) (hv : Denotes v x) : u = v := by
  cases hu with
  | zero =>
    cases hv with
    | zero => rfl
    | digits hn value' => exact absurd value' hn.value_pos.ne
  | @digits m e _ _ hm value =>
    cases hv with
    | zero => exact absurd value hm.value_pos.ne
    | @digits n d _ _ hn value' =>
      have same : (m * 2 ^ e : ℚ) = n * 2 ^ d := value.symm.trans value'
      obtain rfl : e = d := le_antisymm (hm.exponent_le hn same.le) (hn.exponent_le hm same.ge)
      obtain rfl : m = n := by exact_mod_cast mul_right_cancel₀ (by positivity) same
      rfl

lemma position_lt_iff (hu : Denotes u x) (hv : Denotes v y) :
    position u < position v ↔ x < y := by
  refine ⟨fun h => ?_, hu.position_lt hv⟩
  by_contra order
  rcases (not_lt.1 order).lt_or_eq with less | rfl
  · exact lt_asymm h (hv.position_lt hu less)
  · exact h.ne (congrArg position (hu.unique hv))

lemma position_eq_iff (hu : Denotes u x) (hv : Denotes v y) :
    position u = position v ↔ x = y := by
  simp only [le_antisymm_iff, ← not_lt, hu.position_lt_iff hv, hv.position_lt_iff hu]

lemma value_unique (hu : Denotes u x) (hu' : Denotes u y) : x = y := by
  cases hu with
  | zero =>
    cases hu'
    rfl
  | digits digits value =>
    cases hu' with
    | digits digits' value' => rw [value, value']

/-- Numbers of 24 digits are packed without loss. -/
lemma unpack_pack (h : Denotes u x) : (Float32.Model.pack u).unpack = u := by
  change UnpackedFloat.unpack .binary32 (UnpackedFloat.pack .binary32 u) = u
  cases h with
  | zero => exact unpack_packedZero
  | @digits m e _ _ digits value =>
    have least := digits.least
    have most := digits.most
    obtain ⟨b, hb⟩ : ∃ b : ℕ, e + 127 + 23 = b := ⟨(e + 127 + 23).toNat, by omega⟩
    have packed : UnpackedFloat.pack .binary32 (.finite .positive m e digits.pos)
        = packComponents .binary32 .positive (BitVec.ofNat 8 b) (BitVec.ofNat 23 m) := by
      have biased : (e + Format.exponentBias .binary32 + (23 : ℕ)).toNat = b := by
        change (e + 127 + 23).toNat = b
        omega
      rw [UnpackedFloat.pack, biased, if_neg (show ¬ 2 ^ 8 ≤ b + 1 by omega), digits.log2]
      rfl
    rw [packed, unpack_packComponents digits.low digits.high (by omega) (by omega)]
    congr 1
    omega

end Denotes

/-! ### Values -/

/-- The number has the value `x`. -/
def Shows (f : Float32) (x : ℚ) : Prop := Denotes f.toModel.unpack x

lemma Denotes.shows {u : UnpackedFloat} {x : ℚ} (h : Denotes u x) :
    Shows (.ofModel (.pack u)) x := by
  change Denotes (Float32.Model.pack u).unpack x
  rwa [h.unpack_pack]

lemma shows_toFloat32 (n : UInt64) : Shows n.toFloat32 (nearest n.toNat) := by
  refine (denotes_normalize (e := 0) (by simp) ?_).shows
  rcases Nat.eq_zero_or_pos n.toNat with none | some
  · exact .inl (by rw [none, Nat.cast_zero])
  · have low : (1 : ℚ) ≤ n.toNat := by exact_mod_cast some
    have high : (n.toNat : ℚ) < 2 ^ 64 := by exact_mod_cast n.toNat_lt
    exact .inr ⟨by norm_num; linarith, by norm_num at high ⊢; linarith⟩

/-- A size is rounded once. -/
lemma shows_ofSize {n : ℕ} (fits : n < 2 ^ 64) : Shows (ofSize n) (nearest n) := by
  have shown := shows_toFloat32 n.toUInt64
  rwa [Nat.toUInt64, UInt64.toNat_ofNat_of_lt' fits] at shown

/-- A size of at most 24 digits is not rounded. -/
lemma shows_ofSize_of_le {n : ℕ} (few : n ≤ 2 ^ 24) : Shows (ofSize n) n := by
  have shown := shows_ofSize (n := n) (by omega)
  rwa [nearest_natCast few] at shown

namespace Shows

variable {f g : Float32} {x y : ℚ}

lemma isNaN (h : Shows f x) : f.isNaN = false := Denotes.isNaN h

lemma nonneg (h : Shows f x) : 0 ≤ x := Denotes.nonneg h

lemma lt_iff (hf : Shows f x) (hg : Shows g y) : f < g ↔ x < y := by
  rw [Scalar.lt_iff, hf.isNaN, hg.isNaN]
  exact (and_iff_right rfl).trans ((and_iff_right rfl).trans (hf.position_lt_iff hg))

/-- A number is determined by its value. -/
lemma unique (hf : Shows f x) (hg : Shows g x) : f = g := eq_of_unpack (Denotes.unique hf hg)

lemma beq_iff (hf : Shows f x) (hg : Shows g y) : (f == g) = true ↔ x = y := by
  have known : (f == g) = true ↔ f.toModel.unpack.compare g.toModel.unpack = some .eq :=
    beq_iff_eq (a := f.toModel.unpack.compare g.toModel.unpack)
  rw [known, compare_eq_some_iff, compare_eq_iff_eq, hf.position_eq_iff hg]
  exact (and_iff_right hf.isNaN).trans (and_iff_right hg.isNaN)

lemma div (hf : Shows f x) (hg : Shows g y) (pos : 0 < y) (range : x = 0 ∨ Inner (x / y)) :
    Shows (f / g) (nearest (x / y)) :=
  (denotes_div hf hg pos range).shows

lemma sub (hf : Shows f x) (hg : Shows g y) (range : x - y = 0 ∨ Inner (x - y)) :
    Shows (f - g) (nearest (x - y)) :=
  (denotes_sub hf hg range).shows

lemma add (hf : Shows f x) (hg : Shows g y) (range : x + y = 0 ∨ Inner (x + y)) :
    Shows (f + g) (nearest (x + y)) :=
  (denotes_add hf hg range).shows

lemma zero_mul (h : Shows f x) : 0 * f = 0 := by
  have product : 0 * f = .ofModel (.pack (UnpackedFloat.mul .binary32 (.zero .positive)
    f.toModel.unpack)) := rfl
  have zero : (0 : Float32) = .ofModel (.pack (.zero .positive)) := by decide +kernel
  unfold Shows at h
  rw [product, zero]
  generalize f.toModel.unpack = u at h
  cases h <;> rfl

/-! ### Whole numbers -/

/-- The whole part as an index. -/
lemma toIndex_eq (h : Shows f x) (fits : x < 2 ^ 64) : toIndex f = ⌊x⌋₊ := by
  have cut := Denotes.toInt_eq h 0 (UInt64.size - 1)
  change (UInt64.ofNatClamp (f.toModel.unpack.toInt 0 (UInt64.size - 1)).toNat).toNat = _
  have inside : ⌊x⌋₊ < UInt64.size := (Nat.floor_lt h.nonneg).2 (by exact_mod_cast fits)
  rw [cut, Int.floor_toNat, UInt64.ofNatClamp_eq_ofNat _ inside, UInt64.toNat_ofNat_of_lt' inside]

/-- From `wholeFrom` on every number is an integer. -/
lemma eq_floor_of_le (h : Shows f x) (large : 2 ^ 23 ≤ x) : x = ⌊x⌋₊ := by
  unfold Shows at h
  generalize f.toModel.unpack = u at h
  cases h with
  | zero => norm_num at large
  | @digits m e _ _ digits value =>
    have exponent : 0 ≤ e := by
      have bound : (2 : ℚ) ^ (23 : ℤ) < 2 ^ (e + 24) :=
        (value ▸ large : (2 : ℚ) ^ 23 ≤ m * 2 ^ e).trans_lt digits.value_lt
      have exponents := (zpow_lt_zpow_iff_right₀ one_lt_two).1 bound
      omega
    lift e to ℕ using exponent
    have integral : x = (m * 2 ^ e : ℕ) := by
      rw [value, zpow_natCast]
      push_cast
      rfl
    rw [integral, Nat.floor_natCast]

lemma whole (h : Shows f x) : Shows (whole f) ⌊x⌋₊ := by
  have bound : Shows wholeFrom 8388608 := by
    have same : wholeFrom = ofSize 8388608 := by decide +kernel
    exact same ▸ shows_ofSize_of_le (n := 8388608) (by norm_num)
  rw [Scalar.whole]
  split_ifs with small
  · rw [h.lt_iff bound] at small
    have index := h.toIndex_eq (small.trans (by norm_num))
    have shown := shows_toFloat32 f.toUInt64
    rw [toIndex] at index
    have few : ⌊x⌋₊ < 8388608 := (Nat.floor_lt h.nonneg).2 (by exact_mod_cast small)
    rwa [index, nearest_natCast (by omega)] at shown
  · rw [h.lt_iff bound, not_lt] at small
    rwa [← h.eq_floor_of_le (by norm_num; exact small)]

lemma zero : Shows 0 0 := by
  have same : (0 : Float32) = ofSize 0 := by decide +kernel
  exact_mod_cast same ▸ shows_ofSize_of_le (n := 0) (by norm_num)

lemma one : Shows 1 1 := by
  have same : (1 : Float32) = ofSize 1 := by decide +kernel
  exact_mod_cast same ▸ shows_ofSize_of_le (n := 1) (by norm_num)

lemma zero_le (h : Shows f x) : 0 ≤ f := by
  rw [Scalar.le_iff, ← not_lt]
  exact ⟨zero.isNaN, h.isNaN, fun below => not_lt.2 h.nonneg ((h.position_lt_iff zero).1 below)⟩

lemma floor (h : Shows f x) : Shows (Scalar.floor f) ⌊x⌋₊ := by
  rw [Scalar.floor, if_pos h.zero_le]
  exact h.whole

lemma ceil (h : Shows f x) : Shows (Scalar.ceil f) ⌈x⌉₊ := by
  rw [Scalar.ceil, if_pos h.zero_le, wholeAbove]
  split_ifs with same
  · rw [h.whole.beq_iff h] at same
    rw [← same, Nat.ceil_natCast, same]
    exact h
  · rw [h.whole.beq_iff h] at same
    have small : x < 2 ^ 23 := not_le.1 fun large => same (h.eq_floor_of_le large).symm
    have few : ⌊x⌋₊ < 2 ^ 23 := (Nat.floor_lt h.nonneg).2 (by exact_mod_cast small)
    have next : ⌈x⌉₊ = ⌊x⌋₊ + 1 := by
      rw [Nat.ceil_eq_iff (by omega), Nat.add_sub_cancel, Nat.cast_add_one]
      exact ⟨lt_of_le_of_ne (Nat.floor_le h.nonneg) same, (Nat.lt_floor_add_one x).le⟩
    have inner : Inner (⌊x⌋₊ + 1) := by
      have some : (0 : ℚ) ≤ ⌊x⌋₊ := Nat.cast_nonneg _
      have bound : (⌊x⌋₊ : ℚ) < 8388608 := by exact_mod_cast few
      exact ⟨by norm_num; linarith, by norm_num; linarith⟩
    have sum := h.whole.add one (.inr inner)
    rw [← Nat.cast_add_one, nearest_natCast (by omega), ← next] at sum
    exact sum

/-- What stands behind the point has digits of the number. -/
lemma exists_fract_eq (h : Shows f x) (low : 2 ^ (-70 : ℤ) ≤ x) :
    ∃ k : ℕ, ∃ e : ℤ, k < 2 ^ 24 ∧ -100 ≤ e ∧ x - ⌊x⌋₊ = k * 2 ^ e := by
  rcases le_or_gt (2 ^ 23) x with large | small
  · exact ⟨0, 0, by norm_num, by norm_num, by rw [← h.eq_floor_of_le large]; simp⟩
  unfold Shows at h
  generalize f.toModel.unpack = u at h
  cases h with
  | zero => norm_num at low
  | @digits m e _ _ digits value =>
    have least : (2 : ℚ) ^ (-70 : ℤ) < 2 ^ (e + 24) := (value ▸ low).trans_lt digits.value_lt
    have most : (2 : ℚ) ^ (e + 23) < 2 ^ (23 : ℤ) := digits.le_value.trans_lt (value ▸ small)
    rw [zpow_lt_zpow_iff_right₀ one_lt_two] at least most
    obtain ⟨n, rfl⟩ : ∃ n : ℕ, e = -n := ⟨(-e).toNat, by omega⟩
    have quotient : x = m / (2 ^ n : ℕ) := by
      rw [value, zpow_neg, zpow_natCast, ← div_eq_mul_inv]
      push_cast
      rfl
    refine ⟨m % 2 ^ n, -n, (Nat.mod_le _ _).trans_lt digits.high, by omega, ?_⟩
    have division : (m : ℚ) = (m / 2 ^ n : ℕ) * (2 ^ n : ℕ) + (m % 2 ^ n : ℕ) := by
      exact_mod_cast (Nat.div_add_mod' m (2 ^ n)).symm
    have some : ((2 ^ n : ℕ) : ℚ) ≠ 0 := by positivity
    rw [quotient, Nat.floor_div_eq_div, division, add_div, mul_div_cancel_right₀ _ some,
      add_sub_cancel_left, zpow_neg, zpow_natCast, ← div_eq_mul_inv, Nat.cast_pow, Nat.cast_ofNat]

/-- A number and its whole part differ by what stands behind the point. -/
lemma sub_floor (h : Shows f x) (range : x = 0 ∨ 2 ^ (-70 : ℤ) ≤ x) :
    Shows (f - Scalar.floor f) (x - ⌊x⌋₊) := by
  rcases range with rfl | low
  · have none := h.sub h.floor (by simp)
    simpa [nearest_zero] using none
  · obtain ⟨k, e, few, least, fract⟩ := h.exists_fract_eq low
    have range : x - ⌊x⌋₊ = 0 ∨ Inner (x - ⌊x⌋₊) := by
      rcases Nat.eq_zero_or_pos k with rfl | some
      · exact .inl (by rw [fract]; simp)
      · refine .inr ⟨?_, ?_⟩
        · have one : (1 : ℚ) ≤ k := by exact_mod_cast some
          rw [fract]
          exact (zpow_le_zpow_right₀ one_le_two least).trans
            (le_mul_of_one_le_left (by positivity) one)
        · have below := Nat.lt_floor_add_one x
          norm_num
          linarith
    have difference := h.sub h.floor range
    rwa [fract, nearest_mul_zpow few, ← fract] at difference

/-- A number that is not negative is the larger one of itself and zero. -/
lemma max_zero (h : Shows f x) : max f 0 = f := by
  have order : ¬ f < 0 := by
    rw [h.lt_iff zero, not_lt]
    exact h.nonneg
  simp only [max, h.isNaN, zero.isNaN, Bool.false_eq_true, if_false, order]

end Shows

end FlatNet.Scalar
