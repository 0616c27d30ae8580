import FlatNet.Proofs.Scalar

/-!
Rounding to 24 binary digits.

An operation on numbers computes the exact result to some digits, notes in two bits what it leaves
out, and rounds.  Both bits describe a fraction (`Cuts`), and a shift to fewer digits keeps this, so
the rounded mantissa is the nearest integer, and the even one of two that are equally near.  Hence
the result is that of exact arithmetic on rational numbers followed by one rounding (`nearest`), as
long as it is far from the ends of the exponents (`Inner`).

* `nearest`, `nearest_mul_zpow`, `nearest_bounds`: the rounding, the numbers that it keeps, and how
  far it moves the others;
* `Cuts.roundedMantissa`, `Cuts.shiftRight`, `Cuts.roundWithAccuracy`: what is left out of a result
  decides how it is rounded;
* `denotes_div`, `denotes_sub`, `denotes_add`, `Denotes.toInt_eq`: the operations on unpacked
  numbers that are not negative.
-/

namespace FlatNet.Scalar

open Float.Model (UnpackedFloat Format)
open Float.Model.UnpackedFloat

/-! ### Rounding of rational numbers -/

/-- The nearest integer, and the even one of two that are equally near. -/
def roundEven (x : ℚ) : ℤ :=
  if Int.fract x < 1 / 2 then ⌊x⌋ else if 1 / 2 < Int.fract x then ⌊x⌋ + 1 else ⌊x⌋ + ⌊x⌋ % 2

/-- The exponent of the last of 24 binary digits. -/
def lastPlace (x : ℚ) : ℤ := Int.log 2 x - 23

/-- The nearest number of 24 binary digits, and the even one of two that are equally near. -/
def nearest (x : ℚ) : ℚ := roundEven (x / 2 ^ lastPlace x) * 2 ^ lastPlace x

/-- A number far from both ends of the exponents. -/
structure Inner (x : ℚ) : Prop where
  low : 2 ^ (-100 : ℤ) ≤ x
  high : x < 2 ^ (100 : ℤ)

lemma roundEven_bounds (x : ℚ) : ⌊x⌋ ≤ roundEven x ∧ roundEven x ≤ ⌊x⌋ + 1 := by
  unfold roundEven
  split_ifs <;> omega

lemma roundEven_intCast (n : ℤ) : roundEven n = n := by
  rw [roundEven, Int.fract_intCast, if_pos (by norm_num), Int.floor_intCast]

/-- The exponent of the first digit. -/
lemma log_eq {x : ℚ} {k : ℤ} (low : 2 ^ k ≤ x) (high : x < 2 ^ (k + 1)) : Int.log 2 x = k := by
  have pos : 0 < x := lt_of_lt_of_le (by positivity) low
  have above := (Int.zpow_le_iff_le_log (b := 2) (by decide) pos).1 (by exact_mod_cast low)
  have below := (Int.lt_zpow_iff_log_lt (b := 2) (by decide) pos).1 (by exact_mod_cast high)
  omega

/-- The first digit of a product with a power of two. -/
lemma log_mul_zpow {y : ℚ} {k : ℕ} (low : 2 ^ k ≤ y) (high : y < 2 ^ (k + 1)) (e : ℤ) :
    Int.log 2 (y * 2 ^ e) = k + e := by
  refine log_eq ?_ ?_
  · rw [zpow_add₀ (by norm_num), zpow_natCast]
    exact mul_le_mul_of_nonneg_right low (by positivity)
  · rw [add_right_comm, zpow_add₀ (by norm_num), ← Nat.cast_succ, zpow_natCast]
    exact mul_lt_mul_of_pos_right high (by positivity)

lemma Inner.pos {x : ℚ} (h : Inner x) : 0 < x := lt_of_lt_of_le (by positivity) h.low

lemma Inner.log {x : ℚ} (h : Inner x) : -100 ≤ Int.log 2 x ∧ Int.log 2 x < 100 :=
  ⟨(Int.zpow_le_iff_le_log (b := 2) (by decide) h.pos).1 (by exact_mod_cast h.low),
    (Int.lt_zpow_iff_log_lt (b := 2) (by decide) h.pos).1 (by exact_mod_cast h.high)⟩

lemma nearest_zero : nearest 0 = 0 := by
  rw [nearest, zero_div, ← Int.cast_zero, roundEven_intCast, Int.cast_zero, zero_mul]

/-- A multiple of its last place is kept. -/
lemma nearest_eq_self_of_multiple {x : ℚ} {n : ℤ} (h : x = n * 2 ^ lastPlace x) :
    nearest x = x := by
  have integral : x / 2 ^ lastPlace x = n := (div_eq_iff (by positivity)).2 h
  rw [nearest, integral, roundEven_intCast]
  exact h.symm

/-- A number of at most 24 digits is kept. -/
lemma nearest_mul_zpow {k : ℕ} (few : k < 2 ^ 24) (e : ℤ) :
    nearest (k * 2 ^ e) = k * 2 ^ e := by
  rcases Nat.eq_zero_or_pos k with rfl | pos
  · rw [Nat.cast_zero, zero_mul, nearest_zero]
  obtain ⟨n, hn⟩ : ∃ n, k.log2 + n = 23 := by
    have digits : k.log2 < 24 := (Nat.log2_lt pos.ne').2 few
    exact ⟨23 - k.log2, by omega⟩
  have place : lastPlace (k * 2 ^ e) = e - n := by
    rw [lastPlace, log_mul_zpow (by exact_mod_cast Nat.log2_self_le pos.ne')
      (by exact_mod_cast Nat.lt_log2_self)]
    omega
  refine nearest_eq_self_of_multiple (n := (k * 2 ^ n : ℕ)) ?_
  rw [place, zpow_sub₀ (by norm_num), zpow_natCast]
  push_cast
  field_simp

/-- Every integer up to a power of two is kept. -/
lemma nearest_natCast {n : ℕ} (few : n ≤ 2 ^ 24) : nearest n = n := by
  rcases few.lt_or_eq with less | rfl
  · simpa using nearest_mul_zpow less 0
  · have digits := nearest_mul_zpow (k := 1) (by decide) 24
    norm_num at digits ⊢
    exact digits

/-- Rounding does not double a number, nor halve it. -/
lemma nearest_bounds {x : ℚ} (pos : 0 < x) : x / 2 ≤ nearest x ∧ nearest x ≤ 2 * x := by
  have place : (0 : ℚ) < 2 ^ lastPlace x := by positivity
  have whole : x / 2 ^ lastPlace x * 2 ^ lastPlace x = x := div_mul_cancel₀ x place.ne'
  have some : 2 ≤ x / 2 ^ lastPlace x := by
    have first : (2 : ℚ) ^ Int.log 2 x ≤ x := by
      exact_mod_cast Int.zpow_log_le_self (b := 2) (by decide) pos
    rw [le_div_iff₀ place, ← zpow_one_add₀ (by norm_num)]
    refine (zpow_le_zpow_right₀ (by norm_num) ?_).trans first
    rw [lastPlace]
    omega
  -- the rounding moves the digits by one at most
  obtain ⟨low, high⟩ := roundEven_bounds (x / 2 ^ lastPlace x)
  have low : (⌊x / 2 ^ lastPlace x⌋ : ℚ) ≤ roundEven (x / 2 ^ lastPlace x) := by exact_mod_cast low
  have high : (roundEven (x / 2 ^ lastPlace x) : ℚ) ≤ ⌊x / 2 ^ lastPlace x⌋ + 1 := by
    exact_mod_cast high
  have below := Int.floor_le (x / 2 ^ lastPlace x)
  have above := Int.lt_floor_add_one (x / 2 ^ lastPlace x)
  rw [nearest]
  constructor
  · calc x / 2 = x / 2 ^ lastPlace x / 2 * 2 ^ lastPlace x := by rw [div_mul_eq_mul_div, whole]
      _ ≤ _ := mul_le_mul_of_nonneg_right (by linarith) place.le
  · calc _ ≤ 2 * (x / 2 ^ lastPlace x) * 2 ^ lastPlace x :=
        mul_le_mul_of_nonneg_right (by linarith) place.le
      _ = 2 * x := by rw [mul_assoc, whole]

/-- The round bit and the sticky bit of a mantissa describe the fraction that it leaves out. -/
structure Cuts (em : ExtendedMantissa) (x fraction : ℚ) : Prop where
  /-- The number is the mantissa and the fraction. -/
  sum : x = em.mantissa + fraction
  nonneg : 0 ≤ fraction
  lt_one : fraction < 1
  /-- The round bit is the first digit of the fraction. -/
  round : em.roundBit = true ↔ 1 / 2 ≤ fraction
  /-- The sticky bit tells whether there is another one. -/
  sticky : em.stickyBit = true ↔ fraction ≠ 0 ∧ fraction ≠ 1 / 2

namespace Cuts

variable {em : ExtendedMantissa} {x f : ℚ}

lemma fract (h : Cuts em x f) : ⌊x⌋ = em.mantissa ∧ Int.fract x = f := by
  have whole : ⌊x⌋ = em.mantissa := by
    rw [Int.floor_eq_iff, h.sum, Int.cast_natCast]
    exact ⟨le_add_of_nonneg_right h.nonneg, add_lt_add_right h.lt_one _⟩
  refine ⟨whole, ?_⟩
  rw [Int.fract, whole, h.sum, Int.cast_natCast]
  ring

/-- A mantissa is rounded as its two bits say. -/
lemma roundedMantissa (h : Cuts em x f) : (em.roundedMantissa : ℤ) = roundEven x := by
  obtain ⟨whole, fract⟩ := h.fract
  obtain ⟨m, r, s⟩ := em
  have round := h.round
  have sticky := h.sticky
  rw [roundEven, whole, fract]
  cases r <;> cases s <;>
    simp only [Bool.false_eq_true, false_iff, true_iff, not_le, not_and, not_not] at round sticky
  · rw [if_pos round]
    rfl
  · rw [if_pos round]
    rfl
  -- only the round bit is set, so what is cut off is one half
  · have tie : f = 1 / 2 := sticky (by linarith)
    rw [if_neg (by linarith), if_neg (by linarith)]
    push_cast [ExtendedMantissa.roundedMantissa, ExtendedMantissa.accuracy,
      Accuracy.roundToNearestEven]
    rfl
  · have above : 1 / 2 < f := lt_of_le_of_ne round (Ne.symm sticky.2)
    rw [if_neg (by linarith), if_pos above]
    push_cast [ExtendedMantissa.roundedMantissa, ExtendedMantissa.accuracy,
      Accuracy.roundToNearestEven]
    rfl

/-- Half of a number has one digit more behind the mantissa. -/
lemma shiftRightOne (h : Cuts em x f) :
    ∃ f', Cuts em.shiftRightOne (x / 2) f' := by
  have split : (em.mantissa : ℚ) = 2 * (em.mantissa / 2 : ℕ) + (em.mantissa % 2 : ℕ) := by
    exact_mod_cast (Nat.div_add_mod em.mantissa 2).symm
  have nonneg := h.nonneg
  have lt_one := h.lt_one
  -- what is cut off so far is not zero exactly if one of the two bits is set
  have lost : (em.roundBit || em.stickyBit) = true ↔ f ≠ 0 := by
    rw [Bool.or_eq_true, h.round, h.sticky]
    constructor
    · rintro (half | ⟨some, -⟩)
      · linarith
      · exact some
    · intro some
      rcases lt_or_ge f (1 / 2) with below | above
      · exact .inr ⟨some, below.ne⟩
      · exact .inl above
  -- the bit that is shifted out decides whether the cut is below one half
  rcases Nat.mod_two_eq_zero_or_one em.mantissa with even | odd
  · refine ⟨f / 2, ?_, by linarith, by linarith, ?_, ?_⟩
    · rw [h.sum, split, even]
      simp only [ExtendedMantissa.shiftRightOne]
      push_cast
      ring
    · simp only [ExtendedMantissa.shiftRightOne, even]
      constructor <;> intro bit
      · exact absurd bit (by decide)
      · linarith
    · refine lost.trans ⟨fun some => ⟨by simpa using some, by linarith⟩, fun some => ?_⟩
      simpa using some.1
  · refine ⟨(1 + f) / 2, ?_, by linarith, by linarith, ?_, ?_⟩
    · rw [h.sum, split, odd]
      simp only [ExtendedMantissa.shiftRightOne]
      push_cast
      ring
    · simp only [ExtendedMantissa.shiftRightOne, odd]
      exact ⟨fun _ => by linarith, fun _ => by decide⟩
    · refine lost.trans ⟨fun some => ⟨by linarith, fun half => some (by linarith)⟩, ?_⟩
      rintro ⟨-, some⟩ rfl
      exact some (by norm_num)

/-- A shift divides by a power of two. -/
lemma shiftRight (h : Cuts em x f) (n : ℕ) : ∃ f', Cuts (em >>> n) (x / 2 ^ n) f' := by
  change ∃ f', Cuts (n.repeat ExtendedMantissa.shiftRightOne em) (x / 2 ^ n) f'
  induction n with
  | zero => exact ⟨f, by simpa [Nat.repeat] using h⟩
  | succ n ih =>
    obtain ⟨f', cuts⟩ := ih
    rw [pow_succ, ← div_div]
    exact cuts.shiftRightOne

end Cuts

/-! ### Rounding of results -/

/-- A mantissa of 24 digits, and an exponent that a pattern can hold. -/
structure Digits (m : ℕ) (e : ℤ) : Prop where
  low : 2 ^ 23 ≤ m
  high : m < 2 ^ 24
  least : -149 ≤ e
  most : e ≤ 104

/-- An unpacked number that is not negative and has a value of 24 digits. -/
inductive Denotes : UnpackedFloat → ℚ → Prop
  | zero : Denotes (.zero .positive) 0
  | digits {m e pos} {x : ℚ} (digits : Digits m e) (value : x = m * 2 ^ e) :
      Denotes (.finite .positive m e pos) x

namespace Digits

variable {m n : ℕ} {e d : ℤ}

lemma pos (h : Digits m e) : 0 < m := (by decide : 0 < 2 ^ 23).trans_le h.low

lemma value_pos (h : Digits m e) : (0 : ℚ) < m * 2 ^ e :=
  mul_pos (by exact_mod_cast h.pos) (by positivity)

lemma le_value (h : Digits m e) : (2 : ℚ) ^ (e + 23) ≤ m * 2 ^ e := by
  rw [add_comm, zpow_add₀ two_ne_zero, zpow_ofNat]
  exact mul_le_mul_of_nonneg_right (by exact_mod_cast h.low) (by positivity)

lemma value_lt (h : Digits m e) : (m * 2 ^ e : ℚ) < 2 ^ (e + 24) := by
  rw [add_comm, zpow_add₀ two_ne_zero, zpow_ofNat]
  exact mul_lt_mul_of_pos_right (by exact_mod_cast h.high) (by positivity)

lemma log2 (h : Digits m e) : m.log2 = 23 := (Nat.log2_eq_iff h.pos.ne').2 ⟨h.low, h.high⟩

/-- A larger exponent makes a larger number. -/
lemma exponent_le (hm : Digits m e) (hn : Digits n d) (order : (m * 2 ^ e : ℚ) ≤ n * 2 ^ d) :
    e ≤ d := by
  have bound : (2 : ℚ) ^ (e + 23) < 2 ^ (d + 24) :=
    hm.le_value.trans_lt (order.trans_lt hn.value_lt)
  have exponents := (zpow_lt_zpow_iff_right₀ one_lt_two).1 bound
  omega

end Digits

lemma mantissa_ofMantissaAndAccuracy (m : ℕ) (acc : Accuracy) :
    (ExtendedMantissa.ofMantissaAndAccuracy m acc).mantissa = m := by
  cases acc with
  | exact => rfl
  | inexact o => cases o <;> rfl

/-- A mantissa of at least 24 digits is shifted to 24 digits. -/
lemma shiftToTargetExponent_eq {m : ℕ} {e : ℤ} (acc : Accuracy) (wide : 2 ^ 23 ≤ m)
    (least : -149 ≤ (m.log2 - 23 : ℕ) + e) :
    shiftToTargetExponent .binary32 m e acc =
      (ExtendedMantissa.ofMantissaAndAccuracy m acc >>> (m.log2 - 23), (m.log2 - 23 : ℕ) + e) := by
  have digits : 23 ≤ m.log2 := (Nat.le_log2 (by omega)).2 wide
  have target : Format.targetExponent .binary32 (Float.Model.totalExponent m e)
      = (m.log2 - 23 : ℕ) + e := by
    simp only [Format.targetExponent, Float.Model.totalExponent, Format.mantissaBits,
      Format.minExponent]
    omega
  have amount : ((m.log2 - 23 : ℕ) + e - e).toNat = m.log2 - 23 := by omega
  rw [shiftToTargetExponent, target, shiftToExponent, amount, add_comm]

/-- A mantissa that is rounded up to 25 digits is shifted once more. -/
lemma denotes_roundWithAccuracy {m r : ℕ} {e t : ℤ} {acc : Accuracy} {em : ExtendedMantissa}
    (first : shiftToTargetExponent .binary32 m e acc = (em, t)) (least : -149 ≤ t) (most : t ≤ 103)
    (rounded : em.roundedMantissa = r) (low : 2 ^ 23 ≤ r) (high : r ≤ 2 ^ 24) :
    Denotes (roundWithAccuracy .binary32 .positive m e acc) (r * 2 ^ t) := by
  rcases Nat.lt_or_ge r (2 ^ 24) with fits | beyond
  -- rounding up can carry into a 25th digit; only then is there a second shift
  · have digits : Digits r t := ⟨low, fits, least, by omega⟩
    have second : shiftToTargetExponent .binary32 r t .exact = (⟨r, false, false⟩, t) := by
      rw [shiftToTargetExponent_eq .exact low (by omega), digits.log2, Nat.sub_self,
        Nat.cast_zero, zero_add]
      rfl
    simp only [roundWithAccuracy, first, rounded, second]
    rw [dif_neg (by omega)]
    exact .digits digits rfl
  · obtain rfl : r = 2 ^ 24 := by omega
    have digits : (2 ^ 24).log2 = 24 := Nat.log2_two_pow
    have second : shiftToTargetExponent .binary32 (2 ^ 24) t .exact
        = (⟨2 ^ 23, false, false⟩, t + 1) := by
      rw [shiftToTargetExponent_eq .exact low (by omega), digits, add_comm]
      rfl
    simp only [roundWithAccuracy, first, rounded, second]
    rw [dif_neg (by decide)]
    refine .digits ⟨le_rfl, by decide, by omega, by omega⟩ ?_
    rw [zpow_add_one₀ (by norm_num)]
    push_cast
    ring

/-- The first digit of a number is that of its mantissa. -/
lemma Cuts.bounds {m : ℕ} {acc : Accuracy} {y f : ℚ}
    (cuts : Cuts (.ofMantissaAndAccuracy m acc) y f) (some : m ≠ 0) :
    2 ^ m.log2 ≤ y ∧ y < 2 ^ (m.log2 + 1) := by
  have sum := cuts.sum
  rw [mantissa_ofMantissaAndAccuracy] at sum
  have below : (2 : ℚ) ^ m.log2 ≤ m := by exact_mod_cast Nat.log2_self_le some
  have above : (m : ℚ) + 1 ≤ 2 ^ (m.log2 + 1) := by exact_mod_cast Nat.lt_log2_self
  exact ⟨by linarith [cuts.nonneg], by linarith [cuts.lt_one]⟩

/-- A number that is cut to 24 digits has them before the point. -/
lemma floor_div_bounds {y : ℚ} {n : ℕ} (low : 2 ^ (n + 23) ≤ y) (high : y < 2 ^ (n + 24)) :
    2 ^ 23 ≤ ⌊y / 2 ^ n⌋ ∧ ⌊y / 2 ^ n⌋ < 2 ^ 24 := by
  constructor
  · rw [Int.le_floor, le_div_iff₀ (by positivity), mul_comm]
    rw [pow_add] at low
    exact_mod_cast low
  · rw [Int.floor_lt, div_lt_iff₀ (by positivity), mul_comm]
    rw [pow_add] at high
    exact_mod_cast high

/-- What is cut off from a result decides how it is rounded. -/
lemma Cuts.roundWithAccuracy {m : ℕ} {e : ℤ} {acc : Accuracy} {y f : ℚ}
    (cuts : Cuts (.ofMantissaAndAccuracy m acc) y f) (wide : 2 ^ 23 ≤ m)
    (inner : Inner (y * 2 ^ e)) :
    Denotes (roundWithAccuracy .binary32 .positive m e acc) (nearest (y * 2 ^ e)) := by
  have some : m ≠ 0 := by omega
  obtain ⟨low, high⟩ := cuts.bounds some
  have log := log_mul_zpow low high e
  obtain ⟨least, most⟩ := inner.log
  obtain ⟨n, hn⟩ : ∃ n, m.log2 = n + 23 :=
    ⟨m.log2 - 23, by have := (Nat.le_log2 some).2 wide; omega⟩
  have place : lastPlace (y * 2 ^ e) = n + e := by
    rw [lastPlace]
    omega
  have scaled : y * 2 ^ e / 2 ^ ((n : ℤ) + e) = y / 2 ^ n := by
    rw [zpow_add₀ (by norm_num), zpow_natCast, mul_div_mul_right _ _ (by positivity)]
  -- the shifted number is rounded as its two bits say, to 24 digits or the first number of 25
  obtain ⟨f', shifted⟩ := cuts.shiftRight n
  have rounded := shifted.roundedMantissa
  have bounds := roundEven_bounds (y / 2 ^ n)
  rw [hn] at low high
  obtain ⟨floorLow, floorHigh⟩ := floor_div_bounds low high
  have first : shiftToTargetExponent .binary32 m e acc
      = (ExtendedMantissa.ofMantissaAndAccuracy m acc >>> n, n + e) := by
    rw [shiftToTargetExponent_eq acc wide (by omega), hn, Nat.add_sub_cancel]
  rw [nearest, place, scaled, ← rounded, Int.cast_natCast]
  exact denotes_roundWithAccuracy first (by omega) (by omega) rfl (by omega) (by omega)

/-- An exact result leaves nothing out. -/
lemma cuts_exact (m : ℕ) : Cuts (.ofMantissaAndAccuracy m .exact) m 0 :=
  ⟨(add_zero _).symm, le_rfl, one_pos, by norm_num [ExtendedMantissa.ofMantissaAndAccuracy],
    by simp [ExtendedMantissa.ofMantissaAndAccuracy]⟩

lemma decreaseExponent_value (m : ℕ) (e t : ℤ) :
    ((decreaseExponent m e t).1 : ℚ) * 2 ^ (decreaseExponent m e t).2 = m * 2 ^ e := by
  simp only [decreaseExponent]
  rw [Nat.shiftLeft_eq, zpow_sub₀ two_ne_zero, zpow_natCast]
  push_cast
  field_simp

/-- An integer times a power of two is rounded to the nearest number. -/
lemma denotes_round {m : ℕ} {e : ℤ} (inner : Inner (m * 2 ^ e)) :
    Denotes (UnpackedFloat.round .binary32 .positive m e) (nearest (m * 2 ^ e)) := by
  have some : m ≠ 0 := by
    rintro rfl
    simpa using inner.pos
  have log := log_mul_zpow (y := m) (by exact_mod_cast Nat.log2_self_le some)
    (by exact_mod_cast Nat.lt_log2_self) e
  obtain ⟨least, most⟩ := inner.log
  -- the target exponent leaves 24 digits, since the number is neither subnormal nor too large
  have target : Format.targetExponent .binary32 (Float.Model.totalExponent m e)
      = m.log2 + e - 23 := by
    simp only [Format.targetExponent, Float.Model.totalExponent, Format.mantissaBits,
      Format.minExponent]
    omega
  have same := decreaseExponent_value m e (m.log2 + e - 23)
  simp only [UnpackedFloat.round, target]
  generalize amount : decreaseExponent m e (m.log2 + e - 23) = decreased at same
  obtain ⟨k, t⟩ := decreased
  have wide : 2 ^ 23 ≤ k := by
    obtain ⟨rfl, -⟩ := Prod.mk.inj amount
    rw [Nat.shiftLeft_eq]
    calc 2 ^ 23 ≤ 2 ^ (m.log2 + (e - (m.log2 + e - 23)).toNat) :=
        Nat.pow_le_pow_right (by decide) (by omega)
      _ = 2 ^ m.log2 * 2 ^ (e - (m.log2 + e - 23)).toNat := pow_add ..
      _ ≤ _ := Nat.mul_le_mul_right _ (Nat.log2_self_le some)
  rw [← same] at inner ⊢
  exact (cuts_exact k).roundWithAccuracy wide inner

/-- So is zero. -/
lemma denotes_normalize {n : ℤ} {e : ℤ} {x : ℚ} (value : x = n * 2 ^ e) (range : x = 0 ∨ Inner x) :
    Denotes (UnpackedFloat.normalize .binary32 n e .positive) (nearest x) := by
  rcases range with rfl | inner
  · have none : n = 0 := by
      have factor := mul_eq_zero.1 value.symm
      exact_mod_cast factor.resolve_right (by positivity)
    subst none
    rw [nearest_zero]
    exact .zero
  · have pos : 0 < n := by
      have product := value ▸ inner.pos
      exact_mod_cast (pos_iff_pos_of_mul_pos product).2 (by positivity)
    lift n to ℕ using pos.le
    have order : compare (n : ℤ) 0 = .gt := compare_gt_iff_gt.2 pos
    rw [Int.cast_natCast] at value
    rw [value] at inner ⊢
    simp only [UnpackedFloat.normalize, order, Int.toNat_natCast]
    exact denotes_round inner

/-- A remainder is compared with half of the divisor. -/
lemma cuts_fraction {q r d : ℕ} (less : r < d) :
    Cuts (.ofMantissaAndAccuracy q (accuracyOfFraction r d)) (q + r / d) (r / d) := by
  have pos : (0 : ℚ) < d := by exact_mod_cast (Nat.zero_le r).trans_lt less
  -- the two bits compare the remainder with half the divisor
  have half : (1 / 2 : ℚ) ≤ r / d ↔ d ≤ 2 * r := by
    rw [div_le_div_iff₀ two_pos pos]
    norm_cast
    omega
  have tie : (r / d : ℚ) = 1 / 2 ↔ 2 * r = d := by
    rw [div_eq_div_iff pos.ne' two_ne_zero]
    norm_cast
    omega
  have none : (r / d : ℚ) = 0 ↔ r = 0 := by
    rw [div_eq_zero_iff, or_iff_left pos.ne', Nat.cast_eq_zero]
  refine ⟨by rw [mantissa_ofMantissaAndAccuracy], by positivity,
    (div_lt_one pos).2 (by exact_mod_cast less), ?_, ?_⟩
  all_goals
    simp only [half, ne_eq, none, tie, accuracyOfFraction]
    split_ifs with exact
    · simp only [ExtendedMantissa.ofMantissaAndAccuracy, Bool.false_eq_true, false_iff]
      omega
    · cases order : compare (2 * r) d <;>
        simp only [ExtendedMantissa.ofMantissaAndAccuracy, Bool.false_eq_true, false_iff, true_iff,
          Nat.compare_eq_lt, Nat.compare_eq_eq, Nat.compare_eq_gt] at order ⊢ <;>
        omega

/-! ### Operations -/

/-- A division forms a quotient of at least 24 digits. -/
lemma divCore_eq {m n : ℕ} {e d : ℤ} (hm : Digits m e) (hn : Digits n d) (least : -125 ≤ e - d) :
    divCore .binary32 m e n d =
      (m <<< 24 / n, e - d - 24, accuracyOfFraction (m <<< 24 % n) n) := by
  have target : min (e - d) (Format.targetExponent .binary32
      (Float.Model.totalExponent m e - Float.Model.totalExponent n d)) = e - d - 24 := by
    simp only [Format.targetExponent, Float.Model.totalExponent, Format.mantissaBits,
      Format.minExponent, hm.log2, hn.log2]
    omega
  have amount : (e - d - (e - d - 24)).toNat = 24 := by omega
  simp only [divCore, target, amount]

/-- The exponents of a quotient that is not too small. -/
lemma Digits.exponent_sub {m n : ℕ} {e d : ℤ} (hm : Digits m e) (hn : Digits n d)
    (inner : Inner (m * 2 ^ e / (n * 2 ^ d))) : -125 ≤ e - d := by
  have bound : (2 : ℚ) ^ (-100 + (d + 23)) < 2 ^ (e + 24) := by
    rw [zpow_add₀ two_ne_zero]
    calc (2 : ℚ) ^ (-100 : ℤ) * 2 ^ (d + 23) ≤ 2 ^ (-100 : ℤ) * (n * 2 ^ d) :=
        mul_le_mul_of_nonneg_left hn.le_value (by positivity)
      _ ≤ m * 2 ^ e := (le_div_iff₀ hn.value_pos).1 inner.low
      _ < 2 ^ (e + 24) := hm.value_lt
  have order := (zpow_lt_zpow_iff_right₀ one_lt_two).1 bound
  omega

/-- A quotient is that of the mantissas, with its remainder. -/
lemma quotient_eq {m n : ℕ} (pos : 0 < n) (e d : ℤ) :
    ((m <<< 24 / n : ℕ) + (m <<< 24 % n : ℕ) / n : ℚ) * 2 ^ (e - d - 24)
      = m * 2 ^ e / (n * 2 ^ d) := by
  have some : (n : ℚ) ≠ 0 := by exact_mod_cast pos.ne'
  have division : ((m <<< 24 / n : ℕ) + (m <<< 24 % n : ℕ) / n : ℚ) = m * 2 ^ 24 / n := by
    rw [eq_div_iff some, add_mul, div_mul_cancel₀ _ some]
    exact_mod_cast (Nat.div_add_mod' (m <<< 24) n).trans (Nat.shiftLeft_eq ..)
  rw [division, zpow_sub₀ two_ne_zero, zpow_sub₀ two_ne_zero, zpow_ofNat]
  field_simp

/-- A quotient. -/
lemma denotes_div {u v : UnpackedFloat} {x y : ℚ} (hu : Denotes u x) (hv : Denotes v y)
    (pos : 0 < y) (range : x = 0 ∨ Inner (x / y)) :
    Denotes (UnpackedFloat.div .binary32 u v) (nearest (x / y)) := by
  cases hv with
  | zero => exact absurd pos (lt_irrefl 0)
  | @digits n d _ _ hn value' =>
    cases hu with
    | zero =>
      rw [zero_div, nearest_zero]
      exact .zero
    | @digits m e _ _ hm value =>
      have inner := range.resolve_left (value ▸ hm.value_pos.ne')
      rw [value, value'] at inner ⊢
      -- 24 more digits of the dividend leave enough digits of the quotient
      have wide : 2 ^ 23 ≤ m <<< 24 / n := by
        have low := hm.low
        have high := hn.high
        rw [Nat.le_div_iff_mul_le hn.pos, Nat.shiftLeft_eq]
        omega
      simp only [UnpackedFloat.div, divCore_eq hm hn (hm.exponent_sub hn inner)]
      rw [← quotient_eq hn.pos] at inner ⊢
      exact (cuts_fraction (Nat.mod_lt _ hn.pos)).roundWithAccuracy wide inner

lemma Denotes.nearest_eq {u : UnpackedFloat} {x : ℚ} (h : Denotes u x) : nearest x = x := by
  cases h with
  | zero => exact nearest_zero
  | digits digits value => rw [value, nearest_mul_zpow digits.high]

/-- The integer that a number is cut to. -/
lemma Denotes.toInt_eq {u : UnpackedFloat} {x : ℚ} (h : Denotes u x) (lo hi : ℤ) :
    u.toInt lo hi = ⌊x⌋ := by
  cases h with
  | zero => exact Int.floor_zero.symm
  | @digits m e _ _ digits value =>
    have same := decreaseExponent_value m e 0
    have exponent : (decreaseExponent m e 0).2 = -((0 - (decreaseExponent m e 0).2).toNat : ℤ) := by
      simp only [decreaseExponent]
      omega
    rw [exponent, ← value, zpow_neg, zpow_natCast, ← div_eq_mul_inv] at same
    obtain ⟨f, cuts⟩ := (cuts_exact (decreaseExponent m e 0).1).shiftRight
      (0 - (decreaseExponent m e 0).2).toNat
    rw [← same, cuts.fract.1]
    rfl

/-- Two numbers with their exponents made equal. -/
lemma decreaseExponent_min (m n : ℕ) (e d : ℤ) :
    ((decreaseExponent m e (min e d)).1 : ℚ) * 2 ^ min e d = m * 2 ^ e ∧
      ((decreaseExponent n d (min e d)).1 : ℚ) * 2 ^ min e d = n * 2 ^ d := by
  have left := decreaseExponent_value m e (min e d)
  have right := decreaseExponent_value n d (min e d)
  have exponent : (decreaseExponent m e (min e d)).2 = min e d := by
    simp only [decreaseExponent]
    omega
  have exponent' : (decreaseExponent n d (min e d)).2 = min e d := by
    simp only [decreaseExponent]
    omega
  rw [exponent] at left
  rw [exponent'] at right
  exact ⟨left, right⟩

/-- A difference that is not negative. -/
lemma denotes_sub {u v : UnpackedFloat} {x y : ℚ} (hu : Denotes u x) (hv : Denotes v y)
    (range : x - y = 0 ∨ Inner (x - y)) :
    Denotes (UnpackedFloat.sub .binary32 u v) (nearest (x - y)) := by
  cases hv with
  | zero =>
    rw [sub_zero, hu.nearest_eq]
    cases hu with
    | zero => exact .zero
    | digits digits value => exact .digits digits value
  | @digits n d _ _ hn value' =>
    cases hu with
    | zero =>
      have pos := value' ▸ hn.value_pos
      rcases range with same | inner
      -- from zero only a negative number remains, which is out of range
      · linarith
      · linarith [inner.pos]
    | @digits m e _ _ hm value =>
      obtain ⟨left, right⟩ := decreaseExponent_min m n e d
      refine denotes_normalize ?_ range
      rw [value, value', ← left, ← right, ← sub_mul]
      push_cast [Sign.apply]
      rfl

/-- A sum. -/
lemma denotes_add {u v : UnpackedFloat} {x y : ℚ} (hu : Denotes u x) (hv : Denotes v y)
    (range : x + y = 0 ∨ Inner (x + y)) :
    Denotes (UnpackedFloat.add .binary32 u v) (nearest (x + y)) := by
  cases hv with
  | zero =>
    rw [add_zero, hu.nearest_eq]
    cases hu with
    | zero => exact .zero
    | digits digits value => exact .digits digits value
  | @digits n d _ _ hn value' =>
    cases hu with
    | zero =>
      have same : Denotes (.finite .positive n d hn.pos) y := .digits hn value'
      rwa [zero_add, same.nearest_eq]
    | @digits m e _ _ hm value =>
      obtain ⟨left, right⟩ := decreaseExponent_min m n e d
      refine denotes_normalize ?_ range
      rw [value, value', ← left, ← right, ← add_mul]
      push_cast [Sign.apply]
      rfl

end FlatNet.Scalar
