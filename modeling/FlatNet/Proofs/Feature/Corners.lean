import FlatNet.Proofs.Feature.Elements
import FlatNet.Proofs.Scalar.Values

/-!
The corners of feature maps that are resized with aligned corners.

An output position `dst` of an axis of `outLen` positions belongs to the place
`dst * (inLen - 1) / (outLen - 1)` on the input axis, so the last one belongs to the last one.  But
the product and the divisor are rounded before they are divided, and the quotient is rounded again.
Behind that everything is exact: the taps are the whole numbers around the place, and the weight is
what is left of it.  So the last output position lies at the last input position only if the three
roundings leave a whole number that is not before it, as they do if the product has at most 24
digits; and where the place is not before the last position, the corners of the input are the
corners of the output.

* `Aligned.place`, `Aligned.Axis`: the place that is computed, and the lengths in question;
* `Aligned.Axis.exists_tapsOf`, `Aligned.Axis.tapsOf_last_iff`, `Aligned.Axis.place_last`: the taps
  of all positions, and those of the last one;
* `FeatureMap.exists_resizeBilinear`: all elements of a resized feature map;
* `FeatureMap.resizeBilinear_corners`: both ends of an axis, and the four corners.
-/

namespace FlatNet

open Scalar

/-! ### Places -/

deriving instance DecidableEq for Taps

/-- Sampling with aligned corners. -/
def Sampling.aligned : Sampling := ⟨true, false⟩

namespace Aligned

/-- The lengths of an axis that is resized with aligned corners. -/
structure Axis (outLen inLen : ℕ) : Prop where
  full : 1 ≤ inLen
  several : 2 ≤ outLen
  input : inLen ≤ 2 ^ 31
  output : outLen ≤ 2 ^ 31

/-- The place of an output position on the input axis, rounded where the program rounds. -/
def place (outLen inLen dst : ℕ) : ℚ :=
  nearest (nearest (dst * (inLen - 1) : ℕ) / nearest (outLen - 1 : ℕ))

/-- The whole number before the place, kept inside the axis. -/
def lowerTap (outLen inLen dst : ℕ) : ℕ := min ⌊place outLen inLen dst⌋₊ (inLen - 1)

/-- The whole number after the place, kept inside the axis. -/
def upperTap (outLen inLen dst : ℕ) : ℕ := min ⌈place outLen inLen dst⌉₊ (inLen - 1)

/-- The part of the way between the whole numbers around the place. -/
def fraction (outLen inLen dst : ℕ) : ℚ :=
  place outLen inLen dst - ⌊place outLen inLen dst⌋₊

namespace Axis

variable {ε : Type} {outLen inLen dst : ℕ}

/-- The quotient is far from the ends of the exponents. -/
lemma quotient_bounds (h : Axis outLen inLen) (inside : dst < outLen)
    (some : 0 < dst * (inLen - 1)) :
    2 ^ (-33 : ℤ) ≤ nearest (dst * (inLen - 1) : ℕ) / nearest (outLen - 1 : ℕ) ∧
      nearest (dst * (inLen - 1) : ℕ) / nearest (outLen - 1 : ℕ) ≤ 2 ^ (33 : ℤ) := by
  have before : dst * (inLen - 1) ≤ 2 ^ 31 * (outLen - 1) := by
    rw [Nat.mul_comm]
    exact Nat.mul_le_mul (by have := h.input; omega) (by omega)
  have several := h.several
  have output := h.output
  generalize dst * (inLen - 1) = p at *
  generalize hd : outLen - 1 = d at *
  -- the exact quotient lies between 1 / 2 ^ 31 and 2 ^ 31, and the two roundings move it by little
  have one : (1 : ℚ) ≤ p := by exact_mod_cast some
  have one' : (1 : ℚ) ≤ d := by exact_mod_cast (by omega : 1 ≤ d)
  have large : (d : ℚ) ≤ 2147483648 := by exact_mod_cast (by omega : d ≤ 2147483648)
  have bound : (p : ℚ) ≤ 2147483648 * d := by exact_mod_cast before
  obtain ⟨low, high⟩ := nearest_bounds (x := p) (by linarith)
  obtain ⟨low', high'⟩ := nearest_bounds (x := d) (by linarith)
  have pos : 0 < nearest d := by linarith
  constructor
  · rw [le_div_iff₀ pos]
    norm_num
    linarith
  · rw [div_le_iff₀ pos]
    norm_num
    linarith

lemma nearest_pos (h : Axis outLen inLen) : 0 < nearest (outLen - 1 : ℕ) := by
  have one : (1 : ℚ) ≤ (outLen - 1 : ℕ) := by
    exact_mod_cast (by have := h.several; omega : 1 ≤ outLen - 1)
  have bound := (nearest_bounds (x := (outLen - 1 : ℕ)) (by linarith)).1
  linarith

/-- The place of an output position, as it is computed. -/
lemma exists_sourceOf (h : Axis outLen inLen) (inside : dst < outLen) :
    ∃ src, (sourceOf outLen inLen .aligned dst : Outcome ε Float32) = .value src ∧
      Shows src (place outLen inLen dst) := by
  have product : dst * (inLen - 1) < 2 ^ 64 := by
    have sides : dst * (inLen - 1) ≤ 2 ^ 31 * 2 ^ 31 :=
      Nat.mul_le_mul (by have := h.output; omega) (by have := h.input; omega)
    omega
  -- the product is taken of whole numbers, and rounded before it is divided
  have computed : (sourceOf outLen inLen .aligned dst : Outcome ε Float32)
      = .value (ofSize (dst * (inLen - 1)) / ofSize (outLen - 1)) := by
    have last : (Size.sub inLen 1 : Outcome ε ℕ) = .value (inLen - 1) := if_pos h.full
    have checked : (Size.mul dst (inLen - 1) : Outcome ε ℕ) = .value (dst * (inLen - 1)) :=
      Size.mul_eq_value_iff.2 ⟨product, rfl⟩
    rw [sourceOf, if_pos (show Sampling.aligned.alignCorners = true from rfl),
      if_pos (show 1 < outLen from h.several), last, Outcome.value_bind, checked,
      Outcome.value_bind]
    rfl
  refine ⟨_, computed, (shows_ofSize product).div (shows_ofSize ?_) h.nearest_pos ?_⟩
  · have := h.output
    omega
  · rcases Nat.eq_zero_or_pos (dst * (inLen - 1)) with none | some
    · exact .inl (by rw [none, Nat.cast_zero, nearest_zero])
    · obtain ⟨low, high⟩ := h.quotient_bounds inside some
      exact .inr ⟨(zpow_le_zpow_right₀ one_le_two (by decide)).trans low,
        high.trans_lt (zpow_lt_zpow_right₀ one_lt_two (by decide))⟩

/-- The place is no large index, and no small fraction. -/
lemma place_bounds (h : Axis outLen inLen) (inside : dst < outLen) :
    place outLen inLen dst ≤ 2 ^ 34 ∧
      (place outLen inLen dst = 0 ∨ 2 ^ (-70 : ℤ) ≤ place outLen inLen dst) := by
  unfold place
  rcases Nat.eq_zero_or_pos (dst * (inLen - 1)) with none | some
  · rw [none, Nat.cast_zero, nearest_zero, zero_div, nearest_zero]
    exact ⟨by norm_num, .inl rfl⟩
  · obtain ⟨low, high⟩ := h.quotient_bounds inside some
    obtain ⟨low', high'⟩ := nearest_bounds (lt_of_lt_of_le (by positivity) low)
    generalize nearest (dst * (inLen - 1) : ℕ) / nearest (outLen - 1 : ℕ) = q at *
    norm_num at low high ⊢
    exact ⟨by linarith, .inr (by linarith)⟩

/-- The taps of an output position are exact, once its place is rounded. -/
lemma exists_tapsOf (h : Axis outLen inLen) (inside : dst < outLen) :
    ∃ lerp, (tapsOf outLen inLen .aligned dst : Outcome ε Taps)
        = .value ⟨lowerTap outLen inLen dst, upperTap outLen inLen dst, lerp⟩ ∧
      Shows lerp (fraction outLen inLen dst) := by
  obtain ⟨src, source, shown⟩ := h.exists_sourceOf (ε := ε) inside
  obtain ⟨bound, range⟩ := h.place_bounds inside
  unfold lowerTap upperTap fraction
  generalize place outLen inLen dst = q at *
  have index {f : Float32} {n : ℕ} (whole : Shows f n) (le : (n : ℚ) ≤ 2 ^ 34) :
      toIndex (Scalar.max f 0) = n := by
    rw [whole.max_zero, whole.toIndex_eq (le.trans_lt (by norm_num)), Nat.floor_natCast]
  have lower := index shown.floor ((Nat.floor_le shown.nonneg).trans bound)
  have upper := index shown.ceil (by
    exact_mod_cast (Nat.ceil_le.2 (by exact_mod_cast bound) : ⌈q⌉₊ ≤ 2 ^ 34))
  have last : (Size.sub inLen 1 : Outcome ε ℕ) = .value (inLen - 1) := if_pos h.full
  refine ⟨src - Scalar.floor src, ?_, shown.sub_floor range⟩
  simp only [tapsOf, source, last, Outcome.value_bind, lower, upper]
  rfl

/-- The taps of all output positions. -/
lemma exists_mapM_tapsOf (h : Axis outLen inLen) :
    ∃ lerp : ℕ → Float32, (∀ i < outLen, Shows (lerp i) (fraction outLen inLen i)) ∧
      (List.range outLen).mapM (tapsOf outLen inLen .aligned : ℕ → Outcome ε Taps)
        = .value ((List.range outLen).map fun i =>
          ⟨lowerTap outLen inLen i, upperTap outLen inLen i, lerp i⟩) := by
  choose! lerp each using fun i (inside : i < outLen) => h.exists_tapsOf (ε := ε) inside
  exact ⟨lerp, fun i hi => (each i hi).2,
    Outcome.mapM_eq_value fun i hi => (each i (List.mem_range.1 hi)).1⟩

lemma taps_lt (h : Axis outLen inLen) (dst : ℕ) :
    lowerTap outLen inLen dst < inLen ∧ upperTap outLen inLen dst < inLen := by
  have full := h.full
  unfold lowerTap upperTap
  omega

lemma place_first (outLen inLen : ℕ) : place outLen inLen 0 = 0 := by
  rw [place, Nat.zero_mul, Nat.cast_zero, nearest_zero, zero_div, nearest_zero]

/-- The first output position lies at the first input position. -/
lemma tapsOf_first (h : Axis outLen inLen) :
    (tapsOf outLen inLen .aligned 0 : Outcome ε Taps) = .value ⟨0, 0, 0⟩ := by
  obtain ⟨lerp, taps, shown⟩ := h.exists_tapsOf (ε := ε) (Nat.zero_lt_of_lt h.several)
  rw [fraction, place_first, Nat.floor_zero, Nat.cast_zero, sub_zero] at shown
  rw [taps, lowerTap, upperTap, place_first, Nat.floor_zero, Nat.ceil_zero, Nat.zero_min,
    shown.unique .zero]

/-- The last output position lies at the last input position exactly if its place is a whole number
that is not before it. -/
lemma tapsOf_last_iff (h : Axis outLen inLen) :
    (tapsOf outLen inLen .aligned (outLen - 1) : Outcome ε Taps)
        = .value ⟨inLen - 1, inLen - 1, 0⟩ ↔
      ∃ k : ℕ, inLen - 1 ≤ k ∧ place outLen inLen (outLen - 1) = k := by
  obtain ⟨lerp, taps, shown⟩ := h.exists_tapsOf (ε := ε) (Nat.sub_one_lt_of_lt h.several)
  rw [taps, Outcome.value.injEq, Taps.mk.injEq]
  unfold lowerTap upperTap
  unfold fraction at shown
  generalize place outLen inLen (outLen - 1) = q at *
  constructor
  · rintro ⟨lower, -, rfl⟩
    exact ⟨⌊q⌋₊, min_eq_right_iff.1 lower, sub_eq_zero.1 (Denotes.value_unique shown .zero)⟩
  · rintro ⟨k, reached, rfl⟩
    rw [Nat.floor_natCast, sub_self] at shown
    rw [Nat.floor_natCast, Nat.ceil_natCast, min_eq_right reached]
    exact ⟨rfl, rfl, shown.unique .zero⟩

/-- A product of at most 24 digits is not rounded, nor is the quotient. -/
lemma place_last (h : Axis outLen inLen) (few : (outLen - 1) * (inLen - 1) ≤ 2 ^ 24) :
    place outLen inLen (outLen - 1) = (inLen - 1 : ℕ) := by
  have several := h.several
  rcases Nat.eq_zero_or_pos (inLen - 1) with none | some
  · rw [place, none, Nat.mul_zero, Nat.cast_zero, nearest_zero, zero_div, nearest_zero]
  · have output : outLen - 1 ≤ 2 ^ 24 := (Nat.le_mul_of_pos_right _ some).trans few
    have input : inLen - 1 ≤ 2 ^ 24 := (Nat.le_mul_of_pos_left _ (by omega)).trans few
    have divisor : ((outLen - 1 : ℕ) : ℚ) ≠ 0 := by
      exact_mod_cast (by omega : outLen - 1 ≠ 0)
    rw [place, nearest_natCast few, nearest_natCast output, Nat.cast_mul,
      mul_div_cancel_left₀ _ divisor, nearest_natCast input]

end Axis

/-! ### Corners -/

/-- The first or the last position of an axis. -/
def corner (far : Bool) (len : ℕ) : ℕ := if far then len - 1 else 0

lemma corner_lt {outLen inLen : ℕ} (h : Axis outLen inLen) (far : Bool) :
    corner far outLen < outLen ∧ corner far inLen < inLen := by
  have full := h.full
  have several := h.several
  unfold corner
  split <;> omega

/-- The taps of a corner are a corner, unless its place is before the end. -/
lemma taps_corner {outLen inLen : ℕ} {far : Bool}
    (reached : far = true → (inLen - 1 : ℕ) ≤ place outLen inLen (outLen - 1)) :
    lowerTap outLen inLen (corner far outLen) = corner far inLen ∧
      upperTap outLen inLen (corner far outLen) = corner far inLen := by
  unfold lowerTap upperTap
  cases far with
  | false => simp [corner, Axis.place_first]
  | true =>
    have floor := Nat.le_floor (reached rfl)
    have ceil := floor.trans (Nat.floor_le_ceil (place outLen inLen (outLen - 1)))
    exact ⟨min_eq_right floor, min_eq_right ceil⟩

end Aligned

/-! ### Equal pixels -/

namespace FeatureMap

open Aligned (Axis lowerTap upperTap fraction corner)

variable {lerp lerp' : Float32} {x y : ℚ}

lemma mix_self (h : Shows lerp x) (v : Float32) :
    mix v v lerp = if v.isFinite then v + 0 else 0 / 0 := by
  rw [mix, sub_self_eq]
  split
  · rw [h.zero_mul]
  · rw [add_nan_mul]

/-- Between four equal pixels lies the same one, unless it is infinite. -/
lemma mix_corner (hx : Shows lerp x) (hy : Shows lerp' y) (v : Float32) :
    (mix (mix v v lerp) (mix v v lerp) lerp' == v) = v.isFinite := by
  rw [mix_self hx]
  cases finite : v.isFinite with
  -- a tap of no weight still multiplies its element, and zero times an infinity is no number
  | false =>
    have number : (0 / 0 : Float32).isFinite = false := by decide +kernel
    have nan : (0 / 0 : Float32) = Float32.nan := by decide +kernel
    rw [if_neg Bool.false_ne_true, mix_self hy, number, if_neg Bool.false_ne_true, nan,
      Float32.nan_beq_eq_false]
  | true =>
    rw [if_pos rfl]
    rcases add_zero_of_isFinite finite with same | rfl
    · rw [same, mix_self hy, finite, if_pos rfl, same, Float32.beq_self_iff]
      rintro rfl
      exact absurd finite (by decide +kernel)
    · rw [mix_self hy]
      decide +kernel

/-! ### Resized feature maps -/

variable {m : FeatureMap} {size : ℕ × ℕ}

/-- The elements of a resized feature map lie between those at the taps of their row and column. -/
lemma exists_resizeBilinear (sized : m.WellSized) (rows : Axis size.1 m.hwc.height)
    (columns : Axis size.2 m.hwc.width)
    (room : reserve m.batch ⟨size.1, size.2, m.hwc.channels⟩ = .value ()) :
    ∃ down across : ℕ → Float32,
      (∀ y < size.1, Shows (down y) (fraction size.1 m.hwc.height y)) ∧
      (∀ x < size.2, Shows (across x) (fraction size.2 m.hwc.width x)) ∧
      ∃ r, m.resizeBilinear size .aligned = .value r ∧
        r.Tabulates m.batch ⟨size.1, size.2, m.hwc.channels⟩ fun n y x c =>
          let row (y' : ℕ) := mix (m.entry n y' (lowerTap size.2 m.hwc.width x) c)
            (m.entry n y' (upperTap size.2 m.hwc.width x) c) (across x)
          mix (row (lowerTap size.1 m.hwc.height y)) (row (upperTap size.1 m.hwc.height y))
            (down y) := by
  obtain ⟨down, above, ys⟩ := rows.exists_mapM_tapsOf (ε := KernelError)
  obtain ⟨across, beside, xs⟩ := columns.exists_mapM_tapsOf (ε := KernelError)
  refine ⟨down, across, above, beside, ?_⟩
  have proper : (size.1 ≠ 0 && size.2 ≠ 0) = true := by
    have height := rows.several
    have width := columns.several
    simp
    omega
  have modes : (!(Sampling.aligned.alignCorners && Sampling.aligned.halfPixelCenters)) = true := rfl
  simp only [resizeBilinear, proper, modes, room, ys, xs, Outcome.require_true, Outcome.value_bind]
  refine tabulate_eq_value room fun n y x c hn hy hx hc => ?_
  obtain ⟨top, bottom⟩ := rows.taps_lt y
  obtain ⟨left, right⟩ := columns.taps_lt x
  -- the taps were tabulated before the loop
  have found {len i : ℕ} (inside : i < len) (g : ℕ → Taps) :
      ((List.range len).map g).toArray[i]? = some (g i) := by
    simp [inside]
  rw [found hy, found hx, Outcome.orFault_some, Outcome.orFault_some, Outcome.value_bind,
    Outcome.value_bind, sized.at hn top left hc, sized.at hn top right hc,
    sized.at hn bottom left hc, sized.at hn bottom right hc]
  rfl

/-- The first output position of an axis lies at the first input position, and the last one at the
last one exactly if three roundings leave a whole number that is not before it, as they do if the
product has at most 24 digits.  Where the place of the last position is not before the end, the
corners of a feature map are those of the resized one, but for infinite pixels and NaN, which become
NaN. -/
theorem resizeBilinear_corners {outLen inLen outLen' inLen' : ℕ} (rows : Axis outLen inLen)
    (columns : Axis outLen' inLen') :
    (tapsOf outLen inLen .aligned 0 : KernelOutcome Taps) = .value ⟨0, 0, 0⟩ ∧
    ((tapsOf outLen inLen .aligned (outLen - 1) : KernelOutcome Taps)
        = .value ⟨inLen - 1, inLen - 1, 0⟩ ↔
      ∃ k : ℕ, inLen - 1 ≤ k ∧ Aligned.place outLen inLen (outLen - 1) = k) ∧
    ((outLen - 1) * (inLen - 1) ≤ 2 ^ 24 →
      Aligned.place outLen inLen (outLen - 1) = (inLen - 1 : ℕ)) ∧
    ∀ m : FeatureMap, m.WellSized → m.hwc.height = inLen → m.hwc.width = inLen' →
      reserve m.batch ⟨outLen, outLen', m.hwc.channels⟩ = .value () →
      ∃ r, m.resizeBilinear (outLen, outLen') .aligned = .value r ∧
        ∀ bottom right : Bool,
          (bottom = true → (inLen - 1 : ℕ) ≤ Aligned.place outLen inLen (outLen - 1)) →
          (right = true → (inLen' - 1 : ℕ) ≤ Aligned.place outLen' inLen' (outLen' - 1)) →
          ∀ n < m.batch, ∀ c < m.hwc.channels, ∃ v w,
            (m.at n (corner bottom inLen) (corner right inLen') c : KernelOutcome Float32)
              = .value v ∧
            (r.at n (corner bottom outLen) (corner right outLen') c : KernelOutcome Float32)
              = .value w ∧
            (w == v) = v.isFinite := by
  refine ⟨rows.tapsOf_first, rows.tapsOf_last_iff, rows.place_last, ?_⟩
  rintro m sized rfl rfl room
  obtain ⟨down, across, above, beside, r, resized, table⟩ :=
    @exists_resizeBilinear m (outLen, outLen') sized rows columns room
  refine ⟨r, resized, fun bottom right row column n hn c hc => ?_⟩
  -- at a corner both taps of each axis stand on it, so that one element is mixed with itself
  obtain ⟨upper, lower⟩ := Aligned.taps_corner row
  obtain ⟨left, right'⟩ := Aligned.taps_corner column
  obtain ⟨inside, covered⟩ := Aligned.corner_lt rows bottom
  obtain ⟨inside', covered'⟩ := Aligned.corner_lt columns right
  have element := table.element n _ _ c hn inside inside' hc
  simp only [upper, lower, left, right'] at element
  exact ⟨_, _, sized.at hn covered covered' hc, element,
    mix_corner (beside _ inside') (above _ inside) _⟩

/-- The far corner of a feature map of five rows, resized to three rows and two columns. -/
theorem resizeBilinear_corners_fiveRows :
    let m : FeatureMap := ⟨1, ⟨5, 1, 1⟩, #[1, 2, 3, 4, 5]⟩
    (tapsOf 3 5 .aligned 2 : KernelOutcome Taps) = .value ⟨4, 4, 0⟩ ∧
      ∃ r, m.resizeBilinear (3, 2) .aligned = .value r ∧ ∃ v w,
        (m.at 0 4 0 0 : KernelOutcome Float32) = .value v ∧
        (r.at 0 2 1 0 : KernelOutcome Float32) = .value w ∧ (w == v) = v.isFinite := by
  intro m
  have rows : Axis 3 5 := ⟨by decide, by decide, by decide, by decide⟩
  have columns : Axis 2 1 := ⟨by decide, by decide, by decide, by decide⟩
  obtain ⟨-, last, few, corners⟩ := resizeBilinear_corners rows columns
  have bottom : Aligned.place 3 5 2 = 4 := few (by decide)
  have right : Aligned.place 2 1 1 = 0 := columns.place_last (by decide)
  refine ⟨last.2 ⟨4, le_rfl, bottom⟩, ?_⟩
  obtain ⟨r, resized, copied⟩ := corners m rfl rfl rfl (by decide)
  exact ⟨r, resized, copied true true (fun _ => bottom.ge) (fun _ => right.ge) 0 (by decide) 0
    (by decide)⟩

/-- The last of 256 positions lies before the last of 65796: the product of 255 and 65795 has 25
digits and is rounded down, and the quotient is not rounded up again. -/
theorem tapsOf_last_ne_longAxis :
    Axis 256 65796 ∧
      (tapsOf 256 65796 .aligned 255 : KernelOutcome Taps) = .value ⟨65794, 65795, 127 / 128⟩ ∧
      (tapsOf 256 65796 .aligned 255 : KernelOutcome Taps) ≠ .value ⟨65795, 65795, 0⟩ :=
  ⟨⟨by decide, by decide, by decide, by decide⟩, by decide +kernel, by decide +kernel⟩

end FeatureMap

end FlatNet
