import FlatNet.Proofs.Feature.Safety

/-!
Windows along an axis.

The element `k` of the window at the position `o` lies over the coordinate `o * stride + k - pad`,
an integer that is negative or too large over the padding.  The last window starts inside the
input, so there is less padding than a window is long, and half of it is less than a window; this
puts an element of every window over the input, and every element of the input under a window if
the steps are not longer than the windows.

* `Window.coordinate`, `Window.source_eq_value_iff`: coordinates, and what is computed of them;
* `Padding.total`, `Padding.front`, `Padding.padBefore_eq_value`: the padding on both sides, and in
  front;
* `Padding.Covers.start_inside`, `Padding.Covers.inside`, `Padding.Covers.reads`: what the windows
  read;
* `Padding.Spans`, `Padding.Covers.spans`: all of it together.
-/

namespace FlatNet

variable {ε : Type}

/-! ### Coordinates -/

namespace Window

/-- The coordinate of the input under an element of the window at an output position. -/
def coordinate (out k stride pad : Nat) : Int := out * stride + k - pad

/-- The coordinate under an element of a window is computed if it is inside the input. -/
lemma source_eq_value {out k stride pad len : Nat} (reach : out * stride + k < Size.bound) :
    (source out k stride pad len : Outcome ε (Option Nat)) = .value
      (if 0 ≤ coordinate out k stride pad ∧ coordinate out k stride pad < len then
        some (coordinate out k stride pad).toNat else none) := by
  have start : (Size.mul out stride : Outcome ε Nat) = .value (out * stride) :=
    Size.mul_eq_value_iff.2 ⟨by omega, rfl⟩
  have place : (Size.add (out * stride) k : Outcome ε Nat) = .value (out * stride + k) :=
    Size.add_eq_value_iff.2 ⟨reach, rfl⟩
  have integer : coordinate out k stride pad = (out * stride + k : Nat) - (pad : Int) := by
    simp [coordinate]
  have inside : 0 ≤ coordinate out k stride pad ∧ coordinate out k stride pad < len ↔
      pad ≤ out * stride + k ∧ out * stride + k - pad < len := by
    rw [integer]
    omega
  have natural : (coordinate out k stride pad).toNat = out * stride + k - pad := by
    rw [integer]
    omega
  simp only [source, start, place, Outcome.value_bind, inside, natural]
  split <;> rfl

/-- The coordinate under an element of a window is there exactly if it is inside the input. -/
lemma source_eq_some_iff {out k stride pad len i : Nat} (reach : out * stride + k < Size.bound) :
    (source out k stride pad len : Outcome ε (Option Nat)) = .value (some i) ↔
      i < len ∧ out * stride + k = pad + i := by
  have integer : coordinate out k stride pad = (out * stride + k : Nat) - (pad : Int) := by
    simp [coordinate]
  rw [source_eq_value reach, integer, Outcome.value.injEq]
  generalize out * stride + k = place
  split
  · rw [Option.some_inj]
    omega
  · simp only [reduceCtorEq, false_iff]
    omega

end Window

namespace Padding

variable {p : Padding} {input kernel stride out : Nat}

/-! ### The padding -/

/-- The padding on both sides: what the last window reaches beyond the input. -/
def total (p : Padding) (input kernel stride : Nat) : Nat :=
  match p with
  | valid => 0
  | same => ((input + stride - 1) / stride - 1) * stride + kernel - input

/-- The padding in front: the smaller half of all. -/
def front (p : Padding) (input kernel stride : Nat) : Nat := p.total input kernel stride / 2

/-- The padding in front is computed, unless the last window ends beyond all sizes. -/
lemma padBefore_eq_value (p : Padding) (step : stride ≠ 0)
    (near : ¬ p.Overreaches input kernel stride) :
    (p.padBefore input kernel stride : Outcome ε Nat) = .value (p.front input kernel stride) := by
  cases p with
  | valid => simp [padBefore, front, total]
  | same =>
    rw [Overreaches] at near
    have start : (Size.mul ((input + stride - 1) / stride - 1) stride : Outcome ε Nat)
        = .value (((input + stride - 1) / stride - 1) * stride) :=
      Size.mul_eq_value_iff.2 ⟨by omega, rfl⟩
    have reach : (Size.add (((input + stride - 1) / stride - 1) * stride) kernel : Outcome ε Nat)
        = .value (((input + stride - 1) / stride - 1) * stride + kernel) :=
      Size.add_eq_value_iff.2 ⟨by omega, rfl⟩
    rw [padBefore, Size.divCeil, if_neg step, Outcome.value_bind, start, Outcome.value_bind, reach,
      Outcome.value_bind]
    rfl

lemma total_le (p : Padding) (input kernel stride : Nat) :
    p.total input kernel stride ≤ kernel := by
  cases p with
  | valid => exact Nat.zero_le kernel
  | same =>
    have last := last_mul_le input stride
    rw [total]
    omega

/-- The padding in front is shorter than a window. -/
lemma front_lt (p : Padding) (side : kernel ≠ 0) : p.front input kernel stride < kernel := by
  have all := p.total_le input kernel stride
  rw [front]
  omega

/-- The number of positions is computed; it is missing only for a window longer than the input. -/
lemma exists_outputLen (p : Padding) (step : stride ≠ 0) (small : input < Size.bound)
    (side : kernel ≠ 0) :
    ∃ positions, (p.outputLen input kernel stride : Outcome ε (Option Nat)) = .value positions ∧
      ∀ out, positions = some out → p.Covers input kernel stride out := by
  have given {out : Nat} (h : p.Covers input kernel stride out) :
      ∃ positions, (p.outputLen input kernel stride : Outcome ε (Option Nat)) = .value positions ∧
        ∀ out, positions = some out → p.Covers input kernel stride out := by
    refine ⟨some out, outputLen_of_covers step h, ?_⟩
    rintro _ ⟨⟩
    exact h
  cases p with
  | same => exact given rfl
  | valid =>
    by_cases fits : kernel ≤ input
    · have few := Nat.div_le_self (input - kernel) stride
      exact given ⟨fits, by omega, rfl⟩
    · exact ⟨none, by rw [outputLen, if_pos (Nat.lt_of_not_le fits)], nofun⟩

/-! ### What the windows read -/

namespace Covers

/-- Windows that extend an axis reach at least to its end, up to one step. -/
lemma le_mul (h : same.Covers input kernel stride out) (step : stride ≠ 0) :
    input ≤ out * stride := by
  have above := Nat.lt_div_mul_add (a := input + stride - 1) (Nat.pos_of_ne_zero step)
  rw [← show out = _ from h] at above
  omega

/-- The element of a window that lies as far in as there is padding in front is over the input. -/
lemma start_inside (h : p.Covers input kernel stride out) (side : kernel ≠ 0) (step : stride ≠ 0)
    {o : Nat} (ho : o < out) :
    ∃ k < kernel, ∃ i < input, o * stride + k = p.front input kernel stride + i :=
  ⟨_, p.front_lt side, _, h.mul_lt side step ho, Nat.add_comm _ _⟩

/-- Windows that stay inside the input have all elements over it. -/
lemma inside (h : valid.Covers input kernel stride out) (step : stride ≠ 0) {o k : Nat}
    (ho : o < out) (hk : k < kernel) : o * stride + k < input := by
  obtain ⟨fits, -, rfl⟩ := h
  have reach := (Nat.le_div_iff_mul_le (Nat.pos_of_ne_zero step)).1 (Nat.le_of_lt_succ ho)
  omega

/-- The window at the position after the last one does not stay inside the input. -/
lemma lt_next (h : valid.Covers input kernel stride out) (step : stride ≠ 0) :
    input < out * stride + kernel := by
  obtain ⟨fits, -, rfl⟩ := h
  have above := Nat.lt_div_mul_add (a := input - kernel) (Nat.pos_of_ne_zero step)
  rw [Nat.succ_mul]
  omega

/-- Windows that extend an axis leave no element out if they are not shorter than the steps. -/
lemma reads (h : same.Covers input kernel stride out) (step : stride ≠ 0) (le : stride ≤ kernel)
    {i : Nat} (hi : i < input) :
    ∃ o < out, ∃ k < kernel, o * stride + k = same.front input kernel stride + i := by
  -- `same` puts no more than half of the padding in front
  have all : same.total input kernel stride = (out - 1) * stride + kernel - input := by
    rw [total, ← show out = _ from h]
  have half : 2 * same.front input kernel stride ≤ same.total input kernel stride := by
    rw [front]
    omega
  have reach := h.le_mul step
  have some : out ≠ 0 := h.ne_zero step (by omega)
  have pos := Nat.pos_of_ne_zero step
  have split := Nat.div_add_mod' (same.front input kernel stride + i) stride
  have rest := Nat.mod_lt (same.front input kernel stride + i) pos
  by_cases last : (same.front input kernel stride + i) / stride < out
  · exact ⟨_, last, _, lt_of_lt_of_le rest le, split⟩
  · -- the element lies beyond the last start, and the last window reaches it
    have before : (out - 1) * stride ≤ same.front input kernel stride + i := by
      have starts : (out - 1) * stride ≤ (same.front input kernel stride + i) / stride * stride :=
        Nat.mul_le_mul_right stride (by omega)
      omega
    have steps : out * stride = (out - 1) * stride + stride := by
      rw [← Nat.succ_mul]
      congr 1
      omega
    refine ⟨out - 1, by omega, same.front input kernel stride + i - (out - 1) * stride, ?_, ?_⟩ <;>
      omega

end Covers

/-- The windows at the positions of an axis, behind `before` zeros, lie over it as they should. -/
structure Spans (p : Padding) (input kernel stride out before : Nat) : Prop where
  /-- There is a position. -/
  positions : 1 ≤ out
  /-- There are not more positions than elements. -/
  le : out ≤ input
  /-- What lies under an element of a window is computed. -/
  computed : ∀ o < out, ∀ k < kernel, ∃ i,
    (Window.source o k stride before input : KernelOutcome (Option Nat)) = .value i
  /-- Every window has an element over the input. -/
  covered : ∀ o < out, ∃ k < kernel, ∃ i,
    (Window.source o k stride before input : KernelOutcome (Option Nat)) = .value (some i)
  /-- A window that stays inside has all elements over the input, and the next one has not. -/
  inside : p = valid →
    (∀ o < out, ∀ k < kernel, ∃ i,
      (Window.source o k stride before input : KernelOutcome (Option Nat)) = .value (some i)) ∧
    ∃ k < kernel, input ≤ out * stride + k
  /-- The padding behind the input is that in front, or one more. -/
  balanced : p = same → ∃ behind, before + behind = (out - 1) * stride + kernel - input ∧
    (behind = before ∨ behind = before + 1)
  /-- Windows that extend the input and are not shorter than the steps read all of it. -/
  full : p = same → stride ≤ kernel → ∀ i < input, ∃ o < out, ∃ k < kernel,
    (Window.source o k stride before input : KernelOutcome (Option Nat)) = .value (some i)

/-- The windows of an axis lie over it as they should. -/
lemma Covers.spans (h : p.Covers input kernel stride out) (full : input ≠ 0) (side : kernel ≠ 0)
    (step : stride ≠ 0) (small : input + kernel < Size.bound) :
    p.Spans input kernel stride out (p.front input kernel stride) := by
  have reach {o k : Nat} (ho : o < out) (hk : k < kernel) : o * stride + k < Size.bound :=
    h.add_lt step (by omega) (p.not_overreaches small) ho hk
  refine ⟨Nat.one_le_iff_ne_zero.2 (h.ne_zero step full), h.le side step, fun o ho k hk => ?_,
    fun o ho => ?_, ?_, ?_, ?_⟩
  · exact ⟨_, Window.source_eq_value (reach ho hk)⟩
  · obtain ⟨k, hk, i, hi, place⟩ := h.start_inside side step ho
    exact ⟨k, hk, i, (Window.source_eq_some_iff (reach ho hk)).2 ⟨hi, place⟩⟩
  · rintro rfl
    refine ⟨fun o ho k hk => ⟨o * stride + k, ?_⟩, kernel - 1, by omega, ?_⟩
    · exact (Window.source_eq_some_iff (reach ho hk)).2
        ⟨h.inside step ho hk, by simp [front, total]⟩
    · have next := h.lt_next step
      omega
  · rintro rfl
    have all : same.total input kernel stride = (out - 1) * stride + kernel - input := by
      rw [total, ← show out = _ from h]
    refine ⟨same.total input kernel stride - same.front input kernel stride, ?_, ?_⟩ <;>
      rw [front] <;> omega
  · rintro rfl le i hi
    obtain ⟨o, ho, k, hk, place⟩ := h.reads step le hi
    exact ⟨o, ho, k, hk, (Window.source_eq_some_iff (reach ho hk)).2 ⟨hi, place⟩⟩

end Padding

end FlatNet
