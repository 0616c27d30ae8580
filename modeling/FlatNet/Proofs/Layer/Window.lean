import FlatNet.Feature.Window
import FlatNet.Proofs.Size

/-!
The positions of windows.

How many positions a window has along an axis is a relation between lengths.  It does not
depend on what the computation is a part of, so a planned shape and a computed one are
compared through it.

* `Padding.Covers`: the number of positions along an axis;
* `Hwc.Full`: images that are not empty;
* `Window.Makes`: the height and width that a window makes of an image;
* `Window.place_ends`: the place of a window is refused only if it makes nothing.
-/

namespace FlatNet

open Outcome (Ends)

variable {ε : Type} {P : ε → Prop}

/-! ### One axis -/

namespace Padding

/-- A window has `n` positions along an axis. -/
def Covers (p : Padding) (input kernel stride n : Nat) : Prop :=
  match p with
  | same => n = (input + stride - 1) / stride
  | valid => kernel ≤ input ∧ n < Size.bound ∧ n = (input - kernel) / stride + 1

lemma Covers.unique {p : Padding} {input kernel stride n n' : Nat}
    (h : p.Covers input kernel stride n) (h' : p.Covers input kernel stride n') : n = n' := by
  cases p with
  | same => exact Eq.trans h (Eq.symm h')
  | valid => exact h.2.2.trans h'.2.2.symm

/-- A window has a position on an axis that is not empty. -/
lemma Covers.ne_zero {p : Padding} {input kernel stride n : Nat} (step : stride ≠ 0)
    (h : p.Covers input kernel stride n) (full : input ≠ 0) : n ≠ 0 := by
  cases p with
  | same =>
    have reach : stride ≤ input + stride - 1 := by omega
    have one : 1 ≤ (input + stride - 1) / stride :=
      (Nat.one_le_div_iff (Nat.pos_of_ne_zero step)).2 reach
    rw [show n = (input + stride - 1) / stride from h]
    exact Nat.one_le_iff_ne_zero.1 one
  | valid =>
    rw [h.2.2]
    exact Nat.succ_ne_zero _

/-- The number of positions is computed, and missing only if there is none. -/
lemma outputLen_ends (p : Padding) (input kernel stride : Nat) :
    (p.outputLen input kernel stride : Outcome ε (Option Nat)).Ends
      (fun o => ∀ n, o = some n ↔ p.Covers input kernel stride n) P := by
  cases p with
  | same =>
    refine (Size.divCeil_ends input stride).bind ?_
    rintro _ rfl n
    rw [Option.some_inj, Covers, eq_comm]
  | valid =>
    rw [outputLen]
    split
    · rename_i misfit
      intro n
      simp only [reduceCtorEq, Covers, false_iff, not_and]
      omega
    · rename_i fits
      refine (Size.div_ends (input - kernel) stride).bind ?_
      rintro _ rfl
      refine (Size.add_ends ((input - kernel) / stride) 1).bind ?_
      rintro _ ⟨small, rfl⟩ n
      simp only [Option.some_inj, Covers]
      omega

/-- The number of positions is computed. -/
lemma outputLen_of_covers {p : Padding} {input kernel stride n : Nat} (step : stride ≠ 0)
    (h : p.Covers input kernel stride n) :
    (p.outputLen input kernel stride : Outcome ε (Option Nat)) = .value (some n) := by
  cases p with
  | same =>
    rw [outputLen, Size.divCeil, if_neg step, show n = _ from h]
    rfl
  | valid =>
    obtain ⟨fits, small, rfl⟩ := h
    rw [outputLen, if_neg (Nat.not_lt.2 fits), Size.div, if_neg step, Outcome.value_bind,
      Size.add_eq_value_iff.2 ⟨small, rfl⟩]
    rfl

lemma padBefore_ends (p : Padding) (input kernel stride : Nat) :
    (p.padBefore input kernel stride : Outcome ε Nat).Ends (fun _ => True) P := by
  cases p with
  | same =>
    refine (Size.divCeil_ends input stride).bind fun out _ => ?_
    refine (Size.mul_ends (out - 1) stride).bind fun total _ => ?_
    exact (Size.add_ends total kernel).bind fun _ _ => trivial
  | valid => trivial

end Padding

/-! ### Images -/

/-- No side of an image is empty, and it has a channel. -/
structure Hwc.Full (s : Hwc) : Prop where
  /-- There is a row. -/
  height : s.height ≠ 0
  /-- There is a column. -/
  width : s.width ≠ 0
  /-- There is a channel. -/
  channels : s.channels ≠ 0

namespace Window

/-- A window makes the height and width of an image. -/
structure Makes (w : Window) (input : Hwc) (h v : Nat) : Prop where
  /-- No side and no step is zero. -/
  proper : w.degenerate = false
  /-- The positions from top to bottom. -/
  rows : w.padding.Covers input.height w.kernel.1 w.strides.1 h
  /-- The positions from left to right. -/
  columns : w.padding.Covers input.width w.kernel.2 w.strides.2 v

lemma degenerate_eq_false {w : Window} (h : w.degenerate = false) :
    w.kernel.1 ≠ 0 ∧ w.kernel.2 ≠ 0 ∧ w.strides.1 ≠ 0 ∧ w.strides.2 ≠ 0 := by
  simpa [degenerate, and_assoc] using h

lemma Makes.unique {w : Window} {input : Hwc} {h v h' v' : Nat} (made : w.Makes input h v)
    (made' : w.Makes input h' v') : h = h' ∧ v = v' :=
  ⟨made.rows.unique made'.rows, made.columns.unique made'.columns⟩

lemma Makes.ne_zero {w : Window} {input : Hwc} {h v : Nat} (made : w.Makes input h v)
    (height : input.height ≠ 0) (width : input.width ≠ 0) : h ≠ 0 ∧ v ≠ 0 := by
  have steps := degenerate_eq_false made.proper
  exact ⟨made.rows.ne_zero steps.2.2.1 height, made.columns.ne_zero steps.2.2.2 width⟩

/-- The place of a window has the shape that the window makes, and is refused only if the
window makes nothing of the image. -/
lemma place_ends (w : Window) (input : Hwc) (channels : Nat) :
    (w.place input channels).Ends
      (fun r => ∃ h v, w.Makes input h v ∧ r.1 = ⟨h, v, channels⟩)
      (fun _ => ¬ ∃ h v, w.Makes input h v) := by
  refine (Ends.require fun bad => ?_).bind fun _ proper => ?_
  · rintro ⟨h, v, made⟩
    simp [made.proper] at bad
  refine (w.padding.outputLen_ends _ _ _).bind fun h rows => ?_
  refine (w.padding.outputLen_ends _ _ _).bind fun v columns => ?_
  match h, v with
  | some h, some v =>
    refine (w.padding.padBefore_ends _ _ _).bind fun top _ => ?_
    refine (w.padding.padBefore_ends _ _ _).bind fun left _ => ?_
    refine ⟨h, v, ⟨?_, (rows h).1 rfl, (columns v).1 rfl⟩, rfl⟩
    simpa using proper
  | none, _ =>
    rintro ⟨h, v, made⟩
    exact nomatch (rows h).2 made.rows
  | some _, none =>
    rintro ⟨h, v, made⟩
    exact nomatch (columns v).2 made.columns

end Window

end FlatNet
