import FlatNet.Proofs.Feature.Elements

/-!
Operations on feature maps that do not break off.

The elements of a feature map that is held in memory have places below its length, and so are
the partial sums and products on the way to them.  What an operation on such maps can still
leave the range with is a number that it computes before anything has compared it with the map:
the length it expects of a filter, the number of channels side by side, the end of the last
window that extends an axis, and the last product of a resize with aligned corners.  Sides and
windows that are numbers of four bytes never lead to the last two.

* `FeatureMap.Held`: feature maps held in memory, with sides that are numbers of four bytes;
* `FeatureMap.at_safe`, `Window.foldM_safe`, `tabulate_safe`: elements, windows and tables;
* `Window.Overreaches`, `FeatureMap.ResizeOvershoots`: the last window, or the last product, is
  no size;
* `conv2d_faultsOnlyIf`, `depthwiseConv2d_faultsOnlyIf`, `concat_faultsOnlyIf`,
  `maxPool2d_faultsOnlyIf`, `resizeBilinear_faultsOnlyIf`: the one case in which an operation on
  stored feature maps breaks off, with `conv2d_eq_fault` and the like for the converse;
* `conv2d_safe`, `maxPool2d_safe` and the like: operations on held feature maps, with results
  that are held again.
-/

namespace FlatNet

open Outcome (SafeUnless)

variable {ε : Type} {B : Prop}

/-- A computation breaks off only if `B` holds. -/
abbrev FaultsOnlyIf {α : Type} (B : Prop) (x : Outcome ε α) : Prop :=
  x.SafeUnless B fun _ => True

lemma FaultsOnlyIf.of_holds {α : Type} (h : B) (x : Outcome ε α) : FaultsOnlyIf B x := by
  cases x with
  | value _ | error _ => trivial
  | fault => exact h

/-! ### Sizes -/

namespace Size

lemma checked_safe {n : Nat} (small : n < bound) :
    (checked n : Outcome ε Nat).SafeUnless B (fun r => r = n) := by
  rw [checked, if_pos small]
  rfl

lemma add_safe {a b : Nat} (small : a + b < bound) :
    (add a b : Outcome ε Nat).SafeUnless B (fun r => r = a + b) := checked_safe small

lemma mul_safe {a b : Nat} (small : a * b < bound) :
    (mul a b : Outcome ε Nat).SafeUnless B (fun r => r = a * b) := checked_safe small

lemma sub_safe {a b : Nat} (le : b ≤ a) :
    (sub a b : Outcome ε Nat).SafeUnless B (fun r => r = a - b) := by
  rw [sub, if_pos le]
  rfl

lemma div_safe {a b : Nat} (ne : b ≠ 0) :
    (div a b : Outcome ε Nat).SafeUnless B (fun r => r = a / b) := by
  rw [div, if_neg ne]
  rfl

lemma divCeil_safe {a b : Nat} (ne : b ≠ 0) :
    (divCeil a b : Outcome ε Nat).SafeUnless B (fun r => r = (a + b - 1) / b) := by
  rw [divCeil, if_neg ne]
  rfl

lemma checked_safeUnless (n : Nat) :
    (checked n : Outcome ε Nat).SafeUnless (bound ≤ n) (fun r => n < bound ∧ r = n) := by
  by_cases small : n < bound
  · exact (checked_safe small).mono id fun r same => ⟨small, same⟩
  · rw [checked, if_neg small]
    exact Nat.le_of_not_lt small

lemma product?_pair {x y n : Nat} (h : product? 1 [x, y] = some n) : x * y < bound ∧ n = x * y := by
  simp only [product?, List.foldlM_cons, List.foldlM_nil, Option.bind_eq_bind,
    Option.bind_eq_some_iff, mul?_eq_some_iff, Nat.one_mul] at h
  obtain ⟨_, ⟨-, rfl⟩, _, ⟨pair, rfl⟩, same⟩ := h
  exact ⟨pair, (Option.some.inj same).symm⟩

lemma product?_triple {x y z n : Nat} (h : product? 1 [x, y, z] = some n) :
    x * y < bound ∧ x * y * z < bound ∧ n = x * y * z := by
  simp only [product?, List.foldlM_cons, List.foldlM_nil, Option.bind_eq_bind,
    Option.bind_eq_some_iff, mul?_eq_some_iff, Nat.one_mul] at h
  obtain ⟨_, ⟨-, rfl⟩, _, ⟨pair, rfl⟩, _, ⟨triple, rfl⟩, same⟩ := h
  exact ⟨pair, triple, (Option.some.inj same).symm⟩

/-- The last factor of a product, when the others make a size. -/
lemma product_concat {dims : List Nat} {n : Nat} (front : product? 1 dims = some n) (d : Nat) :
    (product (dims ++ [d]) : Outcome ε Nat) = checked (n * d) := by
  have value : (product dims : Outcome ε Nat) = .value n := product_eq_value_iff.2 front
  rw [product, List.foldlM_append, show dims.foldlM mul 1 = (.value n : Outcome ε Nat) from value]
  exact bind_pure (mul n d)

end Size

/-- The sides of an image are numbers of four bytes. -/
structure Hwc.Narrow (s : Hwc) : Prop where
  /-- The rows. -/
  rows : s.height < 0x100000000
  /-- The columns. -/
  columns : s.width < 0x100000000

/-- The sides of an image are sizes. -/
structure Hwc.Bounded (s : Hwc) : Prop where
  /-- The rows. -/
  rows : s.height < Size.bound
  /-- The columns. -/
  columns : s.width < Size.bound

lemma Hwc.Narrow.bounded {s : Hwc} (h : s.Narrow) : s.Bounded :=
  ⟨lt_trans h.rows (by decide), lt_trans h.columns (by decide)⟩

/-- The sides of a window are numbers of four bytes. -/
structure Window.Narrow (w : Window) : Prop where
  /-- The rows. -/
  rows : w.kernel.1 < 0x100000000
  /-- The columns. -/
  columns : w.kernel.2 < 0x100000000

/-! ### Places -/

namespace FeatureMap

variable {m : FeatureMap}

/-- The partial products of the sides of a stored feature map are sizes. -/
lemma Stored.products (h : m.Stored) :
    m.batch * m.hwc.height < Size.bound ∧ m.batch * m.hwc.height * m.hwc.width < Size.bound ∧
      m.batch * m.hwc.height * m.hwc.width * m.hwc.channels = m.data.size ∧
      m.data.size < Size.bound :=
  h.sized.products

lemma at_safe (h : m.Stored) {n y x c : Nat} (hn : n < m.batch) (hy : y < m.hwc.height)
    (hx : x < m.hwc.width) (hc : c < m.hwc.channels) :
    FaultsOnlyIf B (m.at n y x c : Outcome ε Float32) := by
  rw [h.sized.at hn hy hx hc]
  trivial

lemma part_safe {α : Type} {xs : Array α} {start count : Nat} (inside : start + count ≤ xs.size) :
    FaultsOnlyIf B (part xs start count : Outcome ε (Array α)) := by
  rw [part, if_pos inside]
  trivial

lemma pixel_safe (h : m.Stored) {n y x : Nat} (hn : n < m.batch) (hy : y < m.hwc.height)
    (hx : x < m.hwc.width) :
    FaultsOnlyIf B (m.pixel n y x : Outcome ε (Array Float32)) := by
  rw [h.sized.pixel hn hy hx]
  trivial

lemma reserve_safe (batch : Nat) (hwc : Hwc) : FaultsOnlyIf B (reserve batch hwc) := by
  unfold reserve
  split
  · trivial
  · split <;> trivial

lemma make_safe (batch : Nat) (hwc : Hwc) (data : Array Float32) :
    FaultsOnlyIf B (make batch hwc data) := by
  unfold make
  split <;> trivial

/-- A table breaks off only where one of its elements does. -/
lemma tabulate_safe (batch : Nat) (hwc : Hwc) {f : Nat → Nat → Nat → Nat → KernelOutcome Float32}
    (element : ∀ n y x c, n < batch → y < hwc.height → x < hwc.width → c < hwc.channels →
      FaultsOnlyIf B (f n y x c)) :
    FaultsOnlyIf B (tabulate batch hwc f) := by
  refine (reserve_safe batch hwc).bind fun _ _ => ?_
  refine (SafeUnless.mapM_all (Q := fun _ => True) fun i hi => ?_).bind fun data _ => make_safe ..
  obtain ⟨hn, hy, hx, hc⟩ := position_lt (List.mem_range.1 hi)
  exact element _ _ _ _ hn hy hx hc

end FeatureMap

/-! ### Windows -/

namespace Padding

variable {p : Padding} {input kernel stride n : Nat}

/-- A window starts inside the input at each of its positions. -/
lemma Covers.mul_lt (h : p.Covers input kernel stride n) (side : kernel ≠ 0) (step : stride ≠ 0)
    {out : Nat} (position : out < n) : out * stride < input := by
  have pos := Nat.pos_of_ne_zero step
  cases p with
  | same =>
    rw [show n = (input + stride - 1) / stride from h] at position
    have reach : (out + 1) * stride ≤ input + stride - 1 := (Nat.le_div_iff_mul_le pos).1 position
    rw [Nat.succ_mul] at reach
    omega
  | valid =>
    obtain ⟨fits, -, rfl⟩ := h
    have reach := (Nat.le_div_iff_mul_le pos).1 (Nat.le_of_lt_succ position)
    omega

/-- A window has at most as many positions as there are elements. -/
lemma Covers.le (h : p.Covers input kernel stride n) (side : kernel ≠ 0) (step : stride ≠ 0) :
    n ≤ input := by
  cases n with
  | zero => exact Nat.zero_le input
  | succ last =>
    have start := h.mul_lt side step (Nat.lt_succ_self last)
    have steps : last ≤ last * stride := Nat.le_mul_of_pos_right last (Nat.pos_of_ne_zero step)
    omega

/-- The last of the windows that extend an axis ends beyond all sizes. -/
def Overreaches (p : Padding) (input kernel stride : Nat) : Prop :=
  match p with
  | same => Size.bound ≤ ((input + stride - 1) / stride - 1) * stride + kernel
  | valid => False

/-- The last of the windows that extend an axis starts inside it. -/
lemma last_mul_le (input stride : Nat) : ((input + stride - 1) / stride - 1) * stride ≤ input := by
  rcases Nat.eq_zero_or_pos stride with rfl | pos
  · simp
  · have reach := Nat.div_mul_le_self (input + stride - 1) stride
    rw [Nat.sub_mul, Nat.one_mul]
    omega

/-- No window that is not far longer than the axis ends beyond all sizes. -/
lemma not_overreaches (p : Padding) (small : input + kernel < Size.bound) :
    ¬ p.Overreaches input kernel stride := by
  cases p with
  | same =>
    have last := last_mul_le input stride
    rw [Overreaches]
    omega
  | valid => exact id

/-- An element of a window has a place that is a size, if the last window ends at one. -/
lemma Covers.add_lt (h : p.Covers input kernel stride n) (step : stride ≠ 0)
    (small : input < Size.bound) (near : ¬ p.Overreaches input kernel stride) {out k : Nat}
    (position : out < n) (element : k < kernel) : out * stride + k < Size.bound := by
  cases p with
  | same =>
    have before : out * stride ≤ (n - 1) * stride :=
      Nat.mul_le_mul_right stride (Nat.le_sub_one_of_lt position)
    rw [show n = (input + stride - 1) / stride from h] at before
    rw [Overreaches] at near
    omega
  | valid =>
    obtain ⟨fits, -, rfl⟩ := h
    have reach :=
      (Nat.le_div_iff_mul_le (Nat.pos_of_ne_zero step)).1 (Nat.le_of_lt_succ position)
    omega

variable (p) in
lemma outputLen_safe (side : kernel ≠ 0) (step : stride ≠ 0) (small : input < Size.bound) :
    (p.outputLen input kernel stride : Outcome ε (Option Nat)).SafeUnless B
      (fun o => ∀ n, o = some n → p.Covers input kernel stride n) := by
  have whole : FaultsOnlyIf B (p.outputLen input kernel stride : Outcome ε (Option Nat)) := by
    cases p with
    | same => exact (Size.divCeil_safe step).bind fun _ _ => trivial
    | valid =>
      rw [outputLen]
      split
      · trivial
      · have few := Nat.div_le_self (input - kernel) stride
        refine (Size.div_safe step).bind ?_
        rintro _ rfl
        exact (Size.add_safe (by omega)).bind fun _ _ => trivial
  refine SafeUnless.of_ends ((p.outputLen_ends (P := fun _ => True) input kernel stride).mono ?_
    fun _ h => h) whole.of_fault
  exact fun o counted n found => (counted n).1 found

/-- The padding in front is computed, unless the last window ends beyond all sizes. -/
lemma padBefore_eq_fault_iff (p : Padding) (step : stride ≠ 0) (small : input < Size.bound) :
    (p.padBefore input kernel stride : Outcome ε Nat) = .fault ↔
      p.Overreaches input kernel stride := by
  cases p with
  | same =>
    have last := last_mul_le input stride
    have start : (Size.mul ((input + stride - 1) / stride - 1) stride : Outcome ε Nat)
        = .value (((input + stride - 1) / stride - 1) * stride) :=
      Size.mul_eq_value_iff.2 ⟨by omega, rfl⟩
    rw [padBefore, Size.divCeil, if_neg step, Outcome.value_bind, start, Outcome.value_bind,
      Size.add, Overreaches, ← Size.checked_eq_fault_iff (ε := ε)]
    cases (Size.checked _ : Outcome ε Nat) <;> simp
  | valid => simp [padBefore, Overreaches]

lemma padBefore_safe (p : Padding) (step : stride ≠ 0) (small : input < Size.bound)
    (near : ¬ p.Overreaches input kernel stride) :
    FaultsOnlyIf B (p.padBefore input kernel stride : Outcome ε Nat) :=
  SafeUnless.of_ends (P := fun _ => True) (p.padBefore_ends input kernel stride) fun broken =>
    absurd ((p.padBefore_eq_fault_iff step small).1 broken) near

end Padding

namespace Window

variable {w : Window} {input : Hwc}

/-- The last of the windows that extend an image ends beyond all sizes, down or across. -/
def Overreaches (w : Window) (input : Hwc) : Prop :=
  w.padding.Overreaches input.height w.kernel.1 w.strides.1 ∨
    w.padding.Overreaches input.width w.kernel.2 w.strides.2

/-- Small windows on small images do not end beyond all sizes. -/
lemma Narrow.near (narrow : w.Narrow) (small : input.Narrow) : ¬ w.Overreaches input := by
  have rows := small.rows
  have columns := small.columns
  have kernelRows := narrow.rows
  have kernelColumns := narrow.columns
  rw [Overreaches, not_or]
  constructor <;> refine Padding.not_overreaches _ ?_ <;> unfold Size.bound <;> omega

/-- The place of a window is computed, if the last window ends at a size. -/
lemma place_safe (bounded : input.Bounded) (near : ¬ w.Overreaches input) (channels : Nat) :
    (w.place input channels).SafeUnless B
      (fun r => ∃ h v, w.Makes input h v ∧ r.1 = ⟨h, v, channels⟩) := by
  obtain ⟨down, across⟩ := not_or.1 near
  have whole : FaultsOnlyIf B (w.place input channels) := by
    refine (SafeUnless.require _ _).bind fun _ proper => ?_
    obtain ⟨kh, kw, sh, sw⟩ := degenerate_eq_false (by simpa using proper)
    refine (w.padding.outputLen_safe kh sh bounded.rows).bind fun h _ => ?_
    refine (w.padding.outputLen_safe kw sw bounded.columns).bind fun v _ => ?_
    match h, v with
    | some h, some v =>
      refine (w.padding.padBefore_safe sh bounded.rows down).bind fun top _ => ?_
      exact (w.padding.padBefore_safe sw bounded.columns across).bind fun _ _ => trivial
    | none, _ => trivial
    | some _, none => trivial
  exact SafeUnless.of_ends (w.place_ends input channels) whole.of_fault

/-- The place of a window is not computed, if the last window ends beyond all sizes. -/
lemma place_eq_fault (bounded : input.Bounded) (proper : w.degenerate = false)
    (far : w.Overreaches input) (channels : Nat) : w.place input channels = .fault := by
  obtain ⟨-, -, sh, sw⟩ := degenerate_eq_false proper
  -- without padding the place of a window is not computed
  have same : w.padding = .same := by
    cases padding : w.padding with
    | same => rfl
    | valid => simp [Overreaches, padding, Padding.Overreaches] at far
  have positions (input kernel : Nat) {stride : Nat} (step : stride ≠ 0) :
      (w.padding.outputLen input kernel stride : KernelOutcome (Option Nat))
        = .value (some ((input + stride - 1) / stride)) := by
    rw [same, Padding.outputLen, Size.divCeil, if_neg step]
    rfl
  have down : (w.padding.padBefore input.height w.kernel.1 w.strides.1 : KernelOutcome Nat)
      = .fault ↔ w.padding.Overreaches input.height w.kernel.1 w.strides.1 :=
    w.padding.padBefore_eq_fault_iff sh bounded.rows
  have across : (w.padding.padBefore input.width w.kernel.2 w.strides.2 : KernelOutcome Nat)
      = .fault ↔ w.padding.Overreaches input.width w.kernel.2 w.strides.2 :=
    w.padding.padBefore_eq_fault_iff sw bounded.columns
  rw [Overreaches, ← down, ← across] at far
  simp only [place, proper, Bool.not_false, Outcome.require_true, Outcome.value_bind,
    positions _ _ sh, positions _ _ sw]
  rcases far with down | across
  · rw [down, Outcome.fault_bind]
  · refine Outcome.bind_eq_fault (fun e refused => ?_) fun top => by rw [across, Outcome.fault_bind]
    exact (Padding.padBefore_ends (P := fun _ => False) ..).of_error refused

lemma source_safe {out k stride pad len : Nat} (reach : out * stride + k < Size.bound) :
    (source out k stride pad len : Outcome ε (Option Nat)).SafeUnless B
      (fun o => ∀ i, o = some i → i < len) := by
  refine (Size.mul_safe (by omega)).bind ?_
  rintro _ rfl
  refine (Size.add_safe reach).bind ?_
  rintro _ rfl
  split
  · rename_i inside
    rintro i ⟨⟩
    exact inside.2
  · exact nofun

/-- A fold over a window at one of its positions breaks off only where a step does, and the
steps get elements of the window and pixels of the image. -/
lemma foldM_safe {α : Type} (bounded : input.Bounded) (near : ¬ w.Overreaches input) {h v : Nat}
    (made : w.Makes input h v) (pad : Nat × Nat) {oy ox : Nat} (hy : oy < h) (hx : ox < v)
    (start : α) {step : α → Nat × Nat → Nat × Nat → Outcome ε α}
    (element : ∀ a ky kx iy ix, ky < w.kernel.1 → kx < w.kernel.2 → iy < input.height →
      ix < input.width → FaultsOnlyIf B (step a (ky, kx) (iy, ix))) :
    FaultsOnlyIf B (w.foldM input pad oy ox start step) := by
  obtain ⟨-, -, sh, sw⟩ := degenerate_eq_false made.proper
  obtain ⟨down, across⟩ := not_or.1 near
  -- rows outside of the input are skipped, and so are columns
  refine SafeUnless.foldlM trivial fun acc ky hky _ => ?_
  have hky := List.mem_range.1 hky
  refine (source_safe (made.rows.add_lt sh bounded.rows down hy hky)).bind fun row insideRows => ?_
  cases row with
  | none => trivial
  | some iy =>
    refine SafeUnless.foldlM trivial fun acc kx hkx _ => ?_
    have hkx := List.mem_range.1 hkx
    refine (source_safe (made.columns.add_lt sw bounded.columns across hx hkx)).bind
      fun column insideColumns => ?_
    cases column with
    | none => trivial
    | some ix => exact element acc ky kx iy ix hky hkx (insideRows iy rfl) (insideColumns ix rfl)

end Window

/-! ### Operations on windows -/

namespace FeatureMap

/-- A feature map is held in memory, and its sides are numbers of four bytes other than zero. -/
structure Held (m : FeatureMap) : Prop where
  /-- It is stored. -/
  stored : m.Stored
  /-- There is a row. -/
  height : m.hwc.height ≠ 0
  /-- There is a column. -/
  width : m.hwc.width ≠ 0
  /-- The sides are small. -/
  narrow : m.hwc.Narrow

variable {m r : FeatureMap} {w : Window} {filter : Array Float32} {bias : Option (Array Float32)}
  {a : Activation}

/-- What a window makes of a held feature map has small sides as well. -/
lemma Held.of_makes (held : m.Held) {batch h v channels : Nat} (made : w.Makes m.hwc h v)
    (shaped : r.Shaped batch ⟨h, v, channels⟩) (stored : r.Stored) : r.Held := by
  obtain ⟨kh, kw, sh, sw⟩ := Window.degenerate_eq_false made.proper
  obtain ⟨height, width⟩ := made.ne_zero held.height held.width
  refine ⟨stored, ?_, ?_, ?_, ?_⟩ <;> rw [shaped.hwc]
  · exact height
  · exact width
  · exact lt_of_le_of_lt (made.rows.le kh sh) held.narrow.rows
  · exact lt_of_le_of_lt (made.columns.le kw sw) held.narrow.columns

lemma addBias_safe (acc : Float32) {c : Nat} (fits : ∀ b, bias = some b → c < b.size) :
    FaultsOnlyIf B (addBias acc bias c : Outcome ε Float32) := by
  cases bias with
  | none => trivial
  | some b =>
    exact (SafeUnless.orFault (Array.getElem?_eq_getElem (fits b rfl))).bind fun _ _ => trivial

/-- The length that is expected of a filter is a size, or the operation breaks off. -/
lemma expected_safe {dims : List Nat} {n : Nat} (front : Size.product? 1 dims = some n)
    (channels : Nat) :
    (Size.product (dims ++ [channels]) : Outcome ε Nat).SafeUnless (Size.bound ≤ n * channels)
      (fun e => n * channels < Size.bound ∧ e = n * channels) := by
  rw [Size.product_concat front]
  exact Size.checked_safeUnless _

/-- A convolution breaks off only if the length it expects of its filter is no size. -/
lemma conv2d_faultsOnlyIf (stored : m.Stored) (bounded : m.hwc.Bounded)
    (near : ¬ w.Overreaches m.hwc) {out n : Nat}
    (front : Size.product? 1 [out, w.kernel.1, w.kernel.2] = some n) :
    FaultsOnlyIf (Size.bound ≤ n * m.hwc.channels) (m.conv2d filter out bias w a) := by
  obtain ⟨pair, triple, rfl⟩ := Size.product?_triple front
  -- the only product that can be too large; all places below are inside the filter
  refine (expected_safe front m.hwc.channels).bind ?_
  rintro _ ⟨total, rfl⟩
  refine (SafeUnless.require _ _).bind fun _ length => ?_
  refine (SafeUnless.require _ _).bind fun _ lengths => ?_
  rw [decide_eq_true_eq] at length
  refine (Window.place_safe bounded near out).bind ?_
  rintro ⟨_, pad⟩ ⟨h, v, made, rfl⟩
  refine tabulate_safe _ _ fun n oy ox oc hn hy hx hc => ?_
  refine (Window.foldM_safe bounded near made pad hy hx _ ?_).bind fun sum _ => ?_
  · intro acc ky kx iy ix hky hkx hiy hix
    have row : oc * w.kernel.1 + ky < out * w.kernel.1 := Size.row_add_lt hc hky
    have element := Size.row_add_lt row hkx
    have filled : ((oc * w.kernel.1 + ky) * w.kernel.2 + kx) * m.hwc.channels + m.hwc.channels
        ≤ filter.size := by
      rw [length, ← Nat.succ_mul]
      exact Nat.mul_le_mul_right _ element
    refine (Size.mul_safe (b := w.kernel.1) (by omega)).bind ?_
    rintro _ rfl
    refine (Size.add_safe (by omega)).bind ?_
    rintro _ rfl
    refine (Size.mul_safe (b := w.kernel.2) (by omega)).bind ?_
    rintro _ rfl
    refine (Size.add_safe (by omega)).bind ?_
    rintro _ rfl
    have small := lt_of_le_of_lt (Nat.le_of_add_right_le filled) (length ▸ total)
    refine (Size.mul_safe small).bind ?_
    rintro _ rfl
    refine (part_safe filled).bind fun weights _ => ?_
    exact (pixel_safe stored hn hiy hix).bind fun _ _ => trivial
  · refine (addBias_safe sum fun b given => ?_).bind fun _ _ => trivial
    rw [given, Option.all_some, decide_eq_true_eq] at lengths
    exact lengths ▸ hc

/-- A convolution of a held feature map breaks off only if the length it expects of its filter
is no size. -/
lemma conv2d_safe (held : m.Held) (narrow : w.Narrow) {out n : Nat}
    (front : Size.product? 1 [out, w.kernel.1, w.kernel.2] = some n) :
    (m.conv2d filter out bias w a).SafeUnless (Size.bound ≤ n * m.hwc.channels) Held := by
  have whole : FaultsOnlyIf _ (m.conv2d filter out bias w a) :=
    conv2d_faultsOnlyIf held.stored held.narrow.bounded (narrow.near held.narrow) front
  refine SafeUnless.of_ends ((conv2d_ends m filter out bias w a).mono ?_ fun _ h => h)
    whole.of_fault
  rintro r ⟨h, v, made, shaped, stored⟩
  exact held.of_makes made shaped stored

/-- The length that a convolution expects is computed before anything else. -/
lemma conv2d_eq_fault {out n : Nat}
    (front : Size.product? 1 [out, w.kernel.1, w.kernel.2] = some n)
    (large : Size.bound ≤ n * m.hwc.channels) : m.conv2d filter out bias w a = .fault := by
  have broken : (Size.product ([out, w.kernel.1, w.kernel.2] ++ [m.hwc.channels])
      : KernelOutcome Nat) = .fault := by
    rw [Size.product_concat front, Size.checked_eq_fault_iff]
    exact large
  rw [List.cons_append, List.cons_append, List.cons_append, List.nil_append] at broken
  simp only [conv2d, broken, Outcome.fault_bind]

lemma product?_sides (narrow : w.Narrow) :
    Size.product? 1 [w.kernel.1, w.kernel.2] = some (w.kernel.1 * w.kernel.2) := by
  have rows : w.kernel.1 < Size.bound := lt_trans narrow.rows (by decide)
  have area : w.kernel.1 * w.kernel.2 < Size.bound :=
    Nat.mul_lt_mul'' narrow.rows narrow.columns
  simp only [Size.product?, List.foldlM_cons, List.foldlM_nil, Option.bind_eq_bind,
    Option.bind_eq_some_iff, Size.mul?_eq_some_iff, Nat.one_mul]
  exact ⟨_, ⟨rows, rfl⟩, _, ⟨area, rfl⟩, rfl⟩

/-- A convolution per channel breaks off only if the length it expects of its filter is no
size. -/
lemma depthwiseConv2d_faultsOnlyIf (stored : m.Stored) (bounded : m.hwc.Bounded)
    (near : ¬ w.Overreaches m.hwc) {n : Nat}
    (front : Size.product? 1 [w.kernel.1, w.kernel.2] = some n) :
    FaultsOnlyIf (Size.bound ≤ n * m.hwc.channels) (m.depthwiseConv2d filter bias w a) := by
  obtain ⟨area, rfl⟩ := Size.product?_pair front
  refine (expected_safe front m.hwc.channels).bind ?_
  rintro _ ⟨total, rfl⟩
  refine (SafeUnless.require _ _).bind fun _ length => ?_
  refine (SafeUnless.require _ _).bind fun _ lengths => ?_
  rw [decide_eq_true_eq] at length
  refine (Window.place_safe bounded near m.hwc.channels).bind ?_
  rintro ⟨_, pad⟩ ⟨h, v, made, rfl⟩
  refine tabulate_safe _ _ fun n oy ox c hn hy hx hc => ?_
  refine (Window.foldM_safe bounded near made pad hy hx _ ?_).bind fun sum _ => ?_
  · intro acc ky kx iy ix hky hkx hiy hix
    have element := Size.row_add_lt hky hkx
    -- each place that is computed is at most this one
    have inside : (ky * w.kernel.2 + kx) * m.hwc.channels + c < filter.size := by
      rw [length]
      exact Size.row_add_lt element hc
    have small := lt_trans inside (length ▸ total)
    refine (Size.mul_safe (b := w.kernel.2) (by omega)).bind ?_
    rintro _ rfl
    refine (Size.add_safe (by omega)).bind ?_
    rintro _ rfl
    refine (Size.mul_safe (lt_of_le_of_lt (Nat.le_add_right _ _) small)).bind ?_
    rintro _ rfl
    refine (Size.add_safe small).bind ?_
    rintro _ rfl
    refine (SafeUnless.orFault (Array.getElem?_eq_getElem inside)).bind fun weight _ => ?_
    exact (at_safe stored hn hiy hix hc).bind fun _ _ => trivial
  · refine (addBias_safe sum fun b given => ?_).bind fun _ _ => trivial
    rw [given, Option.all_some, decide_eq_true_eq] at lengths
    exact lengths ▸ hc

/-- A convolution per channel of a held feature map breaks off only if the length it expects of
its filter is no size. -/
lemma depthwiseConv2d_safe (held : m.Held) (narrow : w.Narrow) :
    (m.depthwiseConv2d filter bias w a).SafeUnless
      (Size.bound ≤ w.kernel.1 * w.kernel.2 * m.hwc.channels) Held := by
  have whole : FaultsOnlyIf _ (m.depthwiseConv2d filter bias w a) :=
    depthwiseConv2d_faultsOnlyIf held.stored held.narrow.bounded (narrow.near held.narrow)
      (product?_sides narrow)
  refine SafeUnless.of_ends ((depthwiseConv2d_ends m filter bias w a).mono ?_ fun _ h => h)
    whole.of_fault
  rintro r ⟨h, v, made, shaped, stored⟩
  exact held.of_makes made shaped stored

lemma depthwiseConv2d_eq_fault (narrow : w.Narrow)
    (large : Size.bound ≤ w.kernel.1 * w.kernel.2 * m.hwc.channels) :
    m.depthwiseConv2d filter bias w a = .fault := by
  have broken : (Size.product ([w.kernel.1, w.kernel.2] ++ [m.hwc.channels])
      : KernelOutcome Nat) = .fault := by
    rw [Size.product_concat (product?_sides narrow), Size.checked_eq_fault_iff]
    exact large
  rw [List.cons_append, List.cons_append, List.nil_append] at broken
  simp only [depthwiseConv2d, broken, Outcome.fault_bind]

/-- A maximum over windows breaks off only if the last window ends beyond all sizes. -/
lemma maxPool2d_faultsOnlyIf (stored : m.Stored) (bounded : m.hwc.Bounded) :
    FaultsOnlyIf (w.Overreaches m.hwc) (m.maxPool2d w) := by
  by_cases near : w.Overreaches m.hwc
  · exact .of_holds near _
  refine (Window.place_safe bounded near m.hwc.channels).bind ?_
  rintro ⟨_, pad⟩ ⟨h, v, made, rfl⟩
  refine tabulate_safe _ _ fun n oy ox c hn hy hx hc => ?_
  refine Window.foldM_safe bounded near made pad hy hx _ ?_
  intro best ky kx iy ix _ _ hiy hix
  exact (at_safe stored hn hiy hix hc).bind fun _ _ => trivial

/-- The place of a window is computed before anything else. -/
lemma maxPool2d_eq_fault (bounded : m.hwc.Bounded) (proper : w.degenerate = false)
    (far : w.Overreaches m.hwc) : m.maxPool2d w = .fault := by
  rw [maxPool2d, Window.place_eq_fault bounded proper far]
  rfl

/-- A maximum over the windows of a held feature map does not break off. -/
lemma maxPool2d_safe (held : m.Held) (narrow : w.Narrow) :
    (m.maxPool2d w).SafeUnless B Held := by
  have whole := maxPool2d_faultsOnlyIf (w := w) held.stored held.narrow.bounded
  refine SafeUnless.of_ends ((maxPool2d_ends m w).mono ?_ fun _ h => h) fun broken =>
    absurd (whole.of_fault broken) (narrow.near held.narrow)
  rintro r ⟨h, v, made, shaped, stored⟩
  exact held.of_makes made shaped stored

/-! ### Operations that keep positions -/

lemma Held.of_shaped (held : m.Held) {batch channels : Nat}
    (shaped : r.Shaped batch ⟨m.hwc.height, m.hwc.width, channels⟩) (stored : r.Stored) :
    r.Held := by
  refine ⟨stored, ?_, ?_, ?_, ?_⟩ <;> rw [shaped.hwc]
  · exact held.height
  · exact held.width
  · exact held.narrow.rows
  · exact held.narrow.columns

lemma Held.activate (held : m.Held) (a : Activation) : (m.activate a).Held :=
  held.of_shaped (m.shaped_activate a) (held.stored.activate a)

lemma add_faultsOnlyIf (m rhs : FeatureMap) : FaultsOnlyIf B (m.add rhs a) :=
  (SafeUnless.require _ _).bind fun _ _ => make_safe ..

/-- A sum does not break off. -/
lemma add_safe (held : m.Held) (rhs : FeatureMap) : (m.add rhs a).SafeUnless B Held := by
  refine SafeUnless.of_ends ((add_ends m rhs a).mono ?_ fun _ h => h)
    (add_faultsOnlyIf m rhs).of_fault
  rintro r ⟨-, shaped, stored⟩
  exact held.of_shaped shaped (stored held.stored)

/-- A normalisation does not break off. -/
lemma batchNorm_faultsOnlyIf (stored : m.Stored) (p : Norm) (epsilon : Float32) :
    FaultsOnlyIf B (m.batchNorm p epsilon) := by
  refine (SafeUnless.require _ _).bind fun _ gamma => ?_
  refine (SafeUnless.require _ _).bind fun _ beta => ?_
  refine (SafeUnless.require _ _).bind fun _ mean => ?_
  refine (SafeUnless.require _ _).bind fun _ variance => ?_
  rw [decide_eq_true_eq] at gamma beta mean variance
  refine (SafeUnless.mapM (Q := fun _ _ => True) fun c hc => ?_).bind fun scales each => ?_
  · have inside := List.mem_range.1 hc
    refine (SafeUnless.orFault (Array.getElem?_eq_getElem (gamma ▸ inside))).bind fun _ _ => ?_
    exact (SafeUnless.orFault (Array.getElem?_eq_getElem (variance ▸ inside))).bind
      fun _ _ => trivial
  have length : scales.toArray.size = m.hwc.channels := by
    rw [List.size_toArray, ← each.length_eq, List.length_range]
  refine (SafeUnless.mapM_all (Q := fun _ => True) fun entry hentry => ?_).bind
    fun data _ => make_safe ..
  -- an element has a channel, so there is one
  have place := List.snd_lt_of_mem_zipIdx hentry
  rw [Array.length_toList, ← stored.products.2.2.1] at place
  have inside : entry.2 % m.hwc.channels < m.hwc.channels :=
    Nat.mod_lt _ (Nat.pos_of_mul_pos_left (Nat.zero_lt_of_lt place))
  refine (SafeUnless.orFault (Array.getElem?_eq_getElem (mean ▸ inside))).bind fun _ _ => ?_
  refine (SafeUnless.orFault (Array.getElem?_eq_getElem (length ▸ inside))).bind fun _ _ => ?_
  exact (SafeUnless.orFault (Array.getElem?_eq_getElem (beta ▸ inside))).bind fun _ _ => trivial

/-- A normalisation of a held feature map does not break off. -/
lemma batchNorm_safe (held : m.Held) (p : Norm) (epsilon : Float32) :
    (m.batchNorm p epsilon).SafeUnless B Held := by
  refine SafeUnless.of_ends ((batchNorm_ends m p epsilon).mono ?_ fun _ h => h)
    (batchNorm_faultsOnlyIf held.stored p epsilon).of_fault
  rintro r ⟨shaped, stored⟩
  exact held.of_shaped shaped (stored held.stored)

/-! ### Concatenation -/

lemma channelSum_eq (ms : List FeatureMap) : channelSum ms = (ms.map (·.hwc.channels)).sum :=
  List.sum_eq_foldl.symm

/-- A concatenation breaks off only if the feature maps fit together and their channels are no
size. -/
lemma concat_faultsOnlyIf {ms : List FeatureMap} (stored : ∀ m ∈ ms, m.Stored) :
    FaultsOnlyIf (ConcatFits ms ∧ Size.bound ≤ channelSum ms) (concat ms) := by
  cases ms with
  | nil => trivial
  | cons first rest =>
    obtain ⟨rows, pixels, -, -⟩ := (stored first (List.mem_cons_self ..)).products
    refine (SafeUnless.require _ _).bind fun _ same => ?_
    rw [all_sides_iff] at same
    have fits : ConcatFits (first :: rest) := concatFits_iff.2 same
    have channels : (Size.sum ((first :: rest).map (·.hwc.channels))
        : KernelOutcome Nat).SafeUnless
          (ConcatFits (first :: rest) ∧ Size.bound ≤ channelSum (first :: rest))
          (fun _ => True) := by
      rw [Size.sum, Size.foldlM_add_eq 0 (by decide), Nat.zero_add, ← channelSum_eq]
      exact (Size.checked_safeUnless _).mono (fun large => ⟨fits, large⟩) fun _ _ => trivial
    refine channels.bind fun channels _ => ?_
    refine (Size.mul_safe rows).bind ?_
    rintro _ rfl
    refine (Size.mul_safe pixels).bind ?_
    rintro _ rfl
    refine (reserve_safe _ _).bind fun _ _ => ?_
    refine (SafeUnless.mapM_all (Q := fun _ => True) fun p hp => ?_).bind
      fun parts _ => make_safe ..
    refine (SafeUnless.mapM_all (Q := fun _ => True) fun m hm => ?_).mono id fun _ _ => trivial
    -- the parts have the pixels of the first one
    rw [List.mem_range, ← (same m hm).1, ← (same m hm).2.1, ← (same m hm).2.2] at hp
    have inside := (stored m hm).sized.inside hp
    have small := (stored m hm).products.2.2.2
    refine (Size.mul_safe (lt_of_le_of_lt (Nat.le_of_add_right_le inside) small)).bind ?_
    rintro _ rfl
    exact part_safe inside

/-- A concatenation of held feature maps breaks off only in this case as well. -/
lemma concat_safe {ms : List FeatureMap} (held : ∀ m ∈ ms, m.Held) :
    (concat ms).SafeUnless (ConcatFits ms ∧ Size.bound ≤ channelSum ms) Held := by
  refine SafeUnless.of_ends ((concat_ends ms).mono ?_ fun _ h => h)
    (concat_faultsOnlyIf fun m hm => (held m hm).stored).of_fault
  rintro r ⟨first, rest, rfl, -, shaped, stored⟩
  exact (held first (List.mem_cons_self ..)).of_shaped shaped stored

lemma concat_eq_fault {ms : List FeatureMap} (fits : ConcatFits ms)
    (large : Size.bound ≤ channelSum ms) : concat ms = .fault := by
  cases ms with
  | nil => exact absurd rfl fits.some
  | cons first rest =>
    have same := all_sides_iff.2 (concatFits_iff.1 fits)
    have broken : (Size.sum ((first :: rest).map (·.hwc.channels)) : KernelOutcome Nat)
        = .fault := by
      rw [Size.sum, Size.foldlM_add_eq 0 (by decide), Nat.zero_add, ← channelSum_eq,
        Size.checked_eq_fault_iff]
      exact large
    simp only [concat, same, Outcome.require_true, Outcome.value_bind, broken, Outcome.fault_bind]

/-! ### Resizing -/

end FeatureMap

/-- The last product that a resize with aligned corners forms along an axis is no size. -/
def Sampling.Overshoots (s : Sampling) (outLen inLen : Nat) : Prop :=
  s.alignCorners = true ∧ Size.bound ≤ (outLen - 1) * (inLen - 1)

section Taps

variable {outLen inLen dst : Nat} {s : Sampling}

lemma sourceOf_safe (full : inLen ≠ 0) (near : ¬ s.Overshoots outLen inLen)
    (inside : dst < outLen) : FaultsOnlyIf B (sourceOf outLen inLen s dst : Outcome ε Float32) := by
  unfold sourceOf
  split
  · rename_i aligned
    split
    · have before : dst * (inLen - 1) ≤ (outLen - 1) * (inLen - 1) :=
        Nat.mul_le_mul_right _ (Nat.le_sub_one_of_lt inside)
      have last : (outLen - 1) * (inLen - 1) < Size.bound :=
        Nat.lt_of_not_le fun far => near ⟨aligned, far⟩
      refine (Size.sub_safe (Nat.one_le_iff_ne_zero.2 full)).bind ?_
      rintro _ rfl
      exact (Size.mul_safe (lt_of_le_of_lt before last)).bind fun _ _ => trivial
    · trivial
  · dsimp only
    split <;> trivial

lemma tapsOf_safe (full : inLen ≠ 0) (near : ¬ s.Overshoots outLen inLen) (inside : dst < outLen) :
    (tapsOf outLen inLen s dst : Outcome ε Taps).SafeUnless B
      (fun t => t.lower < inLen ∧ t.upper < inLen) := by
  refine (sourceOf_safe full near inside).bind fun src _ => ?_
  refine (Size.sub_safe (Nat.one_le_iff_ne_zero.2 full)).bind ?_
  rintro _ rfl
  constructor <;> dsimp only <;> omega

/-- The taps of every output position are inside the input. -/
lemma mapM_tapsOf_safe (full : inLen ≠ 0) (near : ¬ s.Overshoots outLen inLen) :
    ((List.range outLen).mapM (tapsOf outLen inLen s) : Outcome ε (List Taps)).SafeUnless B
      (fun ts => ∀ i < outLen, ∃ t, ts.toArray[i]? = some t ∧ t.lower < inLen ∧
        t.upper < inLen) := by
  refine (SafeUnless.mapM fun dst hdst =>
    tapsOf_safe full near (List.mem_range.1 hdst)).mono id fun ts each i hi => ?_
  have length : ts.length = outLen := by rw [← each.length_eq, List.length_range]
  have there : i < ts.length := length ▸ hi
  refine ⟨ts[i], by simp [there], ?_⟩
  obtain ⟨dst, -, inside⟩ := exists_mem_of_forall₂ each.flip (List.getElem_mem there)
  exact inside

/-- The taps of the last output position are not computed if the last product is no size. -/
lemma mapM_tapsOf_eq_fault (full : inLen ≠ 0) (far : s.Overshoots outLen inLen) :
    ((List.range outLen).mapM (tapsOf outLen inLen s) : KernelOutcome (List Taps)) = .fault := by
  obtain ⟨aligned, large⟩ := far
  have several : 1 < outLen := by
    by_contra few
    rw [Nat.sub_eq_zero_of_le (Nat.le_of_not_lt few), Nat.zero_mul] at large
    exact absurd large (by decide)
  have broken : (Size.mul (outLen - 1) (inLen - 1) : KernelOutcome Nat) = .fault :=
    Size.checked_eq_fault_iff.2 large
  refine (Outcome.mapM_eq_fault_iff fun dst _ e refused => ?_).2
    ⟨outLen - 1, List.mem_range.2 (by omega), ?_⟩
  · exact (FeatureMap.neverRefuses_tapsOf (P := fun _ => False) outLen inLen s dst).of_error refused
  · rw [tapsOf, sourceOf, if_pos aligned, if_pos several, Size.sub,
      if_pos (Nat.one_le_iff_ne_zero.2 full), Outcome.value_bind, broken, Outcome.fault_bind,
      Outcome.fault_bind]

end Taps

namespace FeatureMap

variable {m r : FeatureMap}

/-- A resize that is not refused comes to a product that is no size. -/
structure ResizeOvershoots (m : FeatureMap) (size : Nat × Nat) (s : Sampling) : Prop where
  /-- The target and the way to place pixel centres are in order. -/
  fits : ResizeFits size s
  /-- The result can be stored. -/
  room : reserve m.batch ⟨size.1, size.2, m.hwc.channels⟩ = .value ()
  /-- The product is formed for the rows or for the columns. -/
  far : s.Overshoots size.1 m.hwc.height ∨ s.Overshoots size.2 m.hwc.width

/-- A resize breaks off only if a product that it forms is no size. -/
lemma resizeBilinear_faultsOnlyIf (stored : m.Stored) (height : m.hwc.height ≠ 0)
    (width : m.hwc.width ≠ 0) (size : Nat × Nat) (s : Sampling) :
    FaultsOnlyIf (m.ResizeOvershoots size s) (m.resizeBilinear size s) := by
  refine (SafeUnless.require _ _).bind fun _ proper => ?_
  refine (SafeUnless.require _ _).bind fun _ modes => ?_
  refine (reserve_safe _ _).with_value.bind fun _ room => ?_
  -- either a tap overshoots, or both axes have all their taps inside
  by_cases far : s.Overshoots size.1 m.hwc.height ∨ s.Overshoots size.2 m.hwc.width
  · have sides : size.1 ≠ 0 ∧ size.2 ≠ 0 := by simpa using proper
    have fits : ResizeFits size s :=
      ⟨sides.1, sides.2, by simpa only [Bool.not_eq_true'] using modes⟩
    exact FaultsOnlyIf.of_holds ⟨fits, room.1, far⟩ _
  obtain ⟨rows, columns⟩ := not_or.1 far
  refine (mapM_tapsOf_safe height rows).bind fun ys down => ?_
  refine (mapM_tapsOf_safe width columns).bind fun xs across => ?_
  refine tabulate_safe _ _ fun n y x c hn hy hx hc => ?_
  obtain ⟨ty, foundRow, above, below⟩ := down y hy
  obtain ⟨tx, foundColumn, left, right⟩ := across x hx
  refine (SafeUnless.orFault foundRow).bind ?_
  rintro _ rfl
  refine (SafeUnless.orFault foundColumn).bind ?_
  rintro _ rfl
  refine (at_safe stored hn above left hc).bind fun _ _ => ?_
  refine (at_safe stored hn above right hc).bind fun _ _ => ?_
  refine (at_safe stored hn below left hc).bind fun _ _ => ?_
  exact (at_safe stored hn below right hc).bind fun _ _ => trivial

/-- A resize that comes to a product that is no size does break off. -/
lemma resizeBilinear_eq_fault (height : m.hwc.height ≠ 0) (width : m.hwc.width ≠ 0)
    {size : Nat × Nat} {s : Sampling} (h : m.ResizeOvershoots size s) :
    m.resizeBilinear size s = .fault := by
  have proper : (size.1 ≠ 0 && size.2 ≠ 0) = true := by simp [h.fits.height, h.fits.width]
  have modes : (!(s.alignCorners && s.halfPixelCenters)) = true := by simp [h.fits.mode]
  simp only [resizeBilinear, proper, modes, h.room, Outcome.require_true, Outcome.value_bind]
  rcases h.far with rows | columns
  · rw [mapM_tapsOf_eq_fault height rows, Outcome.fault_bind]
  · refine Outcome.bind_eq_fault (fun e refused => ?_) fun ys => by
      rw [mapM_tapsOf_eq_fault width columns, Outcome.fault_bind]
    exact (Outcome.Ends.mapM (P := fun _ => False) fun _ _ =>
      neverRefuses_tapsOf _ _ _ _).of_error refused

/-- A resize that has a value was given a target and one way to place pixel centres. -/
lemma resizeFits_of_value {size : Nat × Nat} {s : Sampling}
    (h : m.resizeBilinear size s = .value r) : ResizeFits size s := by
  simp only [resizeBilinear, Outcome.bind_eq_value_iff, Outcome.require_eq_value_iff] at h
  obtain ⟨_, proper, _, modes, -⟩ := h
  have sides : size.1 ≠ 0 ∧ size.2 ≠ 0 := by simpa using proper
  exact ⟨sides.1, sides.2, by simpa only [Bool.not_eq_true'] using modes⟩

/-- A resize of a held feature map does not break off. -/
lemma resizeBilinear_safe (held : m.Held) {size : Nat × Nat} (rows : size.1 < 0x100000000)
    (columns : size.2 < 0x100000000) (s : Sampling) :
    (m.resizeBilinear size s).SafeUnless B Held := by
  -- a product of two sides of four bytes is in range
  have near {outLen inLen : Nat} (narrow : outLen < 0x100000000) (small : inLen < 0x100000000) :
      ¬ s.Overshoots outLen inLen := by
    rintro ⟨-, large⟩
    have product : (outLen - 1) * (inLen - 1) ≤ 0xffffffff * 0xffffffff :=
      Nat.mul_le_mul (by omega) (by omega)
    exact absurd (le_trans large product) (by decide)
  cases result : m.resizeBilinear size s with
  | value r =>
    obtain ⟨shaped, stored⟩ := (resizeBilinear_ends m size s).of_value result
    obtain ⟨height, width, -⟩ := resizeFits_of_value result
    refine ⟨stored, ?_, ?_, ?_, ?_⟩ <;> rw [shaped.hwc]
    · exact height
    · exact width
    · exact rows
    · exact columns
  | error e => trivial
  | fault =>
    have whole := resizeBilinear_faultsOnlyIf held.stored held.height held.width size s
    rcases (whole.of_fault result).far with far | far
    · exact absurd far (near rows held.narrow.rows)
    · exact absurd far (near columns held.narrow.columns)

/-! ### Tensors -/

/-- A feature map of images that are not empty is held in memory. -/
structure Present (m : FeatureMap) : Prop where
  /-- It is stored. -/
  stored : m.Stored
  /-- There is an image. -/
  images : m.batch ≠ 0
  /-- The images are not empty. -/
  full : m.hwc.Full

/-- A stored feature map with an element has images that are not empty. -/
lemma Stored.present (h : m.Stored) (some : m.data.size ≠ 0) : m.Present := by
  have count := h.products.2.2.1
  rw [← count, Nat.mul_ne_zero_iff, Nat.mul_ne_zero_iff, Nat.mul_ne_zero_iff] at some
  obtain ⟨⟨⟨images, height⟩, width⟩, channels⟩ := some
  exact ⟨h, images, height, width, channels⟩

/-- A well-sized tensor holds an element, so the feature map of it is not empty. -/
lemma ofTensor_safe {t : Tensor} (sized : t.WellSized) :
    (ofTensor t).SafeUnless B Present := by
  unfold ofTensor
  split
  · rename_i n h w c shape
    refine (SafeUnless.ofExcept t.singles).mapError.bind fun xs singles => ?_
    obtain ⟨_, f32, read⟩ := except_bind_eq_ok_iff.1 singles
    obtain rfl := Except.ok.inj read
    have dtype : t.dtype = .f32 := by
      by_contra other
      rw [Tensor.expect, if_neg other] at f32
      cases f32
    rw [Tensor.WellSized, dtype, Shape.byteCount?, Option.bind_eq_some_iff] at sized
    obtain ⟨count, counted, bytes⟩ := sized
    obtain ⟨small, length⟩ := Size.mul?_eq_some_iff.1 bytes
    rw [show DType.f32.width = 4 from rfl] at small length
    -- a shape without elements still counts one, so the tensor is not empty
    have one : 1 ≤ count := by
      rw [Shape.count?, Option.map_eq_some_iff] at counted
      obtain ⟨volume, -, rfl⟩ := counted
      exact le_max_right _ _
    have size : ((t.bytes.words.map Binary32.mk).map Binary32.value).toArray.size = count := by
      simp only [List.size_toArray, List.length_map, Bytes.length_words]
      omega
    refine SafeUnless.of_ends ((make_ends _ _ _).mono ?_ fun _ h => h)
      (make_safe (B := B) ..).of_fault
    rintro m ⟨rfl, whole⟩
    have stored : Stored ⟨n, ⟨h, w, c⟩,
        ((t.bytes.words.map Binary32.mk).map Binary32.value).toArray⟩ :=
      ⟨whole, by rw [size]; omega⟩
    refine stored.present ?_
    rw [size]
    omega
  · trivial

lemma toTensor_safe (m : FeatureMap) : FaultsOnlyIf B m.toTensor :=
  (SafeUnless.ofExcept _).mapError.mono id fun _ _ => trivial

end FeatureMap

end FlatNet
