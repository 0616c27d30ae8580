import FlatNet.Feature.Pointwise
import FlatNet.Feature.Resize
import FlatNet.Feature.Window
import FlatNet.Proofs.Layer.Window
import FlatNet.Proofs.Tensor.Basic

/-!
Shapes and refusals of operations on feature maps.

For every operation one lemma says how it ends: a value has the shape that the operands ask
for, and a refusal is either for want of memory or because the operands do not fit.  The
elements themselves never refuse; their arithmetic can only break off.

* `KernelError.IsMemory`: refusals for want of memory;
* `FeatureMap.Shaped`, `FeatureMap.Stored`: the shape of a feature map, and that it is held in
  memory;
* `tabulate_ends`: how a table of elements ends;
* `conv2d_ends`, `depthwiseConv2d_ends`, `maxPool2d_ends`, `batchNorm_ends`, `add_ends`,
  `concat_ends`, `resizeBilinear_ends`: how the operations end;
* `convFits_of_value`, `depthwiseFits_of_value`, `normSizes_of_value`: what the parameters are if
  there is a value;
* `ofTensor_eq_value`, `toTensor_eq_value`: well-sized tensors and stored feature maps.
-/

namespace FlatNet

open Outcome (Ends)

/-- A refusal for want of memory. -/
def KernelError.IsMemory : KernelError → Prop
  | tooLarge .. | allocation .. => True
  | _ => False

/-- A refusal for want of memory, or because something does not fit. -/
def KernelError.Excused (fits : Prop) (e : KernelError) : Prop := e.IsMemory ∨ ¬ fits

/-! ### Elements -/

section Elements

variable {ε : Type} {P : ε → Prop}

/-- A value, or the end of the arithmetic, but no refusal. -/
abbrev NeverRefuses {α : Type} (x : Outcome ε α) (P : ε → Prop) : Prop := x.Ends (fun _ => True) P

lemma neverRefuses_add (a b : Nat) : NeverRefuses (Size.add a b) P :=
  (Size.add_ends a b).mono (fun _ _ => trivial) fun _ h => h

lemma neverRefuses_mul (a b : Nat) : NeverRefuses (Size.mul a b) P :=
  (Size.mul_ends a b).mono (fun _ _ => trivial) fun _ h => h

lemma neverRefuses_orFault {α : Type} (o : Option α) : NeverRefuses (Outcome.orFault o) P :=
  (Ends.orFault o).mono (fun _ _ => trivial) fun _ h => h

lemma part_ends {α : Type} (xs : Array α) (start count : Nat) :
    (FeatureMap.part xs start count : Outcome ε (Array α)).Ends (fun ys => ys.size = count) P := by
  unfold FeatureMap.part
  split
  · rename_i inside
    change (xs.extract start (start + count)).size = count
    rw [Array.size_extract]
    omega
  · trivial

lemma neverRefuses_index (m : FeatureMap) (n y x c : Nat) : NeverRefuses (m.index n y x c) P := by
  refine (neverRefuses_mul _ _).bind fun rows _ => ?_
  refine (neverRefuses_add _ _).bind fun row _ => ?_
  refine (neverRefuses_mul _ _).bind fun pixels _ => ?_
  refine (neverRefuses_add _ _).bind fun pixel _ => ?_
  exact (neverRefuses_mul _ _).bind fun place _ => neverRefuses_add _ _

lemma neverRefuses_at (m : FeatureMap) (n y x c : Nat) : NeverRefuses (m.at n y x c) P :=
  (neverRefuses_index m n y x c).bind fun _ _ => neverRefuses_orFault _

lemma neverRefuses_pixel (m : FeatureMap) (n y x : Nat) : NeverRefuses (m.pixel n y x) P :=
  (neverRefuses_index m n y x 0).bind fun _ _ =>
    (part_ends _ _ _).mono (fun _ _ => trivial) fun _ h => h

lemma neverRefuses_addBias (acc : Float32) (bias : Option (Array Float32)) (c : Nat) :
    NeverRefuses (addBias acc bias c) P := by
  cases bias with
  | none => trivial
  | some b => exact (neverRefuses_orFault _).bind fun _ _ => trivial

lemma neverRefuses_source (out k stride pad len : Nat) :
    NeverRefuses (Window.source out k stride pad len) P := by
  refine (neverRefuses_mul _ _).bind fun start _ => ?_
  refine (neverRefuses_add _ _).bind fun reach _ => ?_
  split <;> trivial

/-- A fold over a window refuses only if one of its steps does. -/
lemma neverRefuses_foldM {α : Type} (w : Window) (input : Hwc) (pad : Nat × Nat) (oy ox : Nat)
    (start : α) {step : α → Nat × Nat → Nat × Nat → Outcome ε α}
    (h : ∀ a k i, NeverRefuses (step a k i) P) :
    NeverRefuses (w.foldM input pad oy ox start step) P := by
  refine Ends.foldlM trivial fun acc ky _ _ => ?_
  refine (neverRefuses_source _ _ _ _ _).bind fun row _ => ?_
  cases row with
  | none => trivial
  | some iy =>
    refine Ends.foldlM trivial fun acc kx _ _ => ?_
    refine (neverRefuses_source _ _ _ _ _).bind fun column _ => ?_
    cases column with
    | none => trivial
    | some ix => exact h acc (ky, kx) (iy, ix)

end Elements

/-! ### Storage -/

lemma elementCount?_eq {batch : Nat} {hwc : Hwc} {n : Nat} (h : elementCount? batch hwc = some n) :
    batch * hwc.height * hwc.width * hwc.channels = n :=
  Size.foldl_mul_of_product? h

/-- Room is refused only for want of memory. -/
lemma reserve_ends (batch : Nat) (hwc : Hwc) :
    (reserve batch hwc).Ends
      (fun _ => ∃ n, elementCount? batch hwc = some n ∧ 4 * n < Size.bound)
      KernelError.IsMemory := by
  unfold reserve
  split
  · trivial
  · rename_i n count
    split
    · rename_i fits
      refine ⟨n, count, lt_of_le_of_lt fits ?_⟩
      decide
    · trivial

namespace FeatureMap

/-- A feature map has a batch size and a shape. -/
structure Shaped (m : FeatureMap) (batch : Nat) (hwc : Hwc) : Prop where
  /-- The number of images. -/
  batch : m.batch = batch
  /-- The shape of each. -/
  hwc : m.hwc = hwc

/-- A feature map is held in memory: it has the elements of its shape, and the bytes of them
are a size. -/
structure Stored (m : FeatureMap) : Prop where
  /-- It has the elements of its shape. -/
  sized : m.WellSized
  /-- Its bytes are a size. -/
  small : 4 * m.data.size < Size.bound

lemma make_ends (batch : Nat) (hwc : Hwc) (data : Array Float32) :
    (make batch hwc data).Ends
      (fun r => r = ⟨batch, hwc, data⟩ ∧ elementCount? batch hwc = some data.size)
      (fun _ => elementCount? batch hwc ≠ some data.size) := by
  unfold make
  split
  · rename_i same
    exact ⟨rfl, same⟩
  · rename_i other
    exact other

/-- A table of elements has its shape; it is refused for want of memory, or when one of its
elements is. -/
lemma tabulate_ends {P : KernelError → Prop} (batch : Nat) (hwc : Hwc)
    {f : Nat → Nat → Nat → Nat → KernelOutcome Float32} (memory : ∀ e, e.IsMemory → P e)
    (element : ∀ n y x c, NeverRefuses (f n y x c) P) :
    (tabulate batch hwc f).Ends (fun r => r.Shaped batch hwc ∧ r.Stored) P := by
  refine ((reserve_ends batch hwc).mono (fun _ h => h) memory).bind ?_
  rintro - ⟨n, count, small⟩
  refine (Ends.mapM (Q := fun _ _ => True) fun i _ => element _ _ _ _).bind fun xs pointwise => ?_
  have length : xs.toArray.size = n := by
    rw [List.size_toArray, ← pointwise.length_eq, List.length_range, elementCount?_eq count]
  refine (make_ends batch hwc xs.toArray).mono ?_ fun e refused => ?_
  · rintro r ⟨rfl, sized⟩
    exact ⟨⟨rfl, rfl⟩, sized, by rw [length]; exact small⟩
  · exact absurd (count.trans (congrArg some length.symm)) refused

/-! ### Windows -/

/-- The filter and the bias of a convolution have the right lengths, and its window makes
something of the image. -/
structure ConvFits (m : FeatureMap) (filter : Array Float32) (outChannels : Nat)
    (bias : Option (Array Float32)) (w : Window) : Prop where
  /-- The length of the filter. -/
  filter : filter.size = outChannels * w.kernel.1 * w.kernel.2 * m.hwc.channels
  /-- The length of the bias. -/
  bias : ∀ b, bias = some b → b.size = outChannels
  /-- The window. -/
  window : ∃ h v, w.Makes m.hwc h v

/-- A convolution has the size that its window makes, and a channel for each filter. -/
lemma conv2d_ends (m : FeatureMap) (filter : Array Float32) (outChannels : Nat)
    (bias : Option (Array Float32)) (w : Window) (a : Activation) :
    (m.conv2d filter outChannels bias w a).Ends
      (fun r => ∃ h v, w.Makes m.hwc h v ∧ r.Shaped m.batch ⟨h, v, outChannels⟩ ∧ r.Stored)
      (KernelError.Excused (m.ConvFits filter outChannels bias w)) := by
  refine (Size.product_ends _).bind fun expected exact => ?_
  refine (Ends.require fun bad => ?_).bind fun _ _ => ?_
  · refine .inr fun fits => ?_
    simp [exact, fits.filter] at bad
  refine (Ends.require fun bad => ?_).bind fun _ _ => ?_
  · refine .inr fun fits => ?_
    rw [Option.all_eq_false] at bad
    obtain ⟨b, hb, other⟩ := bad
    simp [fits.bias b hb] at other
  refine ((w.place_ends m.hwc outChannels).mono (fun _ h => h) fun _ none =>
    .inr fun fits => none fits.window).bind ?_
  rintro ⟨hwc, pad⟩ ⟨h, v, made, rfl⟩
  -- the loops refuse nothing: what goes wrong there breaks off
  refine (tabulate_ends m.batch _ (fun _ => .inl) fun n oy ox oc => ?_).mono
    (fun r kept => ⟨h, v, made, kept⟩) fun _ h => h
  refine (neverRefuses_foldM _ _ _ _ _ _ fun acc k i => ?_).bind fun sum _ => ?_
  · refine (neverRefuses_mul _ _).bind fun rows _ => ?_
    refine (neverRefuses_add _ _).bind fun row _ => ?_
    refine (neverRefuses_mul _ _).bind fun columns _ => ?_
    refine (neverRefuses_add _ _).bind fun column _ => ?_
    refine (neverRefuses_mul _ _).bind fun place _ => ?_
    refine (part_ends _ _ _).bind fun weights _ => ?_
    exact (neverRefuses_pixel _ _ _ _).bind fun _ _ => trivial
  · exact (neverRefuses_addBias _ _ _).bind fun _ _ => trivial

/-- The filter and the bias of a convolution per channel have the right lengths, and its
window makes something of the image. -/
structure DepthwiseFits (m : FeatureMap) (filter : Array Float32) (bias : Option (Array Float32))
    (w : Window) : Prop where
  /-- The length of the filter. -/
  filter : filter.size = w.kernel.1 * w.kernel.2 * m.hwc.channels
  /-- The length of the bias. -/
  bias : ∀ b, bias = some b → b.size = m.hwc.channels
  /-- The window. -/
  window : ∃ h v, w.Makes m.hwc h v

/-- A convolution per channel has the size that its window makes, and keeps the channels. -/
lemma depthwiseConv2d_ends (m : FeatureMap) (filter : Array Float32)
    (bias : Option (Array Float32)) (w : Window) (a : Activation) :
    (m.depthwiseConv2d filter bias w a).Ends
      (fun r => ∃ h v, w.Makes m.hwc h v ∧ r.Shaped m.batch ⟨h, v, m.hwc.channels⟩ ∧ r.Stored)
      (KernelError.Excused (m.DepthwiseFits filter bias w)) := by
  refine (Size.product_ends _).bind fun expected exact => ?_
  refine (Ends.require fun bad => ?_).bind fun _ _ => ?_
  · refine .inr fun fits => ?_
    simp [exact, fits.filter] at bad
  refine (Ends.require fun bad => ?_).bind fun _ _ => ?_
  · refine .inr fun fits => ?_
    rw [Option.all_eq_false] at bad
    obtain ⟨b, hb, other⟩ := bad
    simp [fits.bias b hb] at other
  refine ((w.place_ends m.hwc m.hwc.channels).mono (fun _ h => h) fun _ none =>
    .inr fun fits => none fits.window).bind ?_
  rintro ⟨hwc, pad⟩ ⟨h, v, made, rfl⟩
  refine (tabulate_ends m.batch _ (fun _ => .inl) fun n oy ox c => ?_).mono
    (fun r kept => ⟨h, v, made, kept⟩) fun _ h => h
  refine (neverRefuses_foldM _ _ _ _ _ _ fun acc k i => ?_).bind fun sum _ => ?_
  · refine (neverRefuses_mul _ _).bind fun rows _ => ?_
    refine (neverRefuses_add _ _).bind fun row _ => ?_
    refine (neverRefuses_mul _ _).bind fun place _ => ?_
    refine (neverRefuses_add _ _).bind fun place _ => ?_
    refine (neverRefuses_orFault _).bind fun weight _ => ?_
    exact (neverRefuses_at _ _ _ _ _).bind fun _ _ => trivial
  · exact (neverRefuses_addBias _ _ _).bind fun _ _ => trivial

/-- A maximum has the size that its window makes, and keeps the channels. -/
lemma maxPool2d_ends (m : FeatureMap) (w : Window) :
    (m.maxPool2d w).Ends
      (fun r => ∃ h v, w.Makes m.hwc h v ∧ r.Shaped m.batch ⟨h, v, m.hwc.channels⟩ ∧ r.Stored)
      (KernelError.Excused (∃ h v, w.Makes m.hwc h v)) := by
  refine ((w.place_ends m.hwc m.hwc.channels).mono (fun _ h => h) fun _ none => .inr none).bind ?_
  rintro ⟨hwc, pad⟩ ⟨h, v, made, rfl⟩
  refine (tabulate_ends m.batch _ (fun _ => .inl) fun n oy ox c => ?_).mono
    (fun r kept => ⟨h, v, made, kept⟩) fun _ h => h
  refine neverRefuses_foldM _ _ _ _ _ _ fun best k i => ?_
  exact (neverRefuses_at _ _ _ _ _).bind fun _ _ => trivial

/-! ### Positions kept -/

lemma Stored.of_size {m r : FeatureMap} (h : m.Stored) (same : r.Shaped m.batch m.hwc)
    (size : r.data.size = m.data.size) : r.Stored := by
  refine ⟨?_, by rw [size]; exact h.small⟩
  rw [WellSized, same.batch, same.hwc, size]
  exact h.sized

lemma shaped_activate (m : FeatureMap) (a : Activation) : (m.activate a).Shaped m.batch m.hwc :=
  ⟨rfl, rfl⟩

lemma Stored.activate {m : FeatureMap} (h : m.Stored) (a : Activation) : (m.activate a).Stored :=
  h.of_size (m.shaped_activate a) Array.size_map

/-- The operands of a sum have one shape, and the elements of it. -/
structure AddFits (lhs rhs : FeatureMap) : Prop where
  /-- The right operand has the shape of the left one. -/
  shaped : rhs.Shaped lhs.batch lhs.hwc
  /-- The left operand has its elements. -/
  lhs : lhs.WellSized
  /-- So has the right one. -/
  rhs : rhs.WellSized

/-- A sum has the shape of its operands. -/
lemma add_ends (lhs rhs : FeatureMap) (a : Activation) :
    (lhs.add rhs a).Ends
      (fun r => rhs.Shaped lhs.batch lhs.hwc ∧ r.Shaped lhs.batch lhs.hwc ∧
        (lhs.Stored → r.Stored))
      (KernelError.Excused (lhs.AddFits rhs)) := by
  refine (Ends.require fun bad => ?_).bind fun _ same => ?_
  · refine .inr fun fits => ?_
    simp [fits.shaped.batch, fits.shaped.hwc] at bad
  rw [Bool.and_eq_true, decide_eq_true_eq, decide_eq_true_eq] at same
  refine (make_ends _ _ _).mono ?_ fun e refused => .inr fun fits => refused ?_
  · rintro r ⟨rfl, sized⟩
    refine ⟨⟨same.1.symm, same.2.symm⟩, ⟨rfl, rfl⟩, fun stored => ?_⟩
    have size := Option.some.inj (sized.symm.trans stored.sized)
    exact stored.of_size ⟨rfl, rfl⟩ size
  · have sizes : lhs.data.size = rhs.data.size := by
      have right := fits.rhs
      rw [WellSized, fits.shaped.batch, fits.shaped.hwc] at right
      exact Option.some.inj (fits.lhs.symm.trans right)
    rw [Array.size_zipWith, ← sizes, Nat.min_self]
    exact fits.lhs

/-- Every parameter of a normalisation has one number for each channel. -/
structure NormFits (m : FeatureMap) (p : Norm) : Prop where
  /-- The factors. -/
  gamma : p.gamma.size = m.hwc.channels
  /-- The summands. -/
  beta : p.beta.size = m.hwc.channels
  /-- The means. -/
  mean : p.mean.size = m.hwc.channels
  /-- The variances. -/
  variance : p.variance.size = m.hwc.channels
  /-- The feature map has its elements. -/
  sized : m.WellSized

lemma normCheck_ends {P : KernelError → Prop} {name : String} {values : Array Float32}
    {channels : Nat} (h : values.size ≠ channels → ∀ e, P e) :
    NeverRefuses (Norm.check name values channels) P := by
  refine (Ends.require fun bad => h ?_ _).mono (fun _ _ => trivial) fun _ h => h
  simpa using bad

/-- A normalisation keeps the shape. -/
lemma batchNorm_ends (m : FeatureMap) (p : Norm) (epsilon : Float32) :
    (m.batchNorm p epsilon).Ends
      (fun r => r.Shaped m.batch m.hwc ∧ (m.Stored → r.Stored))
      (KernelError.Excused (m.NormFits p)) := by
  refine (normCheck_ends fun bad _ => .inr fun fits => bad fits.gamma).bind fun _ _ => ?_
  refine (normCheck_ends fun bad _ => .inr fun fits => bad fits.beta).bind fun _ _ => ?_
  refine (normCheck_ends fun bad _ => .inr fun fits => bad fits.mean).bind fun _ _ => ?_
  refine (normCheck_ends fun bad _ => .inr fun fits => bad fits.variance).bind fun _ _ => ?_
  refine (Ends.mapM (Q := fun _ _ => True) fun c _ => ?_).bind fun scales _ => ?_
  · refine (neverRefuses_orFault _).bind fun gamma _ => ?_
    exact (neverRefuses_orFault _).bind fun _ _ => trivial
  refine (Ends.mapM (Q := fun _ _ => True) fun x _ => ?_).bind fun data pointwise => ?_
  · refine (neverRefuses_orFault _).bind fun mean _ => ?_
    refine (neverRefuses_orFault _).bind fun scale _ => ?_
    exact (neverRefuses_orFault _).bind fun _ _ => trivial
  have size : data.toArray.size = m.data.size := by
    rw [List.size_toArray, ← pointwise.length_eq, List.length_zipIdx, Array.length_toList]
  refine (make_ends _ _ _).mono ?_ fun e refused => .inr fun fits => refused ?_
  · rintro r ⟨rfl, -⟩
    exact ⟨⟨rfl, rfl⟩, fun stored => stored.of_size ⟨rfl, rfl⟩ size⟩
  · rw [size]
    exact fits.sized

lemma size_foldl_append (start : Array Float32) (parts : List (Array Float32)) :
    (parts.foldl (· ++ ·) start).size
      = start.size + (parts.map (·.size)).foldl (· + ·) 0 := by
  induction parts generalizing start with
  | nil => rfl
  | cons part parts ih =>
    rw [List.foldl_cons, ih, Array.size_append, List.map_cons, List.foldl_cons, Nat.add_assoc,
      Size.foldl_add (0 + part.size), Nat.zero_add]

/-- Feature maps to be concatenated: there is one, and all have its batch size, height and
width. -/
structure ConcatFits (ms : List FeatureMap) : Prop where
  /-- There is one. -/
  some : ms ≠ []
  /-- They have one batch size. -/
  batch : ∀ m ∈ ms, ∀ m' ∈ ms, m.batch = m'.batch
  /-- They have one size. -/
  sides : ∀ m ∈ ms, ∀ m' ∈ ms, m.hwc.height = m'.hwc.height ∧ m.hwc.width = m'.hwc.width

/-- All are compared with the first one. -/
lemma all_sides_iff {first : FeatureMap} {ms : List FeatureMap} :
    (ms.all fun m => m.batch = first.batch && m.hwc.height = first.hwc.height
      && m.hwc.width = first.hwc.width) = true ↔
      ∀ m ∈ ms, m.batch = first.batch ∧ m.hwc.height = first.hwc.height ∧
        m.hwc.width = first.hwc.width := by
  simp only [List.all_eq_true, Bool.and_eq_true, decide_eq_true_eq, and_assoc]

/-- Feature maps fit together if they fit to the first one. -/
lemma concatFits_iff {first : FeatureMap} {rest : List FeatureMap} :
    ConcatFits (first :: rest) ↔ ∀ m ∈ first :: rest, m.batch = first.batch ∧
      m.hwc.height = first.hwc.height ∧ m.hwc.width = first.hwc.width := by
  constructor
  · exact fun fits m hm => ⟨fits.batch m hm first (List.mem_cons_self ..),
      fits.sides m hm first (List.mem_cons_self ..)⟩
  · intro same
    refine ⟨List.cons_ne_nil _ _, fun m hm m' hm' => ?_, fun m hm m' hm' => ?_⟩
    · exact (same m hm).1.trans (same m' hm').1.symm
    · exact ⟨(same m hm).2.1.trans (same m' hm').2.1.symm,
        (same m hm).2.2.trans (same m' hm').2.2.symm⟩

/-- The number of channels of feature maps side by side. -/
def channelSum (ms : List FeatureMap) : Nat := (ms.map (·.hwc.channels)).foldl (· + ·) 0

/-- Every pixel read off feature maps has the channels of each. -/
lemma rows_ends {ε : Type} {P : ε → Prop} (ms : List FeatureMap) (places : List Nat) :
    (places.mapM fun p => ms.mapM fun m => do
        part m.data (← Size.mul p m.hwc.channels) m.hwc.channels :
      Outcome ε (List (List (Array Float32)))).Ends
      (List.Forall₂ (fun _ row => List.Forall₂
        (fun (m : FeatureMap) (xs : Array Float32) => xs.size = m.hwc.channels) ms row) places)
      P :=
  Ends.mapM fun _ _ => Ends.mapM fun m _ =>
    (neverRefuses_mul _ _).bind fun start _ => part_ends m.data start m.hwc.channels

/-- The elements of a concatenation, pixel by pixel, are as many as its shape says. -/
lemma size_concat {ms : List FeatureMap} {pixels : Nat} {parts : List (List (Array Float32))}
    (h : List.Forall₂ (fun _ part => List.Forall₂
      (fun (m : FeatureMap) (xs : Array Float32) => xs.size = m.hwc.channels) ms part)
      (List.range pixels) parts) :
    (parts.flatten.foldl (· ++ ·) #[]).size = pixels * channelSum ms := by
  -- the parts of a pixel are as long together as the channels of all maps
  have each : ∀ part ∈ parts, (part.map (·.size)).foldl (· + ·) 0 = channelSum ms := by
    intro part hpart
    obtain ⟨i, hi, rfl⟩ := List.mem_iff_getElem.1 hpart
    have row := h.get (h.length_eq ▸ hi) hi
    have same : ms.map (·.hwc.channels) = (parts.get ⟨i, hi⟩).map (·.size) := by
      rw [← List.forall₂_eq_eq_eq, List.forall₂_map_left_iff, List.forall₂_map_right_iff]
      exact row.imp fun m xs size => size.symm
    rw [channelSum, same]
    rfl
  have length : parts.length = pixels := by
    rw [← h.length_eq, List.length_range]
  rw [← length, size_foldl_append, Array.size_empty, Nat.zero_add]
  clear h length
  induction parts with
  | nil => simp
  | cons part parts ih =>
    have first := each part (List.mem_cons_self ..)
    have later := ih fun part' h => each part' (List.mem_cons_of_mem part h)
    rw [List.flatten_cons, List.map_append, List.foldl_append, first, Size.foldl_add, later,
      List.length_cons, Nat.succ_mul, Nat.add_comm]

/-- A concatenation has the size of its parts, and their channels together. -/
lemma concat_ends (ms : List FeatureMap) :
    (concat ms).Ends
      (fun r => ∃ first rest, ms = first :: rest ∧
        (∀ m ∈ ms, m.batch = first.batch ∧ m.hwc.height = first.hwc.height ∧
          m.hwc.width = first.hwc.width) ∧
        r.Shaped first.batch ⟨first.hwc.height, first.hwc.width, channelSum ms⟩ ∧ r.Stored)
      (KernelError.Excused (ConcatFits ms)) := by
  cases ms with
  | nil => exact .inr fun fits => fits.some rfl
  | cons first rest =>
    refine (Ends.require fun bad => ?_).bind fun _ same => ?_
    · refine .inr fun fits => ?_
      rw [all_sides_iff.2 (concatFits_iff.1 fits)] at bad
      cases bad
    -- from here on only the allocation can be refused
    rw [all_sides_iff] at same
    refine (Size.sum_ends _).bind ?_
    rintro _ rfl
    refine (Size.mul_ends _ _).bind ?_
    rintro _ ⟨-, rfl⟩
    refine (Size.mul_ends _ _).bind ?_
    rintro _ ⟨-, rfl⟩
    refine ((reserve_ends _ _).mono (fun _ h => h) fun _ => .inl).bind ?_
    rintro - ⟨n, count, small⟩
    refine (rows_ends (first :: rest) _).bind fun parts pointwise => ?_
    have size : (parts.flatten.foldl (· ++ ·) #[]).size = n :=
      (size_concat pointwise).trans (elementCount?_eq count)
    refine (make_ends _ _ _).mono ?_ fun e refused => ?_
    · rintro r ⟨rfl, sized⟩
      exact ⟨first, rest, rfl, same, ⟨rfl, rfl⟩, sized, by rw [size]; exact small⟩
    · exact absurd (count.trans (congrArg some size.symm)) refused

/-! ### Resizing -/

lemma neverRefuses_tapsOf {P : KernelError → Prop} (outLen inLen : Nat) (s : Sampling) (dst : Nat) :
    NeverRefuses (tapsOf outLen inLen s dst) P := by
  refine (Ends.bind (Q := fun _ => True) ?_ fun src _ => ?_)
  · unfold sourceOf
    split
    · split
      · refine (Size.sub_ends _ _).bind fun last _ => ?_
        exact (Size.mul_ends _ _).bind fun _ _ => trivial
      · trivial
    · dsimp only
      split <;> trivial
  · exact (Size.sub_ends _ _).bind fun _ _ => trivial

/-- The target of a resize is not empty, and one way to place pixel centres is asked for. -/
structure ResizeFits (size : Nat × Nat) (s : Sampling) : Prop where
  /-- The target has a row. -/
  height : size.1 ≠ 0
  /-- It has a column. -/
  width : size.2 ≠ 0
  /-- Not both ways are asked for. -/
  mode : (s.alignCorners && s.halfPixelCenters) = false

/-- A resize has the target size, and keeps the channels. -/
lemma resizeBilinear_ends (m : FeatureMap) (size : Nat × Nat) (s : Sampling) :
    (m.resizeBilinear size s).Ends
      (fun r => r.Shaped m.batch ⟨size.1, size.2, m.hwc.channels⟩ ∧ r.Stored)
      (KernelError.Excused (ResizeFits size s)) := by
  refine (Ends.require fun bad => ?_).bind fun _ _ => ?_
  · refine .inr fun fits => ?_
    simp [fits.height, fits.width] at bad
  refine (Ends.require fun bad => ?_).bind fun _ _ => ?_
  · refine .inr fun fits => ?_
    simp [fits.mode] at bad
  refine ((reserve_ends _ _).mono (fun _ _ => trivial) fun _ => .inl).bind fun _ _ => ?_
  refine (Ends.mapM (Q := fun _ _ => True) fun _ _ => neverRefuses_tapsOf _ _ _ _).bind
    fun ys _ => ?_
  refine (Ends.mapM (Q := fun _ _ => True) fun _ _ => neverRefuses_tapsOf _ _ _ _).bind
    fun xs _ => ?_
  refine tabulate_ends m.batch _ (fun _ => .inl) fun n y x c => ?_
  refine (neverRefuses_orFault _).bind fun ty _ => ?_
  refine (neverRefuses_orFault _).bind fun tx _ => ?_
  refine (neverRefuses_at _ _ _ _ _).bind fun _ _ => ?_
  refine (neverRefuses_at _ _ _ _ _).bind fun _ _ => ?_
  refine (neverRefuses_at _ _ _ _ _).bind fun _ _ => ?_
  exact (neverRefuses_at _ _ _ _ _).bind fun _ _ => trivial

/-! ### Tensors -/

lemma zero_notMem_dims {batch : Nat} {hwc : Hwc} (images : batch ≠ 0) (full : hwc.Full) :
    0 ∉ [batch, hwc.height, hwc.width, hwc.channels] := by
  simp [images.symm, full.height.symm, full.width.symm, full.channels.symm]

/-- The number of elements of images that are not empty. -/
lemma elementCount?_eq_some_iff {batch : Nat} {hwc : Hwc} {n : Nat} (images : batch ≠ 0)
    (full : hwc.Full) :
    elementCount? batch hwc = some n ↔
      Shape.volume [batch, hwc.height, hwc.width, hwc.channels] < Size.bound ∧
        Shape.volume [batch, hwc.height, hwc.width, hwc.channels] = n := by
  have whole : Shape.volume [batch, hwc.height, hwc.width, hwc.channels]
      = [hwc.height, hwc.width, hwc.channels].foldl (· * ·) batch := by
    simp only [Shape.volume, List.foldl_cons, List.foldl_nil, Nat.one_mul]
  have sides : 0 ∉ [hwc.height, hwc.width, hwc.channels] :=
    fun h => zero_notMem_dims images full (List.mem_cons_of_mem batch h)
  rw [whole]
  constructor
  · intro h
    have exact := Size.foldl_mul_of_product? h
    have small : batch < Size.bound := by
      -- the first partial product is a size already
      rw [elementCount?, Size.product?, List.foldlM_cons, Option.bind_eq_bind,
        Option.bind_eq_some_iff] at h
      obtain ⟨_, first, -⟩ := h
      have rows : batch ≤ batch * hwc.height :=
        Nat.le_mul_of_pos_right _ (Nat.pos_of_ne_zero full.height)
      exact lt_of_le_of_lt rows (Size.mul?_eq_some_iff.1 first).1
    exact (Size.product?_eq_some_iff sides small).1 h
  · intro h
    have small : batch < Size.bound := lt_of_le_of_lt (Size.le_foldl_mul sides batch) h.1
    exact (Size.product?_eq_some_iff sides small).2 h

/-- A well-sized tensor of images that are not empty makes a stored feature map. -/
lemma ofTensor_eq_value {t : Tensor} {batch : Nat} {hwc : Hwc} (dtype : t.dtype = .f32)
    (shape : t.shape = [batch, hwc.height, hwc.width, hwc.channels]) (images : batch ≠ 0)
    (full : hwc.Full) (sized : t.WellSized) :
    ∃ m, ofTensor t = .value m ∧ m.Shaped batch hwc ∧ m.Stored := by
  have dims : 0 ∉ t.shape := shape ▸ zero_notMem_dims images full
  obtain ⟨xs, singles, length, small⟩ := Tensor.singles_of_wellSized dtype dims sized
  have size : (xs.map Binary32.value).toArray.size = xs.length := by simp
  have count : elementCount? batch hwc = some (xs.map Binary32.value).toArray.size := by
    rw [elementCount?_eq_some_iff images full, size, length, shape]
    rw [shape] at length
    exact ⟨by omega, rfl⟩
  refine ⟨⟨batch, hwc, (xs.map Binary32.value).toArray⟩, ?_, ⟨rfl, rfl⟩, count, ?_⟩
  · rw [ofTensor, shape]
    simp only [singles, Outcome.ofExcept_ok, Outcome.mapError_value, Outcome.value_bind]
    exact if_pos count
  · rw [size]
    exact small

lemma shape_of_toTensor {m : FeatureMap} {t : Tensor} (h : m.toTensor = .value t) :
    t.dtype = .f32 ∧ t.shape = [m.batch, m.hwc.height, m.hwc.width, m.hwc.channels] := by
  rw [toTensor, Outcome.mapError_eq_value_iff, Outcome.ofExcept_eq_value_iff, Tensor.ofSingles,
    Tensor.ofBytes_eq_ok_iff] at h
  obtain ⟨rfl, -⟩ := h
  exact ⟨rfl, rfl⟩

/-- A stored feature map of images that are not empty makes a tensor. -/
lemma toTensor_eq_value {m : FeatureMap} (images : m.batch ≠ 0) (full : m.hwc.Full)
    (stored : m.Stored) : ∃ t, m.toTensor = .value t := by
  have dims := zero_notMem_dims images full
  have count := (elementCount?_eq_some_iff images full).1 stored.sized
  have length : (m.data.toList.map Binary32.ofFloat).length = m.data.size := by simp
  have many : (m.data.toList.map Binary32.ofFloat).length
      = Shape.volume [m.batch, m.hwc.height, m.hwc.width, m.hwc.channels] := by
    rw [length, count.2]
  have made := Tensor.ofSingles_eq_ok dims many (by rw [length]; exact stored.small)
  exact ⟨⟨.f32, _, _⟩, by rw [toTensor, made]; rfl⟩

end FeatureMap

end FlatNet
