import FlatNet.Proofs.Feature.Safety
import FlatNet.Proofs.Graph.Shapes
import FlatNet.Proofs.Graph.WellFormed

/-!
Running layer graphs.

A prepared model runs on any tensors to an end, in outputs or in a refusal, with two exceptions.
Every value of a run is held in memory and has images that are not empty, so its sides are far
below all sizes; the parameters of convolutions are held in memory as well, and so are their
windows.  Planning has added up the channels of concatenations.  What nothing has compared with
anything are the sides of a pooling window and the target of a resize: with padding that extends
an axis the window may end beyond all sizes, and with aligned corners the product of a target
position and an input position may be no size.

* `FeatureMap.Present.conv2d_safe` and the like: operations on feature maps of a run;
* `GraphModel.Overflows`: a layer comes to such a window or product;
* `GraphModel.evalLayer_safe`, `GraphModel.evalLayer_eq_fault`: the evaluation of a layer breaks
  off exactly then;
* `GraphModel.infer_eq_fault_iff_overflows`: a run breaks off exactly if it comes to such a layer.
-/

namespace FlatNet

open Outcome (SafeUnless)

variable {B : Prop}

/-! ### Operations on feature maps of a run -/

/-- The elements of a filter for one channel are a size, if the filter can be held in memory. -/
lemma Shape.product?_of_light {s : Shape} {channels : Nat} (full : 0 ∉ s) (several : channels ≠ 0)
    (light : 4 * (s.volume * channels) < Size.bound) : Size.product? 1 s = some s.volume := by
  have part : s.volume ≤ s.volume * channels :=
    Nat.le_mul_of_pos_right _ (Nat.pos_of_ne_zero several)
  have small : s.volume < Size.bound := by omega
  exact (Size.product?_eq_some_iff full (by decide)).2 ⟨small, rfl⟩

namespace FeatureMap.Present

variable {m r : FeatureMap} {w : Window} {filter : Array Float32} {bias : Option (Array Float32)}
  {a : Activation}

/-- Each side of a feature map that is present is at most its length. -/
lemma sides_le (h : m.Present) : m.hwc.height ≤ m.data.size ∧ m.hwc.width ≤ m.data.size := by
  have dims := zero_notMem_dims h.images h.full
  rw [← ((elementCount?_eq_some_iff h.images h.full).1 h.stored.sized).2]
  exact ⟨Shape.le_volume dims (by simp), Shape.le_volume dims (by simp)⟩

lemma bounded (h : m.Present) : m.hwc.Bounded := by
  obtain ⟨rows, columns⟩ := h.sides_le
  have small := h.stored.small
  exact ⟨by omega, by omega⟩

/-- The window of a filter that can be held in memory does not end beyond all sizes. -/
lemma near (h : m.Present) {channels out : Nat}
    (dims : 0 ∉ [w.kernel.1, w.kernel.2, channels, out])
    (light : 4 * Shape.volume [w.kernel.1, w.kernel.2, channels, out] < Size.bound) :
    ¬ w.Overreaches m.hwc := by
  have rows := Shape.le_volume dims (d := w.kernel.1) (by simp)
  have columns := Shape.le_volume dims (d := w.kernel.2) (by simp)
  obtain ⟨height, width⟩ := h.sides_le
  have small := h.stored.small
  exact not_or.2 ⟨Padding.not_overreaches _ (by omega), Padding.not_overreaches _ (by omega)⟩

/-- What a window makes of a feature map that is present is present. -/
lemma of_makes (h : m.Present) {y x channels : Nat} (made : w.Makes m.hwc y x)
    (some : channels ≠ 0) (shaped : r.Shaped m.batch ⟨y, x, channels⟩) (stored : r.Stored) :
    r.Present := by
  obtain ⟨height, width⟩ := made.ne_zero h.full.height h.full.width
  exact ⟨stored, shaped.batch ▸ h.images, shaped.hwc ▸ ⟨height, width, some⟩⟩

lemma of_shaped (h : m.Present) (shaped : r.Shaped m.batch m.hwc) (stored : r.Stored) :
    r.Present :=
  ⟨stored, shaped.batch ▸ h.images, shaped.hwc ▸ h.full⟩

lemma activate (h : m.Present) (a : Activation) : (m.activate a).Present :=
  h.of_shaped (m.shaped_activate a) (h.stored.activate a)

/-- A convolution whose filter can be held in memory does not break off. -/
lemma conv2d_safe (h : m.Present) {out : Nat}
    (dims : 0 ∉ [w.kernel.1, w.kernel.2, m.hwc.channels, out])
    (light : 4 * Shape.volume [w.kernel.1, w.kernel.2, m.hwc.channels, out] < Size.bound) :
    (m.conv2d filter out bias w a).SafeUnless B Present := by
  -- the stored kernel holds as many numbers as the filter of the kernel function
  have whole : Shape.volume [w.kernel.1, w.kernel.2, m.hwc.channels, out]
      = Shape.volume [out, w.kernel.1, w.kernel.2] * m.hwc.channels := by
    simp only [Shape.volume, List.foldl_cons, List.foldl_nil]
    ring
  have near := h.near dims light
  rw [whole] at light
  simp only [List.mem_cons, List.not_mem_nil, or_false, not_or] at dims
  have front := Shape.product?_of_light (by simp [dims]) h.full.channels light
  refine SafeUnless.of_ends ((m.conv2d_ends filter out bias w a).mono ?_ fun _ h => h) fun broken =>
    ?_
  · rintro r ⟨y, x, made, shaped, stored⟩
    exact h.of_makes made (Ne.symm dims.2.2.2) shaped stored
  · have large := (conv2d_faultsOnlyIf h.stored h.bounded near front).of_fault broken
    omega

/-- A convolution per channel whose filter can be held in memory does not break off. -/
lemma depthwiseConv2d_safe (h : m.Present)
    (dims : 0 ∉ [w.kernel.1, w.kernel.2, m.hwc.channels, 1])
    (light : 4 * Shape.volume [w.kernel.1, w.kernel.2, m.hwc.channels, 1] < Size.bound) :
    (m.depthwiseConv2d filter bias w a).SafeUnless B Present := by
  have whole : Shape.volume [w.kernel.1, w.kernel.2, m.hwc.channels, 1]
      = Shape.volume [w.kernel.1, w.kernel.2] * m.hwc.channels := by
    simp only [Shape.volume, List.foldl_cons, List.foldl_nil]
    ring
  have near := h.near dims light
  rw [whole] at light
  simp only [List.mem_cons, List.not_mem_nil, or_false, not_or] at dims
  have front := Shape.product?_of_light (by simp [dims]) h.full.channels light
  refine SafeUnless.of_ends ((m.depthwiseConv2d_ends filter bias w a).mono ?_ fun _ h => h)
    fun broken => ?_
  · rintro r ⟨y, x, made, shaped, stored⟩
    exact h.of_makes made h.full.channels shaped stored
  · have large := (depthwiseConv2d_faultsOnlyIf h.stored h.bounded near front).of_fault broken
    omega

/-- A maximum breaks off only if its last window ends beyond all sizes. -/
lemma maxPool2d_safe (h : m.Present) :
    (m.maxPool2d w).SafeUnless (w.Overreaches m.hwc) Present := by
  refine SafeUnless.of_ends ((m.maxPool2d_ends w).mono ?_ fun _ h => h)
    (maxPool2d_faultsOnlyIf h.stored h.bounded).of_fault
  rintro r ⟨y, x, made, shaped, stored⟩
  exact h.of_makes made h.full.channels shaped stored

lemma batchNorm_safe (h : m.Present) (p : Norm) (epsilon : Float32) :
    (m.batchNorm p epsilon).SafeUnless B Present := by
  refine SafeUnless.of_ends ((m.batchNorm_ends p epsilon).mono ?_ fun _ h => h)
    (batchNorm_faultsOnlyIf h.stored p epsilon).of_fault
  rintro r ⟨shaped, stored⟩
  exact h.of_shaped shaped (stored h.stored)

lemma add_safe (h : m.Present) (rhs : FeatureMap) : (m.add rhs a).SafeUnless B Present := by
  refine SafeUnless.of_ends ((m.add_ends rhs a).mono ?_ fun _ h => h)
    (add_faultsOnlyIf m rhs).of_fault
  rintro r ⟨-, shaped, stored⟩
  exact h.of_shaped shaped (stored h.stored)

/-- A resize breaks off only if it comes to a product that is no size. -/
lemma resizeBilinear_safe (h : m.Present) (size : Nat × Nat) (s : Sampling) :
    (m.resizeBilinear size s).SafeUnless (m.ResizeOvershoots size s) Present := by
  have whole := resizeBilinear_faultsOnlyIf h.stored h.full.height h.full.width size s
  cases result : m.resizeBilinear size s with
  | value r =>
    obtain ⟨shaped, stored⟩ := (m.resizeBilinear_ends size s).of_value result
    obtain ⟨height, width, -⟩ := resizeFits_of_value result
    exact ⟨stored, shaped.batch ▸ h.images, shaped.hwc ▸ ⟨height, width, h.full.channels⟩⟩
  | error e => trivial
  | fault => exact whole.of_fault result

/-- A concatenation breaks off only if its channels are no size. -/
lemma concat_safe {ms : List FeatureMap} (h : ∀ m ∈ ms, m.Present) :
    (concat ms).SafeUnless (ConcatFits ms ∧ Size.bound ≤ channelSum ms) Present := by
  refine SafeUnless.of_ends ((concat_ends ms).mono ?_ fun _ h => h)
    (concat_faultsOnlyIf fun m hm => (h m hm).stored).of_fault
  rintro r ⟨first, rest, rfl, -, shaped, stored⟩
  have here := h first (List.mem_cons_self ..)
  have channels : channelSum (first :: rest) ≠ 0 := by
    rw [channelSum_eq, List.map_cons, List.sum_cons]
    exact Nat.ne_of_gt (Nat.add_pos_left (Nat.pos_of_ne_zero here.full.channels) _)
  exact ⟨stored, shaped.batch ▸ here.images,
    shaped.hwc ▸ ⟨here.full.height, here.full.width, channels⟩⟩

end FeatureMap.Present

namespace GraphModel

open FeatureMap (Present ConcatFits channelSum)

variable {g : GraphModel} {ops : CustomOps} {l : Layer}

/-- A sum of feature maps that are present does not break off. -/
lemma sum_safe {first second : FeatureMap} {rest : List FeatureMap} (h : first.Present) :
    (sum (first :: second :: rest)).SafeUnless B Present := by
  refine (h.add_safe second).mapError.bind fun acc kept => ?_
  exact (SafeUnless.foldlM kept fun acc rhs _ kept => kept.add_safe rhs).mapError

/-! ### Layers -/

/-- A layer comes to a number that is no size: the end of the last window of a maximum, or a
product of a resize. -/
def Overflows (g : GraphModel) (l : Layer) (args : List FeatureMap) : Prop :=
  ∃ m, args.head? = some m ∧
    match l.kind with
    | .maxPool2d pool strides padding =>
      (LayerKind.poolWindow pool strides padding).Overreaches m.hwc
    | .custom .. => ∃ size s, g.plan.primitive? l.name = some (.resizeBilinear size s) ∧
      m.ResizeOvershoots size s
    | _ => False

/-- What is known of a layer of a prepared model: it is planned, its parameters can be held in
memory, and the channels of a concatenation are a size. -/
structure Supported (ops : CustomOps) (g : GraphModel) (l : Layer) (inputs : List Hwc) (hwc : Hwc)
    (primitive : Option Primitive) : Prop where
  /-- The layer is planned. -/
  planned : Planned ops g.plan l inputs hwc primitive
  /-- Its parameters can be held in memory. -/
  light : ∀ input, inputs.head? = some input → ∀ param shape,
    (param, shape) ∈ l.kind.weights input → 0 ∉ shape → 4 * shape.volume < Size.bound
  /-- The channels of a concatenation are a size. -/
  channels : l.kind = .concat → hwc.channels < Size.bound

section Layers

variable {inputs : List Hwc} {hwc : Hwc} {primitive : Option Primitive} {args : List FeatureMap}

/-- A layer that reads values that are present breaks off only if it overflows. -/
lemma evalLayer_safe (supported : Supported ops g l inputs hwc primitive)
    (read : args.map (·.hwc) = inputs) (present : ∀ m ∈ args, m.Present)
    (computed : l.kind.isInput = false) :
    (g.evalLayer l args).SafeUnless (g.Overflows l args) Present := by
  obtain ⟨planned, light, channels⟩ := supported
  have shapes := planned.shapes
  have single {input : Hwc} (one : inputs = [input]) :
      ∃ x, args = [x] ∧ x.hwc = input ∧ x.Present := by
    rw [one, List.map_eq_singleton_iff] at read
    obtain ⟨x, rfl, same⟩ := read
    exact ⟨x, rfl, same, present x (List.mem_singleton_self x)⟩
  rw [evalLayer, Overflows]
  generalize l.kind = kind at shapes computed light channels
  cases shapes with
  | input _ => cases computed
  | @conv2d filters w a useBias _ h v some made =>
    obtain ⟨x, rfl, rfl, hx⟩ := single rfl
    have sides := Window.degenerate_eq_false made.proper
    -- no side of the filter is zero, so the number of its elements is their product
    have dims : 0 ∉ [w.kernel.1, w.kernel.2, x.hwc.channels, filters] := by
      simp [sides.1.symm, sides.2.1.symm, hx.full.channels.symm, some.symm]
    refine (SafeUnless.orError _ _).bind fun params _ => ?_
    cases params with
    | conv filter bias =>
      refine (SafeUnless.orFault rfl).bind ?_
      rintro _ rfl
      refine (hx.conv2d_safe dims ?_).mapError
      exact light _ rfl "kernel" _ (by simp [LayerKind.weights]) dims
    | depthwise | norm => trivial
  | @depthwiseConv2d w a useBias _ h v made =>
    obtain ⟨x, rfl, rfl, hx⟩ := single rfl
    have sides := Window.degenerate_eq_false made.proper
    have dims : 0 ∉ [w.kernel.1, w.kernel.2, x.hwc.channels, 1] := by
      simp [sides.1.symm, sides.2.1.symm, hx.full.channels.symm]
    refine (SafeUnless.orError _ _).bind fun params _ => ?_
    cases params with
    | depthwise filter bias =>
      refine (SafeUnless.orFault rfl).bind ?_
      rintro _ rfl
      refine (hx.depthwiseConv2d_safe dims ?_).mapError
      exact light _ rfl "depthwise_kernel" _ (by simp [LayerKind.weights]) dims
    | conv | norm => trivial
  | batchNorm =>
    obtain ⟨x, rfl, rfl, hx⟩ := single rfl
    refine (SafeUnless.orError _ _).bind fun params _ => ?_
    cases params with
    | norm params =>
      refine (SafeUnless.orFault rfl).bind ?_
      rintro _ rfl
      exact (hx.batchNorm_safe params _).mapError
    | conv | depthwise => trivial
  | activation =>
    obtain ⟨x, rfl, rfl, hx⟩ := single rfl
    exact hx.activate _
  | add =>
    obtain ⟨x, others, rfl, -, more⟩ := List.map_eq_cons_iff.1 read
    obtain ⟨y, rest, rfl, -, -⟩ := List.map_eq_cons_iff.1 more
    exact sum_safe (present x (List.mem_cons_self ..))
  | concat =>
    refine SafeUnless.mapError ((Present.concat_safe present).mono (fun large => ?_) fun _ h => h)
    -- the plan has added these channels up already
    have small := channels rfl
    rw [← read, List.map_map] at small
    exact absurd small (Nat.not_lt.2 large.2)
  | maxPool2d made =>
    obtain ⟨x, rfl, rfl, hx⟩ := single rfl
    refine (SafeUnless.orFault rfl).bind ?_
    rintro _ rfl
    exact (hx.maxPool2d_safe.mono (fun far => ⟨_, rfl, far⟩) fun _ h => h).mapError
  | custom =>
    obtain ⟨x, rfl, rfl, hx⟩ := single rfl
    refine (SafeUnless.orError _ _).bind fun p found => ?_
    refine (SafeUnless.orFault rfl).bind ?_
    rintro _ rfl
    cases p with
    | resizeBilinear size s =>
      refine ((hx.resizeBilinear_safe size s).mono (fun far => ?_) fun _ h => h).mapError
      exact ⟨_, rfl, size, s, found, far⟩

/-- A layer that overflows does break off. -/
lemma evalLayer_eq_fault (planned : Planned ops g.plan l inputs hwc primitive)
    (read : args.map (·.hwc) = inputs) (present : ∀ m ∈ args, m.Present)
    (overflows : g.Overflows l args) : g.evalLayer l args = .fault := by
  obtain ⟨x, first, overflows⟩ := overflows
  have hx := present x (List.mem_of_head? first)
  have shapes := planned.shapes
  rw [evalLayer]
  generalize l.kind = kind at shapes overflows
  -- only pools and resizes have arithmetic that can overflow
  cases kind with
  | maxPool2d pool strides padding =>
    cases shapes with
    | maxPool2d made =>
      simp only [first, Outcome.orFault_some, Outcome.value_bind,
        FeatureMap.maxPool2d_eq_fault hx.bounded made.proper overflows]
      rfl
  | custom function arguments =>
    obtain ⟨size, s, resolved, far⟩ := overflows
    simp only [first, resolved, Outcome.orError_some, Outcome.orFault_some, Outcome.value_bind,
      applyPrimitive, FeatureMap.resizeBilinear_eq_fault hx.full.height hx.full.width far]
    rfl
  | _ => exact overflows.elim

/-- The evaluation of a layer breaks off exactly if it overflows. -/
lemma evalLayer_eq_fault_iff (supported : Supported ops g l inputs hwc primitive)
    (read : args.map (·.hwc) = inputs) (present : ∀ m ∈ args, m.Present)
    (computed : l.kind.isInput = false) : g.evalLayer l args = .fault ↔ g.Overflows l args :=
  ⟨(evalLayer_safe supported read present computed).of_fault,
    evalLayer_eq_fault supported.planned read present⟩

end Layers

/-! ### Runs -/

/-- A run over layers comes to one that overflows. -/
def RunOverflows (g : GraphModel) (values : Values) (layers : List Layer) : Prop :=
  ∃ pre l post values' args, layers = pre ++ l :: post ∧
    pre.foldlM g.step values = .value values' ∧
    List.Forall₂ (fun name m => values'.lookup name = some m) l.inbound args ∧
    l.kind.isInput = false ∧ g.Overflows l args

variable {values values' : Values}

/-- Every value is present. -/
def AllPresent (values : Values) : Prop := ∀ entry ∈ values, entry.2.Present

lemma AllPresent.args (h : AllPresent values) {names : List String} {args : List FeatureMap}
    (read : List.Forall₂ (fun name m => values.lookup name = some m) names args) :
    ∀ m ∈ args, m.Present := by
  intro m hm
  obtain ⟨name, -, found⟩ := exists_mem_of_forall₂ read.flip hm
  obtain ⟨before, after, split, -⟩ := List.lookup_eq_some_iff.1 found
  exact h (name, m) (by simp [split])

/-- One layer breaks off exactly if its evaluation does. -/
lemma step_eq_fault_iff :
    g.step values l = .fault ↔ ∃ args,
      List.Forall₂ (fun name m => values.lookup name = some m) l.inbound args ∧
      l.kind.isInput = false ∧ g.evalLayer l args = .fault := by
  have reads : (l.inbound.mapM fun name => Outcome.orError
      (GraphModelError.notEvaluated l.name name) (values.lookup name)) ≠ .fault :=
    Outcome.mapM_ne_fault fun _ _ => Outcome.orError_ne_fault
  simp only [step, Outcome.bind_eq_fault_iff, Outcome.mapM_eq_value_iff,
    Outcome.orError_eq_value_iff, reads, false_or]
  refine exists_congr fun args => and_congr_right fun _ => ?_
  cases l.kind.isInput <;> simp [Outcome.bind_eq_fault_iff]

/-- Layers of a prepared model are supported. -/
lemma supported_of_prepare {m : Model} (prepared : prepare m ops = .value g) (sized : m.WellSized)
    (hl : l ∈ g.architecture.layers) :
    ∃ inputs hwc primitive, Supported ops g l inputs hwc primitive := by
  obtain ⟨valid, architecture, -, -⟩ := prepared_of_prepare prepared
  rw [architecture] at hl
  have plan := (Model.validate_eq_value_iff.1 valid).1
  obtain ⟨inputs, hwc, primitive, planned⟩ := Architecture.planned_of_mem plan hl
  refine ⟨inputs, hwc, primitive, planned, fun input first param shape needed full => ?_, ?_⟩
  · obtain ⟨t, xs, -, -, length, small⟩ := sized.fills valid l hl input
      ((Model.inputShape?_of_planned planned).trans first) param shape needed full
    exact length ▸ small
  · obtain ⟨_, hwc', _, -, own, rule⟩ := (GraphPlan.inferred_of_foldlM Architecture.names_empty
      (Architecture.plan_eq_value_iff.1 plan).2.1).2 l hl
    obtain rfl := Option.some.inj (own.symm.trans planned.shape)
    exact rule.channels

/-- Values of planned shapes that are present stay so while a layer is evaluated. -/
lemma present_step {inputs : List Hwc} {hwc : Hwc} {primitive : Option Primitive}
    (supported : Supported ops g l inputs hwc primitive) (agrees : g.Agrees values)
    (present : AllPresent values) (step : g.step values l = .value values') :
    g.Agrees values' ∧ AllPresent values' := by
  refine ⟨agrees_step supported.planned agrees step, ?_⟩
  obtain ⟨args, read, result⟩ := step_eq_value_iff.1 step
  split at result
  · exact result ▸ present
  · rename_i computed
    obtain ⟨r, evaluated, rfl⟩ := result
    have own := (evalLayer_safe supported (shapes_of_args agrees supported.planned read)
      (present.args read) (by simpa using computed)).of_value evaluated
    exact List.forall_mem_cons.2 ⟨own, present⟩

/-- A run over supported layers breaks off exactly if it comes to one that overflows. -/
lemma run_eq_fault_iff {layers : List Layer}
    (supported : ∀ l ∈ layers, ∃ inputs hwc primitive, Supported ops g l inputs hwc primitive)
    (agrees : g.Agrees values) (present : AllPresent values) :
    layers.foldlM g.step values = .fault ↔ g.RunOverflows values layers := by
  rw [Outcome.foldlM_eq_fault_iff]
  refine exists_congr fun pre => exists_congr fun l => exists_congr fun post => exists_congr
    fun values' => ?_
  rw [exists_and_left, exists_and_left]
  refine and_congr_right fun split => and_congr_right fun run => ?_
  -- what holds of the values before the layer
  obtain ⟨agrees', present'⟩ : g.Agrees values' ∧ AllPresent values' := by
    refine Outcome.foldlM_value_induction (fun values => g.Agrees values ∧ AllPresent values)
      ⟨agrees, present⟩ (fun values l values' hl known step => ?_) run
    obtain ⟨_, _, _, supported⟩ := supported l (by simp [split, hl])
    exact present_step supported known.1 known.2 step
  obtain ⟨_, _, _, supported⟩ := supported l (by simp [split])
  rw [step_eq_fault_iff]
  refine exists_congr fun args => and_congr_right fun read => and_congr_right fun computed => ?_
  exact evalLayer_eq_fault_iff supported (shapes_of_args agrees' supported.planned read)
    (present'.args read) computed

/-- Inputs are read into memory. -/
lemma readInputs_safe {inputs : List Tensor} (tensors : ∀ t ∈ inputs, t.WellSized) :
    (g.readInputs inputs).SafeUnless B AllPresent := by
  refine (SafeUnless.require _ _).bind fun _ _ => ?_
  refine SafeUnless.foldlM (List.forall_mem_nil _) fun values p hp present => ?_
  have sized := tensors p.2 (List.of_mem_zip hp).2
  refine SafeUnless.bind (Q := Present) ?_ fun m hm => List.forall_mem_cons.2 ⟨hm, present⟩
  refine (FeatureMap.ofTensor_safe sized).mapError.bind fun m hm => ?_
  refine (SafeUnless.orError _ _).bind fun expected _ => ?_
  exact (SafeUnless.require _ _).bind fun _ _ => hm

/-- A run of a prepared model breaks off exactly if it comes to a layer that overflows: a maximum
whose last window, by its padding, ends beyond all sizes, or a resize with aligned corners that
forms a product that is no size.  Whatever else its layers, parameters and inputs are, the run ends
in outputs or in a refusal. -/
theorem infer_eq_fault_iff_overflows {m : Model} {inputs : List Tensor}
    (prepared : prepare m ops = .value g) (sized : m.WellSized)
    (tensors : ∀ t ∈ inputs, t.WellSized) :
    g.infer inputs = .fault ↔
      ∃ values, g.readInputs inputs = .value values ∧
        g.RunOverflows values g.architecture.layers := by
  have read : g.readInputs inputs ≠ .fault := fun broken =>
    (readInputs_safe (B := False) tensors).of_fault broken
  have outputs (values : Values) : (g.architecture.outputs.mapM fun name => do
      let m ← Outcome.orError (GraphModelError.missingOutput name) (values.lookup name)
      m.toTensor.mapError .kernel) ≠ .fault := by
    refine Outcome.mapM_ne_fault fun name _ => Outcome.bind_ne_fault Outcome.orError_ne_fault
      fun m _ broken => ?_
    exact ((FeatureMap.toTensor_safe (B := False) m).mapError).of_fault broken
  simp only [infer, Outcome.bind_eq_fault_iff, read, outputs, false_or, and_false, exists_false,
    or_false]
  refine exists_congr fun values => and_congr_right fun given => ?_
  have present := (readInputs_safe (B := False) tensors).of_value given
  exact run_eq_fault_iff (fun l hl => supported_of_prepare prepared sized hl)
    (agrees_readInputs given) present

/-- A maximum whose window has as many rows as any size can be, at each of two pixels. -/
def farWindow : Model where
  architecture := {
    name := "far window"
    layers := [
      ⟨"in", .input ⟨2, 1, 1⟩, []⟩,
      ⟨"pooled", .maxPool2d (0xffffffffffffffff, 1) (some (1, 1)) .same, ["in"]⟩]
    inputs := ["in"]
    outputs := ["pooled"] }
  weights := .empty

/-- Two pixels, one above the other. -/
def blackColumn : Tensor := ⟨.f32, [1, 2, 1, 1], [0, 0, 0, 0, 0, 0, 0, 0]⟩

lemma exists_farWindow :
    ∃ g, prepare farWindow .empty = .value g ∧ g.infer [blackColumn] = .fault := by
  obtain ⟨g, prepared, broken⟩ := Outcome.exists_of_holds
    (show (prepare farWindow .empty).holds (fun g => (g.infer [blackColumn]).isFault) = true by
      decide +kernel)
  exact ⟨g, prepared, Outcome.isFault_iff.1 broken⟩

lemma wellSized_farWindow : farWindow.WellSized :=
  Model.wellSized_of_entries (List.forall_mem_nil _)

/-- A run that breaks off comes to a window that is placed too far out. -/
theorem infer_eq_fault_iff_overflows_farWindow : ∃ g, prepare farWindow .empty = .value g ∧
    farWindow.WellSized ∧ (∀ t ∈ [blackColumn], t.WellSized) ∧
    ∃ values, g.readInputs [blackColumn] = .value values ∧
      g.RunOverflows values g.architecture.layers := by
  obtain ⟨g, prepared, broken⟩ := exists_farWindow
  have tensors : ∀ t ∈ [blackColumn], t.WellSized := by decide +kernel
  exact ⟨g, prepared, wellSized_farWindow, tensors,
    (infer_eq_fault_iff_overflows prepared wellSized_farWindow tensors).1 broken⟩

/-- The model is accepted, and running it on a tensor ends neither in outputs nor in an error. -/
theorem infer_eq_fault_farWindow : ∃ g, prepare farWindow .empty = .value g ∧
    farWindow.WellSized ∧
    Tensor.ofBytes .f32 [1, 2, 1, 1] blackColumn.bytes = .ok blackColumn ∧
    g.infer [blackColumn] = .fault := by
  obtain ⟨g, prepared, broken⟩ := exists_farWindow
  exact ⟨g, prepared, wellSized_farWindow, by decide +kernel, broken⟩

end GraphModel

end FlatNet
