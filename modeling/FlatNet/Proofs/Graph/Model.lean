import FlatNet.Graph.Interpreter
import FlatNet.Proofs.Feature.Transposition
import FlatNet.Proofs.Graph.Plan
import FlatNet.Proofs.Table
import FlatNet.Proofs.Tensor.Basic

/-!
The parameters of valid models.

A valid model has a plan, and every parameter that a planned layer asks for, in floating-point
words and of the right shape.  If the parameters are well sized, the prepared ones have the
lengths that the operations ask for.

* `Model.validate_eq_value_iff`: what makes a model valid;
* `Model.WellSized`, `Model.Fills`: the parameters hold what their shapes say, all of them or those
  that layers need;
* `GraphModel.Filled`: a layer has prepared parameters of its kind and of the right lengths;
* `GraphModel.exists_prepare`, `GraphModel.prepared_of_prepare`: when a model is prepared, and what
  preparation gives.
-/

namespace FlatNet

namespace Model

variable {m : Model} {ops : CustomOps} {p : GraphPlan}

/-- A parameter is there, in floating-point words and of its shape. -/
def Supplies (m : Model) (layer : String) (param : String × Shape) : Prop :=
  ∃ t, m.weight? layer param.1 = some t ∧ t.dtype = .f32 ∧ t.shape = param.2

lemma checkWeight_eq_ok_iff {layer : String} {param : String × Shape} :
    m.checkWeight layer param = .ok () ↔ m.Supplies layer param := by
  unfold checkWeight Supplies weight?
  dsimp only
  split
  · rename_i missing
    simp [missing]
  · rename_i t found
    simp only [found, Option.some.injEq, exists_eq_left']
    split
    · rename_i other
      simp [other]
    · rename_i dtype
      split
      · rename_i other
        simp [other]
      · rename_i shape
        rw [not_not] at dtype shape
        simp [dtype, shape]

lemma checkLayer_eq_ok_iff {l : Layer} :
    m.checkLayer p l = .ok () ↔
      ∀ input, inputShape? p l = some input →
        ∀ param ∈ l.kind.weights input, m.Supplies l.name param := by
  unfold checkLayer
  split
  · rename_i none
    simp [none]
  · rename_i input some
    simp only [some, Option.some.injEq, forall_eq', forM_eq_ok_iff, checkWeight_eq_ok_iff]

/-- A model is valid if it has a plan and the parameters of every layer that reads another
one. -/
lemma validate_eq_value_iff :
    m.validate ops = .value p ↔ m.architecture.plan ops = .value p ∧
      ∀ l ∈ m.architecture.layers, ∀ input, inputShape? p l = some input →
        ∀ param ∈ l.kind.weights input, m.Supplies l.name param := by
  simp only [validate, Outcome.bind_eq_value_iff, Outcome.ofExcept_eq_value_iff, Outcome.pure_eq,
    Outcome.value.injEq, forM_eq_ok_iff, checkLayer_eq_ok_iff]
  constructor
  · rintro ⟨_, plan, _, weights, rfl⟩
    exact ⟨plan, weights⟩
  · rintro ⟨plan, weights⟩
    exact ⟨p, plan, (), weights, rfl⟩

/-- Every parameter of floating-point words and without empty dimensions holds four bytes for
each of its elements. -/
def WellSized (m : Model) : Prop :=
  ∀ key t, m.weights.get? key = some t → t.dtype = .f32 → 0 ∉ t.shape → t.WellSized

lemma wellSized_of_entries (h : ∀ entry ∈ m.weights.entries, entry.2.WellSized) :
    m.WellSized := by
  intro key t found _ _
  exact h (key, t) (Table.mem_entries_of_get? found)

/-- The shape that a planned layer reads first. -/
lemma inputShape?_of_planned {l : Layer} {inputs : List Hwc} {hwc : Hwc}
    {primitive : Option Primitive} (h : Planned ops p l inputs hwc primitive) :
    inputShape? p l = inputs.head? := by
  have reads := h.reads
  rw [inputShape?]
  generalize l.inbound = names at reads ⊢
  cases reads with
  | nil => rfl
  | cons first _ => exact first

/-- The parameters that layers need have a word for each of their elements. -/
def Fills (m : Model) (p : GraphPlan) : Prop :=
  ∀ l ∈ m.architecture.layers, ∀ input, inputShape? p l = some input →
    ∀ param shape, (param, shape) ∈ l.kind.weights input → 0 ∉ shape →
      ∃ t xs, m.weight? l.name param = some t ∧ t.singles = .ok xs ∧ xs.length = shape.volume ∧
        4 * xs.length < Size.bound

/-- Well-sized parameters of a valid model do. -/
lemma WellSized.fills (sized : m.WellSized) (valid : m.validate ops = .value p) : m.Fills p := by
  intro l hl input first param shape needed full
  obtain ⟨t, found, dtype, rfl⟩ := (validate_eq_value_iff.1 valid).2 l hl input first _ needed
  obtain ⟨xs, words⟩ := Tensor.singles_of_wellSized dtype full (sized _ t found dtype full)
  exact ⟨t, xs, found, words⟩

end Model

/-! ### Prepared parameters -/

/-- The prepared parameters of a kind of layer, with the lengths that its operation asks
for. -/
inductive LayerKind.Filled (input : Hwc) : LayerKind → Option LayerParams → Prop where
  /-- A filter and a bias for a convolution. -/
  | conv2d {filters : Nat} {w : Window} {a : Activation} {useBias : Bool} {filter : Array Float32}
      {bias : Option (Array Float32)}
      (size : filter.size = filters * w.kernel.1 * w.kernel.2 * input.channels)
      (biased : ∀ b, bias = some b → b.size = filters) :
      Filled input (.conv2d filters w a useBias) (some (.conv filter bias))
  /-- A filter and a bias for a convolution per channel. -/
  | depthwiseConv2d {w : Window} {a : Activation} {useBias : Bool} {filter : Array Float32}
      {bias : Option (Array Float32)}
      (size : filter.size = w.kernel.1 * w.kernel.2 * input.channels)
      (biased : ∀ b, bias = some b → b.size = input.channels) :
      Filled input (.depthwiseConv2d w a useBias) (some (.depthwise filter bias))
  /-- Four numbers a channel for a normalisation. -/
  | batchNorm {epsilon : Binary32} {gamma beta mean variance : Array Float32}
      (sizes : ∀ values ∈ [gamma, beta, mean, variance], values.size = input.channels) :
      Filled input (.batchNorm epsilon) (some (.norm ⟨gamma, beta, mean, variance⟩))
  /-- Nothing for a kind without parameters. -/
  | other {kind : LayerKind} (free : kind.weights input = []) : Filled input kind none

namespace GraphModel

variable {m : Model} {ops : CustomOps} {p : GraphPlan} {l : Layer}

lemma weight_eq_value_iff {layer param : String} {numbers : Array Float32} :
    weight m layer param = .value numbers ↔ ∃ t xs, m.weight? layer param = some t ∧
      t.singles = .ok xs ∧ (xs.map Binary32.value).toArray = numbers := by
  simp only [weight, Outcome.bind_eq_value_iff, Outcome.orError_eq_value_iff,
    Outcome.mapError_eq_value_iff, Outcome.ofExcept_eq_value_iff, Outcome.pure_eq,
    Outcome.value.injEq, exists_and_left]

section Lengths

variable (fills : m.Fills p) (hl : l ∈ m.architecture.layers) {input : Hwc}
  (first : Model.inputShape? p l = some input)

include fills hl first

/-- The numbers of a parameter that a layer needs are as many as its shape says. -/
lemma size_of_weight {param : String} {shape : Shape}
    (needed : (param, shape) ∈ l.kind.weights input) (full : 0 ∉ shape) {numbers : Array Float32}
    (read : weight m l.name param = .value numbers) : numbers.size = shape.volume := by
  obtain ⟨t, xs, found, words, length, -⟩ := fills l hl input first _ _ needed full
  obtain ⟨t', xs', found', words', rfl⟩ := weight_eq_value_iff.1 read
  obtain rfl := Option.some.inj (found.symm.trans found')
  obtain rfl := Except.ok.inj (words.symm.trans words')
  simpa using length

/-- A parameter with one number for each channel has as many numbers. -/
lemma size_of_row {param : String} {n : Nat} (some : n ≠ 0)
    (needed : (param, [n]) ∈ l.kind.weights input) {numbers : Array Float32}
    (read : weight m l.name param = .value numbers) : numbers.size = n := by
  rw [size_of_weight fills hl first needed (by simp [some.symm]) read]
  exact Nat.one_mul n

lemma size_of_bias {useBias : Bool} {n : Nat} (full : n ≠ 0)
    (needed : useBias = true → ("bias", [n]) ∈ l.kind.weights input)
    {bias : Option (Array Float32)} (read : GraphModel.bias m l.name useBias = .value bias)
    (b : Array Float32) (hb : bias = some b) : b.size = n := by
  subst hb
  cases useBias with
  | false => cases read
  | true =>
    simp only [GraphModel.bias, if_true, Outcome.bind_eq_value_iff, Outcome.pure_eq,
      Outcome.value.injEq, Option.some.injEq] at read
    obtain ⟨_, read, rfl⟩ := read
    exact size_of_row fills hl first full (needed rfl) read

/-- The prepared parameters of a layer of a valid model have the lengths that its operation
asks for. -/
lemma filled_of_layerParams (valid : m.validate ops = .value p) {inputs : List Hwc} {hwc : Hwc}
    {primitive : Option Primitive} (planned : Planned ops p l inputs hwc primitive)
    {params : Option LayerParams} (prepared : layerParams m p l = .value params) :
    l.kind.Filled input params := by
  -- validation has compared the weights with the input that is planned; here this is the first
  -- input
  have head := (Model.inputShape?_of_planned planned).symm.trans first
  have channels : input.channels ≠ 0 := by
    rw [Model.inputShape?, Option.bind_eq_some_iff] at first
    obtain ⟨name, -, found⟩ := first
    exact Architecture.channels_ne_zero (Model.validate_eq_value_iff.1 valid).1 found
  have shapes := planned.shapes
  generalize hk : l.kind = kind at shapes ⊢
  cases shapes with
  | conv2d some made =>
    obtain rfl := Option.some.inj head
    simp only [layerParams, hk, first, Outcome.orError_some, Outcome.value_bind,
      Outcome.bind_eq_value_iff, Outcome.mapError_eq_value_iff, Outcome.pure_eq,
      Outcome.value.injEq] at prepared
    obtain ⟨kernel, read, filter, transposed, bias, read', rfl⟩ := prepared
    obtain ⟨product, size⟩ := size_of_hwioToOhwi transposed
    refine .conv2d ?_ (size_of_bias fills hl first some (fun used => ?_) read')
    · rw [size, product]
      ring
    · simp [hk, LayerKind.weights, used]
  | @depthwiseConv2d w _ useBias source _ _ made =>
    obtain rfl := Option.some.inj head
    have sides := Window.degenerate_eq_false made.proper
    simp only [layerParams, hk, Outcome.bind_eq_value_iff, Outcome.pure_eq,
      Outcome.value.injEq] at prepared
    obtain ⟨filter, read, bias, read', rfl⟩ := prepared
    have full : 0 ∉ [w.kernel.1, w.kernel.2, source.channels, 1] := by
      simp [sides.1.symm, sides.2.1.symm, channels.symm]
    refine .depthwiseConv2d ?_ (size_of_bias fills hl first channels (fun used => ?_) read')
    · rw [size_of_weight fills hl first (by simp [hk, LayerKind.weights]) full read]
      simp [Shape.volume]
    · simp [hk, LayerKind.weights, used]
  | batchNorm =>
    obtain rfl := Option.some.inj head
    simp only [layerParams, hk, Outcome.bind_eq_value_iff, Outcome.pure_eq,
      Outcome.value.injEq] at prepared
    obtain ⟨gamma, readGamma, beta, readBeta, mean, readMean, variance, readVariance, rfl⟩ :=
      prepared
    -- all four rows are as long as the input has channels
    have row {param : String} (known : param ∈ ["gamma", "beta", "moving_mean", "moving_variance"])
        {numbers : Array Float32} (read : weight m l.name param = .value numbers) :=
      size_of_row fills hl first channels (by simpa [hk, LayerKind.weights] using known) read
    refine .batchNorm fun values hvalues => ?_
    simp only [List.mem_cons, List.not_mem_nil, or_false] at hvalues
    obtain rfl | rfl | rfl | rfl := hvalues
    · exact row (by decide) readGamma
    · exact row (by decide) readBeta
    · exact row (by decide) readMean
    · exact row (by decide) readVariance
  | _ =>
    obtain rfl : params = none := by
      simp only [layerParams, hk, Outcome.value.injEq] at prepared
      exact prepared.symm
    exact .other rfl

end Lengths

/-! ### Prepared models -/

/-- An input has no parameters. -/
lemma layerParams_of_input (input : l.kind.isInput = true) : layerParams m p l = .value none := by
  unfold LayerKind.isInput at input
  split at input
  · rename_i kind
    rw [layerParams, kind]
  · cases input

lemma lookup_filterMap {α ε : Type} {layers : List Layer} {f : Layer → Outcome ε (Option α)}
    {prepared : List (Option (String × α))} (names : (layers.map (·.name)).Nodup)
    (h : List.Forall₂ (fun l o => ∃ a, f l = .value a ∧ a.map (fun a => (l.name, a)) = o)
      layers prepared) :
    (∀ l ∈ layers, f l = .value ((prepared.filterMap id).lookup l.name)) ∧
      ∀ name, name ∉ layers.map (·.name) → (prepared.filterMap id).lookup name = none := by
  induction h with
  | nil => simp
  | @cons l o layers prepared head tail ih =>
    obtain ⟨a, value, rfl⟩ := head
    rw [List.map_cons, List.nodup_cons] at names
    obtain ⟨found, missing⟩ := ih names.2
    -- a layer adds at most one entry, under its own name
    have own : ((a.map fun a => (l.name, a)) :: prepared).filterMap id
        = (a.toList.map fun a => (l.name, a)) ++ prepared.filterMap id := by
      cases a <;> rfl
    rw [own]
    refine ⟨fun l' hl' => ?_, fun name other => ?_⟩
    · rw [List.lookup_append]
      rcases List.mem_cons.1 hl' with rfl | later
      -- no other layer has the name, so a layer without parameters has no entry
      · rw [GraphPlan.lookup_self_toList, missing _ names.1, Option.or_none, value]
      · have different : l'.name ≠ l.name := by
          intro same
          exact names.1 (same ▸ List.mem_map_of_mem later)
        rw [GraphPlan.lookup_other_toList different, Option.none_or]
        exact found l' later
    · rw [List.map_cons, List.mem_cons, not_or] at other
      rw [List.lookup_append, GraphPlan.lookup_other_toList other.1, Option.none_or]
      exact missing name other.2

/-- A valid model is prepared if the parameters of every layer are. -/
lemma exists_prepare (valid : m.validate ops = .value p)
    (params : ∀ l ∈ m.architecture.layers, ∃ params, layerParams m p l = .value params) :
    ∃ g, prepare m ops = .value g := by
  have each : ∀ l ∈ m.architecture.layers, ∃ entry,
      (do return (← layerParams m p l).map fun params => (l.name, params))
        = Outcome.value entry := by
    intro l hl
    obtain ⟨params, prepared⟩ := params l hl
    exact ⟨_, by rw [prepared]; rfl⟩
  obtain ⟨entries, all⟩ := exists_forall₂ each
  refine ⟨⟨p.spec m.architecture, m.architecture, p, entries.filterMap id⟩, ?_⟩
  rw [prepare, valid, Outcome.mapError_value, Outcome.value_bind, Outcome.mapM_eq_value_iff.2 all]
  rfl

/-- A prepared model has the plan of a valid one, and the prepared parameters of every
layer. -/
lemma prepared_of_prepare {g : GraphModel} (h : prepare m ops = .value g) :
    m.validate ops = .value g.plan ∧ g.architecture = m.architecture ∧
      g.spec = g.plan.spec m.architecture ∧
      ∀ l ∈ m.architecture.layers, layerParams m g.plan l = .value (g.params.lookup l.name) := by
  simp only [prepare, Outcome.bind_eq_value_iff, Outcome.mapError_eq_value_iff,
    Outcome.mapM_eq_value_iff, Outcome.pure_eq, Outcome.value.injEq] at h
  obtain ⟨p, valid, prepared, pointwise, rfl⟩ := h
  have names := Architecture.nodup_of_plan (Model.validate_eq_value_iff.1 valid).1
  exact ⟨valid, rfl, rfl, (lookup_filterMap names pointwise).1⟩

end GraphModel

end FlatNet
