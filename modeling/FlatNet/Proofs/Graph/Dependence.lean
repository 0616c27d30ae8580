import FlatNet.Proofs.Graph.Shapes
import FlatNet.Proofs.Graph.WellFormed

/-!
Which layers of a planned graph have values.

Planning makes sure that what is declared an input is an input layer, not that every input layer
is declared one.  Evaluating the layers in order from the declared inputs defines a layer exactly
if all input layers that it rests on are declared, and a run of the graph has values for no other
layers.  So a planned graph may have an output that no run computes.

* `Architecture.defined`: the layers that evaluation from the declared inputs defines;
* `Architecture.RestsOn`: a layer needs another one, through any chain of layers in between;
* `Architecture.mem_defined_iff`: what is defined rests on declared inputs only;
* `GraphModel.mem_defined_of_infer`: what a run computes is defined;
* `Architecture.outputs_defined_iff`: when the outputs of a planned graph are computed.
-/

namespace FlatNet

/-! ### Defined layers -/

/-- The defined layers once it is a layer's turn: one that is no input is defined if all layers
that it reads are. -/
def Layer.define (known : List String) (l : Layer) : List String :=
  if !l.kind.isInput && l.inbound.all known.contains then l.name :: known else known

lemma Layer.mem_define_iff {known : List String} {l : Layer} {name : String} :
    name ∈ l.define known ↔
      name ∈ known ∨ name = l.name ∧ l.kind.isInput = false ∧ ∀ read ∈ l.inbound, read ∈ known := by
  have ready : (!l.kind.isInput && l.inbound.all known.contains) = true ↔
      l.kind.isInput = false ∧ ∀ read ∈ l.inbound, read ∈ known := by simp
  rw [define, ← ready]
  split <;> simp [*, or_comm]

/-- Layers of other names do not define a layer. -/
lemma mem_foldl_define_iff {layers : List Layer} {known : List String} {name : String}
    (other : name ∉ layers.map (·.name)) :
    name ∈ layers.foldl Layer.define known ↔ name ∈ known := by
  induction layers generalizing known with
  | nil => rfl
  | cons l layers ih =>
    rw [List.map_cons, List.mem_cons, not_or] at other
    rw [List.foldl_cons, ih other.2, Layer.mem_define_iff]
    exact or_iff_left fun h => other.1 h.1

namespace Architecture

/-- The layers that evaluation in order defines, from values for the declared inputs. -/
def defined (a : Architecture) : List String := a.layers.foldl Layer.define a.inputs

/-- A layer reads another one. -/
def Reads (a : Architecture) (name read : String) : Prop :=
  ∃ l ∈ a.layers, l.name = name ∧ read ∈ l.inbound

/-- A layer needs another one: it is this one, or reads one that needs it. -/
def RestsOn (a : Architecture) : String → String → Prop := Relation.ReflTransGen a.Reads

variable {a : Architecture} {ops : CustomOps} {p : GraphPlan} {l : Layer}

/-- A layer needs itself and what the layers that it reads need. -/
lemma restsOn_iff (distinct : (a.layers.map (·.name)).Nodup) (hl : l ∈ a.layers) {name : String} :
    a.RestsOn l.name name ↔ l.name = name ∨ ∃ read ∈ l.inbound, a.RestsOn read name := by
  rw [RestsOn, Relation.ReflTransGen.cases_head_iff]
  refine or_congr_right ⟨?_, ?_⟩
  · rintro ⟨read, ⟨l', hl', same, reads⟩, rest⟩
    obtain rfl := List.inj_on_of_nodup_map distinct hl' hl same
    exact ⟨read, reads, rest⟩
  · rintro ⟨read, reads, rest⟩
    exact ⟨read, ⟨l, hl, rfl, reads⟩, rest⟩

/-- An input layer of a planned graph is defined if it is declared, another layer if all layers
that it reads are defined. -/
lemma mem_defined_iff_reads (h : a.plan ops = .value p) (hl : l ∈ a.layers) :
    l.name ∈ a.defined ↔
      if l.kind.isInput then l.name ∈ a.inputs else ∀ read ∈ l.inbound, read ∈ a.defined := by
  obtain ⟨pre, post, split⟩ := List.append_of_mem hl
  have distinct := nodup_of_plan h
  have earlier := (planned_of_plan h split).1
  rw [split, List.map_append, List.map_cons, List.nodup_append, List.nodup_cons] at distinct
  obtain ⟨-, ⟨unrepeated, -⟩, apart⟩ := distinct
  -- nothing changes after the turn of a layer: not for it, and not for the layers it reads
  have whole :
      a.defined = post.foldl Layer.define (l.define (pre.foldl Layer.define a.inputs)) := by
    rw [defined, split, List.foldl_append, List.foldl_cons]
  have own : l.name ∈ pre.foldl Layer.define a.inputs ↔ l.name ∈ a.inputs :=
    mem_foldl_define_iff fun before => apart _ before _ (List.mem_cons_self ..) rfl
  have settled : ∀ read ∈ l.inbound,
      (read ∈ a.defined ↔ read ∈ pre.foldl Layer.define a.inputs) := fun read hread => by
    rw [defined, split, List.foldl_append]
    exact mem_foldl_define_iff fun later => apart _ (earlier read hread) _ later rfl
  rw [whole, mem_foldl_define_iff unrepeated, Layer.mem_define_iff, own, ← whole]
  split
  · rename_i input
    simp [input]
  · rename_i computed
    have computed : l.kind.isInput = false := by simpa using computed
    have undeclared : l.name ∉ a.inputs := fun declared => by
      obtain ⟨l', hl', same, input⟩ := input_mem_of_plan h declared
      obtain rfl := List.inj_on_of_nodup_map (nodup_of_plan h) hl' hl same
      simp [computed] at input
    rw [or_iff_right undeclared, and_iff_right rfl, and_iff_right computed]
    exact forall₂_congr fun read hread => (settled read hread).symm

/-- A layer of a planned graph is defined exactly if the input layers that it rests on are
declared. -/
lemma mem_defined_iff (h : a.plan ops = .value p) : ∀ l ∈ a.layers, (l.name ∈ a.defined ↔
    ∀ i ∈ a.layers, i.kind.isInput = true → a.RestsOn l.name i.name → i.name ∈ a.inputs) := by
  have distinct := nodup_of_plan h
  -- along the order of the layers: a layer rests on what the layers that it reads rest on
  refine (readsEarlier_of_plan h).induction (fun name => name ∈ a.defined ↔
    ∀ i ∈ a.layers, i.kind.isInput = true → a.RestsOn name i.name → i.name ∈ a.inputs)
    (fun _ => nofun) fun l hl reads => ?_
  rw [mem_defined_iff_reads h hl]
  split
  · rename_i input
    obtain ⟨_, _, _, planned⟩ := planned_of_mem h hl
    have none := planned.inbound_of_input input
    constructor
    · intro declared i _ _ rests
      rw [restsOn_iff distinct hl, none] at rests
      obtain same | ⟨_, read, -⟩ := rests
      · exact same ▸ declared
      · exact nomatch read
    · exact fun declared => declared l hl input .refl
  · rename_i computed
    rw [forall₂_congr reads]
    constructor
    · intro declared i hi input rests
      obtain same | ⟨read, hread, rests⟩ := (restsOn_iff distinct hl).1 rests
      · obtain rfl := List.inj_on_of_nodup_map distinct hl hi same
        exact absurd input computed
      · exact declared read hread i hi input rests
    · intro declared read hread i hi input rests
      exact declared i hi input ((restsOn_iff distinct hl).2 (.inr ⟨read, hread, rests⟩))

end Architecture

/-! ### Runs -/

namespace GraphModel

variable {g : GraphModel} {l : Layer}

/-- The layers that have values are among some names. -/
def Within (names : List String) (values : Values) : Prop := ∀ entry ∈ values, entry.1 ∈ names

lemma Within.lookup {names : List String} {values : Values} (h : Within names values)
    {name : String} {m : FeatureMap} (found : values.lookup name = some m) : name ∈ names := by
  obtain ⟨before, after, rfl, -⟩ := List.lookup_eq_some_iff.1 found
  exact h (name, m) (by simp)

lemma within_step {names : List String} {values values' : Values} (h : Within names values)
    (step : g.step values l = .value values') : Within (l.define names) values' := by
  obtain ⟨args, reads, result⟩ := step_eq_value_iff.1 step
  have kept : Within (l.define names) values := fun entry hentry =>
    Layer.mem_define_iff.2 (.inl (h entry hentry))
  split at result
  · exact result ▸ kept
  · rename_i computed
    obtain ⟨r, -, rfl⟩ := result
    have known : ∀ read ∈ l.inbound, read ∈ names := fun read hread => by
      obtain ⟨i, hi, rfl⟩ := List.mem_iff_getElem.1 hread
      exact h.lookup (reads.get hi (reads.length_eq ▸ hi))
    exact List.forall_mem_cons.2
      ⟨Layer.mem_define_iff.2 (.inr ⟨rfl, by simpa using computed, known⟩), kept⟩

lemma within_run {layers : List Layer} {names : List String} {values values' : Values}
    (h : Within names values) (run : layers.foldlM g.step values = .value values') :
    Within (layers.foldl Layer.define names) values' := by
  induction layers generalizing names values with
  | nil =>
    cases run
    exact h
  | cons l layers ih =>
    rw [List.foldlM_cons, Outcome.bind_eq_value_iff] at run
    obtain ⟨next, step, run⟩ := run
    exact ih (within_step h step) run

lemma within_readInputs {inputs : List Tensor} {values : Values}
    (h : g.readInputs inputs = .value values) : Within g.architecture.inputs values := by
  rw [readInputs, Outcome.bind_eq_value_iff] at h
  obtain ⟨_, -, h⟩ := h
  refine Outcome.foldlM_value_induction (Within g.architecture.inputs) (by simp [Within]) ?_ h
  intro values q values' hq within read
  simp only [Outcome.bind_eq_value_iff, Outcome.pure_eq, Outcome.value.injEq] at read
  obtain ⟨m, -, rfl⟩ := read
  exact List.forall_mem_cons.2 ⟨(List.of_mem_zip hq).1, within⟩

/-- A run computes defined layers only, the outputs and every layer that is no input among
them. -/
lemma mem_defined_of_infer {inputs outs : List Tensor} (h : g.infer inputs = .value outs) :
    (∀ name ∈ g.architecture.outputs, name ∈ g.architecture.defined) ∧
      ∀ l ∈ g.architecture.layers, l.kind.isInput = false → l.name ∈ g.architecture.defined := by
  rw [infer, Outcome.bind_eq_value_iff] at h
  obtain ⟨start, read, h⟩ := h
  rw [Outcome.bind_eq_value_iff] at h
  obtain ⟨values, run, outputs⟩ := h
  -- a run has values for defined names only, and for every layer that is no input
  have within : Within g.architecture.defined values := within_run (within_readInputs read) run
  constructor
  · intro name hname
    rw [Outcome.mapM_eq_value_iff] at outputs
    obtain ⟨i, hi, rfl⟩ := List.mem_iff_getElem.1 hname
    have computed := outputs.get hi (outputs.length_eq ▸ hi)
    rw [Outcome.bind_eq_value_iff] at computed
    obtain ⟨m, found, -⟩ := computed
    exact within.lookup (Outcome.orError_eq_value_iff.1 found)
  · intro l hl computed
    obtain ⟨m, hm⟩ := (mem_of_run run).2 l hl computed
    exact within _ hm

end GraphModel

/-! ### Outputs -/

namespace Architecture

/-- **Outputs rest on declared inputs, or no run computes them.**  In a planned graph,
evaluation in order from the declared inputs defines every output exactly if every input layer
that an output rests on, through any chain of layers, is declared.  Else no model of this graph
has a run that ends in outputs. -/
theorem outputs_defined_iff {a : Architecture} {ops : CustomOps} {p : GraphPlan}
    (planned : a.plan ops = .value p) :
    ((∀ output ∈ a.outputs, output ∈ a.defined) ↔
      ∀ output ∈ a.outputs, ∀ i ∈ a.layers, i.kind.isInput = true →
        a.RestsOn output i.name → i.name ∈ a.inputs) ∧
    ∀ g : GraphModel, g.architecture = a → ∀ inputs outs, g.infer inputs = .value outs →
      ∀ output ∈ a.outputs, output ∈ a.defined := by
  constructor
  · refine forall₂_congr fun output declared => ?_
    obtain ⟨l, hl, rfl⟩ := List.mem_map.1 (output_mem_of_plan planned declared)
    exact mem_defined_iff planned l hl
  · rintro g rfl inputs outs run
    exact (GraphModel.mem_defined_of_infer run).1

/-- Every input layer that the enlarged image rests on is declared. -/
theorem outputs_defined_iff_enlargement :
    (∃ p, enlargement.plan (.standard none) = .value p) ∧
    ∀ output ∈ enlargement.outputs, ∀ i ∈ enlargement.layers, i.kind.isInput = true →
      enlargement.RestsOn output i.name → i.name ∈ enlargement.inputs := by
  obtain ⟨p, planned, -⟩ := Outcome.exists_of_holds
    (show (enlargement.plan (.standard none)).holds (fun _ => true) = true by decide +kernel)
  exact ⟨⟨p, planned⟩, (outputs_defined_iff planned).1.1 (by decide +kernel)⟩

/-- A graph that adds two images, of which one is declared. -/
def halfDeclared : Architecture where
  name := "sum"
  layers := [⟨"left", .input ⟨1, 1, 1⟩, []⟩, ⟨"right", .input ⟨1, 1, 1⟩, []⟩,
    ⟨"sum", .add, ["left", "right"]⟩]
  inputs := ["left"]
  outputs := ["sum"]

/-- The sum is planned, but it rests on an image that is not declared, and no run computes it. -/
theorem plan_halfDeclared :
    (∃ p, halfDeclared.plan .empty = .value p) ∧
    halfDeclared.RestsOn "sum" "right" ∧ "right" ∉ halfDeclared.inputs ∧
    "sum" ∉ halfDeclared.defined ∧
    ∀ g : GraphModel, g.architecture = halfDeclared →
      ∀ inputs outs, g.infer inputs ≠ .value outs := by
  have undefined : "sum" ∉ halfDeclared.defined := by decide +kernel
  refine ⟨?_, .single ⟨⟨"sum", .add, ["left", "right"]⟩, by simp [halfDeclared], rfl, by simp⟩,
    by decide, undefined, ?_⟩
  · obtain ⟨p, planned, -⟩ := Outcome.exists_of_holds
      (show (halfDeclared.plan .empty).holds (fun _ => true) = true by decide +kernel)
    exact ⟨p, planned⟩
  · rintro g graph inputs outs run
    refine undefined (graph ▸ (GraphModel.mem_defined_of_infer run).1 "sum" ?_)
    rw [graph]
    exact List.mem_singleton_self _

end Architecture

end FlatNet
