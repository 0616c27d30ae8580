import FlatNet.Proofs.Feature.Kernels
import FlatNet.Proofs.Graph.Model

/-!
Planned shapes are the shapes of values.

A layer that reads values of the planned shapes has a value of its own planned shape.  If
moreover the values it reads are stored and have one batch size, its parameters have the
right lengths and its primitive can be applied, its evaluation is refused for want of memory
only.  Both facts carry over to runs by induction on the layers evaluated so far.

* `GraphModel.evalLayer_ends`: how the evaluation of a layer ends;
* `GraphModel.Agrees`, `GraphModel.agrees_run`: values of planned shapes, along a run;
* `GraphModel.Known`, `GraphModel.run_ends`: values that are there and stored, along a run;
* `GraphModel.infer_sound`: a run of a prepared model.
-/

namespace FlatNet

open Outcome (Ends)

/-- A refusal for want of memory. -/
def GraphModelError.IsMemory (e : GraphModelError) : Prop := ∃ k, e = .kernel k ∧ k.IsMemory

/-- A refusal for want of memory, or because something does not fit. -/
def GraphModelError.Excused (fits : Prop) (e : GraphModelError) : Prop := e.IsMemory ∨ ¬ fits

lemma KernelError.Excused.kernel {fits fits' : Prop} {e : KernelError} (h : e.Excused fits')
    (imp : fits → fits') : (GraphModelError.kernel e).Excused fits :=
  h.imp (fun memory => ⟨e, rfl, memory⟩) fun misfit ready => misfit (imp ready)

namespace GraphModel

open FeatureMap

variable {g : GraphModel} {ops : CustomOps} {l : Layer}

/-! ### One layer -/

/-- A sum of feature maps has the shape of the first. -/
lemma sum_ends (first second : FeatureMap) (rest : List FeatureMap) :
    (sum (first :: second :: rest)).Ends
      (fun r => r.Shaped first.batch first.hwc ∧ (first.Stored → r.Stored))
      (GraphModelError.Excused (first.Stored ∧
        ∀ m ∈ second :: rest, m.Shaped first.batch first.hwc ∧ m.WellSized)) := by
  -- one addition keeps shape and size of the running sum, and all excuses are about operands
  have step (acc rhs : FeatureMap) (hrhs : rhs ∈ second :: rest)
      (kept : acc.Shaped first.batch first.hwc ∧ (first.Stored → acc.Stored)) :
      ((acc.add rhs .linear).mapError GraphModelError.kernel).Ends
        (fun r => r.Shaped first.batch first.hwc ∧ (first.Stored → r.Stored))
        (GraphModelError.Excused (first.Stored ∧
          ∀ m ∈ second :: rest, m.Shaped first.batch first.hwc ∧ m.WellSized)) := by
    refine ((add_ends acc rhs .linear).mono (fun r h => ?_) fun _ h => h).mapError
      fun e refused => refused.kernel fun fits => ?_
    · obtain ⟨-, shaped, stored⟩ := h
      rw [kept.1.batch, kept.1.hwc] at shaped
      exact ⟨shaped, fun h => stored (kept.2 h)⟩
    · have right := fits.2 rhs hrhs
      refine ⟨?_, (kept.2 fits.1).sized, right.2⟩
      rw [kept.1.batch, kept.1.hwc]
      exact right.1
  have later : ∀ xs : List FeatureMap, (∀ m ∈ xs, m ∈ second :: rest) → ∀ acc : FeatureMap,
      (acc.Shaped first.batch first.hwc ∧ (first.Stored → acc.Stored)) →
      ((xs.foldlM (fun (acc rhs : FeatureMap) => acc.add rhs .linear) acc).mapError
        GraphModelError.kernel).Ends
        (fun r => r.Shaped first.batch first.hwc ∧ (first.Stored → r.Stored))
        (GraphModelError.Excused (first.Stored ∧
          ∀ m ∈ second :: rest, m.Shaped first.batch first.hwc ∧ m.WellSized)) := by
    -- over the operands that are left, with the running sum generalized
    intro xs
    induction xs with
    | nil => exact fun _ acc kept => kept
    | cons x xs ih =>
      intro inside acc kept
      rw [List.foldlM_cons, Outcome.mapError_bind]
      refine (step acc x (inside x (List.mem_cons_self ..)) kept).bind fun acc' kept' => ?_
      exact ih (fun m hm => inside m (List.mem_cons_of_mem x hm)) acc' kept'
  refine (step first second (List.mem_cons_self ..) ⟨⟨rfl, rfl⟩, id⟩).bind fun acc kept => ?_
  exact later rest (fun m hm => List.mem_cons_of_mem _ hm) acc kept

/-- Everything that the evaluation of a layer needs beyond the shapes that it reads. -/
structure Ready (g : GraphModel) (l : Layer) (inputs : List Hwc) (args : List FeatureMap)
    (batch : Nat) : Prop where
  /-- The values it reads are stored and have one batch size. -/
  args : ∀ m ∈ args, m.batch = batch ∧ m.Stored
  /-- Its parameters have the right lengths. -/
  params : ∀ input, inputs.head? = some input → l.kind.Filled input (g.params.lookup l.name)
  /-- Its primitive can be applied. -/
  primitive : ∀ size s, g.plan.primitive? l.name = some (.resizeBilinear size s) →
    ResizeFits size s

namespace Ready

variable {inputs : List Hwc} {args : List FeatureMap} {batch : Nat} {x r : FeatureMap}

lemma single (ready : g.Ready l inputs [x] batch) : x.batch = batch ∧ x.Stored :=
  ready.args x (List.mem_singleton_self x)

/-- The value of a layer has the batch size of the first value that it reads. -/
lemma value {hwc : Hwc} {xs : List FeatureMap} (shaped : r.Shaped x.batch hwc)
    (stored : x.Stored → r.Stored) :
    r.hwc = hwc ∧ (g.Ready l inputs (x :: xs) batch → r.batch = batch ∧ r.Stored) := by
  refine ⟨shaped.hwc, fun ready => ?_⟩
  have first := ready.args x (List.mem_cons_self ..)
  exact ⟨shaped.batch.trans first.1, stored first.2⟩

end Ready

/-- A layer that reads values of the planned shapes has a value of its planned shape; if it is
ready, that value is stored and the evaluation is refused for want of memory only. -/
lemma evalLayer_ends {inputs : List Hwc} {hwc : Hwc} {primitive : Option Primitive}
    (planned : Planned ops g.plan l inputs hwc primitive) {args : List FeatureMap}
    (read : args.map (·.hwc) = inputs)
    (computed : l.kind.isInput = false) (batch : Nat) :
    (g.evalLayer l args).Ends
      (fun r => r.hwc = hwc ∧ (g.Ready l inputs args batch → r.batch = batch ∧ r.Stored))
      (GraphModelError.Excused (g.Ready l inputs args batch)) := by
  have shapes := planned.shapes
  have resolved := planned.primitive
  have single {input : Hwc} (one : inputs = [input]) : ∃ x, args = [x] ∧ x.hwc = input := by
    rw [one, List.map_eq_singleton_iff] at read
    exact read
  -- parameters of another kind than the layer are excused: a prepared model has none
  have unfilled {input : Hwc} (first : inputs.head? = some input)
      (bad : ¬ l.kind.Filled input (g.params.lookup l.name)) (e : GraphModelError) :
      e.Excused (g.Ready l inputs args batch) :=
    .inr fun ready => bad (ready.params input first)
  rw [evalLayer]
  generalize hk : l.kind = kind at shapes computed unfilled
  cases shapes with
  | input _ => cases computed
  | @conv2d filters w a useBias _ h v _ made =>
    obtain ⟨x, rfl, rfl⟩ := single rfl
    dsimp only [paramsOf]
    rcases hp : g.params.lookup l.name with _ | ⟨filter, bias⟩ | ⟨filter, bias⟩ | ⟨params⟩
    case some.conv =>
      refine ((x.conv2d_ends filter filters bias w a).mono ?_ fun _ h => h).mapError
        fun e refused => refused.kernel fun ready => ?_
      · rintro r ⟨h', v', made', shaped, stored⟩
        -- the kernel and the plan compute the window alike
        obtain ⟨rfl, rfl⟩ := made.unique made'
        exact Ready.value shaped fun _ => stored
      · have filled := ready.params _ rfl
        rw [hk, hp] at filled
        cases filled with
        | conv2d size biased => exact ⟨size, biased, h, v, made⟩
    all_goals exact unfilled rfl (by rw [hp]; rintro ⟨⟩ <;> contradiction) _
  | @depthwiseConv2d w a useBias _ h v made =>
    obtain ⟨x, rfl, rfl⟩ := single rfl
    dsimp only [paramsOf]
    rcases hp : g.params.lookup l.name with _ | ⟨filter, bias⟩ | ⟨filter, bias⟩ | ⟨params⟩
    case some.depthwise =>
      refine ((x.depthwiseConv2d_ends filter bias w a).mono ?_ fun _ h => h).mapError
        fun e refused => refused.kernel fun ready => ?_
      · rintro r ⟨h', v', made', shaped, stored⟩
        obtain ⟨rfl, rfl⟩ := made.unique made'
        exact Ready.value shaped fun _ => stored
      · have filled := ready.params _ rfl
        rw [hk, hp] at filled
        cases filled with
        | depthwiseConv2d size biased => exact ⟨size, biased, h, v, made⟩
    all_goals exact unfilled rfl (by rw [hp]; rintro ⟨⟩ <;> contradiction) _
  | @batchNorm epsilon _ =>
    obtain ⟨x, rfl, rfl⟩ := single rfl
    dsimp only [paramsOf]
    rcases hp : g.params.lookup l.name with _ | ⟨filter, bias⟩ | ⟨filter, bias⟩ | ⟨params⟩
    case some.norm =>
      refine ((x.batchNorm_ends params epsilon.value).mono ?_ fun _ h => h).mapError
        fun e refused => refused.kernel fun ready => ?_
      · rintro r ⟨shaped, stored⟩
        exact Ready.value shaped stored
      · have filled := ready.params _ rfl
        have sized := ready.single.2.sized
        rw [hk, hp] at filled
        cases filled with
        | batchNorm sizes =>
          simp only [List.forall_mem_cons] at sizes
          exact ⟨sizes.1, sizes.2.1, sizes.2.2.1, sizes.2.2.2.1, sized⟩
    all_goals exact unfilled rfl (by rw [hp]; rintro ⟨⟩ <;> contradiction) _
  | activation =>
    obtain ⟨x, rfl, rfl⟩ := single rfl
    exact Ready.value (shaped_activate ..) fun stored => stored.activate _
  | add same =>
    obtain ⟨x, _, rfl, rfl, tail⟩ := List.map_eq_cons_iff.1 read
    obtain ⟨y, ys, rfl, rfl, rfl⟩ := List.map_eq_cons_iff.1 tail
    rw [← List.map_cons (f := fun m : FeatureMap => m.hwc), List.forall_mem_map] at same
    refine (sum_ends x y ys).mono ?_ fun e refused => refused.imp_right fun misfit ready =>
      misfit ?_
    · rintro r ⟨shaped, stored⟩
      exact Ready.value shaped stored
    -- all operands are of the shape and the batch of the first
    · have first := ready.args x (List.mem_cons_self ..)
      refine ⟨first.2, fun m hm => ?_⟩
      have arg := ready.args m (List.mem_cons_of_mem x hm)
      exact ⟨⟨arg.1.trans first.1.symm, same m hm⟩, arg.2.sized⟩
  | concat same =>
    obtain ⟨x, _, rfl, rfl, tail⟩ := List.map_eq_cons_iff.1 read
    obtain ⟨y, ys, rfl, rfl, rfl⟩ := List.map_eq_cons_iff.1 tail
    rw [← List.map_cons (f := fun m : FeatureMap => m.hwc),
      ← List.map_cons (f := fun m : FeatureMap => m.hwc), List.forall_mem_map] at same
    refine ((concat_ends (x :: y :: ys)).mono ?_ fun _ h => h).mapError
      fun e refused => refused.kernel fun ready => ?_
    · rintro r ⟨first, rest, split, -, shaped, stored⟩
      obtain ⟨rfl, -⟩ := List.cons.inj split
      refine ⟨?_, fun ready => ⟨?_, stored⟩⟩
      · rw [shaped.hwc, channelSum, List.map_cons, List.map_cons, List.map_cons, List.map_cons,
          List.map_map]
        rfl
      · exact shaped.batch.trans (ready.args _ (List.mem_cons_self ..)).1
    · refine ⟨List.cons_ne_nil _ _, fun m hm m' hm' => ?_, fun m hm m' hm' => ?_⟩
      · exact (ready.args m hm).1.trans (ready.args m' hm').1.symm
      · exact ⟨(same m hm).1.trans (same m' hm').1.symm, (same m hm).2.trans (same m' hm').2.symm⟩
  | maxPool2d made =>
    obtain ⟨x, rfl, rfl⟩ := single rfl
    refine ((x.maxPool2d_ends _).mono ?_ fun _ h => h).mapError
      fun e refused => refused.kernel fun _ => ⟨_, _, made⟩
    rintro r ⟨h', v', made', shaped, stored⟩
    obtain ⟨rfl, rfl⟩ := made.unique made'
    exact Ready.value shaped fun _ => stored
  | @custom _ _ _ p _ =>
    obtain ⟨x, rfl, rfl⟩ := single rfl
    cases p with
    | resizeBilinear size s =>
      rw [resolved]
      refine ((x.resizeBilinear_ends size s).mono ?_ fun _ h => h).mapError
        fun e refused => refused.kernel fun ready => ready.primitive size s resolved
      rintro r ⟨shaped, stored⟩
      exact Ready.value shaped fun _ => stored

/-! ### Values of planned shapes -/

/-- Every value has the planned shape of its layer. -/
def Agrees (g : GraphModel) (values : Values) : Prop :=
  ∀ entry ∈ values, g.plan.shape? entry.1 = some entry.2.hwc

lemma agrees_lookup {values : Values} (h : g.Agrees values) {name : String} {m : FeatureMap}
    (found : values.lookup name = some m) : g.plan.shape? name = some m.hwc := by
  obtain ⟨before, after, rfl, -⟩ := List.lookup_eq_some_iff.1 found
  exact h (name, m) (by simp)

/-- The evaluation of a planned layer, once the values it reads are there. -/
lemma step_eq_value_iff {values values' : Values} :
    g.step values l = .value values' ↔
      ∃ args, List.Forall₂ (fun name m => values.lookup name = some m) l.inbound args ∧
        if l.kind.isInput then values = values'
        else ∃ r, g.evalLayer l args = .value r ∧ (l.name, r) :: values = values' := by
  simp only [step, Outcome.bind_eq_value_iff, Outcome.mapM_eq_value_iff,
    Outcome.orError_eq_value_iff]
  refine exists_congr fun args => and_congr_right fun _ => ?_
  split
  · rw [Outcome.pure_eq, Outcome.value.injEq]
  · simp only [Outcome.bind_eq_value_iff, Outcome.pure_eq, Outcome.value.injEq]

/-- Values that a layer reads have the shapes that its rule reads. -/
lemma shapes_of_args {values : Values} (agrees : g.Agrees values) {inputs : List Hwc} {hwc : Hwc}
    {primitive : Option Primitive} (planned : Planned ops g.plan l inputs hwc primitive)
    {args : List FeatureMap}
    (read : List.Forall₂ (fun name m => values.lookup name = some m) l.inbound args) :
    args.map (·.hwc) = inputs := by
  have reads := planned.reads
  rw [← List.forall₂_eq_eq_eq, List.forall₂_map_left_iff]
  clear planned
  generalize l.inbound = names at read reads
  induction read generalizing inputs with
  | nil =>
    cases reads
    exact List.Forall₂.nil
  | cons found _ ih =>
    cases reads with
    | cons shape rest =>
      have same := Option.some.inj ((agrees_lookup agrees found).symm.trans shape)
      exact List.Forall₂.cons same (ih rest)

lemma agrees_step {values values' : Values} {inputs : List Hwc} {hwc : Hwc}
    {primitive : Option Primitive} (planned : Planned ops g.plan l inputs hwc primitive)
    (agrees : g.Agrees values) (step : g.step values l = .value values') : g.Agrees values' := by
  obtain ⟨args, read, result⟩ := step_eq_value_iff.1 step
  split at result
  · exact result ▸ agrees
  · rename_i computed
    obtain ⟨r, evaluated, rfl⟩ := result
    have shape := (evalLayer_ends planned (shapes_of_args agrees planned read)
      (by simpa using computed) 0).of_value evaluated
    rw [Agrees, List.forall_mem_cons]
    exact ⟨planned.shape.trans (congrArg some shape.1.symm), agrees⟩

lemma readInput_eq_value {name : String} {t : Tensor} {m : FeatureMap}
    (h : g.readInput name t = .value m) :
    FeatureMap.ofTensor t = .value m ∧ g.plan.shape? name = some m.hwc := by
  simp only [readInput, Outcome.bind_eq_value_iff, Outcome.mapError_eq_value_iff,
    Outcome.orError_eq_value_iff, Outcome.require_eq_value_iff, Outcome.pure_eq,
    Outcome.value.injEq, decide_eq_true_eq] at h
  obtain ⟨_, read, _, planned, _, same, rfl⟩ := h
  exact ⟨read, same ▸ planned⟩

lemma agrees_readInputs {inputs : List Tensor} {values : Values}
    (h : g.readInputs inputs = .value values) : g.Agrees values := by
  rw [readInputs, Outcome.bind_eq_value_iff] at h
  obtain ⟨_, -, h⟩ := h
  refine Outcome.foldlM_value_induction g.Agrees (by simp [Agrees]) ?_ h
  intro values p values' _ agrees read
  simp only [Outcome.bind_eq_value_iff, Outcome.pure_eq, Outcome.value.injEq] at read
  obtain ⟨m, read, rfl⟩ := read
  rw [Agrees, List.forall_mem_cons]
  exact ⟨(readInput_eq_value read).2, agrees⟩

/-- Values of planned shapes stay so along a run. -/
lemma agrees_run {layers : List Layer} {values values' : Values}
    (planned : ∀ l ∈ layers, ∃ inputs hwc primitive, Planned ops g.plan l inputs hwc primitive)
    (agrees : g.Agrees values) (run : layers.foldlM g.step values = .value values') :
    g.Agrees values' := by
  refine Outcome.foldlM_value_induction g.Agrees agrees (fun values l values' hl agrees step => ?_)
    run
  obtain ⟨_, _, _, planned⟩ := planned l hl
  exact agrees_step planned agrees step

/-- Every layer that is no input has a value after a run. -/
lemma mem_of_run {layers : List Layer} {values values' : Values}
    (run : layers.foldlM g.step values = .value values') :
    values ⊆ values' ∧ ∀ l ∈ layers, l.kind.isInput = false → ∃ m, (l.name, m) ∈ values' := by
  -- over the layers: values are only added, one for each layer that is no input
  induction layers generalizing values with
  | nil =>
    cases run
    exact ⟨List.Subset.refl _, List.forall_mem_nil _⟩
  | cons l layers ih =>
    rw [List.foldlM_cons, Outcome.bind_eq_value_iff] at run
    obtain ⟨next, step, run⟩ := run
    obtain ⟨kept, later⟩ := ih run
    obtain ⟨args, -, result⟩ := step_eq_value_iff.1 step
    split at result
    · rename_i input
      subst result
      refine ⟨kept, fun l' hl' computed => ?_⟩
      rcases List.mem_cons.1 hl' with rfl | hl'
      · simp [input] at computed
      · exact later l' hl' computed
    · obtain ⟨r, -, rfl⟩ := result
      refine ⟨fun entry h => kept (List.mem_cons_of_mem _ h), fun l' hl' computed => ?_⟩
      rcases List.mem_cons.1 hl' with rfl | hl'
      · exact ⟨r, kept (List.mem_cons_self ..)⟩
      · exact later l' hl' computed

end GraphModel

/-! ### Declared outputs -/

/-- A tensor has the declared element type and, where they are declared, the dimensions. -/
structure TensorSpec.Admits (spec : TensorSpec) (t : Tensor) : Prop where
  /-- The element type. -/
  dtype : t.dtype = spec.dtype
  /-- The rank. -/
  rank : t.shape.length = spec.rank
  /-- The dimensions. -/
  dims : List.Forall₂ (fun dim n => ∀ k, dim = some k → n = k) spec.dims t.shape

/-- The tensor of a feature map has the dimensions declared for its shape. -/
lemma TensorSpec.admits_toTensor {m : FeatureMap} {t : Tensor} (h : m.toTensor = .value t)
    (name : String) :
    (activation name m.hwc.height m.hwc.width m.hwc.channels).Admits t := by
  obtain ⟨dtype, shape⟩ := FeatureMap.shape_of_toTensor h
  refine ⟨dtype, by rw [shape]; rfl, ?_⟩
  rw [shape]
  have same (n : Nat) : ∀ k, some n = some k → n = k := fun k h => Option.some.inj h
  exact .cons nofun (.cons (same _) (.cons (same _) (.cons (same _) .nil)))

namespace GraphModel

open FeatureMap

variable {g : GraphModel} {ops : CustomOps} {l : Layer}

/-- The outputs of a graph have the declared names and dimensions. -/
lemma outputs_of_values {values : Values} (agrees : g.Agrees values) {names : List String}
    {outs : List Tensor}
    (h : List.Forall₂ (fun name t => ∃ m, values.lookup name = some m ∧ m.toTensor = .value t)
      names outs) :
    List.Forall₂ TensorSpec.Admits
      (names.filterMap fun name =>
        (g.plan.shape? name).map fun s => .activation name s.height s.width s.channels) outs ∧
      (names.filterMap fun name =>
        (g.plan.shape? name).map fun s =>
          TensorSpec.activation name s.height s.width s.channels).map (·.name) = names := by
  induction h with
  | nil => exact ⟨List.Forall₂.nil, rfl⟩
  | @cons name t names outs first _ ih =>
    obtain ⟨m, found, made⟩ := first
    rw [List.filterMap_cons, agrees_lookup agrees found]
    refine ⟨List.Forall₂.cons (TensorSpec.admits_toTensor made name) ih.1, ?_⟩
    rw [Option.map_some, List.map_cons, ih.2]
    rfl

/-! ### Refusals -/

/-- A layer has a stored value of a batch size. -/
def Known (batch : Nat) (values : Values) (name : String) : Prop :=
  ∃ m, values.lookup name = some m ∧ m.batch = batch ∧ m.Stored

section Refusals

variable {batch : Nat} {values : Values}

lemma Known.self {name : String} {m : FeatureMap} (shaped : m.batch = batch) (stored : m.Stored) :
    Known batch ((name, m) :: values) name :=
  ⟨m, List.lookup_cons_self, shaped, stored⟩

lemma Known.cons {name : String} (h : Known batch values name) {other : String} {m : FeatureMap}
    (shaped : m.batch = batch) (stored : m.Stored) : Known batch ((other, m) :: values) name := by
  by_cases same : name = other
  · subst same
    exact .self shaped stored
  · obtain ⟨m', found, rest⟩ := h
    refine ⟨m', ?_, rest⟩
    rw [lookup_cons_of_ne same]
    exact found

lemma exists_args {names : List String} (known : ∀ name ∈ names, Known batch values name) :
    ∃ args : List FeatureMap,
      List.Forall₂ (fun name m => values.lookup name = some m) names args ∧
        ∀ m ∈ args, m.batch = batch ∧ m.Stored := by
  induction names with
  | nil => exact ⟨[], List.Forall₂.nil, List.forall_mem_nil _⟩
  | cons name names ih =>
    obtain ⟨m, found, kept⟩ := known name (List.mem_cons_self ..)
    obtain ⟨args, read, rest⟩ := ih fun other h => known other (List.mem_cons_of_mem name h)
    exact ⟨m :: args, .cons found read, List.forall_mem_cons.2 ⟨kept, rest⟩⟩

/-- What the evaluation of a planned layer needs apart from the values it reads: parameters of
the right lengths, and a primitive that can be applied. -/
structure Equipped (ops : CustomOps) (g : GraphModel) (l : Layer) : Prop where
  /-- The layer is planned, and its parameters have the right lengths. -/
  filled : ∃ inputs hwc primitive, Planned ops g.plan l inputs hwc primitive ∧
    ∀ input, inputs.head? = some input → l.kind.Filled input (g.params.lookup l.name)
  /-- Its primitive can be applied. -/
  primitive : ∀ size s, g.plan.primitive? l.name = some (.resizeBilinear size s) →
    ResizeFits size s

/-- Preparing a model equips its layers with parameters. -/
lemma equipped_of_prepare {m : Model} (prepared : prepare m ops = .value g) (sized : m.WellSized)
    (hl : l ∈ m.architecture.layers)
    (proper : ∀ size s, g.plan.primitive? l.name = some (.resizeBilinear size s) →
      ResizeFits size s) : Equipped ops g l := by
  obtain ⟨valid, -, -, params⟩ := prepared_of_prepare prepared
  obtain ⟨inputs, hwc, primitive, planned⟩ :=
    Architecture.planned_of_mem (Model.validate_eq_value_iff.1 valid).1 hl
  refine ⟨⟨inputs, hwc, primitive, planned, fun input first => ?_⟩, proper⟩
  exact filled_of_layerParams (sized.fills valid) hl
    ((Model.inputShape?_of_planned planned).trans first) valid planned (params l hl)

/-- One layer: values that are known stay known, and the layer gets to be known. -/
lemma step_ends (equipped : Equipped ops g l) (agrees : g.Agrees values)
    (known : ∀ name ∈ l.inbound, Known batch values name) :
    (g.step values l).Ends
      (fun values' => g.Agrees values' ∧
        (∀ name, Known batch values name → Known batch values' name) ∧
        (l.kind.isInput = false → Known batch values' l.name))
      GraphModelError.IsMemory := by
  obtain ⟨inputs, hwc, primitive, planned, filled⟩ := equipped.filled
  obtain ⟨args, read, stored⟩ := exists_args known
  -- every name that the layer reads is known, so nothing is missing
  have fetched : (l.inbound.mapM fun name =>
      Outcome.orError (GraphModelError.notEvaluated l.name name) (values.lookup name))
      = .value args := by
    rw [Outcome.mapM_eq_value_iff]
    exact read.imp fun name m found => Outcome.orError_eq_value_iff.2 found
  have ready : g.Ready l inputs args batch := ⟨stored, filled, equipped.primitive⟩
  rw [step, fetched, Outcome.value_bind]
  split
  · rename_i input
    exact ⟨agrees, fun _ h => h, fun computed => by simp [input] at computed⟩
  · rename_i computed
    refine ((evalLayer_ends planned (shapes_of_args agrees planned read)
      (by simpa using computed) batch).mono (fun _ h => h) ?_).bind ?_
    -- a misfit is excused only if the layer is not ready, which it is
    · rintro e (memory | misfit)
      · exact memory
      · exact absurd ready misfit
    · rintro r ⟨shape, kept⟩
      obtain ⟨same, stored⟩ := kept ready
      refine ⟨?_, fun name h => h.cons same stored, fun _ => .self same stored⟩
      exact List.forall_mem_cons.2 ⟨planned.shape.trans (congrArg some shape.symm), agrees⟩

/-- A run of layers, each of which reads known values, is refused for want of memory only. -/
lemma run_ends {layers : List Layer} {done : List String}
    (order : ∀ pre l post, layers = pre ++ l :: post →
      ∀ name ∈ l.inbound, name ∈ done ++ pre.map (·.name))
    (equipped : ∀ l ∈ layers, Equipped ops g l) (agrees : g.Agrees values)
    (known : ∀ name ∈ done, Known batch values name)
    (fed : ∀ l ∈ layers, l.kind.isInput = true → Known batch values l.name) :
    (layers.foldlM g.step values).Ends
      (fun values' => g.Agrees values' ∧
        ∀ name ∈ done ++ layers.map (·.name), Known batch values' name)
      GraphModelError.IsMemory := by
  -- the known names grow with the layers run so far, `done`; the inputs of the rest have been fed
  -- before
  induction layers generalizing done values with
  | nil => exact ⟨agrees, by simpa using known⟩
  | cons l layers ih =>
    rw [List.foldlM_cons]
    have inbound : ∀ name ∈ l.inbound, Known batch values name := fun name h =>
      known name (by simpa using order [] l layers rfl name h)
    refine (step_ends (equipped l (List.mem_cons_self ..)) agrees inbound).bind ?_
    rintro next ⟨agrees', kept, computed⟩
    have known' : ∀ name ∈ done ++ [l.name], Known batch next name := by
      intro name hname
      rcases List.mem_append.1 hname with earlier | last
      · exact kept name (known name earlier)
      · obtain rfl := List.mem_singleton.1 last
        cases input : l.kind.isInput with
        | false => exact computed input
        | true => exact kept _ (fed l (List.mem_cons_self ..) input)
    have order' : ∀ pre l' post, layers = pre ++ l' :: post →
        ∀ name ∈ l'.inbound, name ∈ (done ++ [l.name]) ++ pre.map (·.name) := by
      intro pre l' post split name h
      simpa using order (l :: pre) l' post (by rw [split]; rfl) name h
    have rest := ih order' (fun l' h => equipped l' (List.mem_cons_of_mem l h)) agrees' known'
      fun l' h input => kept _ (fed l' (List.mem_cons_of_mem l h) input)
    simpa using rest

/-- Well-sized tensors of the declared shapes, of one batch size. -/
def Feeds (g : GraphModel) (batch : Nat) (inputs : List Tensor) : Prop :=
  List.Forall₂ (fun name (t : Tensor) => ∃ hwc, g.plan.shape? name = some hwc ∧ t.dtype = .f32 ∧
    t.shape = [batch, hwc.height, hwc.width, hwc.channels] ∧ t.WellSized)
    g.architecture.inputs inputs

/-- Inputs of the declared shapes are read, and known then. -/
lemma readInputs_eq_value {inputs : List Tensor} (feeds : g.Feeds batch inputs) (images : batch ≠ 0)
    (full : ∀ name s, g.plan.shape? name = some s → s.Full) :
    ∃ values, g.readInputs inputs = .value values ∧
      ∀ name ∈ g.architecture.inputs, Known batch values name := by
  -- the values are threaded through, so what is known before must stay known
  have all : ∀ (names : List String) (inputs : List Tensor) (values : Values),
      List.Forall₂ (fun name (t : Tensor) => ∃ hwc, g.plan.shape? name = some hwc ∧
        t.dtype = .f32 ∧ t.shape = [batch, hwc.height, hwc.width, hwc.channels] ∧ t.WellSized)
        names inputs →
      ∃ values', (names.zip inputs).foldlM (fun values p => do
          return (p.1, ← g.readInput p.1 p.2) :: values) values = .value values' ∧
        (∀ name, Known batch values name → Known batch values' name) ∧
        ∀ name ∈ names, Known batch values' name := by
    intro names inputs values h
    induction h generalizing values with
    | nil => exact ⟨values, rfl, fun _ h => h, List.forall_mem_nil _⟩
    | @cons name t names inputs first _ ih =>
      obtain ⟨hwc, planned, dtype, shape, sized⟩ := first
      obtain ⟨m, made, shaped, stored⟩ :=
        ofTensor_eq_value dtype shape images (full name hwc planned) sized
      have read : g.readInput name t = .value m := by
        simp only [readInput, made, planned, Outcome.mapError_value, Outcome.value_bind,
          Outcome.orError_some, shaped.hwc, decide_true, Outcome.require_true, Outcome.pure_eq]
      obtain ⟨values', rest, kept, known⟩ := ih ((name, m) :: values)
      refine ⟨values', ?_, fun other h => kept other (h.cons shaped.batch stored), ?_⟩
      · rw [List.zip_cons_cons, List.foldlM_cons, read]
        exact rest
      · exact List.forall_mem_cons.2 ⟨kept name (.self shaped.batch stored), known⟩
  obtain ⟨values, read, -, known⟩ := all _ _ [] feeds
  refine ⟨values, ?_, known⟩
  have count : decide (inputs.length = g.architecture.inputs.length) = true :=
    decide_eq_true feeds.length_eq.symm
  rw [readInputs, count, Outcome.require_true, Outcome.value_bind]
  exact read

end Refusals

/-! ### Runs -/

/-- A prepared model is sound in its shapes.

If a run gives outputs, then every value on the way has the shape that is planned for its
layer, every layer evaluated so far that is no input has a value, and the outputs are those of
the declared names, in order, with the declared dimensions.

If every input layer is declared, every primitive can be applied and the inputs are well-sized
images of the declared shapes, with one batch size other than zero, then a run is refused for
want of memory only. -/
theorem infer_sound {m : Model} {ops : CustomOps} {g : GraphModel}
    (prepared : prepare m ops = .value g) (sized : m.WellSized) (inputs : List Tensor) :
    (∀ outs, g.infer inputs = .value outs →
      (∀ pre post, m.architecture.layers = pre ++ post → ∃ values,
        (g.readInputs inputs >>= fun start => pre.foldlM g.step start) = .value values ∧
        (∀ entry ∈ values, g.plan.shape? entry.1 = some entry.2.hwc) ∧
        ∀ l ∈ pre, l.kind.isInput = false → ∃ r, (l.name, r) ∈ values) ∧
      g.spec.outputs.map (·.name) = m.architecture.outputs ∧
      List.Forall₂ TensorSpec.Admits g.spec.outputs outs) ∧
    (∀ batch, batch ≠ 0 →
      (∀ l ∈ m.architecture.layers, l.kind.isInput = true → l.name ∈ m.architecture.inputs) →
      (∀ layer size s, g.plan.primitive? layer = some (.resizeBilinear size s) →
        ResizeFits size s) →
      g.Feeds batch inputs →
      ∀ e, g.infer inputs = .error e → e.IsMemory) := by
  obtain ⟨valid, architecture, spec, -⟩ := prepared_of_prepare prepared
  have plan := (Model.validate_eq_value_iff.1 valid).1
  constructor
  · intro outs run
    rw [infer, Outcome.bind_eq_value_iff] at run
    obtain ⟨start, read, run⟩ := run
    rw [Outcome.bind_eq_value_iff, architecture] at run
    obtain ⟨values, evaluated, outputs⟩ := run
    have planned : ∀ l ∈ m.architecture.layers, ∃ inputs hwc primitive,
        Planned ops g.plan l inputs hwc primitive := fun l hl =>
      Architecture.planned_of_mem plan hl
    have agrees := agrees_run planned (agrees_readInputs read) evaluated
    refine ⟨fun pre post split => ?_, ?_⟩
    · rw [split, Outcome.foldlM_append_eq_value_iff] at evaluated
      obtain ⟨middle, first, -⟩ := evaluated
      refine ⟨middle, by rw [read]; exact first, ?_, (mem_of_run first).2⟩
      refine agrees_run (fun l hl => planned l ?_) (agrees_readInputs read) first
      rw [split]
      exact List.mem_append_left post hl
    · rw [Outcome.mapM_eq_value_iff] at outputs
      have found := outputs_of_values agrees (outputs.imp fun name t h => by
        simpa only [Outcome.bind_eq_value_iff, Outcome.orError_eq_value_iff,
          Outcome.mapError_eq_value_iff] using h)
      rw [spec]
      exact ⟨found.2, found.1⟩
  · intro batch images listed proper feeds e refused
    have full : ∀ name s, g.plan.shape? name = some s → s.Full := fun name s hs =>
      Architecture.full_of_plan plan
        (fun name size s' found => ⟨(proper name size s' found).height,
          (proper name size s' found).width⟩) hs
    obtain ⟨start, read, known⟩ := readInputs_eq_value feeds images full
    rw [architecture] at known
    have equipped : ∀ l ∈ m.architecture.layers, Equipped ops g l := fun l hl =>
      equipped_of_prepare prepared sized hl (proper l.name)
    have order : ∀ pre l post, m.architecture.layers = pre ++ l :: post →
        ∀ name ∈ l.inbound, name ∈ [] ++ pre.map (·.name) := fun pre l post split =>
      (Architecture.planned_of_plan plan split).1
    have run := run_ends order equipped (agrees_readInputs read) (List.forall_mem_nil _)
      fun l hl input => known l.name (listed l hl input)
    rw [infer, read, Outcome.value_bind, architecture] at refused
    refine Ends.of_error (Q := fun _ => True) (run.bind ?_) refused
    rintro values ⟨agrees, known⟩
    refine (Ends.mapM (Q := fun _ _ => True) fun name output => ?_).mono (fun _ _ => trivial)
      fun _ h => h
    obtain ⟨r, found, shaped, stored⟩ := known name (Architecture.output_mem_of_plan plan output)
    obtain ⟨t, made⟩ := toTensor_eq_value (shaped ▸ images)
      (full name _ (agrees_lookup agrees found)) stored
    rw [found, Outcome.orError_some, Outcome.value_bind, made]
    trivial

/-- A model that adds a pointwise convolution of an image to the image. -/
def sharpening : Model where
  architecture := {
    name := "sharpening"
    layers := [
      ⟨"image", .input ⟨2, 2, 1⟩, []⟩,
      ⟨"detail", .conv2d 1 ⟨(1, 1), (1, 1), .same⟩ .sigmoid false, ["image"]⟩,
      ⟨"sharp", .add, ["image", "detail"]⟩]
    inputs := ["image"]
    outputs := ["sharp"] }
  weights := .ofList [("detail/kernel", ⟨.f32, [1, 1, 1, 1], Bytes.ofSingles [⟨0x3f000000⟩]⟩)]

/-- An image of four pixels in tones of gray. -/
def grays : Tensor :=
  ⟨.f32, [1, 2, 2, 1], Bytes.ofSingles [⟨0x3e800000⟩, ⟨0x3f000000⟩, ⟨0x3f400000⟩, ⟨0x3f800000⟩]⟩

/-- The model runs on an image and gives an output as it is declared; whatever is fed to it in the
same way is refused for want of memory only. -/
theorem infer_sound_sharpening : ∃ g outs, prepare sharpening .empty = .value g ∧
    g.Feeds 1 [grays] ∧ g.infer [grays] = .value outs ∧
    List.Forall₂ TensorSpec.Admits g.spec.outputs outs ∧
    ∀ inputs, g.Feeds 1 inputs → ∀ e, g.infer inputs = .error e → e.IsMemory := by
  obtain ⟨g, prepared, tests⟩ := Outcome.exists_of_holds
    (show (prepare sharpening .empty).holds (fun g => decide (g.plan.primitives = [] ∧
      g.architecture.inputs = ["image"] ∧ g.plan.shape? "image" = some ⟨2, 2, 1⟩) &&
        (g.infer [grays]).holds fun _ => true) = true by decide +kernel)
  rw [Bool.and_eq_true, decide_eq_true_iff] at tests
  obtain ⟨⟨plain, declared, shape⟩, ran⟩ := tests
  obtain ⟨outs, run, -⟩ := Outcome.exists_of_holds ran
  have sized : sharpening.WellSized := Model.wellSized_of_entries (by decide +kernel)
  have feeds : g.Feeds 1 [grays] := by
    rw [Feeds, declared]
    exact .cons ⟨_, shape, rfl, rfl, by decide +kernel⟩ .nil
  refine ⟨g, outs, prepared, feeds, run, ((infer_sound prepared sized [grays]).1 outs run).2.2,
    fun inputs feeds => ?_⟩
  refine (infer_sound prepared sized inputs).2 1 one_ne_zero (by decide +kernel) ?_ feeds
  intro layer size s found
  rw [GraphPlan.primitive?, plain] at found
  cases found

end GraphModel

end FlatNet
