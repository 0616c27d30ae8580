import FlatNet.Proofs.Graph.Plan

/-!
Which graphs have a plan.

Planning walks the layers once and keeps what it has inferred.  What it decides can be said
without a walk: the layers are named apart and stand after what they read, some assignment of
shapes obeys the rule of every layer, and the declared ends are layers of the graph.  The
assignment is then the only one, and it is what the plan holds.

* `LayerKind.Obeys`: everything that a layer asks of the shapes around it;
* `Architecture.Assigns`, `Architecture.WellFormed`: shapes for all layers, and the graphs that
  have them;
* `Layer.infer_eq_value_iff`: the inference of one layer decides its rule;
* `Architecture.plan_iff_wellFormed`: planning decides well-formedness, and finds the one
  assignment and the primitive of every custom layer.
-/

namespace FlatNet

/-! ### Rules -/

/-- Everything that a layer asks for: the shapes of its kind, an epsilon that is finite and not
negative, and a number of channels side by side that is a size. -/
structure LayerKind.Obeys (ops : CustomOps) (layer : String) (kind : LayerKind)
    (inputs : List Hwc) (hwc : Hwc) (primitive : Option Primitive) : Prop where
  /-- The shapes it reads, its own, and its primitive. -/
  shapes : kind.Shapes ops layer inputs hwc primitive
  /-- The epsilon of a normalisation. -/
  epsilon : ∀ e, kind = .batchNorm e → e.finite = true ∧ ¬ e.value < 0
  /-- The channels of a concatenation. -/
  channels : kind = .concat → hwc.channels < Size.bound

/-- Whether a layer is a custom one. -/
def LayerKind.isCustom : LayerKind → Bool
  | .custom .. => true
  | _ => false

/-- A layer resolves to what the registered operation of its function lowers its arguments
to. -/
lemma CustomOps.resolve_eq_ok_iff {ops : CustomOps} {layer function : String} {arguments : Json}
    {p : Primitive} :
    ops.resolve layer function arguments = .ok p ↔
      ∃ lower, ops.get? function = some lower ∧ lower arguments = .ok p := by
  unfold resolve
  cases registered : ops.get? function with
  | none => simp
  | some lower => cases lowered : lower arguments <;> simp [lowered]

namespace LayerKind.Obeys

variable {ops : CustomOps} {layer : String} {kind : LayerKind} {inputs : List Hwc} {hwc : Hwc}
  {primitive : Option Primitive}

/-- A layer has a primitive exactly if it is a custom one. -/
lemma isSome_primitive (h : kind.Obeys ops layer inputs hwc primitive) :
    primitive.isSome = kind.isCustom := by
  cases h.shapes <;> rfl

end LayerKind.Obeys

/-! ### Inference -/

/-- The size that a window makes is computed. -/
lemma Window.outputSize_of_makes {w : Window} {input : Hwc} {h v : Nat} (made : w.Makes input h v)
    (layer : String) : w.outputSize layer input = .value (h, v) := by
  obtain ⟨-, -, down, across⟩ := degenerate_eq_false made.proper
  simp only [outputSize, made.proper, Bool.not_false, Outcome.require_true, Outcome.value_bind,
    Padding.outputLen_of_covers down made.rows, Padding.outputLen_of_covers across made.columns,
    Outcome.orError_some, Outcome.pure_eq]

namespace Layer

variable {ops : CustomOps} {l : Layer} {inputs : List Hwc} {hwc : Hwc}
  {primitive : Option Primitive}

/-- An inferred layer obeys its rule. -/
lemma obeys_of_infer (h : l.infer ops inputs = .value (hwc, primitive)) :
    l.kind.Obeys ops l.name inputs hwc primitive := by
  refine ⟨shapes_of_infer h, fun e normal => ?_, fun concat => ?_⟩
  all_goals
    rw [infer, Outcome.bind_eq_value_iff] at h
    obtain ⟨_, arity, h⟩ := h
    rw [Outcome.require_eq_value_iff] at arity
  · rw [normal] at arity h
    obtain ⟨first, rfl⟩ := Arity.one_admits_iff.1 arity
    obtain ⟨_, checked, -⟩ := Outcome.bind_eq_value_iff.1 h
    simpa using checked
  · rw [concat] at arity h
    obtain ⟨first, second, rest, rfl⟩ := Arity.several_admits_iff.1 arity
    simp only [Outcome.bind_eq_value_iff, Outcome.pure_eq, Outcome.value.injEq,
      Prod.mk.injEq] at h
    obtain ⟨_, -, channels, total, rfl, -⟩ := h
    obtain ⟨small, rfl⟩ := Size.sum_eq_value_iff.1 total
    exact small

/-- A layer that obeys its rule is inferred. -/
lemma infer_of_obeys (h : l.kind.Obeys ops l.name inputs hwc primitive) :
    l.infer ops inputs = .value (hwc, primitive) := by
  obtain ⟨shapes, epsilon, channels⟩ := h
  rw [infer]
  generalize l.kind = kind at shapes epsilon channels
  cases shapes with
  | input full => simp [arity, Arity.admits, full.height, full.width, full.channels]
  | conv2d some made => simp [arity, Arity.admits, some, Window.outputSize_of_makes made]
  | depthwiseConv2d made => simp [arity, Arity.admits, Window.outputSize_of_makes made]
  | batchNorm =>
    obtain ⟨finite, sign⟩ := epsilon _ rfl
    simp [arity, Arity.admits, finite, sign]
  | activation => rfl
  | @add _ second rest same =>
    have all : (hwc :: second :: rest).all (· = hwc) = true := by simpa using same
    simp only [all]
    simp [arity, Arity.admits]
  | @concat first second rest same =>
    have all : (first :: second :: rest).all (fun s => s.height = first.height &&
        s.width = first.width) = true := by simpa using same
    -- the sum is in range, which the rule asks for
    have total : (Size.sum ((first :: second :: rest).map (·.channels)) : Outcome GraphError Nat)
        = .value (((first :: second :: rest).map (·.channels)).foldl (· + ·) 0) := by
      rw [← List.sum_eq_foldl] at channels ⊢
      exact Size.sum_eq_value_iff.2 ⟨channels rfl, rfl⟩
    simp only [arity, Arity.admits, all, total, Outcome.require_true, Outcome.value_bind]
    rfl
  | maxPool2d made => simp [arity, Arity.admits, Window.outputSize_of_makes made]
  | custom resolved => simp [arity, Arity.admits, resolved]

/-- The inference of a layer decides its rule. -/
lemma infer_eq_value_iff :
    l.infer ops inputs = .value (hwc, primitive) ↔
      l.kind.Obeys ops l.name inputs hwc primitive :=
  ⟨obeys_of_infer, infer_of_obeys⟩

end Layer

/-! ### Assignments -/

/-- Names of layers that stand after what they read: every layer reads names in `done` or of
earlier layers. -/
def ReadsEarlier (done : List String) (layers : List Layer) : Prop :=
  ∀ pre l post, layers = pre ++ l :: post → ∀ name ∈ l.inbound, name ∈ done ++ pre.map (·.name)

lemma ReadsEarlier.head {done : List String} {l : Layer} {layers : List Layer}
    (h : ReadsEarlier done (l :: layers)) : ∀ name ∈ l.inbound, name ∈ done := by
  intro name hname
  simpa using h [] l layers rfl name hname

lemma ReadsEarlier.tail {done : List String} {l : Layer} {layers : List Layer}
    (h : ReadsEarlier done (l :: layers)) : ReadsEarlier (done ++ [l.name]) layers := by
  intro pre l' post split name hname
  simpa using h (l :: pre) l' post (by rw [split]; rfl) name hname

/-- What holds of a layer if it does of those that it reads, holds of all layers. -/
lemma ReadsEarlier.induction {done : List String} {layers : List Layer}
    (order : ReadsEarlier done layers) (P : String → Prop) (start : ∀ name ∈ done, P name)
    (step : ∀ l ∈ layers, (∀ read ∈ l.inbound, P read) → P l.name) : ∀ l ∈ layers, P l.name := by
  induction layers generalizing done with
  | nil => exact List.forall_mem_nil _
  | cons l layers ih =>
    have first : P l.name :=
      step l (List.mem_cons_self ..) fun read h => start read (order.head read h)
    refine List.forall_mem_cons.2 ⟨first, ih order.tail ?_ fun l' h => step l' (.tail l h)⟩
    intro name hname
    rcases List.mem_append.1 hname with before | here
    · exact start name before
    · exact List.mem_singleton.1 here ▸ first

namespace Architecture

/-- Shapes for the layers of a graph that obey the rule of every layer. -/
def Assigns (a : Architecture) (ops : CustomOps) (shape : String → Hwc) : Prop :=
  ∀ l ∈ a.layers, ∃ primitive,
    l.kind.Obeys ops l.name (l.inbound.map shape) (shape l.name) primitive

/-- The graphs that planning is to accept. -/
structure WellFormed (a : Architecture) (ops : CustomOps) : Prop where
  /-- There is a layer. -/
  some : a.layers ≠ []
  /-- Layers are named apart. -/
  distinct : (a.layers.map (·.name)).Nodup
  /-- Layers read earlier ones. -/
  order : ReadsEarlier [] a.layers
  /-- There are shapes that obey every rule; so layers read as many others as their kinds
  say, and custom operations are registered and accept their arguments. -/
  assigned : ∃ shape, a.Assigns ops shape
  /-- An input is declared. -/
  input : a.inputs ≠ []
  /-- No input is declared twice. -/
  apart : a.inputs.Nodup
  /-- Declared inputs are input layers. -/
  inputs : ∀ name ∈ a.inputs, ∃ l ∈ a.layers, l.name = name ∧ l.kind.isInput = true
  /-- An output is declared. -/
  output : a.outputs ≠ []
  /-- Declared outputs are layers. -/
  outputs : ∀ name ∈ a.outputs, name ∈ a.layers.map (·.name)

end Architecture

namespace GraphPlan

variable {ops : CustomOps} {p p' : GraphPlan} {shape : String → Hwc}

/-- Layers with shapes that obey their rules are planned, with these shapes. -/
lemma exists_foldlM_of_obeys {names : List String} {layers : List Layer} (h : p.Names names)
    (agrees : ∀ name ∈ names, p.shape? name = some (shape name))
    (distinct : (names ++ layers.map (·.name)).Nodup) (order : ReadsEarlier names layers)
    (obeys : ∀ l ∈ layers, ∃ primitive,
      l.kind.Obeys ops l.name (l.inbound.map shape) (shape l.name) primitive) :
    ∃ p', layers.foldlM (extend ops) p = .value p' ∧
      ∀ name ∈ names ++ layers.map (·.name), p'.shape? name = some (shape name) := by
  -- over the layers in their order, so that all that a layer reads has its shape in the plan
  induction layers generalizing p names with
  | nil => exact ⟨p, rfl, by simpa using agrees⟩
  | cons l layers ih =>
    obtain ⟨primitive, rule⟩ := obeys l (List.mem_cons_self ..)
    -- the name is not in the plan yet, for no name is used twice
    have new : p.shape? l.name = none := by
      rw [shape?_eq_none_iff h]
      intro before
      exact (List.nodup_append.1 distinct).2.2 _ before _ (List.mem_cons_self ..) rfl
    have reads : List.Forall₂ (fun name s => p.shape? name = some s) l.inbound
        (l.inbound.map shape) := by
      rw [List.forall₂_map_right_iff, List.forall₂_same]
      exact fun name hname => agrees name (order.head name hname)
    have step : extend ops p l = .value (p.add l.name (shape l.name) primitive) :=
      extend_eq_value_iff.2 ⟨new, _, _, _, reads, Layer.infer_of_obeys rule, rfl⟩
    have agrees' : ∀ name ∈ names ++ [l.name],
        (p.add l.name (shape l.name) primitive).shape? name = some (shape name) := by
      intro name hname
      rcases List.mem_append.1 hname with before | here
      · exact shape?_add_of_some (agrees name before)
      · obtain rfl := List.mem_singleton.1 here
        exact shape?_add_self new
    obtain ⟨p', run, all⟩ := ih (h.add new) agrees' (by simpa using distinct) order.tail
      fun l' hl' => obeys l' (List.mem_cons_of_mem l hl')
    refine ⟨p', ?_, by simpa using all⟩
    rw [List.foldlM_cons, step]
    exact run

/-- Every planned layer was inferred from the shapes of what it reads. -/
lemma inferred_of_foldlM {names : List String} {layers : List Layer} (h : p.Names names)
    (run : layers.foldlM (extend ops) p = .value p') :
    p'.primitives.map (·.1)
      = p.primitives.map (·.1) ++ (layers.filter (·.kind.isCustom)).map (·.name) ∧
    ∀ l ∈ layers, ∃ inputs hwc primitive,
      List.Forall₂ (fun name s => p'.shape? name = some s) l.inbound inputs ∧
      p'.shape? l.name = some hwc ∧ l.kind.Obeys ops l.name inputs hwc primitive := by
  induction layers generalizing p names with
  | nil =>
    cases run
    exact ⟨by simp, List.forall_mem_nil _⟩
  | cons l layers ih =>
    rw [List.foldlM_cons, Outcome.bind_eq_value_iff] at run
    obtain ⟨q, step, run⟩ := run
    obtain ⟨new, inputs, hwc, primitive, reads, infer, rfl⟩ := extend_eq_value_iff.1 step
    have rule := Layer.obeys_of_infer infer
    obtain ⟨keys, later⟩ := ih (h.add new) run
    -- what the plan says at this point, the final one still says
    obtain ⟨-, grown, -⟩ := planned_of_foldlM (h.add new) run
    refine ⟨?_, List.forall_mem_cons.2 ⟨⟨inputs, hwc, primitive, ?_, ?_, rule⟩, later⟩⟩
    · have own : (primitive.toList.map fun q => (l.name, q)).map (·.1)
          = ([l].filter (·.kind.isCustom)).map (·.name) := by
        rw [List.filter_singleton, ← rule.isSome_primitive]
        cases primitive <;> rfl
      rw [keys, add, List.map_append, own, ← List.singleton_append (l := layers),
        List.filter_append, List.map_append, List.append_assoc]
    · exact reads.imp fun name s found => grown.shape name s (shape?_add_of_some found)
    · exact grown.shape _ _ (shape?_add_self new)

end GraphPlan

/-! ### Declared ends -/

namespace Architecture

variable {a : Architecture} {ops : CustomOps} {p : GraphPlan}

/-- A layer is found by its name if layers are named apart. -/
lemma layer?_of_mem (distinct : (a.layers.map (·.name)).Nodup) {l : Layer} (hl : l ∈ a.layers) :
    a.layer? l.name = some l := by
  rw [layer?]
  generalize a.layers = layers at distinct hl
  induction layers with
  | nil => exact absurd hl List.not_mem_nil
  | cons first layers ih =>
    rw [List.map_cons, List.nodup_cons] at distinct
    rcases List.mem_cons.1 hl with rfl | later
    · exact List.find?_cons_of_pos (by simp)
    · have other : first.name ≠ l.name := by
        intro same
        exact distinct.1 (same ▸ List.mem_map_of_mem later)
      rw [List.find?_cons_of_neg (by simpa using other)]
      exact ih distinct.2 later

/-- Declared inputs pass their check if they are input layers and none is given twice. -/
lemma checkInputs_eq_ok (distinct : (a.layers.map (·.name)).Nodup) {seen names : List String}
    (apart : names.Nodup) (unseen : ∀ name ∈ names, name ∉ seen)
    (inputs : ∀ name ∈ names, ∃ l ∈ a.layers, l.name = name ∧ l.kind.isInput = true) :
    a.checkInputs seen names = .ok () := by
  induction names generalizing seen with
  | nil => rfl
  | cons name names ih =>
    obtain ⟨here, later⟩ := List.forall_mem_cons.1 unseen
    obtain ⟨first, rest⟩ := List.nodup_cons.1 apart
    obtain ⟨⟨l, hl, rfl, input⟩, others⟩ := List.forall_mem_cons.1 inputs
    have isInput : a.isInput l.name = true := by
      rw [isInput, layer?_of_mem distinct hl]
      exact input
    rw [checkInputs, if_pos (by simp [isInput, here])]
    refine ih rest (fun name hname known => ?_) others
    rcases List.mem_cons.1 known with rfl | before
    · exact first hname
    · exact later name hname before

lemma checkEnds_eq_ok_iff :
    a.checkEnds p = .ok () ↔ a.checkInputs [] a.inputs = .ok () ∧ a.inputs ≠ [] ∧
      a.outputs ≠ [] ∧ checkOutputs p a.outputs = .ok () := by
  unfold checkEnds
  cases inputs : a.checkInputs [] a.inputs with
  | error e => simp [bind, Except.bind]
  | ok u =>
    cases input : a.inputs with
    | nil => simp [bind, Except.bind, throw, throwThe, MonadExceptOf.throw]
    | cons name names =>
      cases output : a.outputs with
      | nil => simp [bind, Except.bind, throw, throwThe, MonadExceptOf.throw]
      | cons name' names' => simp [bind, Except.bind]

/-! ### Plans -/

lemma readsEarlier_of_plan (h : a.plan ops = .value p) : ReadsEarlier [] a.layers :=
  fun pre l post split => by simpa using (planned_of_plan h split).1

/-- Shapes obey the rules of a planned graph exactly if they are those of the plan. -/
lemma assigns_iff_of_plan (h : a.plan ops = .value p) (shape : String → Hwc) :
    a.Assigns ops shape ↔ ∀ l ∈ a.layers, p.shape? l.name = some (shape l.name) := by
  obtain ⟨-, run, -⟩ := plan_eq_value_iff.1 h
  constructor
  · intro assigns l hl
    obtain ⟨p', run', all⟩ := GraphPlan.exists_foldlM_of_obeys names_empty (List.forall_mem_nil _)
      (by simpa using nodup_of_plan h) (readsEarlier_of_plan h) assigns
    obtain rfl := Outcome.value.inj (run.symm.trans run')
    exact all l.name (by simpa using ⟨l, hl, rfl⟩)
  · intro agrees l hl
    obtain ⟨inputs, hwc, primitive, reads, own, rule⟩ :=
      (GraphPlan.inferred_of_foldlM names_empty run).2 l hl
    -- what the layer reads is a layer of the graph, so it has its shape in the plan
    have read : inputs = l.inbound.map shape := by
      obtain ⟨pre, post, split⟩ := List.append_of_mem hl
      have earlier : ∀ name ∈ l.inbound, p.shape? name = some (shape name) := by
        intro name hname
        obtain ⟨l', hl', rfl⟩ := List.mem_map.1 ((planned_of_plan h split).1 name hname)
        exact agrees l' (by rw [split]; exact List.mem_append_left _ hl')
      clear rule
      generalize l.inbound = names at reads earlier
      induction reads with
      | nil => rfl
      | cons found _ ih =>
        obtain ⟨first, rest⟩ := List.forall_mem_cons.1 earlier
        rw [List.map_cons, ← ih rest, Option.some.inj (first.symm.trans found)]
    obtain rfl := Option.some.inj ((agrees l hl).symm.trans own)
    exact ⟨primitive, read ▸ rule⟩

/-- The shapes of a plan obey the rules of its graph. -/
lemma assigns_of_plan (h : a.plan ops = .value p) :
    a.Assigns ops fun name => (p.shape? name).getD ⟨0, 0, 0⟩ := by
  refine (assigns_iff_of_plan h _).2 fun l hl => ?_
  obtain ⟨inputs, hwc, primitive, planned⟩ := planned_of_mem h hl
  rw [planned.shape, Option.getD_some]

/-- A planned graph is well-formed. -/
lemma wellFormed_of_plan (h : a.plan ops = .value p) : a.WellFormed ops := by
  obtain ⟨some, -, ends⟩ := plan_eq_value_iff.1 h
  obtain ⟨-, input, output, -⟩ := checkEnds_eq_ok_iff.1 ends
  exact ⟨some, nodup_of_plan h, readsEarlier_of_plan h, ⟨_, assigns_of_plan h⟩, input,
    nodup_inputs_of_plan h, fun name declared => input_mem_of_plan h declared, output,
    fun name declared => output_mem_of_plan h declared⟩

/-- A well-formed graph has a plan. -/
lemma WellFormed.exists_plan (h : a.WellFormed ops) : ∃ p, a.plan ops = .value p := by
  obtain ⟨shape, assigns⟩ := h.assigned
  obtain ⟨p, run, found⟩ := GraphPlan.exists_foldlM_of_obeys names_empty (List.forall_mem_nil _)
    (by simpa using h.distinct) h.order assigns
  refine ⟨p, plan_eq_value_iff.2 ⟨h.some, run, checkEnds_eq_ok_iff.2
    ⟨checkInputs_eq_ok h.distinct h.apart (fun _ _ => List.not_mem_nil) h.inputs, h.input,
      h.output, checkOutputs_eq_ok_iff.2 fun name declared => ?_⟩⟩⟩
  rw [found name (by simpa using h.outputs name declared)]
  rfl

/-- **Planning decides well-formedness.**  A graph has a plan exactly if it is well-formed.  Its
plan has the shapes of all layers, in order; they are the only ones that obey the rules of the
layers.  It has a primitive for every custom layer and for no other, which is the one that the
registered operation of the layer lowers its arguments to. -/
theorem plan_iff_wellFormed (a : Architecture) (ops : CustomOps) :
    ((∃ p, a.plan ops = .value p) ↔ a.WellFormed ops) ∧
    ∀ p, a.plan ops = .value p →
      p.shapes.map (·.1) = a.layers.map (·.name) ∧
      (∀ shape, a.Assigns ops shape ↔ ∀ l ∈ a.layers, p.shape? l.name = some (shape l.name)) ∧
      p.primitives.map (·.1) = (a.layers.filter (·.kind.isCustom)).map (·.name) ∧
      ∀ l ∈ a.layers, ∀ function arguments, l.kind = .custom function arguments →
        ∃ lower q, ops.get? function = some lower ∧ lower arguments = .ok q ∧
          p.primitive? l.name = some q := by
  refine ⟨⟨fun ⟨p, h⟩ => wellFormed_of_plan h, WellFormed.exists_plan⟩, fun p h => ?_⟩
  have run := (plan_eq_value_iff.1 h).2.1
  refine ⟨(names_of_plan h).shapes, assigns_iff_of_plan h,
    (GraphPlan.inferred_of_foldlM names_empty run).1, fun l hl function arguments custom => ?_⟩
  obtain ⟨inputs, hwc, primitive, planned⟩ := planned_of_mem h hl
  have shapes := planned.shapes
  have found := planned.primitive
  rw [custom] at shapes
  cases shapes with
  | custom resolved =>
    obtain ⟨lower, registered, lowered⟩ := CustomOps.resolve_eq_ok_iff.1 resolved
    exact ⟨lower, _, registered, lowered, found⟩

/-- A graph that enlarges an image by a custom operation. -/
def enlargement : Architecture where
  name := "enlargement"
  layers := [⟨"image", .input ⟨2, 2, 1⟩, []⟩,
    ⟨"large", .custom CustomOps.resizeName (.object [("size", .int 4)]), ["image"]⟩]
  inputs := ["image"]
  outputs := ["large"]

/-- The enlargement is well-formed and planned, and the custom operation makes four rows and columns. -/
theorem plan_iff_wellFormed_enlargement :
    enlargement.WellFormed (.standard none) ∧
    ∃ p, enlargement.plan (.standard none) = .value p ∧ p.primitives.map (·.1) = ["large"] ∧
      ∀ shape, enlargement.Assigns (.standard none) shape → shape "large" = ⟨4, 4, 1⟩ := by
  obtain ⟨p, h, enlarged⟩ := Outcome.exists_of_holds
    (show (enlargement.plan (.standard none)).holds
      (fun p => p.shape? "large" = some ⟨4, 4, 1⟩) = true by decide +kernel)
  obtain ⟨decided, planned⟩ := plan_iff_wellFormed enlargement (.standard none)
  obtain ⟨-, assigned, primitives, -⟩ := planned p h
  refine ⟨decided.1 ⟨p, h⟩, p, h, primitives, fun shape assigns => ?_⟩
  have large := (assigned shape).1 assigns _ (List.mem_cons_of_mem _ (List.mem_singleton_self _))
  exact Option.some.inj (large.symm.trans (of_decide_eq_true enlarged))

end Architecture

end FlatNet
