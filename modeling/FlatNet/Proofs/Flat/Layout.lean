import FlatNet.Flat.Interpreter
import FlatNet.Proofs.Flat.Prepared

/-!
The layout of a lowered model.

The steps of a lowered model are the programs of its layers, one after the other, each reading
the places of the layers that its layer reads and writing behind everything written before.

* `LaidOut`: programs of layers behind each other;
* `Lowering.laidOut_of_foldlM`: what lowering lays out;
* `Lowering.Finishes`: how a lowered model comes from the tables of its layers;
* `FlatModel.prepare_eq_value`: a model is prepared if its operators, inputs and outputs are;
* `FlatModel.prepare_of_lower`: a lowered model is prepared, and its steps are laid out.
-/

namespace FlatNet

/-! ### Layouts -/

/-- Programs of layers behind each other, the values of layers being at the places `at`: the
results from the first layer on stand from `next` on. -/
inductive LaidOut (m : Model) (p : GraphPlan) (F : FlatModel) (V : String → Nat) :
    Nat → List Layer → List (FlatStep × Nat) → Prop where
  /-- There are no layers left. -/
  | nil {next : Nat} : LaidOut m p F V next [] []
  /-- An input has a place and no program. -/
  | input {next : Nat} {l : Layer} {layers : List Layer} {steps : List (FlatStep × Nat)}
      {name : String} {hwc : Hwc} (input : l.kind.isInput = true) (place : V l.name = next)
      (shape : p.shape? l.name = some hwc) (value : F.HoldsValue next name hwc)
      (rest : LaidOut m p F V (next + 1) layers steps) :
      LaidOut m p F V next (l :: layers) steps
  /-- Another layer has the program of its kind. -/
  | computed {next place : Nat} {l : Layer} {layers : List Layer} {params : Option LayerParams}
      {own steps : List (FlatStep × Nat)} (computed : l.kind.isInput = false)
      (prepared : GraphModel.layerParams m p l = .value params)
      (program : l.kind.program params (p.primitive? l.name) (l.inbound.map V) place = own)
      (behind : next ≤ place) (named : V l.name = resultPlace (l.inbound.map V) place own)
      (inside : V l.name < place + own.length)
      (rest : LaidOut m p F V (place + own.length) layers steps) :
      LaidOut m p F V next (l :: layers) (own ++ steps)

namespace LaidOut

variable {m : Model} {p : GraphPlan} {F : FlatModel} {V : String → Nat} {next : Nat}
  {layers : List Layer} {steps : List (FlatStep × Nat)}

/-- Inputs are at places behind what is written before. -/
lemma le_place (h : LaidOut m p F V next layers steps) {l : Layer} (hl : l ∈ layers)
    (input : l.kind.isInput = true) : next ≤ V l.name := by
  induction h with
  | nil => cases hl
  | input _ place _ _ _ ih =>
    rcases List.mem_cons.1 hl with rfl | later
    · exact Nat.le_of_eq place.symm
    · exact Nat.le_of_succ_le (ih later)
  | computed computed _ _ behind _ _ _ ih =>
    rcases List.mem_cons.1 hl with rfl | later
    · rw [computed] at input
      cases input
    · exact le_trans behind (le_trans (Nat.le_add_right _ _) (ih later))

/-- No two inputs are at one place. -/
lemma place_injective (h : LaidOut m p F V next layers steps) {l l' : Layer} (hl : l ∈ layers)
    (hl' : l' ∈ layers) (input : l.kind.isInput = true) (input' : l'.kind.isInput = true)
    (same : V l.name = V l'.name) : l.name = l'.name := by
  -- along the layout: later inputs are placed behind earlier ones
  induction h with
  | nil => cases hl
  | input _ place _ _ rest ih =>
    rcases List.mem_cons.1 hl with rfl | later <;> rcases List.mem_cons.1 hl' with rfl | later'
    · rfl
    · have behind := rest.le_place later' input'
      omega
    · have behind := rest.le_place later input
      omega
    · exact ih later later'
  | computed computed _ _ _ _ _ _ ih =>
    rcases List.mem_cons.1 hl with rfl | later
    · rw [computed] at input
      cases input
    rcases List.mem_cons.1 hl' with rfl | later'
    · rw [computed] at input'
      cases input'
    exact ih later later'

/-- The tensor of an input has the planned shape. -/
lemma holdsValue (h : LaidOut m p F V next layers steps) {l : Layer} (hl : l ∈ layers)
    (input : l.kind.isInput = true) :
    ∃ name hwc, p.shape? l.name = some hwc ∧ F.HoldsValue (V l.name) name hwc := by
  induction h with
  | nil => cases hl
  | input _ place shape value _ ih =>
    rcases List.mem_cons.1 hl with rfl | later
    · exact ⟨_, _, shape, place ▸ value⟩
    · exact ih later
  | computed computed _ _ _ _ _ _ ih =>
    rcases List.mem_cons.1 hl with rfl | later
    · rw [computed] at input
      cases input
    · exact ih later

/-- The parameters of every layer are prepared. -/
lemma layerParams (h : LaidOut m p F V next layers steps) {l : Layer} (hl : l ∈ layers) :
    ∃ params, GraphModel.layerParams m p l = .value params := by
  induction h with
  | nil => cases hl
  | input input _ _ _ _ ih =>
    rcases List.mem_cons.1 hl with rfl | later
    · exact ⟨none, GraphModel.layerParams_of_input input⟩
    · exact ih later
  | computed _ prepared _ _ _ _ _ ih =>
    rcases List.mem_cons.1 hl with rfl | later
    · exact ⟨_, prepared⟩
    · exact ih later

/-- The model of a layout is prepared. -/
lemma prepare_eq_value (h : LaidOut m p F V next m.architecture.layers steps) {ops : CustomOps}
    (valid : m.validate ops = .value p) : ∃ g, GraphModel.prepare m ops = .value g :=
  GraphModel.exists_prepare valid fun _ hl => h.layerParams hl

end LaidOut

/-! ### Lowering layers -/

lemma Layer.fragment_of_input {m : Model} {p : GraphPlan} {q : Quantize} {l : Layer} {hwc : Hwc}
    {args : List Int32} (input : l.kind.isInput = true) :
    l.fragment m p q hwc args = .value .source := by
  unfold LayerKind.isInput at input
  split at input
  · rename_i kind
    simp only [fragment, kind, Outcome.pure_eq]
  · cases input

namespace Lowering

variable {m : Model} {ops : CustomOps} {p : GraphPlan} {q : Quantize} {F : FlatModel}
  {s s' S : Lowering} {l : Layer}

/-- The place of the value of a layer. -/
def place (s : Lowering) (name : String) : Nat := ((s.values.lookup name).getD (-1)).toInt.toNat

/-- The values named so far are at places of tensors that are no constants. -/
def Named (F : FlatModel) (s : Lowering) : Prop :=
  ∀ name index, s.values.lookup name = some index →
    ∃ k, k < s.tensors.length ∧ F.Points index k ∧ ∃ tensor hwc, F.HoldsValue k tensor hwc

lemma named_start (F : FlatModel) : start.Named F := by simp [Named, start]

lemma place_eq {name : String} {index : Int32} {k : Nat} (h : s.values.lookup name = some index)
    (points : F.Points index k) : s.place name = k := by
  rw [place, h]
  exact points.toNat

lemma value_eq_value_iff {name : String} {index : Int32} :
    s.value name = .value index ↔ s.values.lookup name = some index := by
  rw [value, Outcome.orError_eq_value_iff]

lemma lowerLayer_eq_value_iff :
    lowerLayer m p q s l = .value s' ↔ ∃ hwc args f, p.shape? l.name = some hwc ∧
      List.Forall₂ (fun name index => s.values.lookup name = some index) l.inbound args ∧
      l.fragment m p q hwc args = .value f ∧ s.emit l.name hwc f = s' := by
  simp only [lowerLayer, GraphPlan.shapeOf, Outcome.bind_eq_value_iff,
    Outcome.orError_eq_value_iff, Outcome.mapM_eq_value_iff, value_eq_value_iff, Outcome.pure_eq,
    Outcome.value.injEq, exists_and_left]

/-- Laying out a fragment names the layer. -/
lemma exists_values_emit (s : Lowering) (layer : String) (hwc : Hwc) (f : Fragment) :
    ∃ index, (s.emit layer hwc f).values = (layer, index) :: s.values := by
  cases f with
  | source => exact ⟨_, rfl⟩
  | same index => exact ⟨index, rfl⟩
  | program cs is =>
    have constants := (foldl_addConstant cs s).2.2.2.1
    have instructions :=
      (foldl_addInstruction s.tensors.length hwc is (cs.foldl addConstant s)).2.2.1
    exact ⟨_, congrArg (List.cons _) (instructions.trans constants)⟩

/-- Layers keep their names when one more is named. -/
lemma named_emit {done : List Layer} (h : ∀ l ∈ done, ∃ index, s.values.lookup l.name = some index)
    (l : Layer) (hwc : Hwc) (f : Fragment) :
    ∀ l' ∈ done ++ [l], ∃ index, (s.emit l.name hwc f).values.lookup l'.name = some index := by
  obtain ⟨index, values⟩ := s.exists_values_emit l.name hwc f
  rw [List.forall_mem_append, List.forall_mem_singleton, values]
  refine ⟨fun l' hl' => ?_, index, List.lookup_cons_self⟩
  by_cases same : l'.name = l.name
  · exact ⟨index, by rw [same, List.lookup_cons_self]⟩
  · rw [lookup_cons_of_ne same]
    exact h l' hl'

/-- Lowering layers makes the tables grow, and keeps the places of other layers. -/
lemma before_of_foldlM {layers : List Layer}
    (run : layers.foldlM (lowerLayer m p q) s = .value S) :
    s.Before S ∧
      ∀ name, name ∉ layers.map (·.name) → S.values.lookup name = s.values.lookup name := by
  refine Outcome.foldlM_value_induction (fun t => s.Before t ∧ ∀ name,
    name ∉ layers.map (·.name) → t.values.lookup name = s.values.lookup name)
    ⟨.refl s, fun _ _ => rfl⟩ ?_ run
  rintro t l t' hl ⟨before, kept⟩ step
  obtain ⟨hwc, args, f, -, -, -, rfl⟩ := lowerLayer_eq_value_iff.1 step
  obtain ⟨index, values⟩ := t.exists_values_emit l.name hwc f
  refine ⟨before.trans (t.before_emit _ _ _), fun name outside => ?_⟩
  have other : name ≠ l.name := by
    rintro rfl
    exact outside (List.mem_map_of_mem hl)
  rw [values, lookup_cons_of_ne other]
  exact kept name outside

/-- Naming one more value keeps the values named. -/
lemma Named.emit {layer : String} {hwc : Hwc} {f : Fragment} (h : s.Named F) {index : Int32}
    (values : (s.emit layer hwc f).values = (layer, index) :: s.values) {k : Nat}
    (inside : k < (s.emit layer hwc f).tensors.length) (points : F.Points index k)
    (value : ∃ tensor hwc, F.HoldsValue k tensor hwc) : (s.emit layer hwc f).Named F := by
  intro name index' found
  rw [values, List.lookup_cons] at found
  split at found
  · obtain rfl := Option.some.inj found
    exact ⟨k, inside, points, value⟩
  · obtain ⟨k', inside', rest⟩ := h name index' found
    exact ⟨k', lt_of_lt_of_le inside' (s.before_emit _ _ _).tensors.length_le, rest⟩

/-- The values that a layer reads are at the places that their names keep. -/
lemma Named.points (h : s.Named F) {names : List String} {indices : List Int32}
    (found : List.Forall₂ (fun name index => s.values.lookup name = some index) names indices)
    (kept : ∀ name ∈ names, S.values.lookup name = s.values.lookup name) :
    List.Forall₂ F.Points indices (names.map S.place) ∧
      ∀ k ∈ names.map S.place, k < s.tensors.length ∧
        ∃ tensor hwc, F.HoldsValue k tensor hwc := by
  have placed : List.Forall₂ (fun name index => F.Points index (S.place name) ∧
      S.place name < s.tensors.length ∧ ∃ tensor hwc, F.HoldsValue (S.place name) tensor hwc)
      names indices := by
    refine ((List.forall₂_and_left _ _).2 ⟨kept, found⟩).imp fun name index read => ?_
    obtain ⟨k, inside, points, value⟩ := h name index read.2
    obtain rfl : S.place name = k := place_eq (read.1.trans read.2) points
    exact ⟨points, inside, value⟩
  constructor
  · rw [List.forall₂_map_right_iff]
    exact (placed.imp fun name index h => h.1).flip
  · intro k hk
    obtain ⟨name, hname, rfl⟩ := List.mem_map.1 hk
    obtain ⟨index, -, -, value⟩ := exists_mem_of_forall₂ placed hname
    exact value

/-- Laying out a source adds the tensor of a value. -/
lemma emit_source {layer : String} {hwc : Hwc} (within : (s.emit layer hwc .source).Within F) :
    F.HoldsValue s.tensors.length layer hwc ∧
      (s.emit layer hwc .source).tensors.length = s.tensors.length + 1 ∧
      (s.emit layer hwc .source).values = (layer, Int32.ofNat s.tensors.length) :: s.values := by
  have length : (s.addActivation layer hwc).tensors.length = s.tensors.length + 1 := by
    simp [addActivation]
  have latest : (s.addActivation layer hwc).latest = Int32.ofNat s.tensors.length := by
    rw [Lowering.latest, length, Nat.add_sub_cancel]
  exact ⟨holdsValue_of_within within.tensors, length,
    congrArg (fun index => (layer, index) :: s.values) latest⟩

/-- Layers that are lowered one after the other are laid out one after the other. -/
theorem laidOut_of_foldlM (valid : m.validate ops = .value p) (fills : m.Fills p)
    (small : F.tensors.length < 0x80000000) (within : S.Within F) {pre post : List Layer}
    (split : m.architecture.layers = pre ++ post) (counts : s.Counts) (named : s.Named F)
    (run : post.foldlM (lowerLayer m p .none) s = .value S) :
    S.Counts ∧ S.Named F ∧ ∃ ops steps, S.operators = s.operators ++ ops ∧
      List.Forall₂ F.Prepares ops steps ∧
      LaidOut m p F S.place s.tensors.length post steps := by
  induction post generalizing pre s with
  | nil =>
    cases run
    exact ⟨counts, named, [], [], (List.append_nil _).symm, .nil, .nil⟩
  | cons l post ih =>
    have whole := run
    rw [List.foldlM_cons, Outcome.bind_eq_value_iff] at run
    obtain ⟨s', step, run⟩ := run
    obtain ⟨hwc, args, f, shape, found, fragment, rfl⟩ := lowerLayer_eq_value_iff.1 step
    have hl : l ∈ m.architecture.layers := by simp [split]
    have plan := (Model.validate_eq_value_iff.1 valid).1
    have nodup := Architecture.nodup_of_plan plan
    obtain ⟨earlier, inputs, hwc', primitive, planned⟩ := Architecture.planned_of_plan plan split
    obtain rfl := Option.some.inj (shape.symm.trans planned.shape)
    obtain ⟨before, kept⟩ := before_of_foldlM run
    have inner := before.within within
    have split' : m.architecture.layers = (pre ++ [l]) ++ post := by simp [split]
    have counts' := counts.emit l.name hwc f
    rw [split, List.map_append, List.map_cons] at nodup
    have apart := List.disjoint_of_nodup_append nodup
    have own : l.name ∉ post.map (·.name) :=
      (List.nodup_cons.1 (List.Nodup.of_append_right nodup)).1
    cases computed : l.kind.isInput with
    | true =>
      rw [Layer.fragment_of_input computed] at fragment
      obtain rfl := Outcome.value.inj fragment
      obtain ⟨value, length, values⟩ := emit_source inner
      have points := FlatModel.points_ofNat small value.inside
      have named' := named.emit values (length ▸ Nat.lt_succ_self _) points ⟨_, _, value⟩
      obtain ⟨countsS, namedS, ops, steps, operators, prepares, laid⟩ :=
        ih split' counts' named' run
      refine ⟨countsS, namedS, ops, steps, operators, prepares, ?_⟩
      rw [length] at laid
      refine .input computed (place_eq ?_ points) shape value laid
      rw [kept _ own, values, List.lookup_cons_self]
    | false =>
      -- the values that the layer reads keep their places
      obtain ⟨there, values⟩ := named.points found fun name hname =>
        (before_of_foldlM whole).2 name fun later => apart (earlier name hname) later
      have arity : args.length = inputs.length := found.length_eq.symm.trans planned.reads.length_eq
      obtain ⟨params, prepared, place, own', index, computes⟩ :=
        Layer.realized_of_fragment valid fills hl planned computed small counts there arity values
          inner fragment
      have named' := named.emit computes.values computes.inside computes.points computes.value
      obtain ⟨countsS, namedS, ops, steps, operators, prepares, laid⟩ :=
        ih split' counts' named' run
      rw [computes.length] at laid
      have found' := kept l.name own
      rw [computes.values, List.lookup_cons_self] at found'
      have result := place_eq found' computes.points
      refine ⟨countsS, namedS, own' ++ ops, _, ?_, List.rel_append computes.prepares prepares,
        .computed computed prepared (by rw [planned.primitive]) computes.behind result ?_ laid⟩
      · rw [operators, computes.operators, List.append_assoc]
      · rw [result, ← computes.length]
        exact computes.inside

end Lowering

/-! ### Lowered models -/

/-- A model is lowered to a flat one through the tables of its lowered layers. -/
structure Lowering.Finishes (m : Model) (ops : CustomOps) (options : ConverterOptions)
    (p : GraphPlan) (s : Lowering) (F : FlatModel) : Prop where
  /-- The model is valid. -/
  valid : m.validate ops = .value p
  /-- Its layers are lowered. -/
  run : m.architecture.layers.foldlM (lowerLayer m p options.quantize) start = .value s
  /-- The inputs are at the places of their names, -/
  inputs : List.Forall₂ (fun name index => s.values.lookup name = some index)
    m.architecture.inputs F.inputs
  /-- and so are the outputs. -/
  outputs : List.Forall₂ (fun name index => s.values.lookup name = some index)
    m.architecture.outputs F.outputs
  /-- The dimensions of tensors fit. -/
  dims : ∀ t ∈ s.tensors, t.checkDims = .value ()
  /-- The version is that of the format. -/
  version : F.version = FlatModel.formatVersion
  /-- The notes are these. -/
  metadata : F.metadata = [("producer", producer), ("source_model", m.architecture.name),
    ("weight_quantization", options.quantize.name)]
  /-- The tables are those of the layers. -/
  tables : F.codes = s.codes ∧ F.tensors = s.tensors ∧ F.operators = s.operators ∧
    F.buffers = s.buffers

/-- What lowering a model is. -/
lemma Lowering.exists_finishes {m : Model} {ops : CustomOps} {options : ConverterOptions}
    {F : FlatModel} (h : m.lower ops options = .value F) :
    ∃ p s, Finishes m ops options p s F := by
  simp only [Model.lower, Outcome.bind_eq_value_iff, Outcome.mapError_eq_value_iff,
    Outcome.mapM_eq_value_iff, Outcome.forM_eq_value_iff, Lowering.value_eq_value_iff,
    Outcome.pure_eq, Outcome.value.injEq] at h
  obtain ⟨p, valid, s, run, inputs, hinputs, outputs, houtputs, _, dims, rfl⟩ := h
  exact ⟨p, s, valid, run, hinputs, houtputs, dims, rfl, rfl, rfl, rfl, rfl, rfl⟩

lemma Lowering.Finishes.within {m : Model} {ops : CustomOps} {options : ConverterOptions}
    {p : GraphPlan} {s : Lowering} {F : FlatModel} (h : Finishes m ops options p s F) :
    s.Within F := by
  obtain ⟨codes, tensors, -, buffers⟩ := h.tables
  exact ⟨codes ▸ List.prefix_refl _, tensors ▸ List.prefix_refl _, buffers ▸ List.prefix_refl _⟩

/-! ### Preparing a lowered model -/

namespace FlatModel

variable {F : FlatModel}

/-- The value at a place is an input or output of a model. -/
lemma endpoint_eq_value {index : Int32} {k : Nat} {name : String} {hwc : Hwc}
    (points : F.Points index k) (value : F.HoldsValue k name hwc) :
    FlatGraph.endpoint F index = .value ⟨k, name, hwc⟩ := by
  simp only [FlatGraph.endpoint, points.tensor value, Outcome.ofExcept_ok, Outcome.mapError_value,
    Outcome.value_bind, decide_true, Bool.and_self, Outcome.require_true, points.toNat,
    Outcome.pure_eq]

/-- The operators of a model are prepared as steps if each of them is. -/
lemma steps_eq_value {ops : List FlatOperator} {steps : List (FlatStep × Nat)}
    (h : List.Forall₂ F.Prepares ops steps) (k : Nat) :
    ((ops.zipIdx k).mapM fun (op, i) =>
      (F.step op).mapError (FlatGraphError.operator i (FlatGraph.operatorName F op))) =
      .value steps := by
  induction h generalizing k with
  | nil => rfl
  | cons first _ ih =>
    rw [List.zipIdx_cons, List.mapM_cons, ih (k + 1)]
    simp only [first.step, Outcome.mapError_value, Outcome.value_bind, Outcome.pure_eq]

/-- The places that a model names are there if they are in each of its parts. -/
lemma checkIndices_eq_ok (buffers : ∀ t ∈ F.tensors, t.buffer.toNat < F.buffers.length)
    (operators : ∀ op ∈ F.operators, F.checkOperator op = .ok ())
    (ends : ∀ index ∈ F.inputs ++ F.outputs, ∃ k, F.Points index k) : F.checkIndices = .ok () := by
  have tensors : F.tensors.forM F.checkBuffer = .ok () := by
    rw [forM_eq_ok_iff]
    exact fun t ht => if_pos (buffers t ht)
  have operators : F.operators.forM F.checkOperator = .ok () := forM_eq_ok_iff.2 operators
  have inputs : F.inputs.forM F.checkTensor = .ok () := by
    rw [forM_eq_ok_iff]
    intro index hi
    obtain ⟨k, points⟩ := ends index (List.mem_append_left _ hi)
    exact points.checkTensor
  have outputs : F.outputs.forM F.checkTensor = .ok () := by
    rw [forM_eq_ok_iff]
    intro index hi
    obtain ⟨k, points⟩ := ends index (List.mem_append_right _ hi)
    exact points.checkTensor
  simp only [checkIndices, bind, Except.bind, tensors, operators, inputs, outputs]

/-- The places of values are inputs or outputs of a model. -/
lemma exists_endpoints {R : String → Endpoint → Prop} {names : List String} {indices : List Int32}
    (h : List.Forall₂ (fun name index => ∃ e : Endpoint, F.Points index e.place ∧
      F.HoldsValue e.place e.name e.hwc ∧ R name e) names indices) :
    (∀ index ∈ indices, ∃ k, F.Points index k) ∧ ∃ ends,
      indices.mapM (FlatGraph.endpoint F) = .value ends ∧ List.Forall₂ R names ends := by
  induction h with
  | nil => exact ⟨List.forall_mem_nil _, [], rfl, .nil⟩
  | @cons name index names indices first _ ih =>
    obtain ⟨there, ends, all, related⟩ := ih
    obtain ⟨e, points, value, own⟩ := first
    refine ⟨List.forall_mem_cons.2 ⟨⟨e.place, points⟩, there⟩, e :: ends, ?_, .cons own related⟩
    rw [List.mapM_cons, endpoint_eq_value points value, all]
    rfl

/-- A model passes its checks and is prepared if its operators, inputs and outputs are. -/
lemma prepare_eq_value {steps : List (FlatStep × Nat)} {endsIn endsOut : List Endpoint}
    (buffers : ∀ t ∈ F.tensors, t.buffer.toNat < F.buffers.length)
    (prepares : List.Forall₂ F.Prepares F.operators steps)
    (ends : ∀ index ∈ F.inputs ++ F.outputs, ∃ k, F.Points index k)
    (inputs : F.inputs.mapM (FlatGraph.endpoint F) = .value endsIn)
    (outputs : F.outputs.mapM (FlatGraph.endpoint F) = .value endsOut) :
    F.checkIndices = .ok () ∧
      FlatGraph.prepare F = .value ⟨endsIn, endsOut, steps, F.tensors.map (·.name)⟩ := by
  have places : F.checkIndices = .ok () := by
    refine checkIndices_eq_ok buffers (fun op hop => ?_) ends
    obtain ⟨st, -, prepared⟩ := exists_mem_of_forall₂ prepares hop
    exact prepared.places
  refine ⟨places, ?_⟩
  simp only [FlatGraph.prepare, places, inputs, outputs, steps_eq_value prepares,
    Outcome.ofExcept_ok, Outcome.mapError_value, Outcome.value_bind, Outcome.pure_eq]

/-- A model with a word for each element of its parameters is lowered to one that is prepared, its
steps being laid out for the layers, its inputs and outputs at the places of the layers. -/
theorem prepare_of_fills {m : Model} {ops : CustomOps} {options : ConverterOptions} {p : GraphPlan}
    (unquantized : options.quantize = .none) (valid : m.validate ops = .value p)
    (fills : m.Fills p) (h : m.lower ops options = .value F)
    (small : F.tensors.length < 0x80000000) :
    ∃ V fg, FlatGraph.prepare F = .value fg ∧
      LaidOut m p F V 0 m.architecture.layers fg.steps ∧
      List.Forall₂ (fun name e => V name = e.place ∧ F.HoldsValue e.place e.name e.hwc)
        m.architecture.inputs fg.inputs ∧
      List.Forall₂ (fun name e => V name = e.place ∧ F.HoldsValue e.place e.name e.hwc)
        m.architecture.outputs fg.outputs := by
  obtain ⟨p', s, finishes⟩ := Lowering.exists_finishes h
  obtain rfl := Outcome.value.inj (finishes.valid.symm.trans valid)
  obtain ⟨-, tensors, operators, buffers⟩ := finishes.tables
  have run := finishes.run
  rw [unquantized] at run
  obtain ⟨counts, named, _, steps, same, prepares, laid⟩ :=
    Lowering.laidOut_of_foldlM valid fills small finishes.within
      (List.nil_append _).symm Lowering.counts_start (Lowering.named_start F) run
  obtain rfl := operators.trans same
  -- what the model gives names to are the places of tensors with values
  have endpoint : ∀ name index, s.values.lookup name = some index → ∃ e : Endpoint,
      F.Points index e.place ∧ F.HoldsValue e.place e.name e.hwc ∧
        s.place name = e.place ∧ F.HoldsValue e.place e.name e.hwc := by
    intro name index found
    obtain ⟨k, -, points, tensor, hwc, value⟩ := named name index found
    exact ⟨⟨k, tensor, hwc⟩, points, value, Lowering.place_eq found points, value⟩
  obtain ⟨thereIn, endsIn, allIn, placedIn⟩ := exists_endpoints (finishes.inputs.imp endpoint)
  obtain ⟨thereOut, endsOut, allOut, placedOut⟩ := exists_endpoints (finishes.outputs.imp endpoint)
  refine ⟨s.place, ⟨endsIn, endsOut, steps, F.tensors.map (·.name)⟩, ?_, laid, placedIn, placedOut⟩
  exact (prepare_eq_value (by rw [tensors, buffers]; exact counts.inside) prepares
    (List.forall_mem_append.2 ⟨thereIn, thereOut⟩) allIn allOut).2

/-- A model with well-sized parameters is lowered to one that is prepared, its steps being laid out
for the layers, its inputs and outputs at the places of the layers. -/
theorem prepare_of_lower {m : Model} {ops : CustomOps} {options : ConverterOptions}
    (unquantized : options.quantize = .none) (sized : m.WellSized)
    (h : m.lower ops options = .value F) (small : F.tensors.length < 0x80000000) :
    ∃ p V fg, m.validate ops = .value p ∧ FlatGraph.prepare F = .value fg ∧
      LaidOut m p F V 0 m.architecture.layers fg.steps ∧
      List.Forall₂ (fun name e => V name = e.place ∧ F.HoldsValue e.place e.name e.hwc)
        m.architecture.inputs fg.inputs ∧
      List.Forall₂ (fun name e => V name = e.place ∧ F.HoldsValue e.place e.name e.hwc)
        m.architecture.outputs fg.outputs := by
  obtain ⟨p, s, finishes⟩ := Lowering.exists_finishes h
  obtain ⟨V, fg, rest⟩ :=
    prepare_of_fills unquantized finishes.valid (sized.fills finishes.valid) h small
  exact ⟨p, V, fg, finishes.valid, rest⟩

end FlatModel

end FlatNet
