import FlatNet.Proofs.Flat.Accepted
import FlatNet.Proofs.Flat.Extents
import FlatNet.Proofs.Flat.Truncation
import FlatNet.Proofs.Graph.Shapes

/-!
Lowered models are stored and opened.

Whatever layers are lowered, quantized or not, every step of lowering keeps what a reader of the
finished model asks for: the tables count what they hold, each operator passes its checks and is
prepared, and each layer has a tensor of its planned shape.  Only the number of declared outputs,
which may name one layer any number of times, is bounded by nothing, while it is stored in four
bytes.

* `Lowering.Shaped`, `Lowering.Sound`: what every step keeps;
* `Lowering.Sound.emit`, `Lowering.sound_of_foldlM`: one step, and a whole run;
* `FlatModel.Short`, `Lowering.Sound.fits`: the counts of a lowered model fit its stored form;
* `FlatModel.stored_of_lower`: a lowered model is prepared with the inputs of the model, and with
  outputs of the same dimensions, and is read back from what is stored if its outputs can be
  counted;
* `FlatModel.decode_ne_of_lower_repeated`: a model whose outputs cannot.
-/

namespace FlatNet

open Reader (FitsCount)

namespace Lowering

variable {m : Model} {ops : CustomOps} {p : GraphPlan} {q : Quantize} {F : FlatModel}
  {s S : Lowering} {l : Layer}

/-! ### Values -/

/-- The values named so far are at places of tensors with the shapes of their layers; the tensor of
an input has the name of the layer. -/
def Shaped (m : Model) (p : GraphPlan) (F : FlatModel) (s : Lowering) : Prop :=
  ∀ name index, s.values.lookup name = some index → ∃ e : Endpoint, e.place < s.tensors.length ∧
    F.Points index e.place ∧ F.HoldsValue e.place e.name e.hwc ∧ p.shape? name = some e.hwc ∧
    ∀ l ∈ m.architecture.layers, l.name = name → l.kind.isInput = true → e.name = name

lemma Shaped.named (h : s.Shaped m p F) : s.Named F := by
  intro name index found
  obtain ⟨e, inside, points, value, -, -⟩ := h name index found
  exact ⟨e.place, inside, points, e.name, e.hwc, value⟩

/-- Naming the value of one more layer keeps the values shaped. -/
lemma Shaped.emit {layer : String} {hwc : Hwc} {f : Fragment} (h : s.Shaped m p F) {index : Int32}
    (values : (s.emit layer hwc f).values = (layer, index) :: s.values) {e : Endpoint}
    (inside : e.place < (s.emit layer hwc f).tensors.length) (points : F.Points index e.place)
    (value : F.HoldsValue e.place e.name e.hwc) (shape : p.shape? layer = some e.hwc)
    (own : ∀ l ∈ m.architecture.layers, l.name = layer → l.kind.isInput = true → e.name = layer) :
    (s.emit layer hwc f).Shaped m p F := by
  intro name index' found
  rw [values, List.lookup_cons] at found
  split at found
  · rename_i same
    obtain rfl := Option.some.inj found
    obtain rfl := beq_iff_eq.1 same
    exact ⟨e, inside, points, value, shape, own⟩
  · obtain ⟨e', inside', rest⟩ := h name index' found
    exact ⟨e', lt_of_lt_of_le inside' (s.before_emit _ _ _).tensors.length_le, rest⟩

/-- Laying out the fragment of a planned layer keeps the values shaped. -/
lemma Shaped.emit_of_suits (h : s.Shaped m p F) (counts : s.Counts)
    (small : F.tensors.length < 0x80000000) (nodup : (m.architecture.layers.map (·.name)).Nodup)
    (hl : l ∈ m.architecture.layers) {inputs : List Hwc} {hwc : Hwc} {primitive : Option Primitive}
    (planned : Planned ops p l inputs hwc primitive) {args : List Int32}
    (found : List.Forall₂ (fun name index => s.values.lookup name = some index) l.inbound args)
    {f : Fragment} (source : l.kind.isInput = true → f = .source)
    (suits : f.Suits l inputs hwc args) (within : (s.emit l.name hwc f).Within F) :
    (s.emit l.name hwc f).Shaped m p F := by
  -- the name of a tensor matters for inputs only, and these are sources
  have computed : ∀ name, f ≠ .source → ∀ l' ∈ m.architecture.layers, l'.name = l.name →
      l'.kind.isInput = true → name = l.name := by
    intro name other l' hl' same input
    obtain rfl := List.inj_on_of_nodup_map nodup hl' hl same
    exact absurd (source input) other
  cases suits with
  | source input =>
    obtain ⟨value, length, values⟩ := emit_source within
    exact h.emit (e := ⟨s.tensors.length, l.name, hwc⟩) values (length ▸ Nat.lt_succ_self _)
      (FlatModel.points_ofNat small value.inside) value planned.shape fun _ _ _ _ => rfl
  | @same index first kept =>
    have reads := planned.reads
    generalize l.inbound = names at found reads
    cases found with
    | nil => cases first
    | cons read _ =>
      cases reads with
      | cons shape _ =>
        obtain rfl := Option.some.inj first
        obtain rfl := Option.some.inj kept
        obtain ⟨e, inside, points, value, shape', -⟩ := h _ _ read
        obtain rfl := Option.some.inj (shape.symm.trans shape')
        exact h.emit rfl inside points value planned.shape (computed e.name nofun)
  | @program cs is some ranks reads =>
    obtain ⟨-, laid, -, emitted, length, values⟩ := emit_program small counts within
    have pos : 0 < is.length := List.length_pos_of_ne_nil some
    have last : is.length - 1 < is.length := Nat.sub_lt pos one_pos
    obtain ⟨name, value⟩ := emitted.value last
    rw [← Nat.add_sub_assoc pos] at value
    refine h.emit (e := ⟨_, name, hwc⟩) values ?_ (FlatModel.points_ofNat small value.inside) value
      planned.shape (computed name nofun)
    rw [length]
    exact Nat.sub_lt (Nat.add_pos_right _ pos) one_pos

/-! ### Runs -/

/-- What is known of the tables when the layers `done` have been lowered. -/
structure Sound (m : Model) (p : GraphPlan) (F : FlatModel) (done : List Layer) (s : Lowering) :
    Prop where
  /-- The tables count what they hold. -/
  counts : s.Counts
  /-- They are small. -/
  modest : s.Modest
  /-- Every layer has a tensor of its shape. -/
  shaped : s.Shaped m p F
  /-- The operators pass their checks and are prepared. -/
  prepares : ∀ op ∈ s.operators, ∃ step, F.Prepares op step
  /-- So are the layers themselves. -/
  params : ∀ l ∈ done, ∃ params, GraphModel.layerParams m p l = .value params

lemma sound_start (m : Model) (p : GraphPlan) (F : FlatModel) : start.Sound m p F [] :=
  ⟨counts_start, modest_start, nofun, nofun, nofun⟩

section Steps

variable (valid : m.validate ops = .value p) (sized : m.WellSized)
  (small : F.tensors.length < 0x80000000) (dims : ∀ t ∈ F.tensors, ∀ n ∈ t.shape, FitsCount n)

include valid sized small dims

/-- Lowering one more layer keeps the tables sound. -/
lemma Sound.emit {done : List Layer} (h : s.Sound m p F done) (hl : l ∈ m.architecture.layers)
    {hwc : Hwc} (shape : p.shape? l.name = some hwc) {args : List Int32}
    (found : List.Forall₂ (fun name index => s.values.lookup name = some index) l.inbound args)
    {f : Fragment} (fragment : l.fragment m p q hwc args = .value f)
    (within : (s.emit l.name hwc f).Within F) :
    (s.emit l.name hwc f).Sound m p F (done ++ [l]) := by
  have plan := (Model.validate_eq_value_iff.1 valid).1
  have nodup := Architecture.nodup_of_plan plan
  obtain ⟨inputs, hwc', primitive, planned⟩ := Architecture.planned_of_mem plan hl
  obtain rfl := Option.some.inj (shape.symm.trans planned.shape)
  have arity : args.length = inputs.length := found.length_eq.symm.trans planned.reads.length_eq
  have full : ∀ s ∈ inputs, s.channels ≠ 0 := by
    intro r hr
    obtain ⟨name, -, read⟩ := exists_mem_of_forall₂ planned.reads.flip hr
    exact Architecture.channels_ne_zero plan read
  have source : l.kind.isInput = true → f = .source := fun input =>
    (Outcome.value.inj ((Layer.fragment_of_input input).symm.trans fragment)).symm
  have suits := Layer.suits_of_fragment planned full arity fragment
  have counts := h.counts.emit l.name hwc f
  have modest := h.modest.emit h.counts small dims suits within
  have shaped := h.shaped.emit_of_suits h.counts small nodup hl planned found source suits within
  have all : ∀ {params}, GraphModel.layerParams m p l = .value params →
      ∀ l' ∈ done ++ [l], ∃ params, GraphModel.layerParams m p l' = .value params := by
    intro params prepared
    rw [List.forall_mem_append, List.forall_mem_singleton]
    exact ⟨h.params, params, prepared⟩
  -- an input adds no operator and has no parameters
  cases computed : l.kind.isInput with
  | true =>
    obtain rfl := source computed
    exact ⟨counts, modest, shaped, h.prepares, all (GraphModel.layerParams_of_input computed)⟩
  | false =>
    obtain ⟨there, values⟩ := h.shaped.named.points (S := s) found fun _ _ => rfl
    obtain ⟨params, read, prepared, -, place, own, index, computes⟩ :=
      Layer.rendered_of_fragment valid (sized.fills valid) hl planned computed small h.counts there
        arity values within fragment
    refine ⟨counts, modest, shaped, ?_, all prepared⟩
    rw [computes.operators, List.forall_mem_append]
    refine ⟨h.prepares, fun op hop => ?_⟩
    obtain ⟨step, -, prepares⟩ := exists_mem_of_forall₂ computes.prepares hop
    exact ⟨step, prepares⟩

/-- The tables of lowered layers are sound. -/
theorem sound_of_foldlM (within : S.Within F) {done layers : List Layer}
    (among : ∀ l ∈ layers, l ∈ m.architecture.layers) (h : s.Sound m p F done)
    (run : layers.foldlM (lowerLayer m p q) s = .value S) : S.Sound m p F (done ++ layers) := by
  induction layers generalizing s done with
  | nil =>
    cases run
    rwa [List.append_nil]
  | cons l layers ih =>
    rw [List.forall_mem_cons] at among
    rw [List.foldlM_cons, Outcome.bind_eq_value_iff] at run
    obtain ⟨s', step, run⟩ := run
    obtain ⟨hwc, args, f, shape, found, fragment, rfl⟩ := lowerLayer_eq_value_iff.1 step
    have inner := (before_of_foldlM run).1.within within
    have next := ih among.2 (h.emit valid sized small dims among.1 shape found fragment inner) run
    rwa [List.append_assoc, List.singleton_append] at next

end Steps

end Lowering

/-! ### Lowered models -/

/-- The dimensions that pass their check fit the stored form. -/
lemma FlatTensor.fitsCount_of_checkDims {t : FlatTensor} (h : t.checkDims = .value ()) :
    ∀ n ∈ t.shape, FitsCount n := by
  intro n hn
  have passed := Outcome.forM_eq_value_iff.1 h n hn
  rw [Outcome.bind_eq_value_iff] at passed
  obtain ⟨w, narrowed, -⟩ := passed
  rw [← toNat_of_narrow narrowed]
  exact w.toNat_lt

/-- What a plan declares for names is what endpoints of the planned shapes do, as far as `look`
sees. -/
lemma GraphPlan.map_describe {α : Type} (look : TensorSpec → α) {p : GraphPlan}
    {names : List String} {ends : List Endpoint}
    (h : List.Forall₂ (fun name (e : Endpoint) => p.shape? name = some e.hwc ∧
      look e.spec = look (.activation name e.hwc.height e.hwc.width e.hwc.channels)) names ends) :
    (ends.map (·.spec)).map look
      = (names.filterMap fun name => (p.shape? name).map fun s =>
          TensorSpec.activation name s.height s.width s.channels).map look := by
  induction h with
  | nil => rfl
  | cons first _ ih =>
    obtain ⟨shape, same⟩ := first
    rw [List.filterMap_cons, shape, Option.map_some]
    dsimp only
    rw [List.map_cons, List.map_cons, List.map_cons, same, ih]

namespace FlatModel

/-- The texts in a flat model of a model of the given name can be counted, and its stored form has
a size. -/
@[mk_iff] structure Short (F : FlatModel) (name : String) : Prop where
  /-- The name of the model. -/
  source : FitsCount (Bytes.ofText name).length
  /-- The description. -/
  description : FitsCount (Bytes.ofText F.description).length
  /-- The names of the tensors. -/
  names : ∀ t ∈ F.tensors, FitsCount (Bytes.ofText t.name).length
  /-- The length of the stored form. -/
  size : F.encode.length < Size.bound

instance (F : FlatModel) (name : String) : Decidable (F.Short name) :=
  decidable_of_iff' _ (short_iff F name)

end FlatModel

section Finished

variable {m : Model} {ops : CustomOps} {options : ConverterOptions} {p : GraphPlan} {s : Lowering}
  {F : FlatModel}

/-- The dimensions in a lowered model fit the stored form. -/
lemma Lowering.Finishes.fitsCount (h : Finishes m ops options p s F) :
    ∀ t ∈ F.tensors, ∀ n ∈ t.shape, FitsCount n := by
  obtain ⟨-, tensors, -, -⟩ := h.tables
  rw [tensors]
  exact fun t ht => FlatTensor.fitsCount_of_checkDims (h.dims t ht)

/-- The tables of a lowered model are sound. -/
lemma Lowering.Finishes.sound (h : Finishes m ops options p s F) (sized : m.WellSized)
    (small : F.tensors.length < 0x80000000) : s.Sound m p F m.architecture.layers := by
  have whole := sound_of_foldlM h.valid sized small h.fitsCount h.within (fun _ => id)
    (sound_start m p F) h.run
  rwa [List.nil_append] at whole

/-- The notes of a lowered model are short, except that they have the name of the model. -/
lemma Lowering.Finishes.notes (h : Finishes m ops options p s F)
    (source : FitsCount (Bytes.ofText m.architecture.name).length) :
    ∀ note ∈ F.metadata, NoteFits note := by
  have quantize : ∀ q : Quantize, FitsCount (Bytes.ofText q.name).length := by
    rintro (_ | _) <;> decide
  have sourceKey : FitsCount (Bytes.ofText "source_model").length := by decide
  have quantizeKey : FitsCount (Bytes.ofText "weight_quantization").length := by decide
  rw [h.metadata, List.forall_mem_cons, List.forall_mem_cons, List.forall_mem_singleton]
  exact ⟨by decide, ⟨sourceKey, source⟩, quantizeKey, quantize _⟩

/-- A declared input has a tensor of its name, so there are no more inputs than tensors. -/
lemma FlatModel.length_inputs_le {ends : List Endpoint} (plan : m.architecture.plan ops = .value p)
    (h : List.Forall₂ (fun name (e : Endpoint) =>
      F.HoldsValue e.place e.name e.hwc ∧ e.name = name) m.architecture.inputs ends) :
    m.architecture.inputs.length ≤ F.tensors.length := by
  have among : m.architecture.inputs ⊆ F.tensors.map (·.name) := by
    intro name hname
    obtain ⟨e, -, value, rfl⟩ := exists_mem_of_forall₂ h hname
    exact List.mem_map_of_mem (List.mem_of_getElem? value)
  have few := ((Architecture.nodup_inputs_of_plan plan).subperm among).length_le
  rwa [List.length_map] at few

/-- Sound tables have no more of anything than there are tensors, so that all counts fit if that
of the outputs does. -/
lemma Lowering.Sound.fits {done : List Layer} (sound : s.Sound m p F done)
    (finishes : Finishes m ops options p s F) (small : F.tensors.length < 0x80000000)
    (inputs : m.architecture.inputs.length ≤ F.tensors.length)
    (short : F.Short m.architecture.name)
    (outputs : FitsCount m.architecture.outputs.length) : F.Fits := by
  obtain ⟨codes, tensors, operators, buffers⟩ := finishes.tables
  have fewCodes := sound.counts.codes
  have fewBuffers := sound.counts.buffers
  have fewOperators := sound.modest.few
  have sameInputs := finishes.inputs.length_eq
  rw [← tensors] at fewCodes fewBuffers fewOperators
  rw [← codes] at fewCodes
  rw [← buffers] at fewBuffers
  rw [← operators] at fewOperators
  have count : ∀ n, n ≤ F.tensors.length + 1 → FitsCount n := by
    intro n few
    rw [FitsCount]
    omega
  have tables : ∀ t ∈ F.tensors, t.Fits := by
    intro t ht
    have rank := sound.modest.ranks t (tensors ▸ ht)
    exact ⟨short.names t ht, lt_of_le_of_lt rank (by decide), finishes.fitsCount t ht⟩
  exact {
    description := short.description
    metadata := by rw [finishes.metadata]; exact (by decide : FitsCount 3)
    notes := finishes.notes short.source
    codes := count _ (Nat.le_succ_of_le fewCodes)
    tensors := count _ (Nat.le_succ _)
    entries := tables
    operators := count _ (Nat.le_succ_of_le fewOperators)
    instructions := operators ▸ sound.modest.fits
    inputs := count _ (sameInputs ▸ Nat.le_succ_of_le inputs)
    outputs := finishes.outputs.length_eq ▸ outputs
    buffers := count _ fewBuffers }

end Finished

namespace FlatModel

/-- A lowered model names only places that are there, and it is prepared as a graph with the inputs
of the model, and with outputs of the same dimensions.  It is read back from what is stored exactly
if the number of declared outputs fits into four bytes, which nothing checks before it is cut off
to them. -/
theorem stored_of_lower {m : Model} {ops : CustomOps} {options : ConverterOptions} {F : FlatModel}
    (sized : m.WellSized) (lowered : m.lower ops options = .value F)
    (small : F.tensors.length < 0x80000000) (short : F.Short m.architecture.name) :
    F.checkIndices = .ok () ∧
      (decode F.encode = .value F ↔ FitsCount m.architecture.outputs.length) ∧
      ∃ fg gm, FlatGraph.prepare F = .value fg ∧ GraphModel.prepare m ops = .value gm ∧
        fg.spec.inputs = gm.spec.inputs ∧
        fg.spec.outputs.map (·.dims) = gm.spec.outputs.map (·.dims) := by
  obtain ⟨p, s, finishes⟩ := Lowering.exists_finishes lowered
  obtain ⟨-, tensors, operators, buffers⟩ := finishes.tables
  have plan := (Model.validate_eq_value_iff.1 finishes.valid).1
  have sound := finishes.sound sized small
  -- the inputs and outputs are at places of tensors of the planned shapes
  have endpoint : ∀ name index, s.values.lookup name = some index → ∃ e : Endpoint,
      F.Points index e.place ∧ F.HoldsValue e.place e.name e.hwc ∧
        F.HoldsValue e.place e.name e.hwc ∧ p.shape? name = some e.hwc ∧
        ∀ l ∈ m.architecture.layers, l.name = name → l.kind.isInput = true → e.name = name := by
    intro name index found
    obtain ⟨e, -, points, value, rest⟩ := sound.shaped name index found
    exact ⟨e, points, value, value, rest⟩
  obtain ⟨thereIn, endsIn, allIn, placedIn⟩ := exists_endpoints (finishes.inputs.imp endpoint)
  obtain ⟨thereOut, endsOut, allOut, placedOut⟩ := exists_endpoints (finishes.outputs.imp endpoint)
  -- a declared input is an input layer, whose tensor has its name
  have named : List.Forall₂ (fun name (e : Endpoint) => F.HoldsValue e.place e.name e.hwc ∧
      p.shape? name = some e.hwc ∧ e.name = name) m.architecture.inputs endsIn := by
    refine ((List.forall₂_and_left _ _).2 ⟨fun _ => id, placedIn⟩).imp ?_
    rintro name e ⟨hname, value, shape, own⟩
    obtain ⟨l, hl, same, input⟩ := Architecture.input_mem_of_plan plan hname
    exact ⟨value, shape, own l hl same input⟩
  obtain ⟨steps, prepares⟩ := exists_forall₂ (operators ▸ sound.prepares)
  have inside : ∀ t ∈ F.tensors, t.buffer.toNat < F.buffers.length := by
    rw [tensors, buffers]
    exact sound.counts.inside
  obtain ⟨places, prepared⟩ := prepare_eq_value inside prepares
    (List.forall_mem_append.2 ⟨thereIn, thereOut⟩) allIn allOut
  have few := length_inputs_le plan (named.imp fun _ _ h => ⟨h.1, h.2.2⟩)
  have readBack : decode F.encode = .value F ↔ FitsCount m.architecture.outputs.length := by
    refine ⟨fun read => finishes.outputs.length_eq ▸ (fits_of_decode read).outputs, fun outputs => ?_⟩
    have fits := sound.fits finishes small few short outputs
    exact Storable.decode_eq_value ⟨finishes.version, fits, short.size, places⟩
  obtain ⟨gm, prepared'⟩ := GraphModel.exists_prepare finishes.valid sound.params
  obtain ⟨valid, -, spec, -⟩ := GraphModel.prepared_of_prepare prepared'
  have same : gm.plan = p := Outcome.value.inj (valid.symm.trans finishes.valid)
  refine ⟨places, readBack, _, gm, prepared, prepared', ?_, ?_⟩
  · have inputs := GraphPlan.map_describe id (named.imp fun name e h =>
      ⟨h.2.1, by rw [Endpoint.spec, h.2.2]⟩)
    rw [List.map_id, List.map_id] at inputs
    rw [spec, same]
    exact inputs
  · rw [spec, same]
    exact GraphPlan.map_describe (·.dims) (placedOut.imp fun _ _ h => ⟨h.2.1, rfl⟩)

/-- A model with a convolution is lowered with quantized weights, stored, read back and prepared. -/
theorem stored_of_lower_sharpening :
    ∃ F, GraphModel.sharpening.lower .empty ⟨.int8Weights, "sharpening"⟩ = .value F ∧
      F.tensors.length < 0x80000000 ∧ F.Short GraphModel.sharpening.architecture.name ∧
      F.checkIndices = .ok () ∧ decode F.encode = .value F ∧
      ∃ fg gm, FlatGraph.prepare F = .value fg ∧
        GraphModel.prepare GraphModel.sharpening .empty = .value gm ∧
        fg.spec.inputs = gm.spec.inputs ∧
        fg.spec.outputs.map (·.dims) = gm.spec.outputs.map (·.dims) := by
  obtain ⟨F, lowered, test⟩ := Outcome.exists_of_holds
    (show (GraphModel.sharpening.lower .empty ⟨.int8Weights, "sharpening"⟩).holds
      (fun F => F.tensors.length < 0x80000000 ∧ F.Short GraphModel.sharpening.architecture.name)
      = true by decide +kernel)
  obtain ⟨small, short⟩ := of_decide_eq_true test
  have sized : GraphModel.sharpening.WellSized := Model.wellSized_of_entries (by decide +kernel)
  obtain ⟨places, readBack, opened⟩ := stored_of_lower sized lowered small short
  exact ⟨F, lowered, small, short, places, readBack.2 (by decide), opened⟩

/-! ### Outputs that cannot be counted -/

/-- A model that gives its input a number of times. -/
def repeated (n : Nat) : Model where
  architecture := {
    name := "repeated"
    layers := [⟨"in", .input ⟨1, 1, 1⟩, []⟩]
    inputs := ["in"]
    outputs := List.replicate n "in" }
  weights := .empty

/-- The plan of the model, however often it gives its input. -/
def repeatedPlan : GraphPlan := ⟨[("in", ⟨1, 1, 1⟩)], []⟩

/-- The flat model of the model. -/
def repeatedFlat (n : Nat) : FlatModel where
  version := formatVersion
  description := "repeated"
  metadata := [("producer", producer), ("source_model", "repeated"), ("weight_quantization", "none")]
  codes := []
  tensors := [⟨"in", .f32, [1, 1, 1, 1], 0, none⟩]
  operators := []
  inputs := [0]
  outputs := List.replicate n 0
  buffers := [[]]

lemma lower_repeated {n : Nat} (some : n ≠ 0) :
    (repeated n).lower .empty ⟨.none, "repeated"⟩ = .value (repeatedFlat n) := by
  obtain ⟨n, rfl⟩ := Nat.exists_eq_succ_of_ne_zero some
  have outputs : ∀ k, Architecture.checkOutputs repeatedPlan (List.replicate k "in") = .ok () := by
    intro k
    induction k with
    | zero => rfl
    | succ k ih => exact ih
  have ends : (repeated (n + 1)).architecture.checkEnds repeatedPlan = .ok () := outputs (n + 1)
  have plan : (repeated (n + 1)).architecture.plan .empty = .value repeatedPlan := by
    have layers : (repeated (n + 1)).architecture.layers.foldlM (GraphPlan.extend .empty) .empty
        = .value repeatedPlan := rfl
    rw [Architecture.plan, layers, Outcome.value_bind, ends]
    rfl
  have valid : (repeated (n + 1)).validate .empty = .value repeatedPlan := by
    rw [Model.validate, plan]
    rfl
  -- the tables do not depend on the outputs, which all name the one place in them
  obtain ⟨s, run, tables⟩ : ∃ s : Lowering, (repeated (n + 1)).architecture.layers.foldlM
      (Lowering.lowerLayer (repeated (n + 1)) repeatedPlan .none) .start = .value s ∧
      s = ⟨[], (repeatedFlat 0).tensors, [], [[]], [("in", 0)]⟩ := ⟨_, rfl, rfl⟩
  have values : (List.replicate (n + 1) "in").mapM s.value
      = .value (List.replicate (n + 1) 0) := by
    rw [Outcome.mapM_eq_value (g := fun _ => 0), List.map_replicate]
    intro name given
    rw [List.eq_of_mem_replicate given, tables]
    rfl
  have dims : s.tensors.forM FlatTensor.checkDims = .value () := by
    rw [tables]
    rfl
  have first : (repeated (n + 1)).architecture.inputs.mapM s.value = .value [0] := by
    rw [tables]
    rfl
  have last : (repeated (n + 1)).architecture.outputs.mapM s.value
    = .value (List.replicate (n + 1) 0) := values
  rw [Model.lower, valid, Outcome.mapError_value, Outcome.value_bind, run, Outcome.value_bind,
    first, Outcome.value_bind, last, Outcome.value_bind, dims, tables]
  rfl

/-- The bytes of a model before its data section, by the number of its outputs. -/
lemma length_head_outputs (m : FlatModel) (outputs : List Int32) :
    { m with outputs }.head.length = { m with outputs := [] }.head.length + 4 * outputs.length := by
  have length : ∀ is : List Int32, (encodeIndices is).length = 4 + 4 * is.length := by
    intro is
    have entry : ∀ i : Int32, (encodeIndex i).length = 4 := fun _ => rfl
    rw [encodeIndices, encodeTable, List.length_append, encodeCount, length_littleEndian,
      List.length_flatMap]
    simp only [entry, List.map_const', List.sum_replicate, smul_eq_mul, Nat.mul_comm]
  simp only [head, placed, List.length_append, length, List.length_nil]
  omega

/-- The texts of the flat model are short, and its stored form has a size unless there are far too
many outputs. -/
lemma short_repeated {n : Nat} (few : n < 2 ^ 60) : (repeatedFlat n).Short "repeated" := by
  have name : FitsCount (Bytes.ofText "repeated").length := by decide
  have names : ∀ t ∈ (repeatedFlat 0).tensors, FitsCount (Bytes.ofText t.name).length := by decide
  refine ⟨name, name, names, ?_⟩
  -- everything but the outputs is the same for every number
  have head := length_head_outputs (repeatedFlat n) (List.replicate n 0)
  have rest : (repeatedFlat 0).head.length ≤ 256 := by decide +kernel
  have whole : (repeatedFlat n).head.length = (repeatedFlat 0).head.length + 4 * n := by
    rw [List.length_replicate] at head
    exact head
  have length : (repeatedFlat n).encode.length = align (repeatedFlat n).head.length + 0 :=
    length_encode (repeatedFlat n)
  rw [whole, align, bufferAlignment] at length
  rw [length, Size.bound]
  omega

/-- A model that gives its input 2 ^ 32 times: its flat model is stored with the number 0 for its
outputs, and is not what is read back. -/
theorem decode_ne_of_lower_repeated : (repeated 0x100000000).WellSized ∧
    ∃ F, (repeated 0x100000000).lower .empty ⟨.none, "repeated"⟩ = .value F ∧
      F.tensors.length < 0x80000000 ∧ F.Short "repeated" ∧ decode F.encode ≠ .value F := by
  have few : (repeatedFlat 0).tensors.length < 0x80000000 := by decide
  refine ⟨Model.wellSized_of_entries (List.forall_mem_nil _), _, lower_repeated (by decide), few,
    short_repeated (by norm_num), fun read => ?_⟩
  have outputs := (fits_of_decode read).outputs
  rw [repeatedFlat, List.length_replicate] at outputs
  exact absurd outputs (lt_irrefl _)

end FlatModel

end FlatNet
