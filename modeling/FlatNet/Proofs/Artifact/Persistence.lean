import FlatNet.Artifact.Load
import FlatNet.Artifact.Save
import FlatNet.Proofs.Container.Codec
import FlatNet.Proofs.Files.Host
import FlatNet.Proofs.Graph.Model
import FlatNet.Proofs.Graph.Text

/-!
Models that are saved and read again.

A model is saved as a container and read without training state, so what is read are the
parameters that do not have names of slots.  A model whose parameters are those of its layers
comes back exactly if no layer with parameters has a reserved name.

* `Model.Exact`: the parameters are those that the layers need;
* `Model.Unreserved`: no layer with parameters has a reserved name;
* `Model.open_encode_iff`: when the model of the written bytes is the one that was written;
* `Model.readModel_save_iff`: when a model that is saved is read again.
-/

namespace FlatNet

open Outcome

/-! ### Runs on a store -/

namespace Store

variable {s s' : Store} {path : Path}

/-- A container is saved exactly if it is encoded and its bytes are written. -/
lemma run_saveContainer_eq_value_iff {c : Container} :
    (host.saveContainer c path).run s = (.value (), s') ↔
      ∃ bytes, c.encode = .value bytes ∧ s.write path bytes = .ok s' := by
  rw [Host.saveContainer, Action.run_bind_eq_value_iff]
  constructor
  · rintro ⟨bytes, s₁, encoded, written⟩
    rw [Action.run_ofOutcome_store] at encoded
    obtain ⟨made, rfl⟩ := Prod.mk.inj encoded
    exact ⟨bytes, mapError_eq_value_iff.1 made, run_write_eq_value_iff.1 written⟩
  · rintro ⟨bytes, encoded, written⟩
    refine ⟨bytes, s, ?_, run_write_eq_value_iff.2 written⟩
    rw [encoded]
    rfl

/-- A model file that can be read is opened, and the store stays as it is. -/
lemma run_readModel {ops : CustomOps} {bytes : Bytes} (h : s.read path = .ok bytes) :
    (host.readModel path ops).run s = (Model.open path ops bytes, s) :=
  Action.run_bind_of_value (run_read_of_ok h)

end Store

namespace Model

variable {m : Model} {ops : CustomOps} {p : GraphPlan}

lemma mem_parameters_iff {a : Architecture} {q : Layer × List (String × Shape)} :
    q ∈ parameters a p ↔
      q.1 ∈ a.layers ∧ ∃ input, inputShape? p q.1 = some input ∧ q.1.kind.weights input = q.2 := by
  obtain ⟨l, needed⟩ := q
  simp only [parameters, List.mem_filterMap, Option.map_eq_some_iff, Prod.mk.injEq]
  constructor
  · rintro ⟨l, hl, input, first, rfl, rfl⟩
    exact ⟨hl, input, first, rfl⟩
  · rintro ⟨hl, input, first, rfl⟩
    exact ⟨l, hl, input, first, rfl, rfl⟩

/-- Every parameter of a model is one that a layer needs. -/
def Exact (m : Model) (p : GraphPlan) : Prop :=
  ∀ key ∈ m.weights.keys, ∃ q ∈ parameters m.architecture p, ∃ param ∈ q.2,
    key = weightKey q.1.name param.1

/-- No layer with parameters has a reserved name. -/
def Unreserved (m : Model) (p : GraphPlan) : Prop :=
  ∀ q ∈ parameters m.architecture p, q.2 ≠ [] → ¬ Container.Reserved q.1.name

lemma infoKey_not_mem_keys (exact : m.Exact p) : Archive.infoKey ∉ m.weights.keys := by
  intro there
  obtain ⟨q, -, param, -, same⟩ := exact _ there
  exact Container.weightKey_ne_infoKey _ _ same.symm

/-- The parameters of a valid model have no names of slots exactly if no layer has a reserved
name. -/
lemma forall_keys_iff (valid : m.validate ops = .value p) (exact : m.Exact p) :
    (∀ key ∈ m.weights.keys, (!Container.isSlot key) = true) ↔ m.Unreserved p := by
  constructor
  -- a reserved layer with a parameter has the key of that parameter
  · intro plain q hq some? reserved
    obtain ⟨param, hparam⟩ := List.exists_mem_of_ne_nil _ some?
    obtain ⟨hl, input, first, needed⟩ := mem_parameters_iff.1 hq
    obtain ⟨t, found, -⟩ := (validate_eq_value_iff.1 valid).2 q.1 hl input first param
      (needed ▸ hparam)
    have key : weightKey q.1.name param.1 ∈ m.weights.keys :=
      List.mem_map_of_mem (Table.mem_entries_of_get? found)
    have slot := (Container.isSlot_weightKey_iff q.1.name param.1).2 reserved
    have plain := plain _ key
    rw [slot] at plain
    cases plain
  · intro unreserved key hkey
    obtain ⟨q, hq, param, hparam, rfl⟩ := exact key hkey
    have plain := unreserved q hq (List.ne_nil_of_mem hparam)
    rw [← Container.isSlot_weightKey_iff _ param.1, Bool.not_eq_true] at plain
    rw [plain]
    rfl

/-! ### What is read -/

/-- What a reader takes for the parameters of a model whose container has been written. -/
def kept (m : Model) : Table Tensor := m.weights.filter fun key _ => !Container.isSlot key

/-- A container holds a model, and perhaps slots. -/
structure HeldBy (m : Model) (c : Container) : Prop where
  /-- The graph is that of the model. -/
  architecture : c.architecture = m.architecture
  /-- Beside slots, the tensors are the parameters of the model. -/
  tensors : c.tensors.filter (fun key _ => !Container.isSlot key) = m.kept
  /-- No tensor has the name of the texts of an archive. -/
  names : Archive.infoKey ∉ c.tensors.keys
  /-- A container is not flat. -/
  notFlat : c.encoding ≠ .flat

lemma heldBy_ofModel (exact : m.Exact p) : m.HeldBy (.ofModel m) :=
  ⟨rfl, rfl, infoKey_not_mem_keys exact, Encoding.noConfusion⟩

lemma heldBy_ofTraining (exact : m.Exact p) (t : TrainingState) : m.HeldBy (.ofTraining m t) := by
  refine ⟨rfl, ?_, fun there => ?_, Encoding.noConfusion⟩
  · exact Table.filter_foldl_insert (fun key => by rw [Container.isSlot_slotMark]; rfl) _ _
  · rcases Table.mem_keys_foldl_insert there with old | ⟨q, -, same⟩
    · exact infoKey_not_mem_keys exact old
    · have slot := Container.isSlot_slotMark q.1
      rw [← same] at slot
      exact absurd slot (by decide)

variable {c : Container} {path : Path}

/-- The bytes of a container that holds a model open as the graph of the model and the parameters
that a reader keeps, if these are valid. -/
lemma open_encode (sized : ∀ q ∈ m.weights.entries, q.2.WellSized)
    (text : Architecture.parse? m.architecture.text = some m.architecture) (held : m.HeldBy c)
    (storable : c.Storable) {bytes : Bytes} (written : c.encode = .value bytes) :
    Model.open path ops bytes = (do
      let _ ← ((⟨m.architecture, m.kept⟩ : Model).validate ops).mapError (.ofGraph path)
      return ((⟨m.architecture, m.kept⟩ : Model), c.encoding)) := by
  -- what is kept of the container are the weights of the model that are no slots
  have sized' : ∀ q ∈ c.tensors.entries, (false || !Container.isSlot q.1) = true →
      q.2.WellSized := by
    intro q hq plain
    have there : q ∈ (c.tensors.filter fun key _ => !Container.isSlot key).entries :=
      List.mem_filter.2 ⟨hq, plain⟩
    rw [held.tensors] at there
    exact sized q (List.mem_filter.1 there).1
  have decoded := Container.decode_of_encode storable held.names held.notFlat
    (by rw [held.architecture, text]) (fun wanted => absurd wanted Bool.false_ne_true) sized'
    written
  rw [Model.open, Container.open, decoded, mapError_value, value_bind]
  simp only [Container.model, held.architecture, Bool.false_or, held.tensors]

/-- The bytes of a container that holds a model open as that model exactly if no layer with
parameters has a reserved name. -/
lemma open_encode_iff (path : Path) (valid : m.validate ops = .value p) (exact : m.Exact p)
    (sized : ∀ q ∈ m.weights.entries, q.2.WellSized)
    (text : Architecture.parse? m.architecture.text = some m.architecture) (held : m.HeldBy c)
    (storable : c.Storable) {bytes : Bytes} (written : c.encode = .value bytes) :
    Model.open path ops bytes = .value (m, c.encoding) ↔ m.Unreserved p := by
  rw [open_encode sized text held storable written, bind_eq_value_iff,
    ← forall_keys_iff valid exact, ← Table.filter_eq_self_iff]
  constructor
  · rintro ⟨_, -, same⟩
    exact congrArg (·.1.weights) (Outcome.value.inj same)
  · intro same
    have whole : m.kept = m.weights := same
    rw [whole]
    exact ⟨p, by rw [mapError_eq_value_iff]; exact valid, rfl⟩

/-- A saved container that holds a model is read as that model exactly if no layer with
parameters has a reserved name. -/
lemma readModel_saveContainer_iff (valid : m.validate ops = .value p) (exact : m.Exact p)
    (sized : ∀ q ∈ m.weights.entries, q.2.WellSized)
    (text : Architecture.parse? m.architecture.text = some m.architecture) (held : m.HeldBy c)
    (storable : c.Storable) {s s' : Store}
    (saved : (Store.host.saveContainer c path).run s = (.value (), s')) :
    (Store.host.readModel path ops).run s' = (.value (m, c.encoding), s') ↔ m.Unreserved p := by
  obtain ⟨bytes, encoded, written⟩ := Store.run_saveContainer_eq_value_iff.1 saved
  rw [Store.run_readModel (Store.read_of_write written), Prod.mk.injEq, and_iff_left rfl]
  exact open_encode_iff path valid exact sized text held storable encoded

/-- A model that is saved is read again exactly if no layer with parameters has a reserved name,
whether training state is saved with it or not. -/
theorem readModel_save_iff (valid : m.validate ops = .value p) (exact : m.Exact p)
    (sized : ∀ q ∈ m.weights.entries, q.2.WellSized)
    (text : Architecture.parse? m.architecture.text = some m.architecture) (s s' : Store) :
    ((Container.ofModel m).Storable →
      (Store.host.saveIntermediate m path).run s = (.value (), s') →
      ((Store.host.readModel path ops).run s' = (.value (m, .intermediate), s') ↔
        m.Unreserved p)) ∧
    ∀ t : TrainingState, (Container.ofTraining m t).Storable →
      (Store.host.saveCheckpoint m t path).run s = (.value (), s') →
      ((Store.host.readModel path ops).run s' = (.value (m, .checkpoint), s') ↔
        m.Unreserved p) := by
  constructor
  · intro storable saved
    exact readModel_saveContainer_iff valid exact sized text (heldBy_ofModel exact) storable saved
  · intro t storable saved
    exact readModel_saveContainer_iff valid exact sized text (heldBy_ofTraining exact t) storable
      saved

/-! ### A model with one layer -/

/-- A model that doubles a pixel, by a convolution of the given name. -/
def doubling (name : String) : Model where
  architecture := {
    name := "net"
    layers := [
      ⟨"in", .input ⟨1, 1, 1⟩, []⟩,
      ⟨name, .conv2d 1 ⟨(1, 1), (1, 1), .same⟩ .linear false, ["in"]⟩]
    inputs := ["in"]
    outputs := [name] }
  weights := .ofList [
    (weightKey name "kernel", ⟨.f32, [1, 1, 1, 1], Bytes.ofSingles [⟨0x40000000⟩]⟩)]

/-- The plan of the model. -/
def doublingPlan (name : String) : GraphPlan :=
  ⟨[("in", ⟨1, 1, 1⟩), (name, ⟨1, 1, 1⟩)], []⟩

/-- A training state with one slot. -/
def momentum : TrainingState where
  config := .obj [("optimizer", .str "SGD")]
  slots := .ofList [("momentum", ⟨.f32, [1], Bytes.ofSingles [⟨0⟩]⟩)]

lemma parse?_text_doubling (name : String) :
    Architecture.parse? (doubling name).architecture.text = some (doubling name).architecture := by
  refine Architecture.parse?_text fun l hl => ?_
  simp only [doubling, List.mem_cons, List.not_mem_nil, or_false] at hl
  obtain rfl | rfl := hl
  · exact ⟨by decide, by decide, by decide⟩
  · exact ⟨by decide, ⟨by decide, by decide⟩, by decide, by decide⟩

/-- A container is saved to an empty store if its arrays pass the check of their sizes. -/
lemma exists_saveContainer_empty (checked : ∀ q ∈ c.entries.entries, q.2.check = .value ()) :
    ∃ s', (Store.host.saveContainer c ⟨"m.lpim"⟩).run (.empty []) = (.value (), s') :=
  ⟨_, Store.run_saveContainer_eq_value_iff.2
    ⟨_, Container.encode_eq_value_iff.2 ⟨checked, rfl⟩, rfl⟩⟩

/-- The containers of the model, by an ordinary and by the reserved name. -/
def doublingContainers : List Container := [
  .ofModel (doubling "double"),
  .ofTraining (doubling "double") momentum,
  .ofModel (doubling "optimizer")]

lemma storable_doubling : ∀ c ∈ doublingContainers, c.Storable := by
  have ordered : ∀ c ∈ doublingContainers, Archive.stored c.entries = c.entries.entries := by
    intro c hc
    refine List.mergeSort_of_pairwise ?_
    revert c
    decide +kernel
  have header : ∀ c ∈ doublingContainers,
      (Bytes.ofText (Archive.headerText c.info c.entries.entries)).length ≤ 4096 := by
    -- the characters are counted before they are put together
    simp only [doublingContainers, List.forall_mem_cons, Bytes.length_ofText, Archive.headerText,
      Json.Tree.toList_braced, Json.Tree.toList_bracketed, Json.Tree.toList_memberText,
      Json.toList_quote, List.map_cons, List.map_append, List.map_nil, Container.info,
      Container.ofModel, Container.ofTraining, Option.toList_some, Option.toList_none, Architecture.text, Layer.text,
      LayerKind.text, LayerKind.config, namesText, pairText, sizesText, doubling]
    decide +kernel
  intro c hc
  refine Container.storable_of_le ?_ (ordered c hc ▸ header c hc) ?_ (by decide)
  · revert c
    decide +kernel
  · revert c
    decide +kernel

lemma valid_doubling : ∀ name ∈ ["double", "optimizer"],
    (doubling name).validate .empty = .value (doublingPlan name) ∧
      (doubling name).Exact (doublingPlan name) ∧
      ∀ q ∈ (doubling name).weights.entries, q.2.WellSized := by
  unfold Exact
  decide +kernel

lemma unreserved_doubling : (doubling "double").Unreserved (doublingPlan "double") := by
  unfold Unreserved
  decide +kernel

/-- A model without a reserved name is read again from both kinds of files. -/
theorem readModel_save_doubling :
    (∃ s', (Store.host.saveIntermediate (doubling "double") ⟨"m.lpim"⟩).run (.empty [])
        = (.value (), s') ∧
      (Store.host.readModel ⟨"m.lpim"⟩ .empty).run s'
        = (.value (doubling "double", .intermediate), s')) ∧
    ∃ s', (Store.host.saveCheckpoint (doubling "double") momentum ⟨"m.lpim"⟩).run (.empty [])
        = (.value (), s') ∧
      (Store.host.readModel ⟨"m.lpim"⟩ .empty).run s'
        = (.value (doubling "double", .checkpoint), s') := by
  obtain ⟨valid, exact, sized⟩ := valid_doubling "double" (by decide)
  have text := parse?_text_doubling "double"
  constructor
  · obtain ⟨s', saved⟩ := exists_saveContainer_empty (c := .ofModel (doubling "double"))
      (by decide +kernel)
    refine ⟨s', saved, ((readModel_save_iff valid exact sized text _ _).1 ?_ saved).2
      unreserved_doubling⟩
    exact storable_doubling _ (.head _)
  · obtain ⟨s', saved⟩ := exists_saveContainer_empty
      (c := .ofTraining (doubling "double") momentum) (by decide +kernel)
    refine ⟨s', saved, ((readModel_save_iff valid exact sized text _ _).2 _ ?_ saved).2
      unreserved_doubling⟩
    exact storable_doubling _ (.tail _ (.head _))

/-- By the reserved name, the model is saved but refused on reading, as its parameter is taken for
a slot. -/
theorem readModel_save_optimizer :
    ((doubling "optimizer").validate .empty = .value (doublingPlan "optimizer") ∧
      (doubling "optimizer").Exact (doublingPlan "optimizer") ∧
      ∀ q ∈ (doubling "optimizer").weights.entries, q.2.WellSized) ∧
    Architecture.parse? (doubling "optimizer").architecture.text
      = some (doubling "optimizer").architecture ∧
    (Container.ofModel (doubling "optimizer")).Storable ∧
    ∃ s', (Store.host.saveIntermediate (doubling "optimizer") ⟨"m.lpim"⟩).run (.empty [])
        = (.value (), s') ∧
      (Store.host.readModel ⟨"m.lpim"⟩ .empty).run s'
        = (.error (.invalid ⟨"m.lpim"⟩ (.missingWeight "optimizer" "kernel")), s') := by
  have model := valid_doubling "optimizer" (by decide)
  have text := parse?_text_doubling "optimizer"
  have storable := storable_doubling (.ofModel (doubling "optimizer"))
    (.tail _ (.tail _ (.head _)))
  obtain ⟨s', saved⟩ := exists_saveContainer_empty (c := .ofModel (doubling "optimizer"))
    (by decide +kernel)
  obtain ⟨bytes, encoded, written⟩ := Store.run_saveContainer_eq_value_iff.1 saved
  -- what is kept of the model has lost the kernel
  have missing : (⟨(doubling "optimizer").architecture, (doubling "optimizer").kept⟩
      : Model).validate .empty = .error (.missingWeight "optimizer" "kernel") := by decide +kernel
  refine ⟨model, text, storable, s', saved, ?_⟩
  rw [Store.run_readModel (Store.read_of_write written),
    open_encode model.2.2 text (heldBy_ofModel model.2.1) storable encoded, missing]
  rfl

end Model

end FlatNet
