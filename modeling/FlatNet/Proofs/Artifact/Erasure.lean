import FlatNet.Proofs.Artifact.Intermediate
import FlatNet.Proofs.Container.Regular

/-!
Loading without training state.

A reader that leaves training state out checks less than one that reads all of it, and makes the
same of the rest.  What it gives is what the other reader gives, with slots and training
configuration erased, so files that differ in nothing else are loaded and converted alike.

* `Container.erased`: a container without its training state;
* `Container.erased_of_decode`: what is read without training state;
* `Store.LoadAlike`: files that are loaded and converted alike;
* `Container.loads_erased`: files that agree up to training state are such files.
-/

namespace FlatNet

open Outcome

namespace Container

variable {c : Container} {bs : Bytes}

/-! ### Reading -/

/-- A container without the training configuration and the slots. -/
def erased (c : Container) : Container :=
  ⟨c.encoding, c.architecture, none, c.tensors.filter fun name _ => !isSlot name⟩

/-- The training configuration is not read unless it is wanted. -/
lemma readTraining_false (info : Table String) : readTraining false info = .ok none := by
  unfold readTraining
  split <;> rfl

/-- If all tensors of an archive are read, so are those that are no slots, and they are the
same. -/
lemma readTensors_false {arrays : Table Archive.Entry}
    (h : readTensors true arrays = .ok c.tensors) :
    readTensors false arrays = .ok c.erased.tensors := by
  obtain ⟨listed, sized⟩ := entries_of_readTensors h
  have all : arrays.filter (fun name _ => true || !isSlot name) = arrays :=
    Table.filter_eq_self_iff.2 fun _ _ => rfl
  have same : c.entries = arrays := listed.trans all
  rw [← same]
  exact readTensors_entries fun p hp _ => sized p hp

/-- What is read without training state is what is read with it, erased. -/
lemma erased_of_decode (h : decode true bs = .value c) : decode false bs = .value c.erased := by
  obtain ⟨other, archive, read, made⟩ := decode_eq_value_iff.1 h
  obtain ⟨info, texts, encoding, version, graph, -, tensors⟩ := ofArchive_eq_ok_iff.1 made
  exact decode_eq_value_iff.2 ⟨other, archive, read, ofArchive_eq_ok_iff.2
    ⟨info, texts, encoding, version, graph, readTraining_false info, readTensors_false tensors⟩⟩

/-- Reading breaks off only where the reading of the archive does. -/
lemma decode_eq_fault_iff {withTraining : Bool} :
    decode withTraining bs = .fault ↔
      flatMagic.isPrefixOf bs = false ∧ Archive.decode bs = .fault := by
  unfold decode
  cases flatMagic.isPrefixOf bs with
  | true => simp [require]
  | false =>
    rw [Bool.not_false, require_true, value_bind]
    cases Archive.decode bs with
    | value a => cases made : ofArchive withTraining a <;> simp [mapError, Outcome.ofExcept, made]
    | error e => simp [mapError]
    | fault => simp [mapError]

/-- What is refused without training state is refused with it. -/
lemma exists_error_of_decode {e : DecodeError} (h : decode false bs = .error e) :
    ∃ e', decode true bs = .error e' := by
  cases full : decode true bs with
  | value c =>
    rw [erased_of_decode full] at h
    cases h
  | error e' => exact ⟨e', rfl⟩
  | fault =>
    rw [decode_eq_fault_iff.2 (decode_eq_fault_iff.1 full)] at h
    cases h

end Container

/-! ### Files -/

/-- A model that is opened is written as it is, in every order of the texts. -/
lemma Model.regular_of_open {m : Model} {path : Path} {ops : CustomOps} {encoding : Encoding}
    {bs : Bytes} (opened : Model.open path ops bs = .value (m, encoding)) :
    (Container.ofModel m).Regular := by
  obtain ⟨-, known⟩ := readFrom_of_open opened
  refine ⟨Encoding.noConfusion, known.names, fun p hp => Tensor.regular_iff.2 ?_⟩
  exact ⟨known.sized p hp, known.checked _ (Container.mem_entries_iff.2 ⟨p, hp, rfl⟩)⟩

/-- The file at a path is loaded and converted alike in two stores. -/
structure Store.LoadAlike (path : Path) (ops : CustomOps) (s₁ s₂ : Store) : Prop where
  /-- The same model is read, or the file is refused with the same error. -/
  readModel : ((host.readModel path ops).run s₁).1 = ((host.readModel path ops).run s₂).1
  /-- The file is converted to the same flat file, or refused with the same error. -/
  convertFile : ∀ options, ((host.convertFile path ops options).run s₁).1
    = ((host.convertFile path ops options).run s₂).1
  /-- The model that is read has an intermediate form, in every order of its texts. -/
  written : ∀ m, (host.loadModel path ops).run s₁ = (.value m, s₁) →
    ∀ texts : List (String × String), texts.Perm (Container.ofModel m).info →
      ∃ bytes, (Container.ofModel m).encodeWith texts = .value bytes
  /-- Files that hold intermediate forms of the models that are read, each with its texts in any
  order, are converted to the same flat file, or refused with the same error.  A file that is held
  in memory has a length that is a size. -/
  intermediate : ∀ m₁ m₂ bytes₁ bytes₂,
    (host.loadModel path ops).run s₁ = (.value m₁, s₁) →
    (host.loadModel path ops).run s₂ = (.value m₂, s₂) →
    (Container.ofModel m₁).Written bytes₁ → (Container.ofModel m₂).Written bytes₂ →
    bytes₁.length < Size.bound → ∀ path' t₁ t₂,
      t₁.read path' = .ok bytes₁ → t₂.read path' = .ok bytes₂ →
      ∀ options, ((host.convertFile path' ops options).run t₁).1
        = ((host.convertFile path' ops options).run t₂).1

namespace Store

variable {s : Store} {path : Path} {ops : CustomOps}

/-- A model that is loaded is that of the bytes of its file. -/
lemma exists_open_of_run_loadModel {bs : Bytes} {m : Model} (there : s.read path = .ok bs)
    (loaded : (host.loadModel path ops).run s = (.value m, s)) :
    ∃ encoding, Model.open path ops bs = .value (m, encoding) := by
  obtain ⟨bs', encoding, read, opened⟩ := faithful_host.exists_open_of_loaded loaded
  obtain rfl := Except.ok.inj (there.symm.trans read)
  exact ⟨encoding, opened⟩

/-- Files whose bytes open alike are loaded and converted alike. -/
lemma loadAlike_of_open {s₁ s₂ : Store} {bs₁ bs₂ : Bytes}
    (there₁ : s₁.read path = .ok bs₁) (there₂ : s₂.read path = .ok bs₂)
    (opened : Model.open path ops bs₁ = Model.open path ops bs₂) : LoadAlike path ops s₁ s₂ where
  readModel := by
    rw [run_readModel there₁, run_readModel there₂]
    exact opened
  convertFile options := by
    rw [run_convertFile there₁, run_convertFile there₂]
    simp only [Model.lowerFile, opened]
  written := by
    intro m loaded texts _
    obtain ⟨encoding, found⟩ := exists_open_of_run_loadModel there₁ loaded
    exact ⟨_, Container.encodeWith_eq_value_iff.2 ⟨(Model.regular_of_open found).checked, rfl⟩⟩
  intermediate := by
    intro m₁ m₂ bytes₁ bytes₂ loaded₁ loaded₂ written₁ written₂ size path' t₁ t₂ read₁ read₂ options
    obtain ⟨encoding₁, found₁⟩ := exists_open_of_run_loadModel there₁ loaded₁
    obtain ⟨encoding₂, found₂⟩ := exists_open_of_run_loadModel there₂ loaded₂
    -- both files hold one model, but its two intermediate forms may differ in their texts
    obtain ⟨rfl, rfl⟩ : m₁ = m₂ ∧ encoding₁ = encoding₂ :=
      Prod.mk.inj (Outcome.value.inj (found₁.symm.trans (opened.trans found₂)))
    have alike := (Model.regular_of_open found₁).decode_eq_of_written written₁ written₂ size false
    rw [run_convertFile read₁, run_convertFile read₂, Model.lowerFile, Model.lowerFile, Model.open,
      Model.open, Container.open, Container.open, alike]

end Store

namespace Container

/-- Reading without training state gives what reading with it gives, erased, and is refused or
breaks off only if that is.  So two files that hold containers which agree when they are erased
are loaded and converted alike, directly and by way of their intermediate forms, whatever their
slots and training configurations are and in whatever order texts are written. -/
theorem loads_erased :
    (∀ bs c, decode true bs = .value c → decode false bs = .value c.erased) ∧
    (∀ bs, (∀ e, decode false bs = .error e → ∃ e', decode true bs = .error e') ∧
      (decode false bs = .fault → decode true bs = .fault)) ∧
    ∀ bs₁ bs₂ c₁ c₂, decode true bs₁ = .value c₁ → decode true bs₂ = .value c₂ →
      c₁.erased = c₂.erased → ∀ (path : Path) (ops : CustomOps) (s₁ s₂ : Store),
        s₁.read path = .ok bs₁ → s₂.read path = .ok bs₂ → Store.LoadAlike path ops s₁ s₂ := by
  refine ⟨fun _ _ => erased_of_decode, fun bs => ⟨fun _ => exists_error_of_decode, fun h => ?_⟩, ?_⟩
  · exact decode_eq_fault_iff.2 (decode_eq_fault_iff.1 h)
  · intro bs₁ bs₂ c₁ c₂ read₁ read₂ agree path ops s₁ s₂ there₁ there₂
    refine Store.loadAlike_of_open there₁ there₂ ?_
    rw [Model.open, Model.open, Container.open, Container.open, erased_of_decode read₁,
      erased_of_decode read₂, agree]

/-- A checkpoint of a model that doubles a pixel, without any training state. -/
def untrained : Container := { ofModel (.doubling "double") with encoding := .checkpoint }

lemma storable_untrained : untrained.Storable := by
  refine storable_of_le (n := 4096) (by decide +kernel) ?_ (by decide +kernel) (by decide)
  rw [Archive.stored_eq_of_perm (.refl _) (by decide +kernel)]
  -- the characters are counted before they are put together
  simp only [untrained, ofModel, Model.doubling, Bytes.length_ofText, Archive.headerText,
    Json.Tree.toList_braced, Json.Tree.toList_bracketed, Json.Tree.toList_memberText,
    Json.toList_quote, List.map_cons, List.map_append, List.map_nil, info, Option.toList_none,
    Architecture.text, Layer.text, LayerKind.text, LayerKind.config, namesText, pairText, sizesText]
  decide +kernel

/-- A regular container that holds a model of one layer is saved, and read as it was; so is the
model. -/
lemma Regular.exists_saved (h : c.Regular) (held : (Model.doubling "double").HeldBy c)
    (storable : c.Storable) (legible : c.Legible) :
    ∃ bs s, (Store.host.saveContainer c ⟨"m.lpim"⟩).run (.empty []) = (.value (), s) ∧
      s.read ⟨"m.lpim"⟩ = .ok bs ∧ decode true bs = .value c ∧
      (Store.host.loadModel ⟨"m.lpim"⟩ .empty).run s = (.value (.doubling "double"), s) := by
  obtain ⟨s, saved⟩ := Model.exists_saveContainer_empty h.checked
  obtain ⟨bs, written, put⟩ := Store.run_saveContainer_eq_value_iff.1 saved
  have there := Store.read_of_write put
  obtain ⟨valid, exact, sized⟩ := Model.valid_doubling "double" (by decide)
  have opened := (Model.open_encode_iff ⟨"m.lpim"⟩ valid exact sized
    (Model.parse?_text_doubling "double") held storable written).2 Model.unreserved_doubling
  obtain rfl := Outcome.value.inj (h.encode.symm.trans written)
  refine ⟨_, s, saved, there, h.decode_written storable legible, ?_⟩
  rw [Host.loadModel, Action.run_bind_of_value ((Store.run_readModel there).trans
    (congrArg (·, s) opened))]
  rfl

/-- A checkpoint with a slot and one without training state hold the same model: both are saved,
both are loaded as that model, and they are converted alike. -/
theorem loads_erased_untrained :
    ∃ s₁ s₂,
      (Store.host.saveCheckpoint (.doubling "double") Model.momentum ⟨"m.lpim"⟩).run (.empty [])
        = (.value (), s₁) ∧
      (Store.host.saveContainer untrained ⟨"m.lpim"⟩).run (.empty []) = (.value (), s₂) ∧
      (Store.host.loadModel ⟨"m.lpim"⟩ .empty).run s₁ = (.value (.doubling "double"), s₁) ∧
      (Store.host.loadModel ⟨"m.lpim"⟩ .empty).run s₂ = (.value (.doubling "double"), s₂) ∧
      Store.LoadAlike ⟨"m.lpim"⟩ .empty s₁ s₂ := by
  have text := Model.parse?_text_doubling "double"
  obtain ⟨-, exact, -⟩ := Model.valid_doubling "double" (by decide)
  have trained : (ofTraining (.doubling "double") Model.momentum).Regular := by
    refine ⟨by decide, by decide +kernel, fun p hp => Tensor.regular_iff.2 ?_⟩
    revert p
    decide +kernel
  have plain : untrained.Regular := by
    refine ⟨by decide, by decide +kernel, fun p hp => Tensor.regular_iff.2 ?_⟩
    revert p
    decide +kernel
  have held : (Model.doubling "double").HeldBy untrained :=
    ⟨rfl, rfl, Model.infoKey_not_mem_keys exact, Encoding.noConfusion⟩
  obtain ⟨bs₁, s₁, saved₁, there₁, read₁, loaded₁⟩ :=
    trained.exists_saved (Model.heldBy_ofTraining exact Model.momentum)
      (Model.storable_doubling _ (.tail _ (.head _)))
      ⟨text, by rintro _ ⟨⟩; exact parse?_text_plainDescent⟩
  obtain ⟨bs₂, s₂, saved₂, there₂, read₂, loaded₂⟩ :=
    plain.exists_saved held storable_untrained ⟨text, nofun⟩
  have agree : (ofTraining (.doubling "double") Model.momentum).erased = untrained.erased := by
    simp only [erased, ofTraining, untrained, ofModel]
    exact congrArg _ (by decide +kernel)
  exact ⟨s₁, s₂, saved₁, saved₂, loaded₁, loaded₂,
    loads_erased.2.2 bs₁ bs₂ _ _ read₁ read₂ agree ⟨"m.lpim"⟩ .empty s₁ s₂ there₁ there₂⟩

end Container

end FlatNet
