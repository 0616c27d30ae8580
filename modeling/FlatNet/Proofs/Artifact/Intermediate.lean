import FlatNet.Proofs.Artifact.Effects
import FlatNet.Proofs.Artifact.Persistence
import FlatNet.Proofs.Container.Decoded

/-!
Intermediate files between a model file and its conversion.

A model that was loaded has the parameters that its reader kept, so its intermediate form can be
written, and a reader of that form keeps all of them.  Converting the intermediate file is
therefore the same as lowering the model.

* `Model.readFrom_of_open`: what is known of a model that was loaded;
* `Model.open_intermediate`: the intermediate form of a loaded model opens as that model;
* `Host.convertFile_intermediate`: its conversion.
-/

namespace FlatNet

open Outcome

namespace Model

variable {m : Model} {ops : CustomOps} {path : Path} {encoding : Encoding} {bs : Bytes}

/-- A model that is opened is valid, and its parameters are those of a container that was read. -/
lemma readFrom_of_open (opened : Model.open path ops bs = .value (m, encoding)) :
    (∃ p, m.validate ops = .value p) ∧ (Container.ofModel m).ReadFrom false bs := by
  simp only [Model.open, Container.open, bind_eq_value_iff, mapError_eq_value_iff, pure_eq,
    value.injEq, Prod.mk.injEq] at opened
  obtain ⟨c, read, p, valid, rfl, -⟩ := opened
  have known := Container.readFrom_of_decode read
  exact ⟨⟨p, valid⟩, known.names, known.plain, known.sized, known.checked, known.size⟩

/-- The intermediate form of a model from a file can be stored. -/
lemma storable_ofModel (known : (Container.ofModel m).ReadFrom false bs) (short : bs.length < 2 ^ 63)
    (header : (Archive.headerBytes (Container.ofModel m).info
      (Container.ofModel m).entries).length ≤ Archive.maxHeader) :
    (Container.ofModel m).Storable := by
  refine ⟨fun p hp => ?_, header, ?_⟩
  · exact Tensor.lt_bound_of_check (known.sized p hp)
      (known.checked _ (Container.mem_entries_iff.2 ⟨p, hp, rfl⟩))
  · have size := known.size
    rw [Archive.maxHeader] at header
    rw [Archive.length_encode, Size.bound]
    omega

/-- The intermediate form of a model that was opened is written, and opens as that model. -/
lemma open_intermediate (opened : Model.open path ops bs = .value (m, encoding))
    (short : bs.length < 2 ^ 63)
    (text : Architecture.parse? m.architecture.text = some m.architecture)
    (header : (Archive.headerBytes (Container.ofModel m).info
      (Container.ofModel m).entries).length ≤ Archive.maxHeader) :
    ∃ bytes, (Container.ofModel m).encode = .value bytes ∧
      ∀ path', Model.open path' ops bytes = .value (m, .intermediate) := by
  obtain ⟨⟨p, valid⟩, known⟩ := readFrom_of_open opened
  have written := Container.encode_eq_value_iff.2 ⟨known.checked, rfl⟩
  have held : m.HeldBy (.ofModel m) := ⟨rfl, rfl, known.names, Encoding.noConfusion⟩
  have whole : m.kept = m.weights := Table.filter_eq_self_iff.2 known.plain
  refine ⟨_, written, fun path' => ?_⟩
  rw [open_encode known.sized text held (storable_ofModel known short header) written, whole,
    valid, mapError_value, value_bind]
  rfl

/-- The bytes of an intermediate file are converted as its model is lowered. -/
lemma lowerFile_of_open {options : ConverterOptions}
    (opened : Model.open path ops bs = .value (m, .intermediate)) :
    Model.lowerFile path ops options bs
      = do return (← (m.lower ops options).mapError .lowering).encode := by
  rw [lowerFile, opened, mapError_value, value_bind]
  rfl

end Model

/-- A file that can be read is converted as its bytes are, and the store stays as it is. -/
lemma Store.run_convertFile {s : Store} {path : Path} {ops : CustomOps} {options : ConverterOptions}
    {bytes : Bytes} (h : s.read path = .ok bytes) :
    (host.convertFile path ops options).run s = (Model.lowerFile path ops options bytes, s) := by
  have first : (host.readFile path).run s = (.value bytes, s) := run_read_of_ok h
  exact Action.run_bind_of_value (Action.run_mapError_of_eq first)

/-- A model that is loaded is one that the bytes of the file open as. -/
lemma Host.Faithful.exists_open_of_loaded {h : Host (StateM Store)} (faithful : h.Faithful)
    {path : Path} {ops : CustomOps} {m : Model} {s s₁ : Store}
    (loaded : (h.loadModel path ops).run s = (.value m, s₁)) :
    ∃ bs encoding, s.read path = .ok bs ∧ Model.open path ops bs = .value (m, encoding) := by
  rcases faithful.run_loadModel s path ops with ⟨bs, read, run⟩ | ⟨cause, -, run⟩
  · have opened := (Prod.mk.inj (run.symm.trans loaded)).1
    rw [bind_eq_value_iff] at opened
    obtain ⟨⟨m', encoding⟩, opened, same⟩ := opened
    cases same
    exact ⟨bs, encoding, read, opened⟩
  · rw [run] at loaded
    cases loaded

/-- If a model is loaded from a file, its intermediate form is written, and any file with these
bytes is converted exactly as the model is lowered: to the bytes of the same flat model, or with
the same error. -/
theorem Host.convertFile_intermediate {h : Host (StateM Store)} (faithful : h.Faithful)
    {path : Path} {ops : CustomOps} {m : Model} {s s₁ : Store}
    (loaded : (h.loadModel path ops).run s = (.value m, s₁))
    (short : ∀ bs, s.read path = .ok bs → bs.length < 2 ^ 63)
    (text : Architecture.parse? m.architecture.text = some m.architecture)
    (header : (Archive.headerBytes (Container.ofModel m).info
      (Container.ofModel m).entries).length ≤ Archive.maxHeader) :
    ∃ bytes, (Container.ofModel m).encode = .value bytes ∧
      ∀ (options : ConverterOptions) (path' : Path) (s' : Store),
        (h.readFile path').run s' = (.value bytes, s') →
        (h.convertFile path' ops options).run s'
          = (do return (← (m.lower ops options).mapError .lowering).encode, s') := by
  obtain ⟨bs, encoding, read, opened⟩ := faithful.exists_open_of_loaded loaded
  obtain ⟨bytes, written, reopened⟩ := Model.open_intermediate opened (short bs read) text header
  refine ⟨bytes, written, fun options path' s' there => ?_⟩
  have first := Action.run_mapError_of_eq (g := ConversionError.ofLoad path') there
  rw [Host.convertFile, Action.run_bind_of_value first, Action.run_ofOutcome_store,
    Model.lowerFile_of_open (reopened path')]

/-- A model is loaded from a checkpoint with training state, and any file with the bytes of its
intermediate form is converted as it is lowered. -/
theorem Host.convertFile_intermediate_doubling :
    ∃ s, (Store.host.saveCheckpoint (Model.doubling "double") Model.momentum ⟨"m.lpim"⟩).run
        (.empty []) = (.value (), s) ∧
      (Store.host.loadModel ⟨"m.lpim"⟩ .empty).run s = (.value (Model.doubling "double"), s) ∧
      ∃ bytes, (Container.ofModel (Model.doubling "double")).encode = .value bytes ∧
        ∀ (options : ConverterOptions) (path' : Path) (s' : Store),
          (Store.host.readFile path').run s' = (.value bytes, s') →
          (Store.host.convertFile path' .empty options).run s'
            = (do
                let flat ← ((Model.doubling "double").lower .empty options).mapError .lowering
                return flat.encode, s') := by
  obtain ⟨valid, exact, sized⟩ := Model.valid_doubling "double" (by decide)
  have text := Model.parse?_text_doubling "double"
  have storable := Model.storable_doubling _ (.tail _ (.head _))
  obtain ⟨s, saved⟩ := Model.exists_saveContainer_empty
    (c := .ofTraining (Model.doubling "double") Model.momentum) (by decide +kernel)
  obtain ⟨bs, encoded, written⟩ := Store.run_saveContainer_eq_value_iff.1 saved
  have read := Store.read_of_write written
  have opened : Model.open ⟨"m.lpim"⟩ .empty bs = .value (Model.doubling "double", .checkpoint) :=
    (Model.open_encode_iff _ valid exact sized text (Model.heldBy_ofTraining exact Model.momentum)
      storable encoded).2 Model.unreserved_doubling
  have loaded : (Store.host.loadModel ⟨"m.lpim"⟩ .empty).run s
      = (.value (Model.doubling "double"), s) := by
    rw [Host.loadModel, Action.run_bind_of_value ((Store.run_readModel read).trans
      (congrArg (·, s) opened))]
    rfl
  refine ⟨s, saved, loaded, Host.convertFile_intermediate Store.faithful_host loaded ?_ text
    (Model.storable_doubling _ (.head _)).header⟩
  intro bs' read'
  obtain rfl := Except.ok.inj (read.symm.trans read')
  obtain ⟨-, rfl⟩ := Container.encode_eq_value_iff.1 encoded
  have header := storable.header
  -- the file is short: its header is bounded, and so are its numbers
  have data : (Archive.dataOf (Container.ofTraining (Model.doubling "double")
    Model.momentum).entries.entries).length ≤ 4096 := by decide +kernel
  rw [Archive.maxHeader] at header
  rw [Archive.length_encode]
  omega

end FlatNet
