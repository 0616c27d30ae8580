import FlatNet.Artifact.Convert
import FlatNet.Artifact.Save
import FlatNet.Pipeline.Config
import FlatNet.Pipeline.Intermediate

/-!
Runs of the pipeline.

A run loads a checkpoint, writes it again without training state, converts what was written,
writes the flat model and cleans up.  The first failure ends it; the output is written as a
whole or not at all.

* `Stage`: the stages;
* `PipelineError`: why a run fails;
* `Host.runPipeline`: a run.
-/

namespace FlatNet

/-- A stage of a run. -/
inductive Stage where
  /-- The checkpoint is loaded. -/
  | load
  /-- The intermediate file is written. -/
  | reserialize
  /-- The intermediate file is converted. -/
  | convert
  /-- The flat model is written. -/
  | write
  /-- The intermediate file is removed. -/
  | cleanup
  deriving DecidableEq, Repr

namespace Stage

/-- The stages in the order of a run. -/
def all : List Stage := [load, reserialize, convert, write, cleanup]

/-- The name of a stage. -/
def name : Stage → String
  | load => "load"
  | reserialize => "reserialize"
  | convert => "convert"
  | write => "write"
  | cleanup => "cleanup"

end Stage

/-- Why a run fails. -/
inductive PipelineError where
  /-- The settings are refused. -/
  | config (fault : SettingsFault)
  /-- The checkpoint is not loaded. -/
  | load (e : LoadError)
  /-- The intermediate file or the output is not written. -/
  | write (e : WriteError)
  /-- The intermediate file is not converted. -/
  | conversion (e : ConversionError)
  /-- The intermediate file is not removed. -/
  | cleanup (e : CleanupError)
  deriving DecidableEq, Repr

namespace PipelineError

/-- The wording of an error. -/
def message : PipelineError → String
  | config fault => (ConfigError.invalid fault).message
  | load _ => "load failed"
  | write _ => "write failed"
  | conversion _ => "conversion failed"
  | cleanup _ => "cleanup failed"

/-- The wording of an error, followed by the wording of its causes. -/
def chain : PipelineError → List String
  | config fault => [(config fault).message]
  | load e => (load e).message :: e.chain
  | write e => (write e).message :: e.chain
  | conversion e => (conversion e).message :: e.chain
  | cleanup e => (cleanup e).message :: e.chain

end PipelineError

/-- The outcome of a run. -/
structure PipelineReport where
  /-- The name of the model. -/
  model : String
  /-- The flat model. -/
  output : Path
  /-- The size of the flat model in bytes. -/
  outputBytes : Nat
  /-- How long the run took, in microseconds. -/
  elapsed : Nat
  deriving DecidableEq, Repr

/-- The choices of the conversion in a run. -/
def PipelineConfig.converterOptions (c : PipelineConfig) (m : Model) : ConverterOptions :=
  ⟨c.quantize, m.architecture.name ++ " converted by liteport"⟩

namespace Host

variable {m : Type → Type} [Monad m]

/-- Refuse to run if the output is there and must not be replaced. -/
def checkOutput (h : Host m) (c : PipelineConfig) : Action m PipelineError Unit := do
  let found ← Action.lift (h.holds c.output)
  if c.overwrite = .fail ∧ found then .refuse (.write (.outputExists c.output)) else return

/-- Write a model through the intermediate file to the output; the size of the output in
bytes. -/
def convertThrough (h : Host m) (c : PipelineConfig) (ops : CustomOps) (model : Model) :
    Action m PipelineError Nat := do
  (h.saveIntermediate model c.intermediate).mapError .write
  let options := c.converterOptions model
  let bytes ← (h.convertFile c.intermediate ops options).mapError .conversion
  (h.writeAtomic c.output bytes c.overwrite).mapError .write
  return bytes.length

/-- A run. -/
def runPipeline (h : Host m) (c : PipelineConfig) (ops : CustomOps) :
    Action m PipelineError PipelineReport := do
  let started ← Action.lift h.clock
  (h.checkConfig c).mapError .config
  h.checkOutput c
  let model ← (h.loadModel c.input ops).mapError .load
  let file : Intermediate := ⟨c.intermediate, c.keepOnFailure⟩
  let size ← (h.convertThrough c ops model).onFailure (h.abandon file)
  (h.release file).mapError .cleanup
  let ended ← Action.lift h.clock
  return ⟨model.architecture.name, c.output, size, ended - started⟩

end Host

end FlatNet
