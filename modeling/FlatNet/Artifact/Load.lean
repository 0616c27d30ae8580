import FlatNet.Container.Codec
import FlatNet.Files.Host
import FlatNet.Fidelity
import FlatNet.Flat.Decode

/-!
Loading of model files.

A model file is read whole and decoded; layered models are validated before they are handed
out.  A loader opens the encodings it accepts as models to run.

* `LoadError`: why a file is not loaded;
* `Host.readContainer`, `Host.readModel`: the contents of checkpoints and intermediate files;
* `Loader`, `Host.load`: files as models to run.
-/

namespace FlatNet

/-! ### Errors -/

/-- What is wrong with the contents of a model file. -/
inductive Damage where
  /-- It is no container. -/
  | container (fault : Container.DecodeFault)
  /-- Its graph is not prepared. -/
  | layers (e : GraphModelError)
  /-- It is no flat model. -/
  | format (e : FormatError)
  /-- Its flat model is not prepared. -/
  | operators (e : FlatGraphError)
  deriving DecidableEq, Repr

/-- The wording of a damage, with that of its cause. -/
def Damage.message : Damage → String
  | container fault => fault.message
  | layers e => ": ".intercalate e.chain
  | format e => e.message
  | operators e => ": ".intercalate e.chain

/-- Why a file is not loaded. -/
inductive LoadError where
  /-- There is no such file. -/
  | notFound (path : Path)
  /-- The file is not read. -/
  | io (path : Path) (e : IoError)
  /-- The contents are damaged. -/
  | corrupt (path : Path) (damage : Damage)
  /-- The file has another encoding than the expected one. -/
  | wrongEncoding (path : Path) (expected found : Encoding)
  /-- A custom operation is not registered. -/
  | unresolvedOperation (path : Path) (layer function : String)
  /-- The model is invalid. -/
  | invalid (path : Path) (e : GraphError)
  deriving DecidableEq, Repr

namespace LoadError

/-- The wording of an error. -/
def message : LoadError → String
  | notFound path => s!"model file not found: {path.text}"
  | io path _ => s!"failed to read {path.text}"
  | corrupt path damage => s!"{path.text} is corrupt: {damage.message}"
  | wrongEncoding path expected found =>
    s!"{path.text} is a {found.name} file, expected {expected.name}"
  | unresolvedOperation path layer function =>
    s!"{path.text}: layer `{layer}` uses unregistered custom operation `{function}`"
  | invalid path _ => s!"{path.text} contains an invalid model"

/-- The wording of an error, followed by the wording of its cause. -/
def chain : LoadError → List String
  | io path e => [(io path e).message, e.message]
  | invalid path e => [(invalid path e).message, e.message]
  | e => [e.message]

/-- The error of a file that is not read. -/
def ofIo (path : Path) : IoError → LoadError
  | .notFound => notFound path
  | e => io path e

/-- The error of an invalid graph. -/
def ofGraph (path : Path) : GraphError → LoadError
  | .unresolvedOperation layer function => unresolvedOperation path layer function
  | e => invalid path e

/-- The error of a file that is no container. -/
def ofDecode (path : Path) : Container.DecodeError → LoadError
  | .flatModel => wrongEncoding path .checkpoint .flat
  | .corrupt fault => corrupt path (.container fault)

end LoadError

/-! ### Layered models -/

/-- The container of the bytes of a file. -/
def Container.open (path : Path) (withTraining : Bool) (bs : Bytes) :
    Outcome LoadError Container :=
  (Container.decode withTraining bs).mapError (.ofDecode path)

/-- The model of the bytes of a file, validated, and its encoding. -/
def Model.open (path : Path) (ops : CustomOps) (bs : Bytes) :
    Outcome LoadError (Model × Encoding) := do
  let c ← Container.open path false bs
  let _ ← (c.model.validate ops).mapError (.ofGraph path)
  return (c.model, c.encoding)

/-- The model of the bytes of a file, prepared to run. -/
def GraphModel.open (path : Path) (ops : CustomOps) (bs : Bytes) :
    Outcome LoadError GraphModel := do
  let (m, _) ← Model.open path ops bs
  (GraphModel.prepare m ops).mapError fun e => .corrupt path (.layers e)

/-- The flat model of the bytes of a file, prepared to run. -/
def FlatGraph.open (path : Path) (bs : Bytes) : Outcome LoadError FlatGraph := do
  let m ← (FlatModel.decode bs).mapError fun e => .corrupt path (.format e)
  (FlatGraph.prepare m).mapError fun e => .corrupt path (.operators e)

/-! ### Loaders -/

/-- What opens files as models to run. -/
inductive Loader where
  /-- Opens checkpoints and intermediate files. -/
  | layered
  /-- Opens flat models. -/
  | flat
  deriving DecidableEq, Repr, Inhabited

namespace Loader

/-- The name of a loader. -/
def name : Loader → String
  | layered => "checkpoint"
  | flat => "flat"

/-- The loader of a name. -/
def ofName? (s : String) : Option Loader := [layered, flat].find? (·.name = s)

/-- The encodings that a loader accepts. -/
def accepts : Loader → List Encoding
  | layered => [.checkpoint, .intermediate]
  | flat => [.flat]

/-- Whether a loader reads training state. -/
def readsTraining : Loader → Bool
  | layered => false
  | flat => false

/-- The encoding that a loader names when it refuses another one. -/
def expects : Loader → Encoding
  | layered => .checkpoint
  | flat => .flat

/-- The bytes of a file as a model to run. -/
def prepare (loader : Loader) (path : Path) (ops : CustomOps) (bs : Bytes) :
    Outcome LoadError InferenceModel :=
  match loader with
  | layered => do return (← GraphModel.open path ops bs).inference
  | flat => do return (← FlatGraph.open path bs).inference

end Loader

/-! ### Files -/

namespace Host

variable {m : Type → Type} [Monad m]

/-- The bytes of a model file. -/
def readFile (h : Host m) (path : Path) : Action m LoadError Bytes :=
  .attempt (.ofIo path) (h.read path)

/-- The container of a file. -/
def readContainer (h : Host m) (path : Path) (withTraining : Bool) :
    Action m LoadError Container := do
  .ofOutcome (Container.open path withTraining (← h.readFile path))

/-- The model of a file, validated, and its encoding. -/
def readModel (h : Host m) (path : Path) (ops : CustomOps) :
    Action m LoadError (Model × Encoding) := do
  .ofOutcome (Model.open path ops (← h.readFile path))

/-- The model of a file, validated. -/
def loadModel (h : Host m) (path : Path) (ops : CustomOps) : Action m LoadError Model := do
  return (← h.readModel path ops).1

/-- Open a file that is said to have an encoding. -/
def load (h : Host m) (loader : Loader) (encoding : Encoding) (path : Path) (ops : CustomOps) :
    Action m LoadError InferenceModel := do
  if loader.accepts.contains encoding then
    .ofOutcome (loader.prepare path ops (← h.readFile path))
  else .refuse (.wrongEncoding path loader.expects encoding)

end Host

end FlatNet
