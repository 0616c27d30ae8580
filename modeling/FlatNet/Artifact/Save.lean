import FlatNet.Container.Codec
import FlatNet.Files.Host

/-!
Saving of model files.

Checkpoints and intermediate files are written in place.  A finished output is first written
aside and then put in place, so a path holds either what it held before or the whole output.

* `WriteError`: why a file is not written;
* `Host.saveIntermediate`, `Host.saveCheckpoint`: containers written in place;
* `OverwritePolicy`, `Host.writeAtomic`: outputs written aside first.
-/

namespace FlatNet

/-- Why a file is not written. -/
inductive WriteError where
  /-- The container is not encoded. -/
  | encode (fault : Container.EncodeFault)
  /-- The file is not written. -/
  | io (path : Path) (e : IoError)
  /-- There is an output already. -/
  | outputExists (path : Path)
  deriving DecidableEq, Repr

namespace WriteError

/-- The wording of an error. -/
def message : WriteError → String
  | encode fault => s!"failed to encode model container: {fault.message}"
  | io path _ => s!"failed to write {path.text}"
  | outputExists path => s!"refusing to overwrite existing output {path.text}"

/-- The wording of an error, followed by the wording of its cause. -/
def chain : WriteError → List String
  | io path e => [(io path e).message, e.message]
  | e => [e.message]

end WriteError

/-- What to do with an output that is there already. -/
inductive OverwritePolicy where
  /-- Keep it, and refuse to write. -/
  | fail
  /-- Put the new one in its place. -/
  | replace
  deriving DecidableEq, Repr, Inhabited

namespace OverwritePolicy

/-- The name of a policy. -/
def name : OverwritePolicy → String
  | fail => "fail"
  | replace => "replace"

/-- The policy of a name. -/
def ofName? (s : String) : Option OverwritePolicy :=
  if s = "fail" then some fail else if s = "replace" then some replace else none

/-- The error of a staged file that is not put in place. -/
def refusal (policy : OverwritePolicy) (path : Path) (e : IoError) : WriteError :=
  if policy = fail ∧ e = .alreadyExists then .outputExists path else .io path e

end OverwritePolicy

namespace Host

variable {m : Type → Type} [Monad m]

/-! ### In place -/

/-- Write a container. -/
def saveContainer (h : Host m) (c : Container) (path : Path) : Action m WriteError Unit := do
  let bytes ← .ofOutcome (c.encode.mapError .encode)
  .attempt (.io path) (h.write path bytes)

/-- Write the intermediate form of a model. -/
def saveIntermediate (h : Host m) (model : Model) (path : Path) : Action m WriteError Unit :=
  h.saveContainer (.ofModel model) path

/-- Write the checkpoint of a model and a training state. -/
def saveCheckpoint (h : Host m) (model : Model) (training : TrainingState) (path : Path) :
    Action m WriteError Unit :=
  h.saveContainer (.ofTraining model training) path

/-! ### Aside first -/

/-- Put a staged file in place. -/
def commit (h : Host m) (policy : OverwritePolicy) (staged : Place) (path : Path) :
    m (Except IoError Unit) :=
  match policy with
  | .fail => h.add staged path
  | .replace => h.replace staged path

/-- Write a file aside, and put it in place.  If that is refused, nothing is left behind. -/
def writeAtomic (h : Host m) (path : Path) (bytes : Bytes) (policy : OverwritePolicy) :
    Action m WriteError Unit := do
  let staged ← .attempt (.io path) (h.stage path bytes)
  Action.onFailure
    (.attempt (policy.refusal path) (h.commit policy staged path))
    (h.discard staged)

end Host

end FlatNet
