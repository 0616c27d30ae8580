import FlatNet.Files.Host

/-!
The intermediate file of a run.

The file is watched from before it is written.  When the run succeeds it is removed; when the
run fails it is kept or removed, as was asked for.

* `CleanupError`: why the file is not removed;
* `Intermediate`: a watched file;
* `Host.release`, `Host.abandon`: its end after success and after failure.
-/

namespace FlatNet

/-- Why the intermediate file is not removed. -/
inductive CleanupError where
  /-- It is not there any more. -/
  | missing (path : Path)
  /-- It cannot be removed. -/
  | io (path : Path) (e : IoError)
  deriving DecidableEq, Repr

namespace CleanupError

/-- The wording of an error. -/
def message : CleanupError → String
  | missing path => s!"intermediate file {path.text} disappeared before cleanup"
  | io path _ => s!"failed to remove intermediate file {path.text}"

/-- The wording of an error, followed by the wording of its cause. -/
def chain : CleanupError → List String
  | io path e => [(io path e).message, e.message]
  | e => [e.message]

/-- The error of a file that is not removed. -/
def ofIo (path : Path) : IoError → CleanupError
  | .notFound => missing path
  | e => io path e

end CleanupError

/-- A watched intermediate file. -/
structure Intermediate where
  /-- The file. -/
  path : Path
  /-- Whether it stays after a failure. -/
  keepOnFailure : Bool
  deriving DecidableEq, Repr

namespace Host

variable {m : Type → Type} [Monad m]

/-- Remove the file after success. -/
def release (h : Host m) (file : Intermediate) : Action m CleanupError Unit :=
  .attempt (.ofIo file.path) (h.remove file.path)

/-- Remove the file after a failure, unless it stays.  That it cannot be removed, or was never
written, is no further failure. -/
def abandon (h : Host m) (file : Intermediate) : m Unit := do
  if file.keepOnFailure then return
  else
    let _ ← h.remove file.path
    return

end Host

end FlatNet
