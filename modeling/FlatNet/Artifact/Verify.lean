import FlatNet.Artifact.Load

/-!
Comparison of model files.

* `VerifyError`: why files are not compared;
* `Host.verifyFiles`: a layered model file compared with a flat one.
-/

namespace FlatNet

/-- Why files are not compared. -/
inductive VerifyError where
  /-- A file is not loaded. -/
  | load (path : Path) (e : LoadError)
  /-- The models are not compared. -/
  | compare (e : FidelityError)
  deriving DecidableEq, Repr

/-- The wording of an error, followed by the wording of its causes. -/
def VerifyError.chain : VerifyError → List String
  | load path e => s!"loading {path.text}" :: e.chain
  | compare e => e.chain

namespace Host

variable {m : Type → Type} [Monad m]

/-- Compare a layered model file with a flat one. -/
def verifyFiles (h : Host m) (layered flat : Path) (ops : CustomOps) (samples : Nat)
    (tolerance : Float32) : Action m VerifyError Fidelity := do
  let reference ← (h.load .layered .checkpoint layered ops).mapError (.load layered)
  let converted ← (h.load .flat .flat flat ops).mapError (.load flat)
  .ofOutcome ((compareModels reference converted samples tolerance).mapError .compare)

end Host

end FlatNet
