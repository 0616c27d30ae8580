import FlatNet.Flat.Interpreter
import FlatNet.Graph.Interpreter

/-!
Comparison of two models on probe inputs.

Both models run on the same probes, and their outputs are compared element by element.  A
difference that is NaN counts as infinite.

* `InferenceModel`: anything that declares its inputs and runs on tensors;
* `StatefulModel`: a model whose runs read and change a state;
* `Fidelity`, `Fidelity.passed`: the outcome of a comparison;
* `compareStateful`, `compareModels`: the comparison, of stateful models and of others.
-/

namespace FlatNet

/-! ### Models to run -/

/-- Why a run is refused. -/
inductive InferenceError where
  /-- A layer graph refuses. -/
  | graph (e : GraphModelError)
  /-- A flat model refuses. -/
  | flat (e : FlatGraphError)
  deriving DecidableEq, Repr

/-- The wording of an error, followed by the wording of its cause. -/
def InferenceError.chain : InferenceError → List String
  | graph e => e.chain
  | flat e => e.chain

/-- A model that declares its inputs and outputs and runs on tensors. -/
structure InferenceModel where
  /-- The declared inputs and outputs. -/
  spec : ModelSpec
  /-- The outputs for given inputs. -/
  infer : List Tensor → Outcome InferenceError (List Tensor)

/-- A model that reads and changes a state when it runs.  The state is that of all models that are
compared: it is a pair of states if they share nothing. -/
structure StatefulModel (σ : Type) where
  /-- The declared inputs and outputs. -/
  spec : ModelSpec
  /-- The outputs for given inputs, and the state that is left. -/
  infer : List Tensor → σ → Outcome InferenceError (List Tensor × σ)

/-- A model that keeps no state. -/
def InferenceModel.stateful (m : InferenceModel) : StatefulModel Unit :=
  ⟨m.spec, fun inputs s => do return (← m.infer inputs, s)⟩

/-- A layer graph as a model to run. -/
def GraphModel.inference (g : GraphModel) : InferenceModel :=
  ⟨g.spec, fun inputs => (g.infer inputs).mapError .graph⟩

/-- A flat model as a model to run. -/
def FlatGraph.inference (g : FlatGraph) : InferenceModel :=
  ⟨g.spec, fun inputs => (g.infer inputs).mapError .flat⟩

/-! ### Comparison -/

/-- Why models are not compared. -/
inductive FidelityError where
  /-- No sample is asked for. -/
  | noSamples
  /-- The models declare different inputs. -/
  | inputShapes
  /-- No probe is made. -/
  | probe (e : ProbeError)
  /-- The reference refuses. -/
  | reference (e : InferenceError)
  /-- The other model refuses. -/
  | converted (e : InferenceError)
  /-- The numbers of outputs differ. -/
  | outputCount (reference converted : Nat)
  /-- The shapes of an output differ. -/
  | outputShape (index : Nat) (reference converted : Shape)
  /-- An output cannot be read. -/
  | tensor (e : TensorError)
  deriving DecidableEq, Repr

/-- The wording of an error, followed by the wording of its cause. -/
def FidelityError.chain : FidelityError → List String
  | noSamples => ["at least one sample is required"]
  | inputShapes => ["models disagree on input shapes"]
  | probe e => [e.message]
  | reference e => "reference inference failed" :: e.chain
  | converted e => "converted inference failed" :: e.chain
  | outputCount r c => [s!"reference produced {r} outputs, converted {c}"]
  | outputShape index r c => [s!"output {index} shape differs: {r.text} vs {c.text}"]
  | tensor e => [e.message]

/-- The outcome of a comparison. -/
structure Fidelity where
  /-- The number of probes. -/
  samples : Nat
  /-- The largest difference of an element. -/
  maxDifference : Float32
  /-- The largest difference that is accepted. -/
  tolerance : Float32

/-- Whether no difference is too large. -/
def Fidelity.passed (f : Fidelity) : Bool := f.maxDifference ≤ f.tolerance

/-- The largest difference that is accepted unless told otherwise, one hundred-thousandth. -/
def defaultTolerance : Binary32 := ⟨0x3727c5ac⟩

/-- The difference of two numbers, infinite if it is NaN. -/
def difference (x y : Float32) : Float32 :=
  let d := (x - y).abs
  if d.isNaN then 1 / 0 else d

/-- The larger of a number and the differences of two lists. -/
def maxDifference (acc : Float32) (xs ys : List Float32) : Float32 :=
  (xs.zip ys).foldl (fun acc p => Scalar.max acc (difference p.1 p.2)) acc

/-- An outcome of a comparison. -/
abbrev FidelityOutcome := Outcome FidelityError

/-- The numbers of an output. -/
def outputNumbers (t : Tensor) : FidelityOutcome (List Float32) := do
  let xs ← (Outcome.ofExcept t.singles).mapError .tensor
  return xs.map Binary32.value

/-- Compare the output of a place. -/
def compareOutput (acc : Float32) (p : (Tensor × Tensor) × Nat) : FidelityOutcome Float32 := do
  let ((expected, actual), index) := p
  Outcome.require (expected.shape = actual.shape) (.outputShape index expected.shape actual.shape)
  let xs ← outputNumbers expected
  let ys ← outputNumbers actual
  return maxDifference acc xs ys

/-- The probe inputs of a sample: every input has a seed of its own. -/
def probeInputs (specs : List TensorSpec) (sample : Nat) : FidelityOutcome (List Tensor) :=
  specs.zipIdx.mapM fun (spec, i) => do
    let seed ← Size.add (← Size.mul sample specs.length) i
    (spec.probe 1 seed.toUInt64).mapError .probe

/-- Compare two models on one sample, with the largest difference and the state so far. -/
def compareSample {σ : Type} (reference converted : StatefulModel σ) (acc : Float32 × σ)
    (sample : Nat) : FidelityOutcome (Float32 × σ) := do
  let inputs ← probeInputs reference.spec.inputs sample
  let (expected, s) ← (reference.infer inputs acc.2).mapError .reference
  let (actual, s) ← (converted.infer inputs s).mapError .converted
  Outcome.require (expected.length = actual.length) (.outputCount expected.length actual.length)
  let largest ← (expected.zip actual).zipIdx.foldlM compareOutput acc.1
  return (largest, s)

/-- Compare two models on `count` samples from `sample` on. -/
def compareSamples {σ : Type} (reference converted : StatefulModel σ) (acc : Float32 × σ)
    (sample : Nat) : Nat → FidelityOutcome (Float32 × σ)
  | 0 => return acc
  | count + 1 => do
    let acc ← compareSample reference converted acc sample
    compareSamples reference converted acc (sample + 1) count

/-- Compare two models on a number of samples, from a state on. -/
def compareStateful {σ : Type} (reference converted : StatefulModel σ) (samples : Nat)
    (tolerance : Float32) (s : σ) : FidelityOutcome (Fidelity × σ) := do
  Outcome.require (samples ≠ 0) .noSamples
  Outcome.require (reference.spec.inputs.map (·.dims) = converted.spec.inputs.map (·.dims))
    .inputShapes
  let (largest, s) ← compareSamples reference converted (0, s) 0 samples
  return (⟨samples, largest, tolerance⟩, s)

/-- Compare two models on a number of samples. -/
def compareModels (reference converted : InferenceModel) (samples : Nat) (tolerance : Float32) :
    FidelityOutcome Fidelity := do
  let (report, _) ← compareStateful reference.stateful converted.stateful samples tolerance ()
  return report

end FlatNet
