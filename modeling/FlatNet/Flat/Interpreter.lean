import FlatNet.Flat.Step
import FlatNet.Tensor.Spec

/-!
Evaluation of flat models.

A flat model is prepared once, operator by operator.  A run then evaluates the operators in
order; the batch size is that of the inputs.

* `FlatGraphError`: why a flat model is not prepared or a run is refused;
* `FlatGraph`, `FlatGraph.prepare`: prepared models, and the preparation;
* `FlatGraph.infer`: the outputs for given inputs.
-/

namespace FlatNet

/-- Why a flat model is not prepared or a run is refused. -/
inductive FlatGraphError where
  /-- A place is not in its table. -/
  | format (e : FormatError)
  /-- An input or output of the model is a constant or no floating-point tensor. -/
  | endpoint (tensor : String)
  /-- An input or output of the model is not of rank four. -/
  | endpointRank (shape : Shape)
  /-- An operator is not prepared. -/
  | operator (i : Nat) (name : String) (fault : OperatorFault)
  /-- The number of inputs is wrong. -/
  | inputCount (expected found : Nat)
  /-- An operation is refused. -/
  | kernel (e : KernelError)
  /-- An input has the wrong shape. -/
  | inputShape (tensor : String) (found expected : Hwc)
  /-- A tensor is read that no operator has written. -/
  | notWritten (tensor : String)
  deriving DecidableEq, Repr

/-- The wording of an error, followed by the wording of its cause. -/
def FlatGraphError.chain : FlatGraphError → List String
  | format e => [e.message]
  | endpoint tensor => [s!"graph endpoint `{tensor}` must be a non-constant f32 tensor"]
  | endpointRank shape => ["expected NHWC activation, got shape " ++ shape.text]
  | operator i name fault => s!"operator #{i} ({name})" :: fault.chain
  | inputCount expected found => [s!"expected {expected} inputs, got {found}"]
  | kernel e => e.chain
  | inputShape tensor found expected =>
    [s!"input `{tensor}` has shape {found.text}, expected {expected.text}"]
  | notWritten tensor => [s!"tensor `{tensor}` read before it was written"]

/-- An input or output of a flat model. -/
structure Endpoint where
  /-- The place of its tensor. -/
  place : Nat
  /-- Its name. -/
  name : String
  /-- Its shape. -/
  hwc : Hwc
  deriving DecidableEq, Repr, Inhabited

/-- The declaration of an input or output. -/
def Endpoint.spec (e : Endpoint) : TensorSpec :=
  .activation e.name e.hwc.height e.hwc.width e.hwc.channels

/-- A prepared flat model. -/
structure FlatGraph where
  /-- The inputs. -/
  inputs : List Endpoint
  /-- The outputs. -/
  outputs : List Endpoint
  /-- The prepared operators, each with the place of its output. -/
  steps : List (FlatStep × Nat)
  /-- The names of the tensors. -/
  names : List String

namespace FlatGraph

/-- An outcome of preparing or running a flat model. -/
abbrev Result := Outcome FlatGraphError

/-- The declared inputs and outputs. -/
def spec (g : FlatGraph) : ModelSpec := ⟨g.inputs.map (·.spec), g.outputs.map (·.spec)⟩

/-! ### Preparation -/

/-- An input or output of a model. -/
def endpoint (m : FlatModel) (index : Int32) : Result Endpoint := do
  let t ← (Outcome.ofExcept (m.tensor index)).mapError .format
  Outcome.require (t.dtype = .f32 && t.buffer = 0) (.endpoint t.name)
  match t.shape with
  | [_, height, width, channels] => return ⟨index.toInt.toNat, t.name, ⟨height, width, channels⟩⟩
  | shape => .error (.endpointRank shape)

/-- The name of an operator. -/
def operatorName (m : FlatModel) (op : FlatOperator) : String :=
  match m.opcode op with
  | .ok code => code.name
  | .error _ => "<invalid>"

/-- Prepare a flat model. -/
def prepare (m : FlatModel) : Result FlatGraph := do
  (Outcome.ofExcept m.checkIndices).mapError .format
  let inputs ← m.inputs.mapM (endpoint m)
  let outputs ← m.outputs.mapM (endpoint m)
  let steps ← m.operators.zipIdx.mapM fun (op, i) =>
    (m.step op).mapError (.operator i (operatorName m op))
  return ⟨inputs, outputs, steps, m.tensors.map (·.name)⟩

/-! ### Evaluation -/

/-- The values of the tensors written so far, the latest first. -/
abbrev Values := List (Nat × FeatureMap)

/-- The value of a tensor. -/
def value (g : FlatGraph) (values : Values) (place : Nat) : Result FeatureMap :=
  match values.lookup place with
  | some m => .value m
  | none => do .error (.notWritten (← Outcome.orFault g.names[place]?))

/-- Evaluate one operator. -/
def run (g : FlatGraph) (values : Values) (step : FlatStep × Nat) : Result Values := do
  return (step.2, ← step.1.eval (g.value values) .kernel) :: values

/-- The feature map of an input tensor, its shape checked. -/
def readInput (e : Endpoint) (t : Tensor) : Result FeatureMap := do
  let m ← (FeatureMap.ofTensor t).mapError .kernel
  Outcome.require (m.hwc = e.hwc) (.inputShape e.name m.hwc e.hwc)
  return m

/-- The values of the inputs. -/
def readInputs (g : FlatGraph) (inputs : List Tensor) : Result Values := do
  Outcome.require (inputs.length = g.inputs.length) (.inputCount g.inputs.length inputs.length)
  (g.inputs.zip inputs).foldlM (fun values p => do
    return (p.1.place, ← readInput p.1 p.2) :: values) []

/-- The outputs for given inputs. -/
def infer (g : FlatGraph) (inputs : List Tensor) : Result (List Tensor) := do
  let values ← g.steps.foldlM g.run (← g.readInputs inputs)
  g.outputs.mapM fun e => do
    let m ← g.value values e.place
    m.toTensor.mapError .kernel

end FlatGraph

end FlatNet
