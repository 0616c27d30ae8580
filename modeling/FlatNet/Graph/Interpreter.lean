import FlatNet.Feature.Pointwise
import FlatNet.Feature.Window
import FlatNet.Graph.Model

/-!
Evaluation of layer graphs.

A model is prepared once: planned, its parameters read and its kernels transposed.  A run
then evaluates the layers in order, each from the feature maps of the layers it reads.

* `LayerParams`, `GraphModel`: prepared parameters and models;
* `GraphModel.prepare`: the preparation of a model;
* `GraphModel.evalLayer`, `GraphModel.step`: the evaluation of one layer;
* `GraphModel.infer`: the outputs for given inputs.
-/

namespace FlatNet

/-- The prepared parameters of a layer. -/
inductive LayerParams where
  /-- A filter, output channel first, and a bias. -/
  | conv (filter : Array Float32) (bias : Option (Array Float32))
  /-- A filter, rows first, and a bias. -/
  | depthwise (filter : Array Float32) (bias : Option (Array Float32))
  /-- The parameters of a normalisation. -/
  | norm (params : FeatureMap.Norm)

/-- Why a graph is not prepared or a run is refused. -/
inductive GraphModelError where
  /-- The model is invalid. -/
  | graph (e : GraphError)
  /-- A parameter is missing. -/
  | missingWeight (layer param : String)
  /-- A parameter cannot be read. -/
  | tensor (e : TensorError)
  /-- An operation is refused. -/
  | kernel (e : KernelError)
  /-- A convolution reads no planned layer. -/
  | noInputShape
  /-- A layer has no prepared parameters. -/
  | noParams (layer : String)
  /-- A layer has prepared parameters of another kind. -/
  | otherParams (layer : String)
  /-- The number of inputs is wrong. -/
  | inputCount (expected found : Nat)
  /-- A declared input is not planned. -/
  | unplannedInput
  /-- An input has the wrong shape. -/
  | inputShape (name : String) (found expected : Hwc)
  /-- A layer is read before it is evaluated. -/
  | notEvaluated (layer inbound : String)
  /-- A custom layer has no primitive. -/
  | unresolvedCustom
  /-- A declared output is not evaluated. -/
  | missingOutput (name : String)
  deriving DecidableEq, Repr

/-- The wording of an error, followed by the wording of its cause. -/
def GraphModelError.chain : GraphModelError → List String
  | graph e => [e.message]
  | missingWeight layer param => [s!"layer `{layer}` is missing `{param}`"]
  | tensor e => [e.message]
  | kernel e => e.chain
  | noInputShape => ["conv without input shape"]
  | noParams layer => [s!"no parameters prepared for `{layer}`"]
  | otherParams layer => [s!"layer `{layer}` has mismatched parameters"]
  | inputCount expected found => [s!"expected {expected} inputs, got {found}"]
  | unplannedInput => ["input without shape"]
  | inputShape name found expected =>
    [s!"input `{name}` has shape {found.text}, expected {expected.text}"]
  | notEvaluated layer inbound => [s!"layer `{layer}` evaluated before `{inbound}`"]
  | unresolvedCustom => ["unresolved custom layer"]
  | missingOutput name => [s!"output `{name}` was not computed"]

/-- A prepared model. -/
structure GraphModel where
  /-- The declared inputs and outputs. -/
  spec : ModelSpec
  /-- The graph. -/
  architecture : Architecture
  /-- Its plan. -/
  plan : GraphPlan
  /-- The prepared parameters by layer. -/
  params : List (String × LayerParams)

namespace GraphModel

/-- An outcome of preparing or running a graph. -/
abbrev Result := Outcome GraphModelError

/-! ### Preparation -/

/-- The numbers of a parameter. -/
def weight (m : Model) (layer param : String) : Result (Array Float32) := do
  let t ← Outcome.orError (.missingWeight layer param) (m.weight? layer param)
  let xs ← (Outcome.ofExcept t.singles).mapError .tensor
  return (xs.map Binary32.value).toArray

/-- The numbers of a bias, if the layer has one. -/
def bias (m : Model) (layer : String) (useBias : Bool) : Result (Option (Array Float32)) :=
  if useBias then do return some (← weight m layer "bias") else .value none

/-- The prepared parameters of a layer; `none` for a kind without parameters. -/
def layerParams (m : Model) (p : GraphPlan) (l : Layer) : Result (Option LayerParams) :=
  match l.kind with
  | .conv2d filters w _ useBias => do
    let input ← Outcome.orError .noInputShape (Model.inputShape? p l)
    let kernel ← weight m l.name "kernel"
    let filter ← (hwioToOhwi kernel (w.kernel.1, w.kernel.2, input.channels, filters)).mapError
      .kernel
    return some (.conv filter (← bias m l.name useBias))
  | .depthwiseConv2d _ _ useBias => do
    let filter ← weight m l.name "depthwise_kernel"
    return some (.depthwise filter (← bias m l.name useBias))
  | .batchNorm _ => do
    let gamma ← weight m l.name "gamma"
    let beta ← weight m l.name "beta"
    let mean ← weight m l.name "moving_mean"
    let variance ← weight m l.name "moving_variance"
    return some (.norm ⟨gamma, beta, mean, variance⟩)
  | _ => .value none

/-- Prepare a model. -/
def prepare (m : Model) (ops : CustomOps) : Result GraphModel := do
  let p ← (m.validate ops).mapError .graph
  let prepared ← m.architecture.layers.mapM fun l => do
    return (← layerParams m p l).map fun params => (l.name, params)
  return {
    spec := p.spec m.architecture
    architecture := m.architecture
    plan := p
    params := prepared.filterMap id }

/-! ### Evaluation -/

/-- The feature maps of the layers evaluated so far, the latest first. -/
abbrev Values := List (String × FeatureMap)

/-- The sum of two or more feature maps, from left to right. -/
def sum : List FeatureMap → Result FeatureMap
  | first :: second :: rest => do
    let acc ← (first.add second .linear).mapError .kernel
    (rest.foldlM (fun (acc rhs : FeatureMap) => acc.add rhs .linear) acc).mapError .kernel
  | _ => .fault

/-- The prepared parameters of a layer. -/
def paramsOf (g : GraphModel) (layer : String) : Result LayerParams :=
  Outcome.orError (.noParams layer) (g.params.lookup layer)

/-- Apply a primitive. -/
def applyPrimitive (p : Primitive) (x : FeatureMap) : Result FeatureMap :=
  match p with
  | .resizeBilinear size sampling => (x.resizeBilinear size sampling).mapError .kernel

/-- The feature map of a layer that is no input, from those of the layers it reads. -/
def evalLayer (g : GraphModel) (l : Layer) (args : List FeatureMap) : Result FeatureMap := do
  let first : Result FeatureMap := Outcome.orFault args.head?
  match l.kind with
  | .input _ => .fault
  | .conv2d filters w a _ =>
    match ← g.paramsOf l.name with
    | .conv filter bias => ((← first).conv2d filter filters bias w a).mapError .kernel
    | _ => .error (.otherParams l.name)
  | .depthwiseConv2d w a _ =>
    match ← g.paramsOf l.name with
    | .depthwise filter bias => ((← first).depthwiseConv2d filter bias w a).mapError .kernel
    | _ => .error (.otherParams l.name)
  | .batchNorm epsilon =>
    match ← g.paramsOf l.name with
    | .norm params => ((← first).batchNorm params epsilon.value).mapError .kernel
    | _ => .error (.otherParams l.name)
  | .activation a => return (← first).activate a
  | .add => sum args
  | .concat => (FeatureMap.concat args).mapError .kernel
  | .maxPool2d pool strides padding =>
    ((← first).maxPool2d (LayerKind.poolWindow pool strides padding)).mapError .kernel
  | .custom _ _ =>
    let p ← Outcome.orError .unresolvedCustom (g.plan.primitive? l.name)
    applyPrimitive p (← first)

/-- Evaluate one layer; an input has its value already. -/
def step (g : GraphModel) (values : Values) (l : Layer) : Result Values := do
  let args ← l.inbound.mapM fun name =>
    Outcome.orError (.notEvaluated l.name name) (values.lookup name)
  if l.kind.isInput then return values
  else return (l.name, ← g.evalLayer l args) :: values

/-- The feature map of an input tensor, its shape checked against the plan. -/
def readInput (g : GraphModel) (name : String) (t : Tensor) : Result FeatureMap := do
  let m ← (FeatureMap.ofTensor t).mapError .kernel
  let expected ← Outcome.orError .unplannedInput (g.plan.shape? name)
  Outcome.require (m.hwc = expected) (.inputShape name m.hwc expected)
  return m

/-- The feature maps of the inputs. -/
def readInputs (g : GraphModel) (inputs : List Tensor) : Result Values := do
  Outcome.require (inputs.length = g.architecture.inputs.length)
    (.inputCount g.architecture.inputs.length inputs.length)
  (g.architecture.inputs.zip inputs).foldlM (fun values p => do
    return (p.1, ← g.readInput p.1 p.2) :: values) []

/-- The outputs for given inputs. -/
def infer (g : GraphModel) (inputs : List Tensor) : Result (List Tensor) := do
  let values ← g.architecture.layers.foldlM g.step (← g.readInputs inputs)
  g.architecture.outputs.mapM fun name => do
    let m ← Outcome.orError (.missingOutput name) (values.lookup name)
    m.toTensor.mapError .kernel

end GraphModel

end FlatNet
