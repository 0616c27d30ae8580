import FlatNet.Graph.Layer
import FlatNet.Tensor.Spec

/-!
Shape planning.

Planning walks the layers in order, infers the shape of each from the shapes of the layers
it reads, resolves custom operations, and finally checks the declared inputs and outputs.

* `GraphError`: why a graph is refused;
* `GraphPlan`: the shapes and primitives, in layer order;
* `Layer.infer`: the shape of one layer;
* `Architecture.plan`: the plan of a graph.
-/

namespace FlatNet

/-! ### Errors -/

/-- How many layers a layer reads. -/
inductive Arity where
  /-- None. -/
  | zero
  /-- Exactly one. -/
  | one
  /-- Two or more. -/
  | several
  deriving DecidableEq, Repr

namespace Arity

/-- Whether a number of layers is right. -/
def admits : Arity → Nat → Bool
  | zero, n => n = 0
  | one, n => n = 1
  | several, n => 2 ≤ n

/-- The wording of an arity. -/
def text : Arity → String
  | zero => "0"
  | one => "1"
  | several => "at least 2"

end Arity

/-- What is wrong with the configuration of a layer. -/
inductive ConfigFault where
  /-- An input has an empty side. -/
  | emptyInput
  /-- A convolution has no filters. -/
  | noFilters
  /-- A side or a step of a window is zero. -/
  | degenerateWindow
  /-- The epsilon of a normalisation is negative or not finite. -/
  | epsilon
  /-- A custom operation refuses its arguments. -/
  | custom (reason : String)
  deriving DecidableEq, Repr

/-- The wording of a configuration fault. -/
def ConfigFault.text : ConfigFault → String
  | emptyInput => "input dimensions must be non-zero"
  | noFilters => "filters must be non-zero"
  | degenerateWindow => "kernel size and strides must be non-zero"
  | epsilon => "epsilon must be a non-negative finite number"
  | custom reason => reason

/-- How input shapes fail a layer. -/
inductive ShapeFault where
  /-- A window does not fit. -/
  | windowMisfit (kernel : Nat × Nat) (input : Hwc)
  /-- Summands differ. -/
  | addMismatch (inputs : List Hwc)
  /-- Concatenated images differ in size. -/
  | concatMismatch (inputs : List Hwc)
  deriving DecidableEq, Repr

/-- Shapes as a list in brackets. -/
def describeShapes (shapes : List Hwc) : String := "[" ++ ", ".intercalate (shapes.map Hwc.text) ++ "]"

/-- The wording of a shape fault. -/
def ShapeFault.text : ShapeFault → String
  | windowMisfit kernel input => s!"window {describePair kernel} does not fit input {input.text}"
  | addMismatch inputs => s!"add operands differ in shape: {describeShapes inputs}"
  | concatMismatch inputs => s!"concatenated inputs differ spatially: {describeShapes inputs}"

/-- The two kinds of declared ends of a graph. -/
inductive EndRole where
  /-- A fed layer. -/
  | input
  /-- A layer read off. -/
  | output
  deriving DecidableEq, Repr

/-- The name of a role. -/
def EndRole.text : EndRole → String
  | input => "input"
  | output => "output"

/-- Why a graph, or a model over it, is refused. -/
inductive GraphError where
  /-- There are no layers. -/
  | empty
  /-- A name is used twice. -/
  | duplicateLayer (name : String)
  /-- A layer reads a layer that does not stand before it. -/
  | unknownInbound (layer inbound : String)
  /-- A layer reads the wrong number of layers. -/
  | arity (layer : String) (expected : Arity) (found : Nat)
  /-- A declared end is no such layer; an empty list of ends is an end without name. -/
  | unknownEndpoint (role : EndRole) (name : String)
  /-- Input shapes fail a layer. -/
  | shape (layer : String) (fault : ShapeFault)
  /-- A custom operation is not registered. -/
  | unresolvedOperation (layer function : String)
  /-- A configuration is invalid. -/
  | invalidConfig (layer : String) (fault : ConfigFault)
  /-- A parameter is missing. -/
  | missingWeight (layer weight : String)
  /-- A parameter has the wrong shape. -/
  | weightShape (name : String) (expected found : Shape)
  /-- A parameter has the wrong element type. -/
  | weightDType (name : String) (found : DType)
  deriving DecidableEq, Repr

/-- The wording of an error. -/
def GraphError.message : GraphError → String
  | empty => "architecture has no layers"
  | duplicateLayer name => s!"duplicate layer name `{name}`"
  | unknownInbound layer inbound =>
    s!"layer `{layer}` references unknown or later layer `{inbound}`"
  | arity layer expected found =>
    s!"layer `{layer}` expects {expected.text} inbound layer(s), found {found}"
  | unknownEndpoint role name => s!"graph {role.text} `{name}` is not a layer"
  | shape layer fault => s!"layer `{layer}`: {fault.text}"
  | unresolvedOperation layer function =>
    s!"layer `{layer}` uses custom operation `{function}` which is not registered"
  | invalidConfig layer fault => s!"layer `{layer}` has invalid configuration: {fault.text}"
  | missingWeight layer weight => s!"layer `{layer}` is missing weight `{weight}`"
  | weightShape name expected found =>
    s!"weight `{name}` has shape {found.text}, expected {expected.text}"
  | weightDType name found => s!"weight `{name}` has dtype {found.name}, expected f32"

/-! ### Layers -/

/-- The primitive of a custom layer. -/
def CustomOps.resolve (ops : CustomOps) (layer function : String) (arguments : Json) :
    Except GraphError Primitive :=
  match ops.get? function with
  | none => .error (.unresolvedOperation layer function)
  | some lower =>
    match lower arguments with
    | .ok p => .ok p
    | .error reason => .error (.invalidConfig layer (.custom reason))

/-- The height and width that a window makes of an input. -/
def Window.outputSize (w : Window) (layer : String) (input : Hwc) :
    Outcome GraphError (Nat × Nat) := do
  Outcome.require (!w.degenerate) (.invalidConfig layer .degenerateWindow)
  let misfit := GraphError.shape layer (.windowMisfit w.kernel input)
  let h ← Outcome.orError misfit (← w.padding.outputLen input.height w.kernel.1 w.strides.1)
  let v ← Outcome.orError misfit (← w.padding.outputLen input.width w.kernel.2 w.strides.2)
  return (h, v)

namespace Layer

/-- How many layers a kind reads. -/
def arity (kind : LayerKind) : Arity :=
  match kind with
  | .input .. => .zero
  | .add | .concat => .several
  | _ => .one

/-- The shape of a layer that reads the given shapes, and the primitive of a custom one. -/
def infer (ops : CustomOps) (l : Layer) (inputs : List Hwc) :
    Outcome GraphError (Hwc × Option Primitive) := do
  let expected := arity l.kind
  Outcome.require (expected.admits inputs.length) (.arity l.name expected inputs.length)
  let invalid := GraphError.invalidConfig l.name
  match l.kind, inputs with
  | .input shape, _ =>
    Outcome.require (shape.height ≠ 0 && shape.width ≠ 0 && shape.channels ≠ 0)
      (invalid .emptyInput)
    return (shape, none)
  | .conv2d filters w _ _, first :: _ =>
    Outcome.require (filters ≠ 0) (invalid .noFilters)
    let (h, v) ← w.outputSize l.name first
    return (⟨h, v, filters⟩, none)
  | .depthwiseConv2d w _ _, first :: _ =>
    let (h, v) ← w.outputSize l.name first
    return (⟨h, v, first.channels⟩, none)
  | .batchNorm epsilon, first :: _ =>
    Outcome.require (epsilon.finite && !(epsilon.value < 0)) (invalid .epsilon)
    return (first, none)
  | .activation _, first :: _ => return (first, none)
  | .add, first :: _ =>
    Outcome.require (inputs.all (· = first)) (.shape l.name (.addMismatch inputs))
    return (first, none)
  | .concat, first :: _ =>
    Outcome.require (inputs.all fun s => s.height = first.height && s.width = first.width)
      (.shape l.name (.concatMismatch inputs))
    let channels ← Size.sum (inputs.map (·.channels))
    return (⟨first.height, first.width, channels⟩, none)
  | .maxPool2d pool strides padding, first :: _ =>
    let (h, v) ← (LayerKind.poolWindow pool strides padding).outputSize l.name first
    return (⟨h, v, first.channels⟩, none)
  | .custom function arguments, first :: _ =>
    let p ← Outcome.ofExcept (ops.resolve l.name function arguments)
    return (p.outputShape first, some p)
  | _, [] => .fault

end Layer

/-! ### Graphs -/

/-- The shape of every layer and the primitive of every custom layer, in layer order. -/
structure GraphPlan where
  /-- The shapes. -/
  shapes : List (String × Hwc)
  /-- The primitives. -/
  primitives : List (String × Primitive)
  deriving DecidableEq, Repr, Inhabited

namespace GraphPlan

/-- The plan of no layers. -/
def empty : GraphPlan := ⟨[], []⟩

/-- The shape of a layer. -/
def shape? (p : GraphPlan) (layer : String) : Option Hwc := p.shapes.lookup layer

/-- The primitive of a layer. -/
def primitive? (p : GraphPlan) (layer : String) : Option Primitive := p.primitives.lookup layer

/-- Plan one more layer. -/
def extend (ops : CustomOps) (p : GraphPlan) (l : Layer) : Outcome GraphError GraphPlan := do
  Outcome.require (p.shape? l.name).isNone (.duplicateLayer l.name)
  let inputs ← l.inbound.mapM fun name =>
    Outcome.orError (.unknownInbound l.name name) (p.shape? name)
  let (shape, primitive) ← l.infer ops inputs
  return {
    shapes := p.shapes ++ [(l.name, shape)]
    primitives := p.primitives ++ (primitive.toList.map fun q => (l.name, q)) }

/-- The declared inputs and outputs of a planned graph. -/
def spec (p : GraphPlan) (a : Architecture) : ModelSpec :=
  let describe (names : List String) : List TensorSpec := names.filterMap fun name =>
    (p.shape? name).map fun s => .activation name s.height s.width s.channels
  ⟨describe a.inputs, describe a.outputs⟩

end GraphPlan

namespace Architecture

/-- Whether a name is that of an input layer. -/
def isInput (a : Architecture) (name : String) : Bool :=
  (a.layer? name).any fun l => l.kind.isInput

/-- Check declared inputs: input layers, none of them twice. -/
def checkInputs (a : Architecture) (seen : List String) : List String → Except GraphError Unit
  | [] => .ok ()
  | name :: rest =>
    if a.isInput name && !seen.contains name then checkInputs a (name :: seen) rest
    else .error (.unknownEndpoint .input name)

/-- Check declared outputs: planned layers. -/
def checkOutputs (p : GraphPlan) : List String → Except GraphError Unit
  | [] => .ok ()
  | name :: rest =>
    if (p.shape? name).isSome then checkOutputs p rest else .error (.unknownEndpoint .output name)

/-- Check the declared ends of a planned graph. -/
def checkEnds (a : Architecture) (p : GraphPlan) : Except GraphError Unit := do
  a.checkInputs [] a.inputs
  if a.inputs.isEmpty then throw (.unknownEndpoint .input "")
  if a.outputs.isEmpty then throw (.unknownEndpoint .output "")
  checkOutputs p a.outputs

/-- Plan a graph. -/
def plan (a : Architecture) (ops : CustomOps) : Outcome GraphError GraphPlan := do
  Outcome.require (!a.layers.isEmpty) .empty
  let p ← a.layers.foldlM (GraphPlan.extend ops) .empty
  Outcome.ofExcept (a.checkEnds p)
  return p

end Architecture

end FlatNet
