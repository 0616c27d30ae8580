import FlatNet.Graph.Plan

/-!
Models: a graph and its parameters.

* `Model`: parameters are keyed by layer and parameter name, joined by a slash;
* `Model.validate`: the plan of a model whose parameters are all there and fit.
-/

namespace FlatNet

/-- A graph and its parameters. -/
structure Model where
  /-- The graph. -/
  architecture : Architecture
  /-- The parameters. -/
  weights : Table Tensor

namespace Model

/-- The key of a parameter. -/
def weightKey (layer param : String) : String := layer ++ "/" ++ param

/-- A parameter of a layer. -/
def weight? (m : Model) (layer param : String) : Option Tensor :=
  m.weights.get? (weightKey layer param)

/-- Check one parameter of a layer. -/
def checkWeight (m : Model) (layer : String) (param : String × Shape) : Except GraphError Unit :=
  let key := weightKey layer param.1
  match m.weights.get? key with
  | none => .error (.missingWeight layer param.1)
  | some t =>
    if t.dtype ≠ .f32 then .error (.weightDType key t.dtype)
    else if t.shape ≠ param.2 then .error (.weightShape key param.2 t.shape)
    else .ok ()

/-- The shape of the first layer that a layer reads. -/
def inputShape? (p : GraphPlan) (l : Layer) : Option Hwc := l.inbound.head?.bind p.shape?

/-- The layers that read a planned layer, with the parameters they need. -/
def parameters (a : Architecture) (p : GraphPlan) : List (Layer × List (String × Shape)) :=
  a.layers.filterMap fun l => (inputShape? p l).map fun input => (l, l.kind.weights input)

/-- Check the parameters of a layer; one that reads nothing has none. -/
def checkLayer (m : Model) (p : GraphPlan) (l : Layer) : Except GraphError Unit :=
  match inputShape? p l with
  | none => .ok ()
  | some input => (l.kind.weights input).forM (m.checkWeight l.name)

/-- The plan of a model, its parameters checked. -/
def validate (m : Model) (ops : CustomOps) : Outcome GraphError GraphPlan := do
  let p ← m.architecture.plan ops
  Outcome.ofExcept (m.architecture.layers.forM (m.checkLayer p))
  return p

end Model

end FlatNet
