import FlatNet.Container.Basic

/-!
Small reproducible models.

Parameters come from a linear congruential sequence, one seed per parameter in the order of
the layers.

* `Samples.resizeNet`: a single resize;
* `Samples.slimNet`: a small segmentation net with a layer of every kind;
* `Samples.trainingState`: a training state for a model.
-/

namespace FlatNet.Samples

/-- One corner-aligned resize of an image to a square. -/
def resizeNet (size : Nat) : Model where
  architecture := {
    name := s!"resize-{size}"
    layers := [
      ⟨"image", .input ⟨8, 8, 3⟩, []⟩,
      ⟨"resize", .custom CustomOps.resizeName (.obj [("size", .int size)]), ["image"]⟩]
    inputs := ["image"]
    outputs := ["resize"] }
  weights := .empty

/-- A convolution with a square window. -/
def squareConv (filters kernel stride : Nat) (padding : Padding) (a : Activation) (useBias : Bool) :
    LayerKind :=
  .conv2d filters ⟨(kernel, kernel), (stride, stride), padding⟩ a useBias

/-- The graph of the segmentation net. -/
def slimGraph : Architecture where
  name := "slim-net-mini"
  layers := [
    ⟨"image", .input ⟨16, 16, 3⟩, []⟩,
    ⟨"stem", squareConv 8 3 2 .same .relu true, ["image"]⟩,
    ⟨"dw", .depthwiseConv2d ⟨(3, 3), (1, 1), .same⟩ .linear false, ["stem"]⟩,
    ⟨"dw_bn", .batchNorm ⟨0x3a83126f⟩, ["dw"]⟩,
    ⟨"dw_relu", .activation .relu6, ["dw_bn"]⟩,
    ⟨"project", squareConv 8 1 1 .valid .linear true, ["dw_relu"]⟩,
    ⟨"residual", .add, ["stem", "project"]⟩,
    ⟨"pool", .maxPool2d (2, 2) none .valid, ["residual"]⟩,
    ⟨"gate", squareConv 4 1 1 .valid .sigmoid true, ["pool"]⟩,
    ⟨"merged", .concat, ["pool", "gate"]⟩,
    ⟨"head", squareConv 2 3 1 .same .linear false, ["merged"]⟩,
    ⟨"upsample", .custom CustomOps.resizeName (.obj [("size", .int 16)]), ["head"]⟩,
    ⟨"mask", .activation .sigmoid, ["upsample"]⟩]
  inputs := ["image"]
  outputs := ["mask"]

/-- Numbers in `[lo, hi)` from the sequence of a seed. -/
def ramp (count : Nat) (seed : UInt64) (lo hi : Float32) : List Binary32 :=
  (states seed count).map fun s => .ofFloat (lo + unitOf s * (hi - lo))

/-- The numbers of a parameter. -/
def paramValues (param : String) (count : Nat) (seed : UInt64) : List Binary32 :=
  if param = "gamma" then ramp count seed 0.5 1.5
  else if param = "moving_variance" then ramp count seed 0.25 2
  else ramp count seed (-0.5) 0.5

/-- The parameters of a planned graph: layer, name and shape, in order. -/
def paramList (a : Architecture) (p : GraphPlan) : List (String × String × Shape) :=
  a.layers.flatMap fun l =>
    match Model.inputShape? p l with
    | none => []
    | some input => (l.kind.weights input).map fun w => (l.name, w.1, w.2)

/-- The seed of the first parameter. -/
def firstSeed : Nat := 2

/-- Parameters for a planned graph. -/
def paramsOf (a : Architecture) (p : GraphPlan) : Table Tensor :=
  Table.ofList <| (paramList a p).zipIdx.map fun ((layer, param, shape), i) =>
    let values := paramValues param (shape.count?.getD 0) (firstSeed + i).toUInt64
    (Model.weightKey layer param, ⟨.f32, shape, Bytes.ofSingles values⟩)

/-- A miniature segmentation net with a layer of every kind. -/
def slimNet : Model where
  architecture := slimGraph
  weights :=
    match slimGraph.plan (CustomOps.standard none) with
    | .value p => paramsOf slimGraph p
    | _ => .empty

/-- One eighth. -/
def eighth : Binary32 := ⟨0x3e000000⟩

/-- The slots of a parameter: two tensors of its shape. -/
def slotsOf (name : String) (t : Tensor) : List (String × Tensor) :=
  let slot : Tensor :=
    ⟨.f32, t.shape, Bytes.ofSingles (List.replicate (t.shape.count?.getD 0) eighth)⟩
  [(name ++ "/m", slot), (name ++ "/v", slot)]

/-- A training state with two slots per parameter. -/
def trainingState (m : Model) : TrainingState where
  config := .object [
    ("optimizer", .object [
      ("class_name", .str "Adam"),
      ("config", .object [("learning_rate", .float ⟨0x3f50624dd2f1a9fc⟩)])]),
    ("loss", .str "binary_crossentropy"),
    ("metrics", .arr [.str "accuracy"])]
  slots := Table.ofList (m.weights.entries.flatMap fun p => slotsOf p.1 p.2)

end FlatNet.Samples
