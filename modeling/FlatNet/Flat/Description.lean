import FlatNet.Decimal
import FlatNet.Flat.Basic

/-!
The description of flat models.

* `OperatorOptions.text`: options with their field names;
* `FlatModel.text`: a model line by line: its notes, its inputs and outputs, its operators.
-/

namespace FlatNet

/-- A record with its name and fields. -/
def describeRecord (name : String) (fields : List (String × String)) : String :=
  let items := fields.map fun p => p.1 ++ ": " ++ p.2
  name ++ " \x7b " ++ ", ".intercalate items ++ " \x7d"

/-- A truth value. -/
def describeFlag (b : Bool) : String := if b then "true" else "false"

/-- The name of a padding in descriptions. -/
def Padding.text : Padding → String
  | same => "Same"
  | valid => "Valid"

/-- The name of an activation function in descriptions. -/
def Activation.text : Activation → String
  | linear => "Linear"
  | relu => "Relu"
  | relu6 => "Relu6"
  | sigmoid => "Sigmoid"

/-- The name of a fused activation function in descriptions. -/
def FusedActivation.text : FusedActivation → String
  | none => "None"
  | relu => "Relu"
  | relu6 => "Relu6"

/-- The description of a quantization. -/
def Quantization.text (q : Quantization) : String :=
  describeRecord "Quantization" [
    ("scale", q.scale.text .debug),
    ("zero_point", toString q.zeroPoint)]

/-- The description of a quantization that may be missing. -/
def describeQuantization : Option Quantization → String
  | some q => "Some(" ++ q.text ++ ")"
  | none => "None"

/-- The description of options. -/
def OperatorOptions.text : OperatorOptions → String
  | none => "None"
  | conv2d padding strideH strideW activation => describeRecord "Conv2d" [
      ("padding", padding.text),
      ("stride_h", toString strideH),
      ("stride_w", toString strideW),
      ("activation", activation.text)]
  | depthwiseConv2d padding strideH strideW multiplier activation =>
    describeRecord "DepthwiseConv2d" [
      ("padding", padding.text),
      ("stride_h", toString strideH),
      ("stride_w", toString strideW),
      ("depth_multiplier", toString multiplier),
      ("activation", activation.text)]
  | pool2d padding strideH strideW filterH filterW activation => describeRecord "Pool2d" [
      ("padding", padding.text),
      ("stride_h", toString strideH),
      ("stride_w", toString strideW),
      ("filter_h", toString filterH),
      ("filter_w", toString filterW),
      ("activation", activation.text)]
  | concatenation axis activation => describeRecord "Concatenation" [
      ("axis", toString axis),
      ("activation", activation.text)]
  | add activation => describeRecord "Add" [("activation", activation.text)]
  | resizeBilinear alignCorners halfPixelCenters => describeRecord "ResizeBilinear" [
      ("align_corners", describeFlag alignCorners),
      ("half_pixel_centers", describeFlag halfPixelCenters)]
  | batchNorm epsilon => describeRecord "BatchNorm" [("epsilon", epsilon.text .debug)]

/-- A text filled up by spaces on the right. -/
def padRight (width : Nat) (s : String) : String :=
  s ++ String.ofList (List.replicate (width - s.length) ' ')

/-- A text filled up by spaces on the left. -/
def padLeft (width : Nat) (s : String) : String :=
  String.ofList (List.replicate (width - s.length) ' ') ++ s

namespace FlatModel

/-- The name and shape of the tensor at a place; a dash if there is none. -/
def describeTensor (m : FlatModel) (index : Int32) : String :=
  match m.tensor index with
  | .ok t => t.name ++ t.shape.text
  | .error _ => "-"

/-- The line of an operator. -/
def operatorLine (m : FlatModel) (i : Nat) (op : FlatOperator) : String :=
  let name :=
    match m.opcode op with
    | .ok code => code.name
    | .error _ => "<invalid>"
  let inputs := ", ".intercalate (op.inputs.map m.describeTensor)
  let outputs := ", ".intercalate (op.outputs.map m.describeTensor)
  s!"  #{padRight 3 (toString i)} {padRight 18 name} ({inputs}) -> {outputs}  {op.options.text}"

/-- The lines of a description. -/
def lines (m : FlatModel) : List String :=
  [s!"flat model v{m.version}: {m.description}"]
    ++ m.metadata.map (fun p => s!"  {p.1} = {p.2}")
    ++ [s!"  {m.tensors.length} tensors, {m.operators.length} operators, "
      ++ s!"{m.buffers.length} buffers ({m.constantBytes} constant bytes)"]
    ++ m.inputs.map (fun i => s!"  input  {m.describeTensor i}")
    ++ m.outputs.map (fun i => s!"  output {m.describeTensor i}")
    ++ m.operators.zipIdx.map fun p => m.operatorLine p.2 p.1

/-- The description of a model, every line ended. -/
def text (m : FlatModel) : String := String.join (m.lines.map (· ++ "\n"))

end FlatModel

end FlatNet
