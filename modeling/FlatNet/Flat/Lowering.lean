import FlatNet.Flat.Fragment

/-!
Lowering of models.

The fragments of the layers are laid out one after the other: constants and results get the
next places in the table of tensors, operator codes enter their table at their first use.

* `Lowering`: the tables built so far, and the places of the values of layers;
* `Lowering.emit`: the layout of one fragment;
* `Model.lower`: the flat model of a model.
-/

namespace FlatNet

/-- The tables built so far. -/
structure Lowering where
  /-- The operator codes, in the order of their first use. -/
  codes : List Opcode
  /-- The tensors. -/
  tensors : List FlatTensor
  /-- The operators. -/
  operators : List FlatOperator
  /-- The buffers; the first one is empty and stands for no constant. -/
  buffers : List Bytes
  /-- The places of the values of layers, the latest first. -/
  values : List (String × Int32)
  deriving Repr

namespace Lowering

/-- The tables before the first layer. -/
def start : Lowering := ⟨[], [], [], [[]], []⟩

/-- The place of the value of a layer. -/
def value (s : Lowering) (layer : String) : LoweringOutcome Int32 :=
  Outcome.orError (.unsupported layer .noValue) (s.values.lookup layer)

/-- Add a tensor that is no constant. -/
def addActivation (s : Lowering) (name : String) (hwc : Hwc) : Lowering :=
  { s with tensors := s.tensors ++ [⟨name, .f32, [1, hwc.height, hwc.width, hwc.channels], 0, none⟩] }

/-- Add a constant and its buffer. -/
def addConstant (s : Lowering) (c : Constant) : Lowering :=
  { s with
    buffers := s.buffers ++ [c.data]
    tensors := s.tensors
      ++ [⟨c.name, c.dtype, c.shape, UInt32.ofNat s.buffers.length, c.quantization⟩] }

/-- Enter a code into the table, unless it is there. -/
def addCode (s : Lowering) (code : Opcode) : Lowering :=
  if s.codes.contains code then s else { s with codes := s.codes ++ [code] }

/-- The place of what an instruction reads; the constants of its program start at `base`. -/
def operandIndex (s : Lowering) (base : Nat) : Operand → Int32
  | .value index => index
  | .constant k => Int32.ofNat (base + k)
  | .result => Int32.ofNat (s.tensors.length - 1)
  | .absent => -1

/-- Add an instruction and its result. -/
def addInstruction (base : Nat) (hwc : Hwc) (s : Lowering) (i : Instruction) : Lowering :=
  let inputs := i.operands.map (s.operandIndex base)
  let output := Int32.ofNat s.tensors.length
  let s := (s.addActivation i.output hwc).addCode i.code
  { s with operators :=
      s.operators ++ [⟨UInt32.ofNat (s.codes.idxOf i.code), inputs, [output], i.options⟩] }

/-- Name the value of a layer. -/
def bind (s : Lowering) (layer : String) (index : Int32) : Lowering :=
  { s with values := (layer, index) :: s.values }

/-- The place of the latest tensor. -/
def latest (s : Lowering) : Int32 := Int32.ofNat (s.tensors.length - 1)

/-- Lay out a fragment. -/
def emit (s : Lowering) (layer : String) (hwc : Hwc) : Fragment → Lowering
  | .source =>
    let s := s.addActivation layer hwc
    s.bind layer s.latest
  | .same index => s.bind layer index
  | .program constants instructions =>
    let base := s.tensors.length
    let s := instructions.foldl (addInstruction base hwc) (constants.foldl addConstant s)
    s.bind layer s.latest

/-- Lower one more layer. -/
def lowerLayer (m : Model) (p : GraphPlan) (q : Quantize) (s : Lowering) (l : Layer) :
    LoweringOutcome Lowering := do
  let hwc ← p.shapeOf l.name
  let args ← l.inbound.mapM s.value
  return s.emit l.name hwc (← l.fragment m p q hwc args)

end Lowering

/-! ### Models -/

/-- The choices of a conversion. -/
structure ConverterOptions where
  /-- Which parameters are quantized. -/
  quantize : Quantize
  /-- The description of the flat model. -/
  description : String
  deriving DecidableEq, Repr

namespace ConverterOptions

/-- The choices unless told otherwise. -/
def standard : ConverterOptions := ⟨.none, "liteport flat model"⟩

end ConverterOptions

/-- The program named in the notes of a flat model. -/
def producer : String := "liteport 0.1.0"

/-- Check that the dimensions of a tensor fit. -/
def FlatTensor.checkDims (t : FlatTensor) : LoweringOutcome Unit :=
  t.shape.forM fun n => do
    let _ ← narrow t.name .dimension n

/-- The flat model of a model. -/
def Model.lower (m : Model) (ops : CustomOps) (options : ConverterOptions) :
    LoweringOutcome FlatModel := do
  let p ← (m.validate ops).mapError .ofGraph
  let s ← m.architecture.layers.foldlM (Lowering.lowerLayer m p options.quantize) .start
  let inputs ← m.architecture.inputs.mapM s.value
  let outputs ← m.architecture.outputs.mapM s.value
  s.tensors.forM FlatTensor.checkDims
  return {
    version := FlatModel.formatVersion
    description := options.description
    metadata := [
      ("producer", producer),
      ("source_model", m.architecture.name),
      ("weight_quantization", options.quantize.name)]
    codes := s.codes
    tensors := s.tensors
    operators := s.operators
    inputs
    outputs
    buffers := s.buffers }

end FlatNet
