import FlatNet.Graph.Layer
import FlatNet.Json.Reader

/-!
The JSON text of layer graphs.

A graph is written compactly, every field in its place and defaults filled in.  Reading is
more liberal: members come in any order, unknown ones are ignored, known ones must not be
repeated, and records with a fixed list of fields may also be arrays of them.  The
configuration of a layer may stand before its class name; it is then read in full first.

* `Architecture.text`: the text of a graph;
* `Architecture.parse?`: the graph of a text.
-/

namespace FlatNet

open Json (Tree)

/-! ### Writing -/

/-- An array of sizes. -/
def sizesText (sizes : List Nat) : String := Json.bracketed (sizes.map toString)

/-- An array of two sizes. -/
def pairText (p : Nat × Nat) : String := sizesText [p.1, p.2]

/-- An array of strings. -/
def namesText (names : List String) : String := Json.bracketed (names.map Json.quote)

/-- A truth value. -/
def flagText (b : Bool) : String := if b then "true" else "false"

namespace LayerKind

/-- The fields of a configuration in order; `none` for a kind that has none. -/
def config : LayerKind → Option (List (String × String))
  | input s => some [("shape", sizesText [s.height, s.width, s.channels])]
  | conv2d filters w a useBias => some [
      ("filters", toString filters),
      ("kernel_size", pairText w.kernel),
      ("strides", pairText w.strides),
      ("padding", Json.quote w.padding.name),
      ("activation", Json.quote a.name),
      ("use_bias", flagText useBias)]
  | depthwiseConv2d w a useBias => some [
      ("kernel_size", pairText w.kernel),
      ("strides", pairText w.strides),
      ("padding", Json.quote w.padding.name),
      ("activation", Json.quote a.name),
      ("use_bias", flagText useBias)]
  | batchNorm epsilon => some [("epsilon", Json.float32Text epsilon)]
  | activation a => some [("activation", Json.quote a.name)]
  | add => none
  | concat => none
  | maxPool2d pool strides padding => some [
      ("pool_size", pairText pool),
      ("strides", (strides.map pairText).getD "null"),
      ("padding", Json.quote padding.name)]
  | custom function arguments => some [
      ("function", Json.quote function),
      ("arguments", arguments.text)]

/-- The text of a kind: its class name and configuration. -/
def text (kind : LayerKind) : String :=
  Json.braced (("class_name", Json.quote kind.className)
    :: (kind.config.toList.map fun fields => ("config", Json.braced fields)))

end LayerKind

/-- The text of a layer. -/
def Layer.text (l : Layer) : String :=
  Json.braced [
    ("name", Json.quote l.name),
    ("layer", l.kind.text),
    ("inbound", namesText l.inbound)]

/-- The text of a graph. -/
def Architecture.text (a : Architecture) : String :=
  Json.braced [
    ("name", Json.quote a.name),
    ("layers", Json.bracketed (a.layers.map Layer.text)),
    ("inputs", namesText a.inputs),
    ("outputs", namesText a.outputs)]

/-! ### Reading -/

/-- How the trees of a configuration are read: at which depth, and whether the whole of it
was read before. -/
structure ConfigContext where
  /-- Whether the configuration was read in full first. -/
  buffered : Bool
  /-- The remaining depth of its fields. -/
  depth : Nat

namespace ConfigContext

/-- A padding. -/
def padding? (c : ConfigContext) (t : Tree) : Option Padding :=
  (t.word? c.buffered c.depth).bind Padding.ofName?

/-- An activation function. -/
def activation? (c : ConfigContext) (t : Tree) : Option Activation :=
  (t.word? c.buffered c.depth).bind Activation.ofName?

/-- Three sizes. -/
def hwc? (c : ConfigContext) (t : Tree) : Option Hwc :=
  match t.list? c.depth fun _ => Tree.size? with
  | some [height, width, channels] => some ⟨height, width, channels⟩
  | _ => none

/-- Steps that may be left to the window. -/
def strides? (c : ConfigContext) : Tree → Option (Option (Nat × Nat))
  | .null => some none
  | t => (t.sizePair? c.depth).map some

/-- The window of a convolution; it moves by unit steps inside the input unless told
otherwise. -/
def window? (c : ConfigContext) (ms : Tree.Members) : Option Window := do
  let kernel ← ms.required? "kernel_size" (Tree.sizePair? c.depth)
  let strides ← ms.optional? "strides" (Tree.sizePair? c.depth) (1, 1)
  let padding ← ms.optional? "padding" c.padding? .valid
  return ⟨kernel, strides, padding⟩

end ConfigContext

/-- The epsilon of a normalisation that gives none: one thousandth. -/
def defaultEpsilon : Binary32 := ⟨0x3a83126f⟩

namespace LayerKind

/-- The kind of a class name and the fields of its configuration. -/
def ofFields? (c : ConfigContext) (className : String) (ms : Tree.Members) : Option LayerKind := do
  match className with
  | "InputLayer" => return input (← ms.required? "shape" c.hwc?)
  | "Conv2D" =>
    let filters ← ms.required? "filters" Tree.size?
    let window ← c.window? ms
    let a ← ms.optional? "activation" c.activation? .linear
    return conv2d filters window a (← ms.optional? "use_bias" Tree.flag? true)
  | "DepthwiseConv2D" =>
    let window ← c.window? ms
    let a ← ms.optional? "activation" c.activation? .linear
    return depthwiseConv2d window a (← ms.optional? "use_bias" Tree.flag? true)
  | "BatchNormalization" =>
    return batchNorm (← ms.optional? "epsilon" Tree.single? defaultEpsilon)
  | "Activation" => return activation (← ms.required? "activation" c.activation?)
  | "MaxPooling2D" =>
    let pool ← ms.required? "pool_size" (Tree.sizePair? c.depth)
    let strides ← ms.optional? "strides" c.strides? none
    return maxPool2d pool strides (← ms.optional? "padding" c.padding? .valid)
  | "Lambda" =>
    let function ← ms.required? "function" Tree.text?
    return custom function (← ms.optional? "arguments" (Tree.value? c.depth) .null)
  | _ => none

/-- The kind of a class name that needs no configuration. -/
def ofName? (className : String) : Option LayerKind :=
  match className with
  | "Add" => some add
  | "Concatenate" => some concat
  | _ => none

/-- The kind of a class name and a configuration, which may be missing or null for a kind
that has none. -/
def ofConfig? (buffered : Bool) (depth : Nat) (className : String) (config : Option Tree) :
    Option LayerKind :=
  match config with
  | none | some .null => ofName? className
  | some t => do ofFields? ⟨buffered, depth - 1⟩ className (← t.record? depth)

/-- Whether the configuration stands before the class name. -/
def configFirst (ms : Tree.Members) : Bool :=
  (ms.takeWhile fun p => p.1 ≠ "class_name").any fun p => p.1 = "config"

/-- The kind of a tree: an object, or an array of the class name and the configuration. -/
def ofTree? (depth : Nat) (t : Tree) : Option LayerKind :=
  match t with
  | .array [name, config] =>
    if depth ≤ 1 then none
    else (name.word? false (depth - 1)).bind fun className =>
      ofConfig? false (depth - 1) className (some config)
  | t => do
    let ms ← t.record? depth
    let className ← ms.required? "class_name" (Tree.word? false (depth - 1))
    match ← ms.find? "config" with
    | none => ofName? className
    | some config =>
      let buffered := configFirst ms
      if buffered && (config.value? (depth - 1)).isNone then none
      else ofConfig? buffered (depth - 1) className (some config)

end LayerKind

/-- An array of strings. -/
def names? (depth : Nat) (t : Tree) : Option (List String) := t.list? depth fun _ => Tree.text?

/-- The layer of a tree: an object, or an array of its fields. -/
def Layer.ofTree? (depth : Nat) (t : Tree) : Option Layer :=
  match t with
  | .array items =>
    if depth ≤ 1 then none else
      match items with
      | [name, kind] => do
        return ⟨← name.text?, ← LayerKind.ofTree? (depth - 1) kind, []⟩
      | [name, kind, inbound] => do
        return ⟨← name.text?, ← LayerKind.ofTree? (depth - 1) kind, ← names? (depth - 1) inbound⟩
      | _ => none
  | t => do
    let ms ← t.record? depth
    let name ← ms.required? "name" Tree.text?
    let kind ← ms.required? "layer" (LayerKind.ofTree? (depth - 1))
    return ⟨name, kind, ← ms.optional? "inbound" (names? (depth - 1)) []⟩

namespace Architecture

/-- The graph of a tree: an object, or an array of its fields. -/
def ofTree? (depth : Nat) (t : Tree) : Option Architecture :=
  let layers? (t : Tree) : Option (List Layer) := t.list? (depth - 1) Layer.ofTree?
  match t with
  | .array items =>
    if depth ≤ 1 then none else
      match items with
      | [name, layers, inputs, outputs] => do
        return ⟨← name.text?, ← layers? layers, ← names? (depth - 1) inputs,
          ← names? (depth - 1) outputs⟩
      | _ => none
  | t => do
    let ms ← t.record? depth
    let name ← ms.required? "name" Tree.text?
    let layers ← ms.required? "layers" layers?
    let inputs ← ms.required? "inputs" (names? (depth - 1))
    return ⟨name, layers, inputs, ← ms.required? "outputs" (names? (depth - 1))⟩

/-- The graph of a text. -/
def parse? (s : String) : Option Architecture := (Tree.parse? s).bind (ofTree? Json.depthLimit)

end Architecture

end FlatNet
