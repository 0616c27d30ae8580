import FlatNet.Proofs.Flat.Parameters

/-!
Lowering with and without quantization.

The two ways of lowering run in step: the same layers are lowered or refused, and every entry of
every table is made at the same moment.  Only the filters of convolutions come out differently, and
they keep their names, shapes and places.

* `Constant.Quantizes`: a constant of numbers, and one of their integers;
* `Requantized`: tables that agree but for filters at known places;
* `Lowering.Twins`, `Lowering.InStep.emit`: tables made in step, kept so by every fragment;
* `Lowering.filterOperands`: what the convolutions so far read as their filters;
* `FlatModel.alike_lower`: the two ways end alike.
-/

namespace FlatNet

open Outcome (Alike)

/-! ### Quantized constants -/

/-- Quantized numbers keep away from the least integer of eight bits. -/
lemma range_quantize (xs : List Binary32) :
    ∀ byte ∈ (quantize xs).1, -127 ≤ byte.toInt8.toInt ∧ byte.toInt8.toInt ≤ 127 := by
  intro byte hbyte
  obtain ⟨x, -, rfl⟩ := List.mem_map.1 hbyte
  generalize bounded : quantizeNumber (scaleOf (maxMagnitude (xs.map Binary32.value))) x = n
  have limits : -127 ≤ n ∧ n ≤ 127 := by
    rw [← bounded, quantizeNumber, quantizedLimit]
    omega
  have exact : (Int8.ofInt n).toInt = n := Int8.toInt_ofInt_of_le (by omega) (by omega)
  rw [Int8.toInt8_toUInt8, exact]
  exact limits

/-- The second constant holds the quantized numbers of the first one: an integer for each
element. -/
structure Constant.Quantizes (c c' : Constant) : Prop where
  /-- They have one name. -/
  name : c'.name = c.name
  /-- They have one shape. -/
  shape : c'.shape = c.shape
  /-- The first one holds numbers. -/
  numbers : c.dtype = .f32 ∧ c.quantization = none
  /-- The second one holds integers, scaled around zero. -/
  integers : c'.dtype = .i8 ∧ ∃ scale, c'.quantization = some ⟨scale, 0⟩
  /-- There is one for each element. -/
  length : c'.data.length = c.shape.volume
  /-- They are of limited magnitude. -/
  range : ∀ byte ∈ c'.data, -127 ≤ byte.toInt8.toInt ∧ byte.toInt8.toInt ≤ 127

/-- Kernels with as many words as elements are quantized. -/
lemma Constant.quantizes_kernel (name : String) {shape : Shape} {xs : List Binary32}
    (length : xs.length = shape.volume) :
    (kernel .none name shape xs).Quantizes (kernel .int8Weights name shape xs) where
  name := rfl
  shape := rfl
  numbers := ⟨rfl, rfl⟩
  integers := ⟨rfl, _, rfl⟩
  length := (length_quantize xs).trans length
  range := range_quantize xs

/-! ### Tables that agree but for filters -/

/-- What a tensor is called, its dimensions and the place of its data. -/
def FlatTensor.label (t : FlatTensor) : String × Shape × UInt32 := (t.name, t.shape, t.buffer)

/-- The tensor of numbers at a place is one of integers in the other tables, and the integers are
in a buffer of its own. -/
def QuantizedAt (old new : List FlatTensor) (buffers : List Bytes) (place : Nat × Nat) : Prop :=
  ∃ t scale data, old[place.1]? = some t ∧ t.dtype = .f32 ∧ t.quantization = none ∧
    t.buffer = UInt32.ofNat place.2 ∧
    new[place.1]? = some { t with dtype := .i8, quantization := some ⟨scale, 0⟩ } ∧
    buffers[place.2]? = some data ∧ data.length = t.shape.volume ∧
    ∀ byte ∈ data, -127 ≤ byte.toInt8.toInt ∧ byte.toInt8.toInt ≤ 127

/-- Tables of tensors and buffers agree but for the filters at the given places, a tensor and a
buffer each, and these are quantized. -/
structure Requantized (filters : List (Nat × Nat)) (ts ts' : List FlatTensor)
    (bs bs' : List Bytes) : Prop where
  /-- There are as many tensors. -/
  tensors : ts'.length = ts.length
  /-- There are as many buffers. -/
  buffers : bs'.length = bs.length
  /-- Other tensors are the same. -/
  otherTensors : ∀ k, k ∉ filters.map (·.1) → ts'[k]? = ts[k]?
  /-- Other buffers are the same. -/
  otherBuffers : ∀ b, b ∉ filters.map (·.2) → bs'[b]? = bs[b]?
  /-- The filters are quantized. -/
  filters : ∀ place ∈ filters, QuantizedAt ts ts' bs' place

lemma QuantizedAt.append {ts ts' : List FlatTensor} {bs : List Bytes} {place : Nat × Nat}
    (h : QuantizedAt ts ts' bs place) (us us' : List FlatTensor) (cs : List Bytes) :
    QuantizedAt (ts ++ us) (ts' ++ us') (bs ++ cs) place := by
  obtain ⟨t, scale, data, there, dtype, plain, buffer, there', held, rest⟩ := h
  refine ⟨t, scale, data, ?_, dtype, plain, buffer, ?_, ?_, rest⟩
  · rw [List.getElem?_append_left (List.getElem?_eq_some_iff.1 there).1, there]
  · rw [List.getElem?_append_left (List.getElem?_eq_some_iff.1 there').1, there']
  · rw [List.getElem?_append_left (List.getElem?_eq_some_iff.1 held).1, held]

section Lists

variable {α : Type} {xs ys : List α} {k : Nat}

/-- Lists of one length that agree at a place do so with the same behind them. -/
lemma getElem?_append_congr (length : ys.length = xs.length) (zs : List α) (h : ys[k]? = xs[k]?) :
    (ys ++ zs)[k]? = (xs ++ zs)[k]? := by
  rw [List.getElem?_append, List.getElem?_append, length, h]

/-- Lists of one length that agree at a place do so with anything behind them, but at its place. -/
lemma getElem?_concat_congr (length : ys.length = xs.length) (x y : α) (h : ys[k]? = xs[k]?)
    (ne : k ≠ xs.length) : (ys ++ [y])[k]? = (xs ++ [x])[k]? := by
  rcases Nat.lt_or_gt_of_ne ne with lt | gt
  · rw [List.getElem?_append_left lt, List.getElem?_append_left (length ▸ lt), h]
  · rw [List.getElem?_eq_none, List.getElem?_eq_none]
    · rw [List.length_append, List.length_singleton]
      omega
    · rw [List.length_append, List.length_singleton, length]
      omega

end Lists

namespace Requantized

variable {filters : List (Nat × Nat)} {ts ts' : List FlatTensor} {bs bs' : List Bytes}

/-- Tables stay so when the same is added to both. -/
lemma append (h : Requantized filters ts ts' bs bs') (us : List FlatTensor) (cs : List Bytes) :
    Requantized filters (ts ++ us) (ts' ++ us) (bs ++ cs) (bs' ++ cs) where
  tensors := by rw [List.length_append, List.length_append, h.tensors]
  buffers := by rw [List.length_append, List.length_append, h.buffers]
  otherTensors k other := getElem?_append_congr h.tensors us (h.otherTensors k other)
  otherBuffers b other := getElem?_append_congr h.buffers cs (h.otherBuffers b other)
  filters place hplace := (h.filters place hplace).append us us cs

/-- A filter is added to one of them as it is, and quantized to the other one. -/
lemma addFilter (h : Requantized filters ts ts' bs bs') {c c' : Constant}
    (quantized : c.Quantizes c') :
    Requantized (filters ++ [(ts.length, bs.length)])
      (ts ++ [⟨c.name, c.dtype, c.shape, UInt32.ofNat bs.length, c.quantization⟩])
      (ts' ++ [⟨c'.name, c'.dtype, c'.shape, UInt32.ofNat bs'.length, c'.quantization⟩])
      (bs ++ [c.data]) (bs' ++ [c'.data]) where
  tensors := by rw [List.length_append, List.length_append, h.tensors]; rfl
  buffers := by rw [List.length_append, List.length_append, h.buffers]; rfl
  otherTensors k other := by
    rw [List.map_append, List.mem_append, not_or] at other
    exact getElem?_concat_congr h.tensors _ _ (h.otherTensors k other.1)
      fun same => other.2 (List.mem_singleton.2 same)
  otherBuffers b other := by
    rw [List.map_append, List.mem_append, not_or] at other
    exact getElem?_concat_congr h.buffers _ _ (h.otherBuffers b other.1)
      fun same => other.2 (List.mem_singleton.2 same)
  filters := by
    rw [List.forall_mem_append, List.forall_mem_singleton]
    refine ⟨fun place hplace => (h.filters place hplace).append _ _ _, ?_⟩
    obtain ⟨name, shape, ⟨dtype, plain⟩, ⟨dtype', scale, scaled⟩, length, range⟩ := quantized
    refine ⟨_, scale, c'.data, List.getElem?_concat_length, dtype, plain, rfl, ?_, ?_, length,
      range⟩
    · rw [← h.tensors, List.getElem?_concat_length, name, shape, dtype', scaled, h.buffers]
    · rw [← h.buffers, List.getElem?_concat_length]

end Requantized

/-! ### Operators that read filters -/

namespace Opcode

/-- Whether an operator is a convolution. -/
def convolves : Opcode → Bool
  | conv2d | depthwiseConv2d => true
  | _ => false

/-- A table in which no code stands twice is short. -/
lemma length_le_of_nodup {codes : List Opcode} (nodup : codes.Nodup) : codes.length ≤ 10 := by
  have among : codes ⊆ all := fun code _ => by cases code <;> decide
  exact (nodup.subperm among).length_le

end Opcode

/-- What the convolutions among operators read as their filters, their codes being in a table. -/
def filterOperands (codes : List Opcode) (operators : List FlatOperator) : List (Option Int32) :=
  (operators.filter fun op => (codes[op.opcode.toNat]?).any Opcode.convolves).map (·.inputs[1]?)

/-- Codes that are added behind the others do not matter to the operators so far. -/
lemma filterOperands_of_prefix {codes codes' : List Opcode} (grows : codes <+: codes')
    {operators : List FlatOperator} (inside : ∀ op ∈ operators, op.opcode.toNat < codes.length) :
    filterOperands codes' operators = filterOperands codes operators := by
  obtain ⟨more, rfl⟩ := grows
  rw [filterOperands, List.filter_congr fun op hop => by
    rw [List.getElem?_append_left (inside op hop)]]
  rfl

namespace Lowering

variable {s t : Lowering} {filters : List (Nat × Nat)}

/-- What the convolutions so far read as their filters. -/
def filterOperands (s : Lowering) : List (Option Int32) :=
  FlatNet.filterOperands s.codes s.operators

/-- No code stands twice, and the operators have codes in the table. -/
structure Coded (s : Lowering) : Prop where
  /-- Every code stands once. -/
  nodup : s.codes.Nodup
  /-- The codes of operators are there. -/
  inside : ∀ op ∈ s.operators, op.opcode.toNat < s.codes.length

lemma coded_start : start.Coded := ⟨.nil, nofun⟩

lemma nodup_codes_addCode (nodup : s.codes.Nodup) (code : Opcode) :
    (s.addCode code).codes.Nodup := by
  rw [codes_addCode]
  split
  · exact nodup
  · rename_i new
    exact nodup.append (List.nodup_singleton _) (by simpa using new)

/-- An instruction adds an operator of its code. -/
lemma Coded.exists_operator (h : s.Coded) (base : Nat) (hwc : Hwc) (i : Instruction) :
    (addInstruction base hwc s i).codes.Nodup ∧ ∃ op,
      (addInstruction base hwc s i).operators = s.operators ++ [op] ∧
      op.inputs = i.operands.map (s.operandIndex base) ∧
      (addInstruction base hwc s i).codes[op.opcode.toNat]? = some i.code := by
  have nodup : ((s.addActivation i.output hwc).addCode i.code).codes.Nodup :=
    nodup_codes_addCode (s := s.addActivation i.output hwc) h.nodup i.code
  have there := mem_codes_addCode (s.addActivation i.output hwc) i.code
  have place := List.idxOf_lt_length_of_mem there
  have few := Opcode.length_le_of_nodup nodup
  rw [addInstruction_eq]
  refine ⟨nodup, _, rfl, rfl, ?_⟩
  dsimp only
  rw [UInt32.toNat_ofNat_of_lt' (show _ < 0x100000000 by omega), List.getElem?_idxOf there]

/-- An instruction keeps the operators coded, and what it reads as its filter comes last if it is a
convolution. -/
lemma Coded.addInstruction (h : s.Coded) (base : Nat) (hwc : Hwc) (i : Instruction) :
    (Lowering.addInstruction base hwc s i).Coded ∧
      (Lowering.addInstruction base hwc s i).filterOperands = s.filterOperands
        ++ if i.code.convolves then [(i.operands.map (s.operandIndex base))[1]?] else [] := by
  obtain ⟨nodup, op, operators, inputs, code⟩ := h.exists_operator base hwc i
  have grows := (before_addInstruction base hwc s i).codes
  constructor
  · refine ⟨nodup, ?_⟩
    rw [operators, List.forall_mem_append, List.forall_mem_singleton]
    exact ⟨fun op hop => lt_of_lt_of_le (h.inside op hop) grows.length_le,
      (List.getElem?_eq_some_iff.1 code).1⟩
  · have old := filterOperands_of_prefix grows h.inside
    rw [Lowering.filterOperands, operators, FlatNet.filterOperands, List.filter_append,
      List.map_append]
    refine congrArg₂ (· ++ ·) old ?_
    rw [List.filter_singleton, code, Option.any_some, ← inputs]
    cases i.code.convolves <;> rfl

/-- Constants are no operators. -/
lemma Coded.foldl_addConstant (h : s.Coded) (cs : List Constant) :
    (cs.foldl addConstant s).Coded ∧
      (cs.foldl addConstant s).filterOperands = s.filterOperands := by
  induction cs generalizing s with
  | nil => exact ⟨h, rfl⟩
  | cons c cs ih => exact ih (s := s.addConstant c) ⟨h.nodup, h.inside⟩

/-- Instructions that are no convolutions read no filters. -/
lemma Coded.foldl_addInstruction (h : s.Coded) (base : Nat) (hwc : Hwc) {is : List Instruction}
    (plain : ∀ i ∈ is, i.code.convolves = false) :
    (is.foldl (Lowering.addInstruction base hwc) s).Coded ∧
      (is.foldl (Lowering.addInstruction base hwc) s).filterOperands = s.filterOperands := by
  induction is generalizing s with
  | nil => exact ⟨h, rfl⟩
  | cons i is ih =>
    rw [List.forall_mem_cons] at plain
    obtain ⟨coded, operands⟩ := h.addInstruction base hwc i
    obtain ⟨coded', operands'⟩ := ih coded plain.2
    rw [plain.1, if_neg Bool.false_ne_true, List.append_nil] at operands
    exact ⟨coded', operands'.trans operands⟩

end Lowering

/-! ### Fragments -/

/-- No instruction of a fragment is a convolution. -/
def Fragment.Plain : Fragment → Prop
  | .program _ is => ∀ i ∈ is, i.code.convolves = false
  | _ => True

/-- Fragments of one layer, the second one perhaps quantized: a convolution that reads a filter or
its integers, or any other fragment twice. -/
inductive Fragment.Twin : Fragment → Fragment → Prop where
  /-- Any other fragment. -/
  | same {f : Fragment} (plain : f.Plain) : Twin f f
  /-- A convolution. -/
  | convolution {filter filter' : Constant} {cs : List Constant} {main : Instruction}
      {is : List Instruction} (quantized : filter.Quantizes filter')
      (convolves : main.code.convolves = true) (reads : main.operands[1]? = some (.constant 0))
      (plain : ∀ i ∈ is, i.code.convolves = false) :
      Twin (.program (filter :: cs) (main :: is)) (.program (filter' :: cs) (main :: is))

lemma Fragment.twin_convProgram {layer : String} {code : Opcode} {input : Int32}
    {filter filter' : Constant} {bias : Option Constant} {options : OperatorOptions}
    {sigmoid : Bool} (quantized : filter.Quantizes filter') (convolves : code.convolves = true) :
    Twin (convProgram layer code input filter bias options sigmoid)
      (convProgram layer code input filter' bias options sigmoid) := by
  refine .convolution quantized convolves rfl fun i hi => ?_
  split at hi
  · rw [List.mem_singleton.1 hi]
    rfl
  · cases hi

namespace Lowering

variable {s t : Lowering} {filters : List (Nat × Nat)}

/-- Tables made in step: they agree but for filters. -/
structure Twins (filters : List (Nat × Nat)) (s t : Lowering) : Prop where
  /-- The codes are the same. -/
  codes : t.codes = s.codes
  /-- The operators are the same. -/
  operators : t.operators = s.operators
  /-- The places of values are the same. -/
  values : t.values = s.values
  /-- The tensors and buffers agree but for the filters. -/
  tables : Requantized filters s.tensors t.tensors s.buffers t.buffers

namespace Twins

lemma addActivation (h : Twins filters s t) (name : String) (hwc : Hwc) :
    Twins filters (s.addActivation name hwc) (t.addActivation name hwc) where
  codes := h.codes
  operators := h.operators
  values := h.values
  tables := by
    have grown := h.tables.append
      [⟨name, .f32, [1, hwc.height, hwc.width, hwc.channels], 0, none⟩] []
    simpa only [Lowering.addActivation, List.append_nil] using grown

lemma addConstant (h : Twins filters s t) (c : Constant) :
    Twins filters (s.addConstant c) (t.addConstant c) where
  codes := h.codes
  operators := h.operators
  values := h.values
  tables := by
    have grown := h.tables.append
      [⟨c.name, c.dtype, c.shape, UInt32.ofNat s.buffers.length, c.quantization⟩] [c.data]
    simpa only [Lowering.addConstant, h.tables.buffers] using grown

lemma foldl_addConstant (h : Twins filters s t) (cs : List Constant) :
    Twins filters (cs.foldl Lowering.addConstant s) (cs.foldl Lowering.addConstant t) := by
  induction cs generalizing s t with
  | nil => exact h
  | cons c cs ih => exact ih (h.addConstant c)

lemma addFilter (h : Twins filters s t) {c c' : Constant} (quantized : c.Quantizes c') :
    Twins (filters ++ [(s.tensors.length, s.buffers.length)]) (s.addConstant c)
      (t.addConstant c') where
  codes := h.codes
  operators := h.operators
  values := h.values
  tables := h.tables.addFilter quantized

lemma operandIndex (h : Twins filters s t) (base : Nat) :
    t.operandIndex base = s.operandIndex base := by
  funext o
  cases o <;> simp only [Lowering.operandIndex, h.tables.tensors]

lemma addInstruction (h : Twins filters s t) (base : Nat) (hwc : Hwc) (i : Instruction) :
    Twins filters (Lowering.addInstruction base hwc s i)
      (Lowering.addInstruction base hwc t i) := by
  have grown := h.addActivation i.output hwc
  have codes : ((t.addActivation i.output hwc).addCode i.code).codes
      = ((s.addActivation i.output hwc).addCode i.code).codes := by
    rw [codes_addCode, codes_addCode, grown.codes]
  rw [addInstruction_eq, addInstruction_eq, codes, h.operandIndex, h.operators, h.tables.tensors]
  refine ⟨codes, rfl, ?_, ?_⟩
  · simpa using grown.values
  · simpa using grown.tables

lemma foldl_addInstruction (h : Twins filters s t) (base : Nat) (hwc : Hwc)
    (is : List Instruction) :
    Twins filters (is.foldl (Lowering.addInstruction base hwc) s)
      (is.foldl (Lowering.addInstruction base hwc) t) := by
  induction is generalizing s t with
  | nil => exact h
  | cons i is ih => exact ih (h.addInstruction base hwc i)

lemma bind (h : Twins filters s t) (layer : String) (index : Int32) :
    Twins filters (s.bind layer index) (t.bind layer index) where
  codes := h.codes
  operators := h.operators
  values := congrArg ((layer, index) :: ·) h.values
  tables := h.tables

lemma value_eq (h : Twins filters s t) : t.value = s.value := by
  funext name
  rw [value, value, h.values]

lemma bindLatest (h : Twins filters s t) (layer : String) :
    Twins filters (s.bind layer s.latest) (t.bind layer t.latest) := by
  rw [latest, latest, h.tables.tensors]
  exact h.bind layer _

end Twins

/-- Tables made in step, the convolutions reading just the filters. -/
structure InStep (filters : List (Nat × Nat)) (s t : Lowering) : Prop
    extends Twins filters s t where
  /-- The operators have codes. -/
  coded : s.Coded
  /-- Each convolution reads a filter, in order. -/
  operands : s.filterOperands = filters.map fun place => some (Int32.ofNat place.1)

lemma inStep_start : InStep [] start start where
  codes := rfl
  operators := rfl
  values := rfl
  tables := ⟨rfl, rfl, fun _ _ => rfl, fun _ _ => rfl, nofun⟩
  coded := coded_start
  operands := rfl

/-- Laying out fragments of one layer keeps the tables in step. -/
lemma InStep.emit (h : InStep filters s t) {f g : Fragment} (twin : f.Twin g) (layer : String)
    (hwc : Hwc) : ∃ filters', InStep filters' (s.emit layer hwc f) (t.emit layer hwc g) := by
  cases twin with
  | same plain =>
    cases f with
    | source =>
      exact ⟨filters, (h.addActivation layer hwc).bindLatest layer,
        ⟨h.coded.nodup, h.coded.inside⟩, h.operands⟩
    | same index => exact ⟨filters, h.bind layer index, ⟨h.coded.nodup, h.coded.inside⟩, h.operands⟩
    | program cs is =>
      obtain ⟨coded, operands⟩ := h.coded.foldl_addConstant cs
      obtain ⟨coded', operands'⟩ := coded.foldl_addInstruction s.tensors.length hwc plain
      have grown := (h.foldl_addConstant cs).foldl_addInstruction s.tensors.length hwc is
      refine ⟨filters, ?_, ⟨coded'.nodup, coded'.inside⟩,
        operands'.trans (operands.trans h.operands)⟩
      rw [Lowering.emit, Lowering.emit, h.tables.tensors]
      exact grown.bindLatest layer
  | @convolution filter filter' cs main is quantized convolves reads plain =>
    obtain ⟨coded, operands⟩ := h.coded.foldl_addConstant (filter :: cs)
    obtain ⟨coded', operands'⟩ := coded.addInstruction s.tensors.length hwc main
    obtain ⟨coded'', operands''⟩ := coded'.foldl_addInstruction s.tensors.length hwc plain
    have grown := ((h.addFilter quantized).foldl_addConstant cs).foldl_addInstruction
      s.tensors.length hwc (main :: is)
    -- the filter is the first constant of the program
    have read : (main.operands.map (((filter :: cs).foldl addConstant s).operandIndex
        s.tensors.length))[1]? = some (Int32.ofNat s.tensors.length) := by
      rw [List.getElem?_map, reads]
      rfl
    refine ⟨filters ++ [(s.tensors.length, s.buffers.length)], ?_,
      ⟨coded''.nodup, coded''.inside⟩, operands''.trans (operands'.trans ?_)⟩
    · rw [Lowering.emit, Lowering.emit, h.tables.tensors]
      exact grown.bindLatest layer
    · rw [convolves, if_pos rfl, read, operands, h.operands, List.map_append]
      rfl

end Lowering

/-! ### Layers -/

lemma Fragment.plain_plainProgram {layer : String} {code : Opcode} {inputs : List Int32}
    {options : OperatorOptions} (other : code.convolves = false) :
    (plainProgram layer code inputs options).Plain :=
  List.forall_mem_singleton.2 other

lemma plain_addInstructions (layer : String) (n : Nat) (rest : List Int32) :
    ∀ i ∈ addInstructions layer n rest, i.code.convolves = false := by
  induction rest generalizing n with
  | nil => exact List.forall_mem_nil _
  | cons rhs rest ih =>
    cases rest with
    | nil => exact List.forall_mem_singleton.2 rfl
    | cons next rest => exact List.forall_mem_cons.2 ⟨rfl, ih (n + 1)⟩

lemma Fragment.plain_addFragment {layer : String} {args : List Int32} {f : Fragment}
    (h : addFragment layer args = .value f) : f.Plain := by
  unfold addFragment at h
  split at h
  · cases h
  · cases h
    trivial
  · cases h
    exact plain_plainProgram rfl
  · cases h
    exact List.forall_mem_cons.2 ⟨rfl, plain_addInstructions layer 1 _⟩

/-- Whether a layer is a convolution. -/
def LayerKind.convolves : LayerKind → Bool
  | .conv2d .. | .depthwiseConv2d .. => true
  | _ => false

namespace Layer

variable {m : Model} {ops : CustomOps} {p : GraphPlan} {l : Layer} {hwc : Hwc} {args : List Int32}

/-- The fragment of a layer that is no convolution does not depend on quantization. -/
lemma fragment_of_plain (other : l.kind.convolves = false) (q q' : Quantize) :
    l.fragment m p q hwc args = l.fragment m p q' hwc args := by
  cases kind : l.kind with
  | conv2d | depthwiseConv2d =>
    rw [kind] at other
    cases other
  | activation a => cases a <;> simp only [fragment, kind]
  | _ => simp only [fragment, kind]

/-- The fragment of such a layer has no convolution. -/
lemma plain_of_fragment {q : Quantize} (other : l.kind.convolves = false) {f : Fragment}
    (h : l.fragment m p q hwc args = .value f) : f.Plain := by
  -- only convolutions are told how to store their weights
  cases kind : l.kind with
  | conv2d | depthwiseConv2d =>
    rw [kind] at other
    cases other
  | input =>
    simp only [fragment, kind, Outcome.pure_eq, Outcome.value.injEq] at h
    rw [← h]
    trivial
  | concat =>
    simp only [fragment, kind, Outcome.pure_eq, Outcome.value.injEq] at h
    rw [← h]
    exact Fragment.plain_plainProgram rfl
  | batchNorm epsilon =>
    simp only [fragment, kind, normFragment, Outcome.bind_eq_value_iff, Outcome.pure_eq,
      Outcome.value.injEq] at h
    obtain ⟨_, -, _, -, rfl⟩ := h
    exact List.forall_mem_singleton.2 rfl
  | activation a =>
    cases a with
    | linear =>
      simp only [fragment, kind, Outcome.bind_eq_value_iff, Outcome.pure_eq,
        Outcome.value.injEq] at h
      obtain ⟨_, -, rfl⟩ := h
      trivial
    | _ =>
      simp only [fragment, kind, Outcome.bind_eq_value_iff, Outcome.pure_eq,
        Outcome.value.injEq] at h
      obtain ⟨_, -, rfl⟩ := h
      exact Fragment.plain_plainProgram rfl
  | add =>
    simp only [fragment, kind] at h
    exact Fragment.plain_addFragment h
  | maxPool2d pool strides padding =>
    simp only [fragment, kind, Outcome.bind_eq_value_iff, Outcome.pure_eq, Outcome.value.injEq] at h
    obtain ⟨_, -, _, -, _, -, _, -, _, -, rfl⟩ := h
    exact Fragment.plain_plainProgram rfl
  | custom function arguments =>
    simp only [fragment, kind] at h
    split at h
    · cases h
    · simp only [resizeFragment, Outcome.bind_eq_value_iff, Outcome.pure_eq,
        Outcome.value.injEq] at h
      obtain ⟨_, -, _, -, _, -, _, -, rfl⟩ := h
      exact List.forall_mem_singleton.2 rfl

/-- A planned layer is lowered to fragments of both kinds, or refused for one reason. -/
lemma alike_fragment {inputs : List Hwc} {primitive : Option Primitive}
    (valid : m.validate ops = .value p) (sized : m.WellSized) (hl : l ∈ m.architecture.layers)
    (planned : Planned ops p l inputs hwc primitive) :
    Alike Fragment.Twin (l.fragment m p .none hwc args) (l.fragment m p .int8Weights hwc args) := by
  have first := Model.inputShape?_of_planned planned
  have plan := (Model.validate_eq_value_iff.1 valid).1
  -- the two modes lower all layers but convolutions to one and the same fragment
  have plain : l.kind.convolves = false →
      Alike Fragment.Twin (l.fragment m p .none hwc args)
        (l.fragment m p .int8Weights hwc args) := by
    intro other
    rw [fragment_of_plain other .int8Weights .none]
    exact .refl fun f h => .same (plain_of_fragment other h)
  have shapes := planned.shapes
  generalize hk : l.kind = kind at shapes plain
  cases shapes with
  | @conv2d filters w a useBias input _ _ some made =>
    obtain ⟨name, head, shape⟩ := Option.bind_eq_some_iff.1 first
    have channels := Architecture.channels_ne_zero plan shape
    obtain ⟨full, -⟩ := Window.full_kernel made.proper channels some
    have needed : ("kernel", [w.kernel.1, w.kernel.2, input.channels, filters])
        ∈ l.kind.weights input := by
      simp [hk, LayerKind.weights]
    simp only [fragment, hk, head, Outcome.orFault_some, Outcome.value_bind, GraphPlan.shapeOf,
      shape, Outcome.orError_some]
    refine .bind_same fun hwio words => .bind_same fun ohwi transposed => ?_
    refine .bind_same fun bias _ => .bind_same fun strideH _ => .bind_same fun strideW _ => ?_
    refine .bind_same fun x _ => Fragment.twin_convProgram (Constant.quantizes_kernel _ ?_) rfl
    -- quantization keeps the number of elements, so one shape serves both filters
    have many : ohwi.toList.length = hwio.length := by
      simpa using (size_of_hwioToOhwi (Outcome.mapError_eq_value_iff.1 transposed)).2
    rw [many, (Model.length_of_words (sized.fills valid) hl first needed full words).1]
    exact (Shape.volume_filter ..).symm
  | @depthwiseConv2d w a useBias input _ _ made =>
    obtain ⟨name, -, shape⟩ := Option.bind_eq_some_iff.1 first
    have channels := Architecture.channels_ne_zero plan shape
    obtain ⟨full, -⟩ := Window.full_kernel made.proper channels one_ne_zero
    have needed : ("depthwise_kernel", [w.kernel.1, w.kernel.2, input.channels, 1])
        ∈ l.kind.weights input := by
      simp [hk, LayerKind.weights]
    simp only [fragment, hk]
    refine .bind_same fun words read => .bind_same fun bias _ => .bind_same fun strideH _ => ?_
    refine .bind_same fun strideW _ => .bind_same fun x _ => ?_
    refine Fragment.twin_convProgram (Constant.quantizes_kernel _ ?_) rfl
    rw [(Model.length_of_words (sized.fills valid) hl first needed full read).1]
    exact (Shape.volume_filter ..).symm
  | _ => exact plain rfl

end Layer

/-- Lowering one more layer keeps the tables in step, or is refused for one reason. -/
lemma Lowering.alike_lowerLayer {m : Model} {ops : CustomOps} {p : GraphPlan} {l : Layer}
    {s t : Lowering} (valid : m.validate ops = .value p) (sized : m.WellSized)
    (hl : l ∈ m.architecture.layers) (h : ∃ filters, InStep filters s t) :
    Alike (fun s t => ∃ filters, InStep filters s t) (s.lowerLayer m p .none l)
      (t.lowerLayer m p .int8Weights l) := by
  obtain ⟨filters, h⟩ := h
  obtain ⟨inputs, hwc, primitive, planned⟩ :=
    Architecture.planned_of_mem (Model.validate_eq_value_iff.1 valid).1 hl
  have shape : (p.shapeOf l.name : LoweringOutcome Hwc) = .value hwc := by
    rw [GraphPlan.shapeOf, planned.shape]
    rfl
  rw [lowerLayer, lowerLayer, shape, Outcome.value_bind, Outcome.value_bind, h.value_eq]
  refine .bind_same fun args _ => ?_
  refine (Layer.alike_fragment valid sized hl planned).bind fun f g twin => ?_
  exact h.emit twin l.name hwc

/-! ### Models -/

namespace Requantized

variable {filters : List (Nat × Nat)} {ts ts' : List FlatTensor} {bs bs' : List Bytes}

/-- The tensors keep their names, dimensions and buffers. -/
lemma labels (h : Requantized filters ts ts' bs bs') :
    ts'.map FlatTensor.label = ts.map FlatTensor.label := by
  refine List.ext_getElem? fun k => ?_
  rw [List.getElem?_map, List.getElem?_map]
  by_cases filter : k ∈ filters.map (·.1)
  · obtain ⟨place, hplace, rfl⟩ := List.mem_map.1 filter
    obtain ⟨t, scale, data, there, -, -, -, there', -⟩ := h.filters place hplace
    rw [there, there']
    rfl
  · rw [h.otherTensors k filter]

/-- The dimensions of the tensors fit in both tables, or not for one reason. -/
lemma checkDims (h : Requantized filters ts ts' bs bs') :
    ts'.forM FlatTensor.checkDims = ts.forM FlatTensor.checkDims := by
  have labelled (ts : List FlatTensor) : ts.forM FlatTensor.checkDims
      = (ts.map FlatTensor.label).forM fun label =>
        FlatTensor.checkDims ⟨label.1, .f32, label.2.1, label.2.2, none⟩ := by
    rw [List.forM_eq_forM, List.forM_eq_forM, List.forM_map]
    rfl
  rw [labelled, labelled, h.labels]

end Requantized

namespace FlatModel

/-- The second flat model is the first one with the filters of its convolutions quantized: these have
a tensor and a buffer each, at the given places. -/
structure Quantizes (F G : FlatModel) (filters : List (Nat × Nat)) : Prop where
  /-- The versions are the same. -/
  version : G.version = F.version
  /-- The descriptions are the same. -/
  description : G.description = F.description
  /-- The notes are the same, but for the last one. -/
  metadata : ∃ notes, F.metadata = notes ++ [("weight_quantization", Quantize.none.name)] ∧
    G.metadata = notes ++ [("weight_quantization", Quantize.int8Weights.name)]
  /-- The codes are the same. -/
  codes : G.codes = F.codes
  /-- The operators are the same. -/
  operators : G.operators = F.operators
  /-- The inputs are the same. -/
  inputs : G.inputs = F.inputs
  /-- The outputs are the same. -/
  outputs : G.outputs = F.outputs
  /-- The tensors have the same names, dimensions and buffers. -/
  labels : G.tensors.map FlatTensor.label = F.tensors.map FlatTensor.label
  /-- The filters are what convolutions read as such. -/
  convolutions : filterOperands F.codes F.operators
    = filters.map fun place => some (Int32.ofNat place.1)
  /-- The tensors and buffers agree but for the filters. -/
  tables : Requantized filters F.tensors G.tensors F.buffers G.buffers

/-- Models with well-sized parameters are lowered with quantization exactly if they are without, and
are refused for the same reason.  Only the filters of convolutions come out differently. -/
theorem alike_lower {m : Model} (sized : m.WellSized) (ops : CustomOps) (description : String) :
    Alike (fun F G => ∃ filters, F.Quantizes G filters) (m.lower ops ⟨.none, description⟩)
      (m.lower ops ⟨.int8Weights, description⟩) := by
  refine .bind_same fun p valid => ?_
  have valid := Outcome.mapError_eq_value_iff.1 valid
  have run : Alike (fun s t => ∃ filters, Lowering.InStep filters s t)
      (m.architecture.layers.foldlM (Lowering.lowerLayer m p .none) .start)
      (m.architecture.layers.foldlM (Lowering.lowerLayer m p .int8Weights) .start) :=
    .foldlM ⟨[], Lowering.inStep_start⟩ fun _ _ _ hl => Lowering.alike_lowerLayer valid sized hl
  refine run.bind fun s t ⟨filters, inStep⟩ => ?_
  rw [inStep.value_eq, ← inStep.tables.checkDims]
  refine .bind_same fun inputs _ => .bind_same fun outputs _ => .bind_same fun _ _ => ?_
  exact ⟨filters, rfl, rfl, ⟨[("producer", producer), ("source_model", m.architecture.name)], rfl,
    rfl⟩, inStep.codes, inStep.operators, rfl, rfl, inStep.tables.labels, inStep.operands,
    inStep.tables⟩

/-- A model with two convolutions is lowered both ways, and its filters are the tensors that differ. -/
theorem alike_lower_blending :
    ∃ F G filters, blending.WellSized ∧ blending.lower .empty ⟨.none, "two ways"⟩ = .value F ∧
      blending.lower .empty ⟨.int8Weights, "two ways"⟩ = .value G ∧ F.Quantizes G filters ∧
      filterOperands F.codes F.operators = [some 1, some 5] := by
  have sized : blending.WellSized := Model.wellSized_of_entries (by decide +kernel)
  obtain ⟨F, lowered, known⟩ := Outcome.exists_of_holds
    (show (blending.lower .empty ⟨.none, "two ways"⟩).holds (fun F =>
      decide (filterOperands F.codes F.operators = [some 1, some 5])) = true by decide +kernel)
  obtain ⟨G, lowered', filters, quantizes⟩ :=
    (alike_lower sized .empty "two ways").exists_value lowered
  exact ⟨F, G, filters, sized, lowered, lowered', quantizes, of_decide_eq_true known⟩

end FlatModel

end FlatNet
