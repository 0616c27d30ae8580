import FlatNet.Flat.Lowering
import FlatNet.Flat.Step
import FlatNet.Proofs.Outcome

/-!
The tables of a lowered model.

Lowering only adds to the ends of the tables, so an entry stays at its place in the finished
model.  What is laid out for a fragment is therefore read back from the finished model: the
constants at the places after the tensors so far, then the results of the instructions, each
with the operator that computes it.

* `Lowering.Counts`, `Lowering.Before`: sizes of the tables, and their growth;
* `FlatModel.Points`, `FlatModel.HoldsValue`, `FlatModel.HoldsConstant`: what is at a place;
* `FlatModel.Emitted`, `FlatModel.EmittedFrom`: operators of instructions;
* `holdsConstant_of_foldl`, `emittedFrom_of_foldl`: the layout of a program.
-/

namespace FlatNet

/-! ### Growth -/

namespace Lowering

variable {s s' s'' : Lowering}

/-- The tables do not outgrow the table of tensors, and every buffer of a tensor is there. -/
structure Counts (s : Lowering) : Prop where
  /-- Every code came with a tensor. -/
  codes : s.codes.length ≤ s.tensors.length
  /-- Every buffer but the first came with a tensor. -/
  buffers : s.buffers.length ≤ s.tensors.length + 1
  /-- The first buffer stands for no constant. -/
  first : 1 ≤ s.buffers.length
  /-- Tensors have buffers. -/
  inside : ∀ t ∈ s.tensors, t.buffer.toNat < s.buffers.length

/-- Tables that have grown. -/
structure Before (s s' : Lowering) : Prop where
  /-- The codes. -/
  codes : s.codes <+: s'.codes
  /-- The tensors. -/
  tensors : s.tensors <+: s'.tensors
  /-- The buffers. -/
  buffers : s.buffers <+: s'.buffers

lemma Before.refl (s : Lowering) : s.Before s :=
  ⟨List.prefix_refl _, List.prefix_refl _, List.prefix_refl _⟩

lemma Before.trans (h : s.Before s') (h' : s'.Before s'') : s.Before s'' :=
  ⟨h.codes.trans h'.codes, h.tensors.trans h'.tensors, h.buffers.trans h'.buffers⟩

/-- The tables so far are the front of those of a model. -/
structure Within (s : Lowering) (F : FlatModel) : Prop where
  /-- The codes. -/
  codes : s.codes <+: F.codes
  /-- The tensors. -/
  tensors : s.tensors <+: F.tensors
  /-- The buffers. -/
  buffers : s.buffers <+: F.buffers

lemma Before.within {F : FlatModel} (h : s.Before s') (h' : s'.Within F) : s.Within F :=
  ⟨h.codes.trans h'.codes, h.tensors.trans h'.tensors, h.buffers.trans h'.buffers⟩

/-! ### Single entries -/

lemma before_addActivation (s : Lowering) (name : String) (hwc : Hwc) :
    s.Before (s.addActivation name hwc) :=
  ⟨List.prefix_refl _, List.prefix_append _ _, List.prefix_refl _⟩

lemma before_addConstant (s : Lowering) (c : Constant) : s.Before (s.addConstant c) :=
  ⟨List.prefix_refl _, List.prefix_append _ _, List.prefix_append _ _⟩

lemma before_addCode (s : Lowering) (code : Opcode) : s.Before (s.addCode code) := by
  unfold addCode
  split
  · exact .refl s
  · exact ⟨List.prefix_append _ _, List.prefix_refl _, List.prefix_refl _⟩

@[simp] lemma tensors_addCode (s : Lowering) (code : Opcode) :
    (s.addCode code).tensors = s.tensors := by
  unfold addCode
  split <;> rfl

@[simp] lemma buffers_addCode (s : Lowering) (code : Opcode) :
    (s.addCode code).buffers = s.buffers := by
  unfold addCode
  split <;> rfl

@[simp] lemma operators_addCode (s : Lowering) (code : Opcode) :
    (s.addCode code).operators = s.operators := by
  unfold addCode
  split <;> rfl

@[simp] lemma values_addCode (s : Lowering) (code : Opcode) :
    (s.addCode code).values = s.values := by
  unfold addCode
  split <;> rfl

lemma codes_addCode (s : Lowering) (code : Opcode) :
    (s.addCode code).codes = if s.codes.contains code then s.codes else s.codes ++ [code] := by
  unfold addCode
  split <;> rfl

lemma mem_codes_addCode (s : Lowering) (code : Opcode) : code ∈ (s.addCode code).codes := by
  unfold addCode
  split
  · rename_i known
    simpa using known
  · simp

lemma length_codes_addCode (s : Lowering) (code : Opcode) :
    (s.addCode code).codes.length ≤ s.codes.length + 1 := by
  unfold addCode
  split <;> simp

/-- The place of the next buffer is a word other than zero. -/
lemma Counts.next_buffer (h : s.Counts) (few : s.tensors.length < 0x80000000) :
    (UInt32.ofNat s.buffers.length).toNat = s.buffers.length ∧
      UInt32.ofNat s.buffers.length ≠ 0 := by
  have first := h.first
  have number : (UInt32.ofNat s.buffers.length).toNat = s.buffers.length := by
    have buffers := h.buffers
    exact UInt32.toNat_ofNat_of_lt' (show s.buffers.length < 0x100000000 by omega)
  refine ⟨number, fun zero => ?_⟩
  rw [zero] at number
  exact absurd number.symm (Nat.one_le_iff_ne_zero.1 first)

lemma counts_start : start.Counts := ⟨le_refl 0, le_refl 1, le_refl 1, nofun⟩

lemma Counts.addActivation (h : s.Counts) (name : String) (hwc : Hwc) :
    (s.addActivation name hwc).Counts := by
  have codes := h.codes
  have buffers := h.buffers
  refine ⟨?_, ?_, h.first, fun t ht => ?_⟩
  · simp only [Lowering.addActivation, List.length_append, List.length_singleton]
    omega
  · simp only [Lowering.addActivation, List.length_append, List.length_singleton]
    omega
  · rcases List.mem_append.1 ht with old | new
    · exact h.inside t old
    · rw [List.mem_singleton.1 new]
      exact h.first

lemma Counts.addConstant (h : s.Counts) (c : Constant) : (s.addConstant c).Counts := by
  have codes := h.codes
  have buffers := h.buffers
  have length : (s.buffers ++ [c.data]).length = s.buffers.length + 1 := by simp
  refine ⟨?_, ?_, ?_, fun t ht => ?_⟩
  · simp only [Lowering.addConstant, List.length_append, List.length_singleton]
    omega
  · simp only [Lowering.addConstant, List.length_append, List.length_singleton]
    omega
  · simp [Lowering.addConstant]
  · change t.buffer.toNat < (s.buffers ++ [c.data]).length
    rw [length]
    rcases List.mem_append.1 ht with old | new
    · exact Nat.lt_succ_of_lt (h.inside t old)
    · rw [List.mem_singleton.1 new]
      -- a number that does not fit a word only gets smaller
      exact Nat.lt_succ_of_le (Nat.mod_le _ _)

/-- An instruction comes with the tensor of its result and, at its first use, its code. -/
lemma addInstruction_eq (base : Nat) (hwc : Hwc) (s : Lowering) (i : Instruction) :
    addInstruction base hwc s i =
      { (s.addActivation i.output hwc).addCode i.code with
        operators := s.operators ++
          [⟨UInt32.ofNat (((s.addActivation i.output hwc).addCode i.code).codes.idxOf i.code),
            i.operands.map (s.operandIndex base), [Int32.ofNat s.tensors.length], i.options⟩] } := by
  simp [addInstruction, Lowering.addActivation]

lemma before_addInstruction (base : Nat) (hwc : Hwc) (s : Lowering) (i : Instruction) :
    s.Before (addInstruction base hwc s i) := by
  have grown := (s.before_addActivation i.output hwc).trans (before_addCode _ i.code)
  rw [addInstruction_eq]
  exact ⟨grown.codes, grown.tensors, grown.buffers⟩

lemma tensors_addInstruction (base : Nat) (hwc : Hwc) (s : Lowering) (i : Instruction) :
    (addInstruction base hwc s i).tensors = (s.addActivation i.output hwc).tensors := by
  rw [addInstruction_eq]
  exact tensors_addCode _ _

lemma values_addInstruction (base : Nat) (hwc : Hwc) (s : Lowering) (i : Instruction) :
    (addInstruction base hwc s i).values = s.values := by
  rw [addInstruction_eq]
  exact values_addCode _ _

lemma Counts.addInstruction (h : s.Counts) (base : Nat) (hwc : Hwc) (i : Instruction) :
    (Lowering.addInstruction base hwc s i).Counts := by
  have grown := h.addActivation i.output hwc
  have codes := length_codes_addCode (s.addActivation i.output hwc) i.code
  have tensors : (s.addActivation i.output hwc).tensors.length = s.tensors.length + 1 := by
    simp [Lowering.addActivation]
  have before : (s.addActivation i.output hwc).codes.length ≤ s.tensors.length := h.codes
  rw [addInstruction_eq]
  refine ⟨?_, ?_, ?_, ?_⟩
  · dsimp only
    rw [tensors_addCode]
    omega
  · dsimp only
    rw [tensors_addCode, buffers_addCode]
    exact grown.buffers
  · dsimp only
    rw [buffers_addCode]
    exact grown.first
  · dsimp only
    rw [tensors_addCode, buffers_addCode]
    exact grown.inside

end Lowering

/-! ### What is at a place -/

namespace FlatModel

variable {F : FlatModel}

/-- An index is the place of a tensor. -/
structure Points (F : FlatModel) (index : Int32) (k : Nat) : Prop where
  /-- The index is the place. -/
  place : index.toInt = k
  /-- There is a tensor. -/
  inside : k < F.tensors.length

/-- At a place is a tensor that is no constant. -/
def HoldsValue (F : FlatModel) (k : Nat) (name : String) (hwc : Hwc) : Prop :=
  F.tensors[k]? = some ⟨name, .f32, [1, hwc.height, hwc.width, hwc.channels], 0, none⟩

/-- At a place is a constant. -/
def HoldsConstant (F : FlatModel) (k : Nat) (c : Constant) : Prop :=
  ∃ b : UInt32, b ≠ 0 ∧ F.tensors[k]? = some ⟨c.name, c.dtype, c.shape, b, c.quantization⟩ ∧
    F.buffers[b.toNat]? = some c.data

lemma points_ofNat (small : F.tensors.length < 0x80000000) {k : Nat} (h : k < F.tensors.length) :
    F.Points (Int32.ofNat k) k :=
  ⟨Int32.toInt_ofNat_of_lt (lt_trans h small), h⟩

lemma Points.toNat {index : Int32} {k : Nat} (h : F.Points index k) : index.toInt.toNat = k := by
  rw [h.place, Int.toNat_natCast]

lemma Points.placeOf {index : Int32} {k : Nat} (h : F.Points index k) :
    placeOf index = .value k := by
  rw [FlatNet.placeOf, h.toNat, if_pos (by rw [h.place]; exact Int.natCast_nonneg k)]

lemma Points.tensor {index : Int32} {k : Nat} (h : F.Points index k) {t : FlatTensor}
    (found : F.tensors[k]? = some t) : F.tensor index = .ok t := by
  have entry : entry? F.tensors index.toInt = some t := by
    rw [ entry?, h.toNat, if_pos (by rw [h.place]; exact Int.natCast_nonneg k), found]
  rw [FlatModel.tensor, entry]

lemma Points.checkTensor {index : Int32} {k : Nat} (h : F.Points index k) :
    F.checkTensor index = .ok () := by
  rw [FlatModel.checkTensor, h.tensor (List.getElem?_eq_getElem h.inside)]
  rfl

lemma HoldsValue.inside {k : Nat} {name : String} {hwc : Hwc} (h : F.HoldsValue k name hwc) :
    k < F.tensors.length :=
  (List.getElem?_eq_some_iff.1 h).1

/-- The value at a place has one shape. -/
lemma HoldsValue.unique {k : Nat} {name name' : String} {hwc hwc' : Hwc}
    (h : F.HoldsValue k name hwc) (h' : F.HoldsValue k name' hwc') : hwc = hwc' := by
  have same := Option.some.inj (h.symm.trans h')
  rw [FlatTensor.mk.injEq] at same
  simp only [List.cons.injEq, true_and, and_true] at same
  obtain ⟨_, _, _⟩ := hwc
  obtain ⟨_, _, _⟩ := hwc'
  rw [Hwc.mk.injEq]
  exact same.2

lemma HoldsConstant.inside {k : Nat} {c : Constant} (h : F.HoldsConstant k c) :
    k < F.tensors.length := by
  obtain ⟨b, -, found, -⟩ := h
  exact (List.getElem?_eq_some_iff.1 found).1

/-- A constant that holds what its shape says is read back. -/
lemma HoldsConstant.constant {k : Nat} {c : Constant} (h : F.HoldsConstant k c) {index : Int32}
    (points : F.Points index k) (sized : c.shape.byteCount? c.dtype = some c.data.length) :
    ∃ b, F.tensor index = .ok ⟨c.name, c.dtype, c.shape, b, c.quantization⟩ ∧
      F.constant index = .ok (some ⟨c.dtype, c.shape, c.data⟩) := by
  obtain ⟨b, constant, found, buffer⟩ := h
  have tensor := points.tensor found
  refine ⟨b, tensor, ?_⟩
  simp only [FlatModel.constant, tensor, bind, Except.bind, constant, if_false, buffer, sized,
    if_true, pure, Except.pure]

/-! ### Operators of instructions -/

/-- An operator computes the value at a place. -/
structure Emitted (F : FlatModel) (op : FlatOperator) (code : Opcode) (inputs : List Int32)
    (options : OperatorOptions) (place : Nat) (name : String) (hwc : Hwc) : Prop where
  /-- Its code. -/
  code : F.opcode op = .ok code
  /-- Its inputs. -/
  inputs : op.inputs = inputs
  /-- Its options. -/
  options : op.options = options
  /-- Its output. -/
  outputs : op.outputs = [Int32.ofNat place]
  /-- The tensor of its output. -/
  value : F.HoldsValue place name hwc

/-- The index of what an instruction reads, for constants from `base` and results before
`next`. -/
def operandAt (base next : Nat) : Operand → Int32
  | .value index => index
  | .constant k => Int32.ofNat (base + k)
  | .result => Int32.ofNat (next - 1)
  | .absent => -1

/-- Operators compute the results of instructions at the places from `next`. -/
inductive EmittedFrom (F : FlatModel) (base : Nat) (hwc : Hwc) :
    Nat → List Instruction → List FlatOperator → Prop where
  /-- There are no instructions left. -/
  | nil {next : Nat} : EmittedFrom F base hwc next [] []
  /-- The first instruction and the others. -/
  | cons {next : Nat} {i : Instruction} {is : List Instruction} {op : FlatOperator}
      {ops : List FlatOperator}
      (first : F.Emitted op i.code (i.operands.map (operandAt base next)) i.options next i.output
        hwc)
      (rest : EmittedFrom F base hwc (next + 1) is ops) :
      EmittedFrom F base hwc next (i :: is) (op :: ops)

end FlatModel

/-! ### The layout of a program -/

namespace Lowering

variable {F : FlatModel} {s : Lowering}

lemma getElem?_of_within {α : Type} {xs ys zs : List α} (h : xs ++ ys <+: zs) {y : α}
    (first : ys.head? = some y) : zs[xs.length]? = some y := by
  obtain ⟨more, rfl⟩ := h
  cases ys with
  | nil => cases first
  | cons y' ys =>
    obtain rfl := Option.some.inj first
    simp

/-- A new tensor that is no constant is at the next place. -/
lemma holdsValue_of_within {name : String} {hwc : Hwc}
    (within : (s.addActivation name hwc).tensors <+: F.tensors) :
    F.HoldsValue s.tensors.length name hwc :=
  getElem?_of_within within rfl

/-- A new constant is at the next place. -/
lemma holdsConstant_of_within (counts : s.Counts) (small : F.tensors.length < 0x80000000)
    {c : Constant} (within : (s.addConstant c).Within F) :
    F.HoldsConstant s.tensors.length c := by
  have found : F.tensors[s.tensors.length]?
      = some ⟨c.name, c.dtype, c.shape, UInt32.ofNat s.buffers.length, c.quantization⟩ :=
    getElem?_of_within within.tensors rfl
  have buffer : F.buffers[s.buffers.length]? = some c.data :=
    getElem?_of_within within.buffers rfl
  have inside := (List.getElem?_eq_some_iff.1 found).1
  obtain ⟨number, constant⟩ := counts.next_buffer (lt_trans inside small)
  exact ⟨UInt32.ofNat s.buffers.length, constant, found, by rw [number]; exact buffer⟩

/-- A new instruction has its operator at the end, and its result at the next place. -/
lemma emitted_of_within (counts : s.Counts) (small : F.tensors.length < 0x80000000)
    {base : Nat} {hwc : Hwc} {i : Instruction}
    (within : (addInstruction base hwc s i).Within F) :
    ∃ op, (addInstruction base hwc s i).operators = s.operators ++ [op] ∧
      F.Emitted op i.code (i.operands.map (FlatModel.operandAt base s.tensors.length)) i.options
        s.tensors.length i.output hwc := by
  have counts' := counts.addInstruction base hwc i
  have value : F.HoldsValue s.tensors.length i.output hwc := by
    refine holdsValue_of_within ?_
    rw [← tensors_addInstruction base hwc s i]
    exact within.tensors
  rw [addInstruction_eq] at within counts' ⊢
  refine ⟨_, rfl, ?_, ?_, rfl, rfl, value⟩
  · -- the code stands in its table, and its place there is a word
    have codes := within.codes
    have tensors := within.tensors.length_le
    have room := counts'.codes
    dsimp only at codes tensors room
    have known := mem_codes_addCode (s.addActivation i.output hwc) i.code
    generalize ((s.addActivation i.output hwc).addCode i.code).codes = table at codes room known ⊢
    have inside : table.idxOf i.code < table.length := List.idxOf_lt_length_iff.2 known
    have number : (UInt32.ofNat (table.idxOf i.code)).toNat = table.idxOf i.code :=
      UInt32.toNat_ofNat_of_lt' (show table.idxOf i.code < 0x100000000 by omega)
    have found : F.codes[table.idxOf i.code]? = some i.code := by
      rw [List.getElem?_eq_some_iff]
      refine ⟨lt_of_lt_of_le inside codes.length_le, ?_⟩
      rw [← codes.getElem inside, List.getElem_idxOf]
    rw [FlatModel.opcode]
    dsimp only
    rw [number, found]
  · refine List.map_congr_left fun o _ => ?_
    cases o <;> rfl

/-- What laying out constants does. -/
lemma foldl_addConstant (cs : List Constant) (s : Lowering) :
    s.Before (cs.foldl addConstant s) ∧ (s.Counts → (cs.foldl addConstant s).Counts) ∧
      (cs.foldl addConstant s).operators = s.operators ∧
      (cs.foldl addConstant s).values = s.values ∧
      (cs.foldl addConstant s).tensors.length = s.tensors.length + cs.length := by
  induction cs generalizing s with
  | nil => exact ⟨.refl s, id, rfl, rfl, rfl⟩
  | cons c cs ih =>
    obtain ⟨before, counts, operators, values, length⟩ := ih (s.addConstant c)
    refine ⟨(s.before_addConstant c).trans before, fun h => counts (h.addConstant c), operators,
      values, ?_⟩
    rw [List.foldl_cons, length, List.length_cons]
    simp only [addConstant, List.length_append, List.length_singleton]
    omega

/-- The constants of a program stand at the places after the tensors so far. -/
lemma holdsConstant_of_foldl (small : F.tensors.length < 0x80000000) {cs : List Constant}
    (counts : s.Counts) (within : (cs.foldl addConstant s).Within F) {k : Nat} {c : Constant}
    (h : cs[k]? = some c) : F.HoldsConstant (s.tensors.length + k) c := by
  induction cs generalizing s k with
  | nil => cases h
  | cons c' cs ih =>
    rw [List.foldl_cons] at within
    cases k with
    | zero =>
      obtain rfl := Option.some.inj h
      exact holdsConstant_of_within counts small ((foldl_addConstant cs _).1.within within)
    | succ k =>
      have later := ih (counts.addConstant c') within h
      have length : (s.addConstant c').tensors.length = s.tensors.length + 1 := by
        simp [addConstant]
      rwa [length, Nat.add_right_comm, Nat.add_assoc] at later

/-- What laying out instructions does. -/
lemma foldl_addInstruction (base : Nat) (hwc : Hwc) (is : List Instruction) (s : Lowering) :
    s.Before (is.foldl (addInstruction base hwc) s) ∧
      (s.Counts → (is.foldl (addInstruction base hwc) s).Counts) ∧
      (is.foldl (addInstruction base hwc) s).values = s.values ∧
      (is.foldl (addInstruction base hwc) s).tensors.length = s.tensors.length + is.length := by
  induction is generalizing s with
  | nil => exact ⟨.refl s, id, rfl, rfl⟩
  | cons i is ih =>
    obtain ⟨before, counts, values, length⟩ := ih (addInstruction base hwc s i)
    refine ⟨(before_addInstruction base hwc s i).trans before,
      fun h => counts (h.addInstruction base hwc i),
      values.trans (values_addInstruction base hwc s i), ?_⟩
    rw [List.foldl_cons, length, tensors_addInstruction, List.length_cons]
    simp only [addActivation, List.length_append, List.length_singleton]
    omega

/-- The instructions of a program have their operators at the end, and their results at the
next places. -/
lemma emittedFrom_of_foldl (small : F.tensors.length < 0x80000000) {base : Nat} {hwc : Hwc}
    {is : List Instruction} (counts : s.Counts)
    (within : (is.foldl (addInstruction base hwc) s).Within F) :
    ∃ ops, (is.foldl (addInstruction base hwc) s).operators = s.operators ++ ops ∧
      FlatModel.EmittedFrom F base hwc s.tensors.length is ops := by
  induction is generalizing s with
  | nil => exact ⟨[], (List.append_nil _).symm, .nil⟩
  | cons i is ih =>
    have first := (foldl_addInstruction base hwc is _).1.within within
    obtain ⟨op, operators, emitted⟩ := emitted_of_within counts small first
    obtain ⟨ops, more, rest⟩ := ih (counts.addInstruction base hwc i) within
    have length : (addInstruction base hwc s i).tensors.length = s.tensors.length + 1 := by
      rw [tensors_addInstruction]
      simp [addActivation]
    rw [length] at rest
    refine ⟨op :: ops, ?_, .cons emitted rest⟩
    rw [List.foldl_cons, more, operators, List.append_assoc, List.singleton_append]

/-! ### The layout of a fragment -/

/-- Laying out a fragment makes the tables grow. -/
lemma before_emit (s : Lowering) (layer : String) (hwc : Hwc) (f : Fragment) :
    s.Before (s.emit layer hwc f) := by
  cases f with
  | source =>
    have grown := s.before_addActivation layer hwc
    exact ⟨grown.codes, grown.tensors, grown.buffers⟩
  | same index =>
    have kept := Before.refl s
    exact ⟨kept.codes, kept.tensors, kept.buffers⟩
  | program cs is =>
    have constants := (foldl_addConstant cs s).1
    have instructions := (foldl_addInstruction s.tensors.length hwc is (cs.foldl addConstant s)).1
    have whole := constants.trans instructions
    exact ⟨whole.codes, whole.tensors, whole.buffers⟩

lemma Counts.emit (h : s.Counts) (layer : String) (hwc : Hwc) (f : Fragment) :
    (s.emit layer hwc f).Counts := by
  cases f with
  | source =>
    have grown := h.addActivation layer hwc
    exact ⟨grown.codes, grown.buffers, grown.first, grown.inside⟩
  | same index => exact ⟨h.codes, h.buffers, h.first, h.inside⟩
  | program cs is =>
    have grown := (foldl_addInstruction s.tensors.length hwc is _).2.1 ((foldl_addConstant cs s).2.1 h)
    exact ⟨grown.codes, grown.buffers, grown.first, grown.inside⟩

/-- What laying out a program does: its constants stand after the tensors so far, the results
of its instructions after them, and the last one is the value of the layer. -/
lemma emit_program (small : F.tensors.length < 0x80000000) (counts : s.Counts) {layer : String}
    {hwc : Hwc} {cs : List Constant} {is : List Instruction}
    (within : (s.emit layer hwc (.program cs is)).Within F) :
    (∀ k c, cs[k]? = some c → F.HoldsConstant (s.tensors.length + k) c) ∧
      ∃ ops, (s.emit layer hwc (.program cs is)).operators = s.operators ++ ops ∧
        FlatModel.EmittedFrom F s.tensors.length hwc (s.tensors.length + cs.length) is ops ∧
        (s.emit layer hwc (.program cs is)).tensors.length
          = s.tensors.length + cs.length + is.length ∧
        (s.emit layer hwc (.program cs is)).values
          = (layer, Int32.ofNat (s.tensors.length + cs.length + is.length - 1)) :: s.values := by
  obtain ⟨-, counts', operators, values, length⟩ := foldl_addConstant cs s
  obtain ⟨before, -, values', length'⟩ :=
    foldl_addInstruction s.tensors.length hwc is (cs.foldl addConstant s)
  have inner : (is.foldl (addInstruction s.tensors.length hwc) (cs.foldl addConstant s)).Within F :=
    ⟨within.codes, within.tensors, within.buffers⟩
  obtain ⟨ops, more, emitted⟩ := emittedFrom_of_foldl small (counts' counts) inner
  rw [length] at emitted length'
  refine ⟨fun k c h => holdsConstant_of_foldl small counts (before.within inner) h, ops, ?_,
    emitted, length', ?_⟩
  · exact more.trans (by rw [operators])
  · simp only [emit, bind, latest, length', values', values]

end Lowering

end FlatNet
