import FlatNet.Proofs.Flat.Stored

/-!
The order of definitions in lowered models.

The operators of a lowered model write one tensor each, every tensor at most once, and never a
constant or an input.  What an operator reads is an input, or a tensor that an operator before it
writes; only in the places for parameters it reads constants, and only a bias is left out.

* `Slot`, `Opcode.slot`, `Opcode.takes`: what the operands and options of an operator are for;
* `Instruction.Formed`, `Layer.formed_of_fragment`: the instructions of a layer read what is there
  for them;
* `FlatModel.Assigns`: operators that define before they use, with `Assigns.append` and
  `Assigns.feed` for the operators of one more layer and for one more input;
* `Lowering.Ordered`, `Lowering.Ordered.emit`, `Lowering.ordered_of_foldlM`: what one layer keeps,
  and what all of them do;
* `FlatModel.assigns_of_lower`: lowered models define before they use.
-/

namespace FlatNet

/-! ### Slots -/

/-- What an operand of an operator is for. -/
inductive Slot where
  /-- A value that the operator works on. -/
  | value
  /-- A weight. -/
  | weight
  /-- A bias, which may be left out. -/
  | bias
  /-- The size of a resized image. -/
  | size
  deriving DecidableEq, Repr

namespace Opcode

/-- What the operand at a place among the operands of an operator is for. -/
def slot : Opcode → Nat → Slot
  | conv2d, 1 | depthwiseConv2d, 1 => .weight
  | conv2d, 2 | depthwiseConv2d, 2 => .bias
  | batchNorm, _ + 1 => .weight
  | resizeBilinear, 1 => .size
  | _, _ => .value

/-- Whether options are those of an operator. -/
def takes : Opcode → OperatorOptions → Bool
  | add, .add .. => true
  | concatenation, .concatenation .. => true
  | conv2d, .conv2d .. => true
  | depthwiseConv2d, .depthwiseConv2d .. => true
  | maxPool2d, .pool2d .. => true
  | resizeBilinear, .resizeBilinear .. => true
  | batchNorm, .batchNorm .. => true
  | logistic, .none => true
  | relu, .none => true
  | relu6, .none => true
  | _, _ => false

end Opcode

/-! ### Instructions -/

/-- An operand is there for a slot of the instruction behind `before` others, in a program with
`constants` constants that reads the values `args`. -/
inductive Operand.Fits (args : List Int32) (constants before : Nat) : Slot → Operand → Prop where
  /-- A value. -/
  | value {index : Int32} (read : index ∈ args) : Fits args constants before .value (.value index)
  /-- The result of the instruction before. -/
  | result (later : 0 < before) : Fits args constants before .value .result
  /-- A constant as a parameter. -/
  | constant {slot : Slot} {k : Nat} (parameter : slot ≠ .value) (inside : k < constants) :
    Fits args constants before slot (.constant k)
  /-- No bias. -/
  | absent : Fits args constants before .bias .absent

/-- A name for a tensor of a layer: its own one, or one made from it. -/
def Layer.Names (l : Layer) (name : String) : Prop :=
  name = l.name ∨ ∃ suffix, name = l.name ++ "/" ++ suffix

/-- The instruction behind `before` others in the program of a layer has its own kind of options and
reads what is there for it. -/
structure Instruction.Formed (l : Layer) (args : List Int32) (constants before : Nat)
    (i : Instruction) : Prop where
  /-- Its options. -/
  takes : i.code.takes i.options = true
  /-- Its operands. -/
  operands : ∀ (j : Nat) (o : Operand), i.operands[j]? = some o →
    o.Fits args constants before (i.code.slot j)
  /-- The name of its result. -/
  output : l.Names i.output

/-- A fragment of a layer that reads the values `args`. -/
inductive Fragment.Formed (l : Layer) (args : List Int32) : Fragment → Prop where
  /-- An input is fed. -/
  | source (input : l.kind.isInput = true) : Formed l args .source
  /-- A layer has a value that it reads. -/
  | same {index : Int32} (read : index ∈ args) : Formed l args (.same index)
  /-- A layer is computed. -/
  | program {cs : List Constant} {is : List Instruction}
    (instructions : ∀ (j : Nat) (i : Instruction), is[j]? = some i →
      i.Formed l args cs.length j) :
    Formed l args (.program cs is)

namespace Fragment

variable {l : Layer} {args : List Int32}

/-- A program of one instruction. -/
lemma formed_single {cs : List Constant} {i : Instruction} (h : i.Formed l args cs.length 0) :
    (Fragment.program cs [i]).Formed l args := by
  refine .program fun j i' hi => ?_
  rcases j with _ | j
  · obtain rfl := Option.some.inj hi
    exact h
  · simp at hi

lemma formed_convProgram {code : Opcode} {input : Int32} {filter : Constant}
    {bias : Option Constant} {options : OperatorOptions} {sigmoid : Bool}
    (slots : [code.slot 0, code.slot 1, code.slot 2] = [.value, .weight, .bias])
    (takes : code.takes options = true) (read : input ∈ args) :
    (convProgram l.name code input filter bias options sigmoid).Formed l args := by
  simp only [List.cons.injEq, and_true] at slots
  obtain ⟨first, second, third⟩ := slots
  refine .program fun j i hi => ?_
  -- the kernel, then the sigmoid that may follow it
  rcases j with _ | j
  · obtain rfl := Option.some.inj hi
    refine ⟨takes, fun j o ho => ?_, ?_⟩
    · rcases j with _ | _ | _ | j
      · obtain rfl := Option.some.inj ho
        exact first ▸ .value read
      · obtain rfl := Option.some.inj ho
        exact second ▸ .constant (by decide) (Nat.zero_lt_succ _)
      · obtain rfl := Option.some.inj ho
        cases bias with
        | none => exact third ▸ .absent
        | some b => exact third ▸ .constant (by decide) (by simp)
      · simp at ho
    · cases sigmoid
      · exact .inl rfl
      · exact .inr ⟨"pre_activation", by simp [String.append_assoc]⟩
  · cases sigmoid with
    | false => simp at hi
    | true =>
      rcases j with _ | j
      · obtain rfl := Option.some.inj hi
        refine ⟨rfl, fun j o ho => ?_, .inl rfl⟩
        rcases j with _ | j
        · obtain rfl := Option.some.inj ho
          exact .result Nat.one_pos
        · simp at ho
      · simp at hi

/-- An operator that reads values only. -/
lemma formed_plainProgram {code : Opcode} (plain : ∀ j, code.slot j = .value) {reads : List Int32}
    (read : reads ⊆ args) {options : OperatorOptions} (takes : code.takes options = true) :
    (plainProgram l.name code reads options).Formed l args := by
  refine formed_single ⟨takes, fun j o ho => ?_, .inl rfl⟩
  rw [List.getElem?_map, Option.map_eq_some_iff] at ho
  obtain ⟨index, found, rfl⟩ := ho
  rw [plain]
  exact .value (read (List.mem_of_getElem? found))

lemma formed_add {args : List Int32} {constants before : Nat} {lhs : Operand} {rhs : Int32}
    {name : String} (left : lhs.Fits args constants before .value) (right : rhs ∈ args)
    (named : l.Names name) :
    Instruction.Formed l args constants before ⟨.add, [lhs, .value rhs], .add .none, name⟩ := by
  refine ⟨rfl, fun j o ho => ?_, named⟩
  rcases j with _ | _ | j
  · obtain rfl := Option.some.inj ho
    exact left
  · obtain rfl := Option.some.inj ho
    exact .value right
  · simp at ho

lemma names_partial (l : Layer) (i : Nat) : l.Names s!"{l.name}/partial_{i}" := by
  refine .inr ⟨"partial_" ++ toString i, ?_⟩
  have tail : "/partial_" ++ toString i = "/" ++ ("partial_" ++ toString i) := by
    rw [← String.append_assoc]
    rfl
  simpa only [toString, String.append_assoc, String.append_empty, String.empty_append] using
    congrArg (l.name ++ ·) tail

/-- The further summands are added to the sum so far. -/
lemma formed_addInstructions {rest : List Int32} (read : rest ⊆ args) {n before : Nat}
    (later : 0 < before) {constants : Nat} :
    ∀ i ∈ addInstructions l.name n rest, i.Formed l args constants before := by
  induction rest generalizing n with
  | nil => exact nofun
  | cons rhs rest ih =>
    obtain ⟨head, tail⟩ := List.cons_subset.1 read
    cases rest with
    | nil =>
      rw [addInstructions, List.forall_mem_singleton]
      exact formed_add (.result later) head (.inl rfl)
    | cons next rest =>
      rw [addInstructions, List.forall_mem_cons]
      · exact ⟨formed_add (.result later) head (names_partial l n), ih tail⟩
      · exact List.cons_ne_nil next rest

lemma formed_addFragment {f : Fragment} (h : addFragment l.name args = .value f) :
    f.Formed l args := by
  match args with
  | [] => cases h
  | [only] =>
    obtain rfl := Outcome.value.inj h
    exact .same (List.mem_singleton_self only)
  | [lhs, rhs] =>
    obtain rfl := Outcome.value.inj h
    exact formed_plainProgram (fun _ => rfl) (List.Subset.refl _) rfl
  | lhs :: rhs :: third :: rest =>
    obtain rfl := Outcome.value.inj h
    refine .program fun j i hi => ?_
    rcases j with _ | j
    · obtain rfl := Option.some.inj hi
      exact formed_add (.value (by simp)) (by simp) (.inr ⟨"partial_0", by simp [String.append_assoc]⟩)
    · exact formed_addInstructions (by simp) (Nat.succ_pos j) i (List.mem_of_getElem? hi)

end Fragment

/-- The fragment of a layer reads what is there for it. -/
lemma Layer.formed_of_fragment {m : Model} {p : GraphPlan} {q : Quantize} {l : Layer} {hwc : Hwc}
    {args : List Int32} {f : Fragment} (h : l.fragment m p q hwc args = .value f) :
    f.Formed l args := by
  -- the first value, where a layer reads one only
  have single : ∀ {x : Int32}, args.head? = some x → [x] ⊆ args := by
    intro x first
    rw [List.cons_subset]
    exact ⟨List.mem_of_mem_head? first, List.nil_subset _⟩
  cases hk : l.kind with
  | input shape =>
    have input : l.kind.isInput = true := by rw [hk]; rfl
    rw [fragment_of_input input] at h
    obtain rfl := Outcome.value.inj h
    exact .source input
  | conv2d filters w a useBias =>
    simp only [fragment, hk, Outcome.bind_eq_value_iff, Outcome.orFault_eq_value_iff,
      Outcome.pure_eq, Outcome.value.injEq] at h
    obtain ⟨_, -, _, -, _, -, ohwi, -, _, -, _, -, _, -, _, first, rfl⟩ := h
    exact Fragment.formed_convProgram rfl rfl (List.mem_of_mem_head? first)
  | depthwiseConv2d w a useBias =>
    simp only [fragment, hk, Outcome.bind_eq_value_iff, Outcome.orFault_eq_value_iff,
      Outcome.pure_eq, Outcome.value.injEq] at h
    obtain ⟨_, -, _, -, _, -, _, -, _, first, rfl⟩ := h
    exact Fragment.formed_convProgram rfl rfl (List.mem_of_mem_head? first)
  | batchNorm epsilon =>
    simp only [fragment, hk, normFragment, Outcome.bind_eq_value_iff, Outcome.orFault_eq_value_iff,
      Outcome.pure_eq, Outcome.value.injEq] at h
    obtain ⟨_, first, constants, -, rfl⟩ := h
    refine Fragment.formed_single ⟨rfl, fun j o ho => ?_, .inl rfl⟩
    rcases j with _ | j
    · obtain rfl := Option.some.inj ho
      exact .value (List.mem_of_mem_head? first)
    · rw [List.getElem?_cons_succ, List.getElem?_map, Option.map_eq_some_iff] at ho
      obtain ⟨k, found, rfl⟩ := ho
      have inside := List.mem_range.1 (List.mem_of_getElem? found)
      have parameter : Slot.weight ≠ .value := by decide
      exact .constant parameter inside
  | activation a =>
    cases a <;>
      simp only [fragment, hk, Outcome.bind_eq_value_iff, Outcome.orFault_eq_value_iff,
        Outcome.pure_eq, Outcome.value.injEq] at h <;>
      obtain ⟨_, first, rfl⟩ := h
    · exact .same (List.mem_of_mem_head? first)
    all_goals exact Fragment.formed_plainProgram (fun _ => rfl) (single first) rfl
  | add =>
    simp only [fragment, hk] at h
    exact Fragment.formed_addFragment h
  | concat =>
    simp only [fragment, hk, Outcome.pure_eq, Outcome.value.injEq] at h
    subst h
    exact Fragment.formed_plainProgram (fun _ => rfl) (List.Subset.refl _) rfl
  | maxPool2d pool strides padding =>
    simp only [fragment, hk, Outcome.bind_eq_value_iff, Outcome.orFault_eq_value_iff,
      Outcome.pure_eq, Outcome.value.injEq] at h
    obtain ⟨_, -, _, -, _, -, _, -, _, first, rfl⟩ := h
    exact Fragment.formed_plainProgram (fun _ => rfl) (single first) rfl
  | custom function attrs =>
    simp only [fragment, hk] at h
    split at h
    · cases h
    · simp only [resizeFragment, Outcome.bind_eq_value_iff, Outcome.orFault_eq_value_iff,
        Outcome.pure_eq, Outcome.value.injEq] at h
      obtain ⟨_, first, _, -, _, -, _, -, rfl⟩ := h
      refine Fragment.formed_single ⟨rfl, fun j o ho => ?_, .inl rfl⟩
      rcases j with _ | _ | j
      · obtain rfl := Option.some.inj ho
        exact .value (List.mem_of_mem_head? first)
      · obtain rfl := Option.some.inj ho
        have parameter : Slot.size ≠ .value := by decide
        exact .constant parameter Nat.one_pos
      · simp at ho

/-! ### Assignment -/

namespace FlatModel

variable {F : FlatModel}

/-- A constant is at a place. -/
def IsConstant (F : FlatModel) (k : Nat) : Prop := ∃ t, F.tensors[k]? = some t ∧ t.buffer ≠ 0

/-- An operator writes the tensor at a place, and no other. -/
def Writes (F : FlatModel) (op : FlatOperator) (k : Nat) : Prop :=
  ∃ index, op.outputs = [index] ∧ F.Points index k

/-- What an operand names is there for its slot, when the values at the places `known` are. -/
inductive Available (F : FlatModel) (known : List Nat) : Slot → Int32 → Prop where
  /-- A value. -/
  | value {index : Int32} {k : Nat} (points : F.Points index k) (there : k ∈ known) :
    Available F known .value index
  /-- A constant as a parameter. -/
  | constant {slot : Slot} {index : Int32} {k : Nat} (parameter : slot ≠ .value)
    (points : F.Points index k) (constant : F.IsConstant k) : Available F known slot index
  /-- No bias. -/
  | absent : Available F known .bias (-1)

/-- Operators write one tensor each, at the places `written`, all of them different and none of them
a constant or fed; they have options of their own kinds, and read what is fed or written by an
operator before, and constants as parameters. -/
structure Assigns (F : FlatModel) (fed : List Nat) (ops : List FlatOperator) (written : List Nat) :
    Prop where
  /-- Each of them writes one tensor. -/
  outputs : List.Forall₂ F.Writes ops written
  /-- No tensor is fed or written twice. -/
  once : (fed ++ written).Nodup
  /-- No constant is. -/
  fresh : ∀ k ∈ fed ++ written, ¬ F.IsConstant k
  /-- They read what is there. -/
  reads : ∀ (i : Nat) (op : FlatOperator), ops[i]? = some op →
    ∃ code, F.opcode op = .ok code ∧ code.takes op.options = true ∧
      ∀ (j : Nat) (index : Int32), op.inputs[j]? = some index →
        F.Available (fed ++ written.take i) (code.slot j) index

lemma HoldsValue.not_isConstant {k : Nat} {name : String} {hwc : Hwc}
    (h : F.HoldsValue k name hwc) : ¬ F.IsConstant k := by
  rintro ⟨t, found, constant⟩
  obtain rfl := Option.some.inj (h.symm.trans found)
  exact constant rfl

lemma HoldsConstant.isConstant {k : Nat} {c : Constant} (h : F.HoldsConstant k c) :
    F.IsConstant k := by
  obtain ⟨b, constant, found, -⟩ := h
  exact ⟨_, found, constant⟩

/-- More values do no harm. -/
lemma Available.mono {known known' : List Nat} (more : known ⊆ known') {slot : Slot} {index : Int32}
    (h : F.Available known slot index) : F.Available known' slot index := by
  cases h with
  | value points there => exact .value points (more there)
  | constant parameter points constant => exact .constant parameter points constant
  | absent => exact .absent

namespace Assigns

variable {fed written written' : List Nat} {ops ops' : List FlatOperator}

lemma nil : F.Assigns [] [] [] := ⟨.nil, .nil, nofun, nofun⟩

/-- Operators may follow that read what is fed or written before. -/
lemma append (h : F.Assigns fed ops written) (h' : F.Assigns (fed ++ written) ops' written') :
    F.Assigns fed (ops ++ ops') (written ++ written') := by
  have same := h.outputs.length_eq
  refine ⟨List.rel_append h.outputs h'.outputs, ?_, ?_, fun i op hop => ?_⟩
  · rw [← List.append_assoc]
    exact h'.once
  · rw [← List.append_assoc]
    exact h'.fresh
  · rw [List.getElem?_append] at hop
    rw [List.take_append]
    split at hop
    · rename_i before
      rw [Nat.sub_eq_zero_of_le (by omega), List.take_zero, List.append_nil]
      exact h.reads i op hop
    · rw [List.take_of_length_le (by omega), ← same, ← List.append_assoc]
      exact h'.reads _ op hop

/-- One more tensor may be fed. -/
lemma feed (h : F.Assigns fed ops written) {k : Nat} (new : k ∉ fed ++ written)
    (fresh : ¬ F.IsConstant k) : F.Assigns (fed ++ [k]) ops written := by
  have moved : (k :: (fed ++ written)).Perm (fed ++ [k] ++ written) := by
    rw [List.append_assoc]
    exact List.perm_middle.symm
  refine ⟨h.outputs, moved.nodup (List.nodup_cons.2 ⟨new, h.once⟩), fun j hj => ?_,
    fun i op hop => ?_⟩
  · rcases List.mem_cons.1 (moved.mem_iff.2 hj) with rfl | old
    · exact fresh
    · exact h.fresh j old
  · obtain ⟨code, known, takes, reads⟩ := h.reads i op hop
    refine ⟨code, known, takes, fun j index hindex => (reads j index hindex).mono ?_⟩
    exact List.append_subset.2 ⟨by simp, by simp⟩

end Assigns

namespace EmittedFrom

variable {base next : Nat} {hwc : Hwc} {is : List Instruction} {ops : List FlatOperator}

/-- The operators write the places from `next` on. -/
lemma writes (small : F.tensors.length < 0x80000000) (h : F.EmittedFrom base hwc next is ops) :
    List.Forall₂ F.Writes ops (List.range' next is.length) := by
  induction h with
  | nil => exact .nil
  | cons first _ ih =>
    rw [List.length_cons, List.range'_succ]
    exact .cons ⟨_, first.outputs, points_ofNat small first.value.inside⟩ ih

/-- They have the codes of the instructions. -/
lemma opcodes (h : F.EmittedFrom base hwc next is ops) :
    ops.map F.opcode = (is.map (·.code)).map .ok := by
  induction h with
  | nil => rfl
  | cons first _ ih => rw [List.map_cons, first.code, ih, List.map_cons, List.map_cons]

/-- An operator computes the result of the instruction at its place. -/
lemma get (h : F.EmittedFrom base hwc next is ops) {i : Nat} {op : FlatOperator}
    (hop : ops[i]? = some op) : ∃ ins, is[i]? = some ins ∧
      F.Emitted op ins.code (ins.operands.map (operandAt base (next + i))) ins.options (next + i)
        ins.output hwc := by
  induction h generalizing i with
  | nil => cases hop
  | @cons next ins is _ _ first _ ih =>
    cases i with
    | zero =>
      obtain rfl := Option.some.inj hop
      exact ⟨ins, rfl, first⟩
    | succ i =>
      obtain ⟨ins', found, emitted⟩ := ih hop
      rw [Nat.add_assoc, Nat.add_comm 1 i] at emitted
      exact ⟨ins', found, emitted⟩

/-- At the places from `next` on are values of the layer. -/
lemma exists_value (h : F.EmittedFrom base hwc next is ops) {k : Nat}
    (hk : k ∈ List.range' next is.length) :
    ∃ ins ∈ is, F.HoldsValue k ins.output hwc := by
  induction h with
  | nil => cases hk
  | @cons next ins is _ _ first _ ih =>
    rw [List.length_cons, List.range'_succ] at hk
    rcases List.mem_cons.1 hk with rfl | later
    · exact ⟨ins, List.mem_cons_self .., first.value⟩
    · obtain ⟨ins', hins', value⟩ := ih later
      exact ⟨ins', List.mem_cons_of_mem ins hins', value⟩

/-- The operators of a formed program define before they use. -/
lemma assigns (small : F.tensors.length < 0x80000000) (h : F.EmittedFrom base hwc next is ops)
    {l : Layer} {args : List Int32} {cs : List Constant}
    (constants : ∀ k c, cs[k]? = some c → F.HoldsConstant (base + k) c)
    (formed : ∀ (j : Nat) (i : Instruction), is[j]? = some i → i.Formed l args cs.length j)
    {known : List Nat} (once : known.Nodup) (fresh : ∀ k ∈ known, ¬ F.IsConstant k)
    (before : ∀ k ∈ known, k < next) (there : ∀ index ∈ args, ∃ k ∈ known, F.Points index k) :
    F.Assigns known ops (List.range' next is.length) := by
  refine ⟨h.writes small, ?_, ?_, fun i op hop => ?_⟩
  · refine once.append List.nodup_range' fun k old new => ?_
    have behind := (List.mem_range'_1.1 new).1
    have inside := before k old
    omega
  · rw [List.forall_mem_append]
    refine ⟨fresh, fun k hk => ?_⟩
    obtain ⟨ins, -, value⟩ := h.exists_value hk
    exact value.not_isConstant
  · obtain ⟨ins, found, emitted⟩ := h.get hop
    have form := formed i ins found
    refine ⟨ins.code, emitted.code, emitted.options ▸ form.takes, fun j index hindex => ?_⟩
    rw [emitted.inputs, List.getElem?_map, Option.map_eq_some_iff] at hindex
    obtain ⟨o, operand, rfl⟩ := hindex
    have fits := form.operands j o operand
    generalize ins.code.slot j = slot at fits ⊢
    cases fits with
    | value read =>
      obtain ⟨k, old, points⟩ := there _ read
      exact .value points (List.mem_append_left _ old)
    | result later =>
      -- the instruction before wrote the place before
      have inside := emitted.value.inside
      refine .value (points_ofNat small (by omega)) (List.mem_append_right _ ?_)
      have room : i < is.length := (List.getElem?_eq_some_iff.1 found).1
      rw [List.mem_take_iff_getElem]
      refine ⟨i - 1, by rw [List.length_range']; omega, ?_⟩
      rw [List.getElem_range']
      omega
    | @constant _ k parameter inside =>
      have holds := constants k _ (List.getElem?_eq_getElem inside)
      exact .constant parameter (points_ofNat small holds.inside) holds.isConstant
    | absent => exact .absent

end EmittedFrom

end FlatModel

/-! ### Codes -/

/-- Nothing is left twice. -/
lemma nodup_eraseDups : ∀ codes : List Opcode, codes.eraseDups.Nodup
  | [] => List.nodup_nil
  | code :: codes => by
    rw [List.eraseDups_cons, List.nodup_cons, List.mem_eraseDups]
    exact ⟨by simp, nodup_eraseDups _⟩
termination_by codes => codes.length
decreasing_by exact Nat.lt_succ_of_le (List.length_filter_le _ _)

namespace Lowering

variable {m : Model} {ops : CustomOps} {p : GraphPlan} {q : Quantize} {F : FlatModel}
  {s s' S : Lowering} {l : Layer} {done : List Layer} {used : List Opcode}

/-- A code enters its table at its first use. -/
lemma eraseDups_addCode (h : s.codes = used.eraseDups) (code : Opcode) :
    (s.addCode code).codes = (used ++ [code]).eraseDups := by
  rw [List.eraseDups_append, codes_addCode]
  by_cases known : code ∈ used
  · have contains : s.codes.contains code = true := by simpa [h] using known
    rw [if_pos contains, h]
    simp [List.removeAll, known]
  · have contains : ¬ s.codes.contains code = true := by simpa [h] using known
    rw [if_neg contains, ← h]
    simp [List.removeAll, known, List.eraseDups_cons]

lemma eraseDups_addInstructions (h : s.codes = used.eraseDups) (base : Nat) (hwc : Hwc)
    (is : List Instruction) :
    (is.foldl (addInstruction base hwc) s).codes = (used ++ is.map (·.code)).eraseDups := by
  induction is generalizing s used with
  | nil => simpa using h
  | cons i is ih =>
    have first : (addInstruction base hwc s i).codes = (used ++ [i.code]).eraseDups := by
      rw [addInstruction_eq]
      exact eraseDups_addCode (s := s.addActivation i.output hwc) h i.code
    rw [List.foldl_cons, ih first, List.map_cons, List.append_assoc, List.singleton_append]

lemma codes_addConstants (cs : List Constant) (s : Lowering) :
    (cs.foldl addConstant s).codes = s.codes := by
  induction cs generalizing s with
  | nil => rfl
  | cons c cs ih => exact ih (s.addConstant c)

lemma eraseDups_emit_program (h : s.codes = used.eraseDups) (layer : String) (hwc : Hwc)
    (cs : List Constant) (is : List Instruction) :
    (s.emit layer hwc (.program cs is)).codes = (used ++ is.map (·.code)).eraseDups :=
  eraseDups_addInstructions ((codes_addConstants cs s).trans h) _ hwc is

/-! ### Places of layers -/

/-- The places of the input layers among some. -/
def sources (s : Lowering) (layers : List Layer) : List Nat :=
  (layers.filter (·.kind.isInput)).map fun l => s.place l.name

lemma place_of_values {layer : String} {index : Int32}
    (values : s'.values = (layer, index) :: s.values) :
    s'.place layer = index.toInt.toNat ∧ ∀ name, name ≠ layer → s'.place name = s.place name := by
  refine ⟨?_, fun name other => ?_⟩
  · rw [place, values, List.lookup_cons_self]
    rfl
  · rw [place, values, lookup_cons_of_ne other, place]

/-- Naming one more layer adds its place to those of the input layers, if it is one. -/
lemma sources_of_values {index : Int32} (values : s'.values = (l.name, index) :: s.values)
    (new : l.name ∉ done.map (·.name)) :
    s'.sources (done ++ [l])
      = s.sources done ++ if l.kind.isInput then [index.toInt.toNat] else [] := by
  obtain ⟨own, others⟩ := place_of_values values
  have kept : s'.sources done = s.sources done := by
    refine List.map_congr_left fun l' hl' => others _ ?_
    rintro same
    exact new (same ▸ List.mem_map_of_mem (List.mem_of_mem_filter hl'))
  rw [← kept, sources, List.filter_append, List.map_append, ← sources]
  cases input : l.kind.isInput with
  | true => simp [input, own]
  | false => simp [input]

end Lowering

/-- The tensor at a place is a value of one of some layers and has its planned shape: the result of
the layer, or one of the tensors on the way to it. -/
def FlatModel.StandsFor (F : FlatModel) (p : GraphPlan) (layers : List Layer) (k : Nat) : Prop :=
  ∃ l ∈ layers, ∃ name hwc, l.Names name ∧ p.shape? l.name = some hwc ∧ F.HoldsValue k name hwc

lemma FlatModel.StandsFor.mono {F : FlatModel} {p : GraphPlan} {layers layers' : List Layer}
    (more : layers ⊆ layers') {k : Nat} (h : F.StandsFor p layers k) : F.StandsFor p layers' k := by
  obtain ⟨l, hl, rest⟩ := h
  exact ⟨l, more hl, rest⟩

namespace Lowering

variable {m : Model} {ops : CustomOps} {p : GraphPlan} {q : Quantize} {F : FlatModel}
  {s s' S : Lowering} {l : Layer} {done : List Layer} {written : List Nat} {used : List Opcode}

/-! ### Runs -/

/-- What is known of the tables when the layers `done` have been lowered: the operators write the
places `written` in turn, and have the codes `used`. -/
structure Ordered (m : Model) (p : GraphPlan) (F : FlatModel) (done : List Layer)
    (written : List Nat) (used : List Opcode) (s : Lowering) : Prop where
  /-- The tables count what they hold. -/
  counts : s.Counts
  /-- Every layer has a tensor of its shape. -/
  shaped : s.Shaped m p F
  /-- The operators define before they use. -/
  assigns : F.Assigns (s.sources done) s.operators written
  /-- The values are in the table of tensors. -/
  below : ∀ k ∈ s.sources done ++ written, k < s.tensors.length
  /-- Every layer done is named. -/
  named : ∀ l ∈ done, ∃ index, s.values.lookup l.name = some index
  /-- What is named is fed or written. -/
  placed : ∀ name index, s.values.lookup name = some index → s.place name ∈ s.sources done ++ written
  /-- Every tensor is a constant, or a value of a layer. -/
  tensors : ∀ k < s.tensors.length,
    F.IsConstant k ∨ k ∈ s.sources done ++ written ∧ F.StandsFor p done k
  /-- The operators have these codes. -/
  opcodes : s.operators.map F.opcode = used.map .ok
  /-- The codes are in their table by their first use. -/
  codes : s.codes = used.eraseDups

lemma ordered_start (m : Model) (p : GraphPlan) (F : FlatModel) : start.Ordered m p F [] [] [] :=
  ⟨counts_start, nofun, .nil, nofun, nofun, nofun, nofun, rfl, rfl⟩

/-- What is named stays among the places of values when one more layer is named. -/
lemma placed_of_values {known known' : List Nat}
    (h : ∀ name index, s.values.lookup name = some index → s.place name ∈ known) {layer : String}
    {index : Int32} (values : s'.values = (layer, index) :: s.values) (more : known ⊆ known')
    (own : index.toInt.toNat ∈ known') :
    ∀ name index', s'.values.lookup name = some index' → s'.place name ∈ known' := by
  obtain ⟨here, others⟩ := place_of_values values
  intro name index' found
  by_cases same : name = layer
  · rw [same, here]
    exact own
  · rw [values, lookup_cons_of_ne same] at found
    rw [others name same]
    exact more (h name index' found)

section Steps

variable {hwc : Hwc} {args : List Int32} (h : s.Ordered m p F done written used)
  (small : F.tensors.length < 0x80000000) (shape : p.shape? l.name = some hwc)
  (new : l.name ∉ done.map (·.name))

include h

/-- What is read is fed or written. -/
lemma Ordered.points
    (found : List.Forall₂ (fun name index => s.values.lookup name = some index) l.inbound args) :
    ∀ index ∈ args, ∃ k ∈ s.sources done ++ written, F.Points index k := by
  intro index hindex
  obtain ⟨name, -, read⟩ := exists_mem_of_forall₂ found.flip hindex
  obtain ⟨e, -, points, -⟩ := h.shaped name index read
  exact ⟨e.place, place_eq read points ▸ h.placed name index read, points⟩

include new

/-- A layer may have the tensor of an earlier one. -/
lemma Ordered.emit_same (computed : ¬ l.kind.isInput = true) {index : Int32}
    (there : ∃ k ∈ s.sources done ++ written, F.Points index k)
    (shaped : (s.emit l.name hwc (.same index)).Shaped m p F) :
    (s.emit l.name hwc (.same index)).Ordered m p F (done ++ [l]) written used := by
  have values : (s.emit l.name hwc (.same index)).values = (l.name, index) :: s.values := rfl
  have sources := sources_of_values values new
  rw [if_neg computed, List.append_nil] at sources
  obtain ⟨k, known, points⟩ := there
  refine ⟨h.counts.emit _ _ _, shaped, ?_, ?_, named_emit h.named l _ _, ?_, ?_,
    h.opcodes, h.codes⟩
  · rw [sources]
    exact h.assigns
  · rw [sources]
    exact h.below
  · rw [sources]
    exact placed_of_values h.placed values (List.Subset.refl _) (by rw [points.toNat]; exact known)
  · rw [sources]
    exact fun k hk => (h.tensors k hk).imp_right fun ⟨known, stands⟩ =>
      ⟨known, stands.mono (List.subset_append_left _ _)⟩

include small shape

/-- A tensor is fed for an input. -/
lemma Ordered.emit_source (input : l.kind.isInput = true)
    (within : (s.emit l.name hwc .source).Within F)
    (shaped : (s.emit l.name hwc .source).Shaped m p F) :
    (s.emit l.name hwc .source).Ordered m p F (done ++ [l]) written used := by
  obtain ⟨value, length, values⟩ := Lowering.emit_source within
  have points := FlatModel.points_ofNat small value.inside
  have sources := sources_of_values values new
  rw [if_pos input, points.toNat] at sources
  -- the new tensor is behind all that were fed or written
  have fresh : s.tensors.length ∉ s.sources done ++ written := fun old =>
    lt_irrefl _ (h.below _ old)
  have more : s.sources done ++ written ⊆ s.sources done ++ [s.tensors.length] ++ written :=
    List.append_subset.2 ⟨by simp, by simp⟩
  refine ⟨h.counts.emit _ _ _, shaped, ?_, ?_, named_emit h.named l _ _, ?_, ?_,
    h.opcodes, h.codes⟩
  · rw [sources]
    exact h.assigns.feed fresh value.not_isConstant
  · rw [sources, length]
    intro k hk
    by_cases latest : k = s.tensors.length
    · exact latest ▸ Nat.lt_succ_self _
    · exact Nat.lt_succ_of_lt (h.below k (by simpa [latest] using hk))
  · rw [sources]
    exact placed_of_values h.placed values more (by rw [points.toNat]; simp)
  · rw [sources, length]
    intro k hk
    rcases Nat.lt_succ_iff_lt_or_eq.1 hk with old | rfl
    · exact (h.tensors k old).imp_right fun ⟨known, stands⟩ =>
        ⟨more known, stands.mono (List.subset_append_left _ _)⟩
    · exact .inr ⟨by simp, l, by simp, l.name, hwc, .inl rfl, shape, value⟩

/-- The operators of a program write the tensors behind its constants. -/
lemma Ordered.emit_program (computed : ¬ l.kind.isInput = true) {cs : List Constant}
    {is : List Instruction} (some : is ≠ [])
    (formed : ∀ (j : Nat) (i : Instruction), is[j]? = Option.some i → i.Formed l args cs.length j)
    (there : ∀ index ∈ args, ∃ k ∈ s.sources done ++ written, F.Points index k)
    (within : (s.emit l.name hwc (.program cs is)).Within F)
    (shaped : (s.emit l.name hwc (.program cs is)).Shaped m p F) :
    (s.emit l.name hwc (.program cs is)).Ordered m p F (done ++ [l])
      (written ++ List.range' (s.tensors.length + cs.length) is.length)
      (used ++ is.map (·.code)) := by
  obtain ⟨constants, laid, operators, emitted, length, values⟩ :=
    Lowering.emit_program small h.counts within
  -- a program adds no source: its results are written places, and its constants are neither
  have sources := sources_of_values values new
  rw [if_neg computed, List.append_nil] at sources
  have pos : 0 < is.length := List.length_pos_of_ne_nil some
  have assigns := emitted.assigns small constants formed h.assigns.once h.assigns.fresh
    (fun k hk => Nat.lt_of_lt_of_le (h.below k hk) (Nat.le_add_right _ _)) there
  have more := List.subset_append_left (s.sources done ++ written)
    (List.range' (s.tensors.length + cs.length) is.length)
  rw [List.append_assoc] at more
  have last : s.tensors.length + cs.length + is.length - 1
      ∈ List.range' (s.tensors.length + cs.length) is.length :=
    List.mem_range'_1.2 ⟨by omega, by omega⟩
  obtain ⟨_, -, value⟩ := emitted.exists_value last
  refine ⟨h.counts.emit _ _ _, shaped, ?_, ?_, named_emit h.named l _ _, ?_, ?_, ?_,
    eraseDups_emit_program h.codes l.name hwc cs is⟩
  · rw [sources, operators]
    exact h.assigns.append assigns
  · rw [sources, length]
    intro k hk
    rw [← List.append_assoc] at hk
    rcases List.mem_append.1 hk with old | results
    · have inside := h.below k old
      omega
    · exact (List.mem_range'_1.1 results).2
  · rw [sources]
    refine placed_of_values h.placed values more ?_
    rw [(FlatModel.points_ofNat small value.inside).toNat]
    simp [last]
  · rw [sources, length]
    intro k hk
    -- old tensors, then the constants of the program, then its results
    by_cases old : k < s.tensors.length
    · exact (h.tensors k old).imp_right fun ⟨known, stands⟩ =>
        ⟨more known, stands.mono (List.subset_append_left _ _)⟩
    by_cases parameter : k < s.tensors.length + cs.length
    · have holds := constants (k - s.tensors.length) _ (List.getElem?_eq_getElem (by omega))
      rw [Nat.add_sub_cancel' (by omega)] at holds
      exact .inl holds.isConstant
    · have result : k ∈ List.range' (s.tensors.length + cs.length) is.length :=
        List.mem_range'_1.2 ⟨by omega, hk⟩
      obtain ⟨i, hi, value⟩ := emitted.exists_value result
      obtain ⟨j, found⟩ := List.mem_iff_getElem?.1 hi
      exact .inr ⟨by simp [result], l, by simp, i.output, hwc, (formed j i found).output, shape,
        value⟩
  · rw [operators, List.map_append, h.opcodes, emitted.opcodes, ← List.map_append]

end Steps

/-- Laying out the fragment of a planned layer keeps the tables ordered. -/
lemma Ordered.emit (h : s.Ordered m p F done written used) (small : F.tensors.length < 0x80000000)
    (nodup : (m.architecture.layers.map (·.name)).Nodup) (hl : l ∈ m.architecture.layers)
    (new : l.name ∉ done.map (·.name)) {inputs : List Hwc} {hwc : Hwc}
    {primitive : Option Primitive} (planned : Planned ops p l inputs hwc primitive)
    {args : List Int32}
    (found : List.Forall₂ (fun name index => s.values.lookup name = some index) l.inbound args)
    {f : Fragment} (source : l.kind.isInput = true ↔ f = .source) (formed : f.Formed l args)
    (suits : f.Suits l inputs hwc args) (within : (s.emit l.name hwc f).Within F) :
    ∃ written' used', (s.emit l.name hwc f).Ordered m p F (done ++ [l]) written' used' := by
  have shaped := h.shaped.emit_of_suits h.counts small nodup hl planned found source.1 suits within
  have there := h.points found
  cases formed with
  | source input => exact ⟨_, _, h.emit_source small planned.shape new input within shaped⟩
  | same read =>
    have computed : ¬ l.kind.isInput = true := fun input => nomatch source.1 input
    exact ⟨_, _, h.emit_same new computed (there _ read) shaped⟩
  | @program _ is formed =>
    have computed : ¬ l.kind.isInput = true := fun input => nomatch source.1 input
    have some : is ≠ [] := by
      cases suits with
      | program some _ _ => exact some
    exact ⟨_, _, h.emit_program small planned.shape new computed some formed there within shaped⟩

/-- The tables of lowered layers are ordered. -/
theorem ordered_of_foldlM (plan : m.architecture.plan ops = .value p)
    (small : F.tensors.length < 0x80000000) (within : S.Within F) {layers : List Layer}
    (split : m.architecture.layers = done ++ layers) (h : s.Ordered m p F done written used)
    (run : layers.foldlM (lowerLayer m p q) s = .value S) :
    ∃ written' used', S.Ordered m p F m.architecture.layers written' used' := by
  -- over the layers; the written places and the codes grow with them
  induction layers generalizing s done written used with
  | nil =>
    cases run
    rw [split, List.append_nil]
    exact ⟨written, used, h⟩
  | cons l layers ih =>
    rw [List.foldlM_cons, Outcome.bind_eq_value_iff] at run
    obtain ⟨s', step, run⟩ := run
    obtain ⟨hwc, args, f, shape, found, fragment, rfl⟩ := lowerLayer_eq_value_iff.1 step
    have nodup := Architecture.nodup_of_plan plan
    have hl : l ∈ m.architecture.layers := by simp [split]
    obtain ⟨inputs, hwc', primitive, planned⟩ := Architecture.planned_of_mem plan hl
    obtain rfl := Option.some.inj (shape.symm.trans planned.shape)
    have arity : args.length = inputs.length := found.length_eq.symm.trans planned.reads.length_eq
    have full : ∀ r ∈ inputs, r.channels ≠ 0 := by
      intro r hr
      obtain ⟨name, -, read⟩ := exists_mem_of_forall₂ planned.reads.flip hr
      exact Architecture.channels_ne_zero plan read
    have suits := Layer.suits_of_fragment planned full arity fragment
    have source : l.kind.isInput = true ↔ f = .source := by
      refine ⟨fun input => ?_, ?_⟩
      · exact (Outcome.value.inj ((Layer.fragment_of_input input).symm.trans fragment)).symm
      · rintro rfl
        cases suits with
        | source input => exact input
    have new : l.name ∉ done.map (·.name) := by
      have apart := nodup
      rw [split, List.map_append] at apart
      exact fun old => List.disjoint_of_nodup_append apart old (by simp)
    have inner := (before_of_foldlM run).1.within within
    obtain ⟨written', used', ordered⟩ := h.emit small nodup hl new planned found source
      (Layer.formed_of_fragment fragment) suits inner
    exact ih (by simp [split]) ordered run

end Lowering

/-! ### Lowered models -/

namespace FlatModel

/-- The operators of a lowered model write one tensor each and none twice, never a constant or the
tensor of an input layer; what they read is of an input layer or written by an operator before, or
a constant as a parameter, or a bias that is left out.  Their codes are listed by first use, and
have options of their kind.  Every tensor is a constant, or has the planned shape of a layer that it
is a value of, and so has the tensor that stands for a layer. -/
theorem assigns_of_lower {m : Model} {ops : CustomOps} {options : ConverterOptions} {F : FlatModel}
    (lowered : m.lower ops options = .value F) (small : F.tensors.length < 0x80000000) :
    ∃ (p : GraphPlan) (s : Lowering) (written : List Nat) (used : List Opcode),
      Lowering.Finishes m ops options p s F ∧
      F.Assigns (s.sources m.architecture.layers) F.operators written ∧
      F.operators.map F.opcode = used.map .ok ∧ F.codes = used.eraseDups ∧ F.codes.Nodup ∧
      (∀ k < F.tensors.length, F.IsConstant k ∨
        k ∈ s.sources m.architecture.layers ++ written ∧ F.StandsFor p m.architecture.layers k) ∧
      ∀ l ∈ m.architecture.layers, s.place l.name ∈ s.sources m.architecture.layers ++ written ∧
        ∃ name hwc, p.shape? l.name = some hwc ∧ F.HoldsValue (s.place l.name) name hwc := by
  obtain ⟨p, s, finishes⟩ := Lowering.exists_finishes lowered
  obtain ⟨codes, tensors, operators, -⟩ := finishes.tables
  have plan := (Model.validate_eq_value_iff.1 finishes.valid).1
  obtain ⟨written, used, ordered⟩ := Lowering.ordered_of_foldlM plan small finishes.within
    (List.nil_append _).symm (Lowering.ordered_start m p F) finishes.run
  refine ⟨p, s, written, used, finishes, operators ▸ ordered.assigns, operators ▸ ordered.opcodes,
    codes.trans ordered.codes, ?_, tensors ▸ ordered.tensors, fun l hl => ?_⟩
  · rw [codes, ordered.codes]
    exact nodup_eraseDups used
  · obtain ⟨index, found⟩ := ordered.named l hl
    obtain ⟨e, -, points, value, shape, -⟩ := ordered.shaped l.name index found
    rw [Lowering.place_eq found points]
    refine ⟨?_, e.name, e.hwc, shape, value⟩
    rw [← Lowering.place_eq found points]
    exact ordered.placed l.name index found

end FlatModel

namespace GraphModel

/-- A graph with two names for one value, which a sum reads along with another value and once
more. -/
def echoing : Model where
  architecture := {
    name := "echoing"
    layers := [
      ⟨"sound", .input ⟨2, 2, 1⟩, []⟩,
      ⟨"wall", .conv2d 1 ⟨(1, 1), (1, 1), .same⟩ .sigmoid true, ["sound"]⟩,
      ⟨"air", .activation .linear, ["wall"]⟩,
      ⟨"echo", .add, ["sound", "wall", "air", "sound"]⟩]
    inputs := ["sound"]
    outputs := ["echo"] }
  weights := .ofList [
    ("wall/kernel", ⟨.f32, [1, 1, 1, 1], Bytes.ofSingles [⟨0x3f000000⟩]⟩),
    ("wall/bias", ⟨.f32, [1], Bytes.ofSingles [⟨0x3f800000⟩]⟩)]

end GraphModel

namespace FlatModel

/-- A quantized model with a layer that vanishes, and one that reads another layer twice, is lowered. -/
theorem assigns_of_lower_echoing :
    ∃ F, GraphModel.echoing.lower .empty ⟨.int8Weights, "echoing"⟩ = .value F ∧
      F.tensors.length < 0x80000000 ∧
      ∃ (p : GraphPlan) (s : Lowering) (written : List Nat) (used : List Opcode),
        Lowering.Finishes GraphModel.echoing .empty ⟨.int8Weights, "echoing"⟩ p s F ∧
        F.Assigns (s.sources GraphModel.echoing.architecture.layers) F.operators written ∧
        F.operators.map F.opcode = used.map .ok ∧ F.codes = used.eraseDups ∧ F.codes.Nodup ∧
        (∀ k < F.tensors.length, F.IsConstant k ∨
          k ∈ s.sources GraphModel.echoing.architecture.layers ++ written ∧
            F.StandsFor p GraphModel.echoing.architecture.layers k) ∧
        ∀ l ∈ GraphModel.echoing.architecture.layers,
          s.place l.name ∈ s.sources GraphModel.echoing.architecture.layers ++ written ∧
          ∃ name hwc, p.shape? l.name = some hwc ∧ F.HoldsValue (s.place l.name) name hwc := by
  obtain ⟨F, lowered, test⟩ := Outcome.exists_of_holds
    (show (GraphModel.echoing.lower .empty ⟨.int8Weights, "echoing"⟩).holds
      (fun F => F.tensors.length < 0x80000000) = true by decide +kernel)
  have small := of_decide_eq_true test
  exact ⟨F, lowered, small, assigns_of_lower lowered small⟩

end FlatModel

end FlatNet
