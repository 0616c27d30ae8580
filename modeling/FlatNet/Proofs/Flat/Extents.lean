import FlatNet.Proofs.Flat.Layout
import FlatNet.Proofs.Flat.RoundTrip

/-!
The size of what is laid out for a layer.

A lowered model has an operator for each tensor at most, its tensors are of rank four at most, and
its operators read a few tensors each, or one for each channel of their result.

* `Fragment.Suits`: what the fragment of a planned layer is like;
* `Layer.suits_of_fragment`: fragments are like that;
* `Lowering.Modest`, `Lowering.Modest.emit`: laying out a fragment keeps the tables small.
-/

namespace FlatNet

/-! ### Fragments -/

/-- A fragment is one of a planned layer that reads the shapes `inputs` and has the shape `hwc`
itself: only an input is a source, a value that is taken over has the shape of the layer, and a
program has constants of small ranks and instructions that read a few tensors each, or one for
each channel. -/
inductive Fragment.Suits (l : Layer) (inputs : List Hwc) (hwc : Hwc) (args : List Int32) :
    Fragment → Prop where
  /-- An input is fed. -/
  | source (input : l.kind.isInput = true) : Suits l inputs hwc args .source
  /-- A layer has the value that it reads first. -/
  | same {index : Int32} (first : args.head? = some index) (kept : inputs.head? = some hwc) :
      Suits l inputs hwc args (.same index)
  /-- A layer is computed. -/
  | program {cs : List Constant} {is : List Instruction} (some : is ≠ [])
      (ranks : ∀ c ∈ cs, c.shape.length ≤ 4)
      (reads : ∀ i ∈ is, i.operands.length ≤ max 5 hwc.channels) :
      Suits l inputs hwc args (.program cs is)

namespace Fragment

variable {l : Layer} {inputs : List Hwc} {hwc : Hwc} {args : List Int32}

lemma suits_convProgram {layer : String} {code : Opcode} {input : Int32} {filter : Constant}
    {bias : Option Constant} {options : OperatorOptions} {sigmoid : Bool}
    (rank : filter.shape.length ≤ 4) (ranks : ∀ c ∈ bias, c.shape.length ≤ 4) :
    (convProgram layer code input filter bias options sigmoid).Suits l inputs hwc args := by
  refine .program (List.cons_ne_nil _ _) ?_ ?_
  · exact List.forall_mem_cons.2 ⟨rank, fun c hc => ranks c (Option.mem_toList.1 hc)⟩
  · refine List.forall_mem_cons.2 ⟨le_max_of_le_left (show 3 ≤ 5 by decide), fun i hi => ?_⟩
    split at hi
    · rw [List.mem_singleton.1 hi]
      exact le_max_of_le_left (show 1 ≤ 5 by decide)
    · cases hi

lemma suits_plainProgram {layer : String} {code : Opcode} {reads : List Int32}
    {options : OperatorOptions} (few : reads.length ≤ max 5 hwc.channels) :
    (plainProgram layer code reads options).Suits l inputs hwc args := by
  refine .program (List.cons_ne_nil _ _) (List.forall_mem_nil _) ?_
  rw [List.forall_mem_singleton, List.length_map]
  exact few

lemma length_operands_of_mem_addInstructions {layer : String} {n : Nat} {rest : List Int32}
    {i : Instruction} (h : i ∈ addInstructions layer n rest) : i.operands.length = 2 := by
  induction rest generalizing n with
  | nil => cases h
  | cons rhs rest ih =>
    cases rest with
    | nil =>
      rw [List.mem_singleton.1 h]
      rfl
    | cons next rest =>
      rcases List.mem_cons.1 h with rfl | later
      · rfl
      · exact ih later

lemma suits_addFragment {layer : String} {f : Fragment} (several : 2 ≤ args.length)
    (h : addFragment layer args = .value f) : f.Suits l inputs hwc args := by
  match args with
  | [] => simp at several
  | [_] => simp at several
  | [lhs, rhs] =>
    obtain rfl := Outcome.value.inj h
    exact suits_plainProgram (le_max_of_le_left (show 2 ≤ 5 by decide))
  | lhs :: rhs :: third :: rest =>
    obtain rfl := Outcome.value.inj h
    refine .program (List.cons_ne_nil _ _) (List.forall_mem_nil _) ?_
    refine List.forall_mem_cons.2 ⟨le_max_of_le_left (show 2 ≤ 5 by decide), fun i hi => ?_⟩
    rw [length_operands_of_mem_addInstructions hi]
    exact le_max_of_le_left (by decide)

end Fragment

/-- A sum of channels counts the images that have any. -/
lemma length_le_channels {inputs : List Hwc} (full : ∀ s ∈ inputs, s.channels ≠ 0) :
    inputs.length ≤ (inputs.map (·.channels)).foldl (· + ·) 0 := by
  induction inputs with
  | nil => exact le_refl 0
  | cons first rest ih =>
    rw [List.forall_mem_cons] at full
    have later := ih full.2
    have one := Nat.pos_of_ne_zero full.1
    rw [List.map_cons, List.foldl_cons, Size.foldl_add, List.length_cons]
    omega

lemma Model.rank_of_biasConstant {m : Model} {layer : String} {useBias : Bool} {n : Nat}
    {c : Option Constant} (h : m.biasConstant layer useBias n = .value c) :
    ∀ b ∈ c, b.shape.length ≤ 4 := by
  cases useBias with
  | false =>
    cases h
    exact nofun
  | true =>
    simp only [biasConstant, if_true, Outcome.bind_eq_value_iff, Outcome.pure_eq,
      Outcome.value.injEq] at h
    obtain ⟨xs, -, rfl⟩ := h
    rintro _ ⟨⟩
    exact (by decide : 1 ≤ 4)

/-- The fragment of a planned layer. -/
lemma Layer.suits_of_fragment {m : Model} {ops : CustomOps} {p : GraphPlan} {q : Quantize}
    {l : Layer} {inputs : List Hwc} {hwc : Hwc} {primitive : Option Primitive} {args : List Int32}
    {f : Fragment} (planned : Planned ops p l inputs hwc primitive)
    (full : ∀ s ∈ inputs, s.channels ≠ 0) (arity : args.length = inputs.length)
    (h : l.fragment m p q hwc args = .value f) : f.Suits l inputs hwc args := by
  -- a normalization reads five operands, a concatenation at most as many as there are channels
  have one : 1 ≤ max 5 hwc.channels := le_max_of_le_left (by decide)
  have shapes := planned.shapes
  have primitives := planned.primitive
  generalize hk : l.kind = kind at shapes
  cases shapes with
  | input =>
    have input : l.kind.isInput = true := by rw [hk]; rfl
    rw [fragment_of_input input] at h
    obtain rfl := Outcome.value.inj h
    exact .source input
  | conv2d =>
    simp only [fragment, hk, Outcome.bind_eq_value_iff, Outcome.pure_eq, Outcome.value.injEq] at h
    obtain ⟨_, -, _, -, _, -, ohwi, -, _, biased, _, -, _, -, _, -, rfl⟩ := h
    exact Fragment.suits_convProgram (by rw [Constant.shape_kernel]; exact le_refl 4)
      (Model.rank_of_biasConstant biased)
  | depthwiseConv2d =>
    simp only [fragment, hk, Outcome.bind_eq_value_iff, Outcome.pure_eq, Outcome.value.injEq] at h
    obtain ⟨_, -, _, biased, _, -, _, -, _, -, rfl⟩ := h
    exact Fragment.suits_convProgram (by rw [Constant.shape_kernel]; exact le_refl 4)
      (Model.rank_of_biasConstant biased)
  | batchNorm =>
    simp only [fragment, hk, normFragment, normParams, Outcome.bind_eq_value_iff, Outcome.pure_eq,
      Outcome.value.injEq, Outcome.mapM_eq_value_iff] at h
    obtain ⟨_, -, constants, made, rfl⟩ := h
    refine .program (List.cons_ne_nil _ _) (fun c hc => ?_) (List.forall_mem_singleton.2 ?_)
    · obtain ⟨_, -, _, -, rfl⟩ := exists_mem_of_forall₂ made.flip hc
      exact (show 1 ≤ 4 by decide)
    · rw [List.length_cons, List.length_map, List.length_range, ← made.length_eq]
      exact le_max_of_le_left (show 5 ≤ 5 by decide)
  | @activation a _ =>
    cases a with
    | linear =>
      simp only [fragment, hk, Outcome.bind_eq_value_iff, Outcome.orFault_eq_value_iff,
        Outcome.pure_eq, Outcome.value.injEq] at h
      obtain ⟨_, first, rfl⟩ := h
      exact .same first rfl
    | _ =>
      simp only [fragment, hk, Outcome.bind_eq_value_iff, Outcome.pure_eq, Outcome.value.injEq] at h
      obtain ⟨_, -, rfl⟩ := h
      exact Fragment.suits_plainProgram one
  | add =>
    simp only [fragment, hk] at h
    exact Fragment.suits_addFragment (by rw [arity]; exact Nat.le_add_left 2 _) h
  | concat =>
    simp only [fragment, hk, Outcome.pure_eq, Outcome.value.injEq] at h
    subst h
    exact Fragment.suits_plainProgram
      (le_max_of_le_right (by rw [arity]; exact length_le_channels full))
  | maxPool2d =>
    simp only [fragment, hk, Outcome.bind_eq_value_iff, Outcome.pure_eq, Outcome.value.injEq] at h
    obtain ⟨_, -, _, -, _, -, _, -, _, -, rfl⟩ := h
    exact Fragment.suits_plainProgram one
  | @custom _ _ _ operation _ =>
    cases operation with
    | resizeBilinear size v =>
      simp only [fragment, hk, primitives, resizeFragment, Outcome.bind_eq_value_iff,
        Outcome.pure_eq, Outcome.value.injEq] at h
      obtain ⟨_, -, _, -, _, -, _, -, rfl⟩ := h
      exact .program (List.cons_ne_nil _ _) (List.forall_mem_singleton.2 (show 1 ≤ 4 by decide))
        (List.forall_mem_singleton.2 (le_max_of_le_left (show 2 ≤ 5 by decide)))

/-! ### Tables -/

/-- The operators of instructions read and write as many tensors as these. -/
lemma FlatModel.EmittedFrom.exists_instruction {F : FlatModel} {base next : Nat} {hwc : Hwc}
    {is : List Instruction} {ops : List FlatOperator} (h : F.EmittedFrom base hwc next is ops)
    {op : FlatOperator} (hop : op ∈ ops) :
    ∃ i ∈ is, op.inputs.length = i.operands.length ∧ op.outputs.length = 1 ∧
      ∃ k name, F.HoldsValue k name hwc := by
  induction h with
  | nil => cases hop
  | @cons next i is _ _ first _ ih =>
    rcases List.mem_cons.1 hop with rfl | later
    · refine ⟨i, List.mem_cons_self .., ?_, ?_, _, _, first.value⟩
      · rw [first.inputs, List.length_map]
      · rw [first.outputs, List.length_singleton]
    · obtain ⟨i', hi', known⟩ := ih later
      exact ⟨i', List.mem_cons_of_mem i hi', known⟩

namespace Lowering

variable {F : FlatModel} {s : Lowering}

/-- The tables so far are no larger than a stored model can hold. -/
structure Modest (s : Lowering) : Prop where
  /-- The tensors have small ranks. -/
  ranks : ∀ t ∈ s.tensors, t.shape.length ≤ 4
  /-- Every operator came with a tensor. -/
  few : s.operators.length ≤ s.tensors.length
  /-- The operators read and write few tensors. -/
  fits : ∀ op ∈ s.operators, op.Fits

lemma modest_start : start.Modest := ⟨nofun, le_refl 0, nofun⟩

lemma ranks_addConstant {cs : List Constant} (old : ∀ t ∈ s.tensors, t.shape.length ≤ 4)
    (ranks : ∀ c ∈ cs, c.shape.length ≤ 4) :
    ∀ t ∈ (cs.foldl addConstant s).tensors, t.shape.length ≤ 4 := by
  induction cs generalizing s with
  | nil => exact old
  | cons c cs ih =>
    rw [List.forall_mem_cons] at ranks
    refine ih (fun t ht => ?_) ranks.2
    rcases List.mem_append.1 ht with before | new
    · exact old t before
    · rw [List.mem_singleton.1 new]
      exact ranks.1

lemma ranks_addInstruction {base : Nat} {hwc : Hwc} {is : List Instruction}
    (old : ∀ t ∈ s.tensors, t.shape.length ≤ 4) :
    ∀ t ∈ (is.foldl (addInstruction base hwc) s).tensors, t.shape.length ≤ 4 := by
  induction is generalizing s with
  | nil => exact old
  | cons i is ih =>
    refine ih fun t ht => ?_
    rw [tensors_addInstruction] at ht
    rcases List.mem_append.1 ht with before | new
    · exact old t before
    · rw [List.mem_singleton.1 new]
      exact le_refl 4

/-- Laying out the fragment of a planned layer keeps the tables modest. -/
lemma Modest.emit (h : s.Modest) (counts : s.Counts) (small : F.tensors.length < 0x80000000)
    (dims : ∀ t ∈ F.tensors, ∀ n ∈ t.shape, Reader.FitsCount n) {l : Layer} {inputs : List Hwc}
    {hwc : Hwc} {args : List Int32} {f : Fragment} (suits : f.Suits l inputs hwc args)
    (within : (s.emit l.name hwc f).Within F) : (s.emit l.name hwc f).Modest := by
  cases suits with
  | source =>
    refine ⟨fun t ht => ?_, ?_, h.fits⟩
    · rcases List.mem_append.1 ht with before | new
      · exact h.ranks t before
      · rw [List.mem_singleton.1 new]
        exact le_refl 4
    · rw [(emit_source within).2.1]
      exact Nat.le_succ_of_le h.few
  | same => exact ⟨h.ranks, h.few, h.fits⟩
  | @program cs is _ ranks reads =>
    obtain ⟨-, ops, operators, emitted, length, -⟩ := emit_program small counts within
    refine ⟨ranks_addInstruction (ranks_addConstant h.ranks ranks), ?_, ?_⟩
    · have few := h.few
      rw [operators, length, List.length_append, emitted.length_eq]
      omega
    · rw [operators, List.forall_mem_append]
      refine ⟨h.fits, fun op hop => ?_⟩
      obtain ⟨i, hi, inputs, outputs, k, name, value⟩ := emitted.exists_instruction hop
      -- the channels are a dimension of the output, which is stored in four bytes
      have channels : hwc.channels < 0x100000000 :=
        dims _ (List.mem_of_getElem? value) _ (by simp)
      have few := reads i hi
      constructor
      · rw [Reader.FitsCount, inputs]
        omega
      · rw [Reader.FitsCount, outputs]
        decide

end Lowering

end FlatNet
