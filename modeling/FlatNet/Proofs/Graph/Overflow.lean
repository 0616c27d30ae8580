import FlatNet.Proofs.Feature.Safety
import FlatNet.Proofs.Graph.WellFormed

/-!
Validation that does not break off.

The sizes in an architecture may be any numbers of 64 bits.  Planning divides by the steps of a
window only after it has refused a step of zero, subtracts a window only from a longer side, and
counts no more positions of a window than there are elements.  What it adds up without a check is
the number of channels of concatenated images.  So planning breaks off exactly where it comes to a
concatenation whose channels are no size; the check of the parameters forms no number at all.

* `Hwc.Sized`, `Architecture.Sized`, `CustomOps.Sized`: shapes, graphs and operations whose
  numbers are sizes;
* `Layer.infer_safe`: the inference of one layer;
* `Architecture.Overflows`: planning comes to such a concatenation;
* `Model.validate_eq_fault_iff`: planning and validation break off exactly then.
-/

namespace FlatNet

open Outcome (SafeUnless)

variable {B : Prop}

/-! ### Sizes -/

/-- The sides and the channels of an image are sizes. -/
structure Hwc.Sized (s : Hwc) : Prop extends s.Bounded where
  /-- The channels. -/
  channels : s.channels < Size.bound

/-- The numbers that a kind makes shapes of are sizes. -/
def LayerKind.Sized : LayerKind → Prop
  | input shape => shape.Sized
  | conv2d filters _ _ _ => filters < Size.bound
  | _ => True

/-- The numbers that the layers of a graph make shapes of are sizes. -/
def Architecture.Sized (a : Architecture) : Prop := ∀ l ∈ a.layers, l.kind.Sized

/-- Custom operations resize to sizes. -/
def CustomOps.Sized (ops : CustomOps) : Prop :=
  ∀ function lower arguments size sampling, ops.get? function = some lower →
    lower arguments = .ok (.resizeBilinear size sampling) →
    size.1 < Size.bound ∧ size.2 < Size.bound

lemma CustomOps.Sized.of_resolve {ops : CustomOps} (h : ops.Sized) {layer function : String}
    {arguments : Json} {p : Primitive} (resolved : ops.resolve layer function arguments = .ok p)
    {input : Hwc} (sized : input.Sized) : (p.outputShape input).Sized := by
  obtain ⟨lower, registered, lowered⟩ := CustomOps.resolve_eq_ok_iff.1 resolved
  cases p with
  | resizeBilinear size sampling =>
    obtain ⟨rows, columns⟩ := h function lower arguments size sampling registered lowered
    exact ⟨⟨rows, columns⟩, sized.channels⟩

/-! ### Layers -/

/-- A window makes sizes of sizes. -/
lemma Window.outputSize_safe (w : Window) (layer : String) {input : Hwc} (bounded : input.Bounded) :
    (w.outputSize layer input).SafeUnless B
      (fun r => r.1 < Size.bound ∧ r.2 < Size.bound) := by
  refine (SafeUnless.require _ _).bind fun _ proper => ?_
  obtain ⟨kh, kw, sh, sw⟩ := degenerate_eq_false (by simpa using proper)
  refine (w.padding.outputLen_safe kh sh bounded.rows).bind fun o rows => ?_
  refine (SafeUnless.orError _ _).bind fun h someRows => ?_
  refine (w.padding.outputLen_safe kw sw bounded.columns).bind fun o' columns => ?_
  refine (SafeUnless.orError _ _).bind fun v someColumns => ?_
  exact ⟨lt_of_le_of_lt ((rows h someRows).le kh sh) bounded.rows,
    lt_of_le_of_lt ((columns v someColumns).le kw sw) bounded.columns⟩

/-- A concatenation of images that fit together has a number of channels that is no size. -/
def LayerKind.Overflows (kind : LayerKind) (inputs : List Hwc) : Prop :=
  kind = .concat ∧ 2 ≤ inputs.length ∧
    (∀ s ∈ inputs, ∀ t ∈ inputs, s.height = t.height ∧ s.width = t.width) ∧
    Size.bound ≤ (inputs.map (·.channels)).sum

namespace Layer

variable {ops : CustomOps} {l : Layer} {inputs : List Hwc}

/-- The inference of a layer makes sizes of sizes, and breaks off only over the channels of a
concatenation. -/
lemma infer_safe (own : l.kind.Sized) (lowers : ops.Sized) (sized : ∀ s ∈ inputs, s.Sized) :
    (l.infer ops inputs).SafeUnless (l.kind.Overflows inputs) (fun r => r.1.Sized) := by
  refine (SafeUnless.require _ _).bind fun _ arity => ?_
  generalize l.kind = kind at arity own ⊢
  cases kind with
  | input shape =>
    obtain rfl := Arity.zero_admits_iff.1 arity
    exact (SafeUnless.require _ _).bind fun _ _ => own
  | conv2d filters w a useBias =>
    obtain ⟨first, rfl⟩ := Arity.one_admits_iff.1 arity
    have first := sized first (List.mem_singleton_self _)
    refine (SafeUnless.require _ _).bind fun _ _ => ?_
    exact (w.outputSize_safe _ first.toBounded).bind fun r made => ⟨⟨made.1, made.2⟩, own⟩
  | depthwiseConv2d w a useBias =>
    obtain ⟨first, rfl⟩ := Arity.one_admits_iff.1 arity
    have first := sized first (List.mem_singleton_self _)
    exact (w.outputSize_safe _ first.toBounded).bind fun r made =>
      ⟨⟨made.1, made.2⟩, first.channels⟩
  | batchNorm epsilon =>
    obtain ⟨first, rfl⟩ := Arity.one_admits_iff.1 arity
    exact (SafeUnless.require _ _).bind fun _ _ => sized first (List.mem_singleton_self _)
  | activation a =>
    obtain ⟨first, rfl⟩ := Arity.one_admits_iff.1 arity
    exact sized first (List.mem_singleton_self _)
  | add =>
    obtain ⟨first, second, rest, rfl⟩ := Arity.several_admits_iff.1 arity
    exact (SafeUnless.require _ _).bind fun _ _ => sized first (List.mem_cons_self ..)
  | concat =>
    obtain ⟨first, second, rest, rfl⟩ := Arity.several_admits_iff.1 arity
    -- the only sum with no bound on what it adds up
    have here := sized first (List.mem_cons_self ..)
    refine (SafeUnless.require _ _).bind fun _ same => ?_
    simp only [List.all_eq_true, Bool.and_eq_true, decide_eq_true_eq] at same
    rw [Size.sum, Size.foldlM_add_eq 0 (by decide), Nat.zero_add]
    refine ((Size.checked_safeUnless _).mono (fun large => ?_) fun _ h => h).bind ?_
    · refine ⟨rfl, by simp, fun s hs t ht => ?_, large⟩
      exact ⟨(same s hs).1.trans (same t ht).1.symm, (same s hs).2.trans (same t ht).2.symm⟩
    · rintro _ ⟨small, rfl⟩
      exact ⟨⟨here.rows, here.columns⟩, small⟩
  | maxPool2d pool strides padding =>
    obtain ⟨first, rfl⟩ := Arity.one_admits_iff.1 arity
    have first := sized first (List.mem_singleton_self _)
    exact (Window.outputSize_safe _ _ first.toBounded).bind fun r made =>
      ⟨⟨made.1, made.2⟩, first.channels⟩
  | custom function arguments =>
    obtain ⟨first, rfl⟩ := Arity.one_admits_iff.1 arity
    -- the operation decides the size of its result, so that its set must be sized
    refine (SafeUnless.ofExcept _).bind fun p resolved => ?_
    exact lowers.of_resolve resolved (sized first (List.mem_singleton_self _))

/-- A concatenation with too many channels does break off. -/
lemma infer_eq_fault (h : l.kind.Overflows inputs) : l.infer ops inputs = .fault := by
  obtain ⟨concat, several, same, large⟩ := h
  match inputs with
  | [] | [_] => simp at several
  | first :: second :: rest =>
    have all : (first :: second :: rest).all (fun s => s.height = first.height &&
        s.width = first.width) = true := by
      simp only [List.all_eq_true, Bool.and_eq_true, decide_eq_true_eq]
      exact fun s hs => same s hs first (List.mem_cons_self ..)
    have broken : (Size.sum ((first :: second :: rest).map (·.channels)) : Outcome GraphError Nat)
        = .fault := by
      rw [Size.sum, Size.foldlM_add_eq 0 (by decide), Nat.zero_add, Size.checked_eq_fault_iff]
      exact large
    simp only [infer, concat, arity, Arity.admits, several, all, broken, decide_true,
      Outcome.require_true, Outcome.value_bind, Outcome.fault_bind]

end Layer

/-! ### Graphs -/

namespace GraphPlan

variable {ops : CustomOps} {p p' : GraphPlan} {l : Layer}

/-- Every planned shape consists of sizes. -/
def Sized (p : GraphPlan) : Prop := ∀ entry ∈ p.shapes, entry.2.Sized

lemma sized_empty : GraphPlan.empty.Sized := List.forall_mem_nil _

/-- The shapes that a layer reads consist of sizes. -/
lemma Sized.reads (h : p.Sized) {names : List String} {inputs : List Hwc}
    (reads : List.Forall₂ (fun name s => p.shape? name = some s) names inputs) :
    ∀ s ∈ inputs, s.Sized := by
  intro s hs
  obtain ⟨name, -, found⟩ := exists_mem_of_forall₂ reads.flip hs
  obtain ⟨before, after, split, -⟩ := List.lookup_eq_some_iff.1 found
  exact h (name, s) (by simp [split])

/-- Planning one more layer keeps sizes. -/
lemma Sized.extend (h : p.Sized) (own : l.kind.Sized) (lowers : ops.Sized)
    (step : extend ops p l = .value p') : p'.Sized := by
  obtain ⟨-, inputs, hwc, primitive, reads, inferred, rfl⟩ := extend_eq_value_iff.1 step
  have sized : hwc.Sized := (Layer.infer_safe own lowers (h.reads reads)).of_value inferred
  exact List.forall_mem_append.2 ⟨h, List.forall_mem_singleton.2 sized⟩

/-- Planning one more layer breaks off exactly if its inference does. -/
lemma extend_eq_fault_iff :
    extend ops p l = .fault ↔ p.shape? l.name = none ∧ ∃ inputs,
      List.Forall₂ (fun name s => p.shape? name = some s) l.inbound inputs ∧
      l.infer ops inputs = .fault := by
  have reads : (l.inbound.mapM fun name => Outcome.orError (GraphError.unknownInbound l.name name)
      (p.shape? name)) ≠ .fault := Outcome.mapM_ne_fault fun _ _ => Outcome.orError_ne_fault
  simp only [extend, Outcome.bind_eq_fault_iff, Outcome.require_eq_value_iff,
    Outcome.require_ne_fault, Outcome.mapM_eq_value_iff, Outcome.orError_eq_value_iff,
    Option.isNone_iff_eq_none, reads, false_or, Outcome.pure_eq, reduceCtorEq, and_false,
    exists_false, or_false, exists_and_left, exists_const]

end GraphPlan

/-- Planning a graph comes to a concatenation that overflows: the layers before it have a plan,
and by this the images side by side have a number of channels that is no size. -/
def Architecture.Overflows (a : Architecture) (ops : CustomOps) : Prop :=
  ∃ pre l post p inputs, a.layers = pre ++ l :: post ∧
    pre.foldlM (GraphPlan.extend ops) .empty = .value p ∧ p.shape? l.name = none ∧
    List.Forall₂ (fun name s => p.shape? name = some s) l.inbound inputs ∧
    l.kind.Overflows inputs

namespace Architecture

variable {a : Architecture} {ops : CustomOps} {p : GraphPlan}

/-- The checks before and after the walk over the layers do not break off. -/
lemma plan_eq_fault_iff_foldlM :
    a.plan ops = .fault ↔ a.layers.foldlM (GraphPlan.extend ops) .empty = .fault := by
  simp only [plan, Outcome.bind_eq_fault_iff, Outcome.require_ne_fault,
    Outcome.ofExcept_ne_fault, Outcome.require_eq_value_iff, Outcome.pure_eq, reduceCtorEq,
    false_or, or_false, and_false, exists_false, exists_const, and_iff_right_iff_imp]
  intro broken
  cases layers : a.layers with
  | nil =>
    rw [layers] at broken
    cases broken
  | cons l layers => rfl

/-- Planning breaks off exactly if it comes to such a concatenation. -/
lemma plan_eq_fault_iff (sized : a.Sized) (lowers : ops.Sized) :
    a.plan ops = .fault ↔ a.Overflows ops := by
  rw [plan_eq_fault_iff_foldlM, Outcome.foldlM_eq_fault_iff]
  constructor
  · rintro ⟨pre, l, post, p, split, run, broken⟩
    obtain ⟨new, inputs, reads, broken⟩ := GraphPlan.extend_eq_fault_iff.1 broken
    have before : ∀ l' ∈ pre, l'.kind.Sized := fun l' hl' => sized l' (by simp [split, hl'])
    have here : l.kind.Sized := sized l (by simp [split])
    have planned : p.Sized := Outcome.foldlM_value_induction GraphPlan.Sized GraphPlan.sized_empty
      (fun q l' q' hl' hq step => hq.extend (before l' hl') lowers step) run
    exact ⟨pre, l, post, p, inputs, split, run, new, reads,
      (Layer.infer_safe here lowers (planned.reads reads)).of_fault broken⟩
  · rintro ⟨pre, l, post, p, inputs, split, run, new, reads, overflows⟩
    exact ⟨pre, l, post, p, split, run,
      GraphPlan.extend_eq_fault_iff.2 ⟨new, inputs, reads, Layer.infer_eq_fault overflows⟩⟩

end Architecture

namespace Model

/-- The check of the parameters does not break off. -/
lemma validate_eq_fault_iff_plan {m : Model} {ops : CustomOps} :
    m.validate ops = .fault ↔ m.architecture.plan ops = .fault := by
  simp only [validate, Outcome.bind_eq_fault_iff, Outcome.ofExcept_ne_fault, Outcome.pure_eq,
    reduceCtorEq, or_false, and_false, exists_false]

/-- Planning and validation break off exactly if they come to a concatenation whose channels add
up to no size; on any layers, names and arguments, with any operations and parameters. -/
theorem validate_eq_fault_iff (m : Model) (ops : CustomOps) (sized : m.architecture.Sized)
    (lowers : ops.Sized) :
    (m.architecture.plan ops = .fault ↔ m.architecture.Overflows ops) ∧
      (m.validate ops = .fault ↔ m.architecture.Overflows ops) :=
  have plan := Architecture.plan_eq_fault_iff sized lowers
  ⟨plan, validate_eq_fault_iff_plan.trans plan⟩

/-- An image with half as many channels as there are sizes, next to itself. -/
def doubledChannels : Model where
  architecture := {
    name := "doubled channels"
    layers := [⟨"in", .input ⟨1, 1, 0x8000000000000000⟩, []⟩, ⟨"both", .concat, ["in", "in"]⟩]
    inputs := ["in"]
    outputs := ["both"] }
  weights := .empty

/-- Neither planning nor validation of the model ends in a plan or an error. -/
theorem validate_eq_fault_doubledChannels :
    doubledChannels.architecture.plan .empty = .fault ∧
      doubledChannels.validate .empty = .fault := by
  have plan : doubledChannels.architecture.plan .empty = .fault :=
    Outcome.isFault_iff.1 (by decide +kernel)
  exact ⟨plan, validate_eq_fault_iff_plan.2 plan⟩

/-- The numbers of the model are sizes, and its channels overflow. -/
theorem validate_eq_fault_iff_doubledChannels : doubledChannels.architecture.Sized ∧
    CustomOps.Sized .empty ∧ doubledChannels.architecture.Overflows .empty := by
  have sized : doubledChannels.architecture.Sized := by
    refine List.forall_mem_cons.2 ⟨⟨⟨by decide, by decide⟩, by decide⟩, ?_⟩
    exact List.forall_mem_singleton.2 trivial
  have lowers : CustomOps.Sized .empty := fun _ _ _ _ _ registered => nomatch registered
  have broken : doubledChannels.validate .empty = .fault :=
    validate_eq_fault_iff_plan.2 (Outcome.isFault_iff.1 (by decide +kernel))
  exact ⟨sized, lowers, (validate_eq_fault_iff doubledChannels .empty sized lowers).2.1 broken⟩

end Model

end FlatNet
