import FlatNet.Proofs.Flat.Extents

/-!
Which models are not lowered.

A valid model with well-sized parameters is refused only for what a flat model has no room for: a
number too large for its place, or a resize with two ways to place pixel centres.  Nothing that a
layer reads is ever missing when its turn comes, and no parameter is unreadable.

* `Layer.Refused`, `Layer.Wide`, `Layer.Exceeds`: layers without a lowered form;
* `LoweringError.IsLimit`: errors about limits of the format;
* `Layer.refusesIff_fragment`: a layer has no fragment exactly if it is refused;
* `Lowering.Surveyed`, `Lowering.refusesIff_lowerLayer`: what one layer keeps, the large dimensions
  in the tables being those of wide layers;
* `Model.lower_error_iff`: a model is not lowered exactly if a layer exceeds the format.
-/

namespace FlatNet

open Outcome (RefusesIff)

/-! ### Limits -/

/-- The first number that does not fit its place. -/
def Quantity.bound : Quantity → Nat
  | resizeSize => 0x80000000
  | _ => 0x100000000

/-- An error about a limit of the format: a number that does not fit its place, or two ways to place
pixel centres. -/
inductive LoweringError.IsLimit : LoweringError → Prop where
  /-- A number does not fit. -/
  | range {name : String} {quantity : Quantity} {n : Nat} (large : quantity.bound ≤ n) :
    IsLimit (.unsupported name (.range quantity n))
  /-- There are two ways to place pixel centres. -/
  | resizeModes {name : String} : IsLimit (.unsupported name .resizeModes)

/-- The numbers of a kind of layer that its operator stores in words. -/
def LayerKind.words : LayerKind → List Nat
  | .conv2d _ w _ _ => [w.strides.1, w.strides.2]
  | .depthwiseConv2d w _ _ => [w.strides.1, w.strides.2]
  | .maxPool2d pool strides _ =>
    [(strides.getD pool).1, (strides.getD pool).2, pool.1, pool.2]
  | _ => []

/-- The sides of the kernel of a convolution. -/
def LayerKind.kernelSides : LayerKind → List Nat
  | .conv2d _ w _ _ => [w.kernel.1, w.kernel.2]
  | .depthwiseConv2d w _ _ => [w.kernel.1, w.kernel.2]
  | _ => []

/-- The dimensions of an image. -/
def Hwc.sides (s : Hwc) : List Nat := [s.height, s.width, s.channels]

/-- Some number does not fit a word. -/
def SomeLarge (ns : List Nat) : Prop := ∃ n ∈ ns, 0x100000000 ≤ n

/-- An operation has no operator. -/
def Primitive.Unsupported : Primitive → Prop
  | .resizeBilinear size s =>
    0x80000000 ≤ size.1 ∨ 0x80000000 ≤ size.2 ∨
      (s.alignCorners = true ∧ s.halfPixelCenters = true)

namespace Layer

/-- A layer has no operator: a step or the side of a pool does not fit, or its operation is not
supported. -/
def Refused (p : GraphPlan) (l : Layer) : Prop :=
  SomeLarge l.kind.words ∨ ∃ r, p.primitive? l.name = some r ∧ r.Unsupported

/-- A layer has a tensor whose dimensions do not fit: its shape or its kernel is too large. -/
def Wide (p : GraphPlan) (l : Layer) : Prop :=
  SomeLarge l.kind.kernelSides ∨ ∃ s, p.shape? l.name = some s ∧ SomeLarge s.sides

/-- A layer has no lowered form. -/
def Exceeds (p : GraphPlan) (l : Layer) : Prop := l.Refused p ∨ l.Wide p

end Layer

@[simp] lemma someLarge_nil : SomeLarge [] ↔ False := by simp [SomeLarge]

@[simp] lemma someLarge_cons {n : Nat} {ns : List Nat} :
    SomeLarge (n :: ns) ↔ 0x100000000 ≤ n ∨ SomeLarge ns := by
  simp [SomeLarge]

lemma refusesIff_narrow {name : String} {quantity : Quantity} (word : quantity.bound = 0x100000000)
    (n : Nat) :
    (narrow name quantity n).RefusesIff (0x100000000 ≤ n) LoweringError.IsLimit
      fun _ => True := by
  by_cases small : n < 0x100000000
  · rw [narrow, if_pos small]
    exact ⟨Nat.not_le.2 small, trivial⟩
  · rw [narrow, if_neg small]
    exact ⟨Nat.not_lt.1 small, .range (word ▸ Nat.not_lt.1 small)⟩

lemma refusesIff_narrowSigned (name : String) (n : Nat) :
    (narrowSigned name .resizeSize n).RefusesIff (0x80000000 ≤ n) LoweringError.IsLimit
      fun _ => True := by
  by_cases small : n < 0x80000000
  · rw [narrowSigned, if_pos small]
    exact ⟨Nat.not_le.2 small, trivial⟩
  · rw [narrowSigned, if_neg small]
    exact ⟨Nat.not_lt.1 small, .range (Nat.not_lt.1 small)⟩

/-! ### Parameters -/

section Parameters

variable {m : Model} {p : GraphPlan} {l : Layer} {input : Hwc} (fills : m.Fills p)
  (hl : l ∈ m.architecture.layers) (first : Model.inputShape? p l = some input)

include fills hl first

/-- The words of a parameter that a layer needs are read. -/
lemma Model.exists_words {param : String} {shape : Shape}
    (needed : (param, shape) ∈ l.kind.weights input) (full : 0 ∉ shape) :
    ∃ xs, m.weightWords l.name param = .value xs ∧ xs.length = shape.volume ∧
      4 * xs.length < Size.bound := by
  obtain ⟨t, xs, found, words, size⟩ := fills l hl input first _ _ needed full
  exact ⟨xs, weightWords_eq_value_iff.2 ⟨t, found, words⟩, size⟩

/-- The bias of a layer is read, if it has one. -/
lemma Model.exists_biasConstant {useBias : Bool} {n : Nat} (some : n ≠ 0)
    (needed : useBias = true → ("bias", [n]) ∈ l.kind.weights input) :
    ∃ bias, m.biasConstant l.name useBias n = .value bias := by
  cases useBias with
  | false => exact ⟨none, rfl⟩
  | true =>
    obtain ⟨xs, words, -⟩ :=
      Model.exists_words fills hl first (needed rfl) (by simp [some.symm])
    exact ⟨_, by rw [biasConstant, if_pos rfl, words]; rfl⟩

/-- The program of a normalisation is found. -/
lemma exists_normFragment {epsilon : Binary32} (kind : l.kind = .batchNorm epsilon)
    (channels : input.channels ≠ 0) (index : Int32) :
    ∃ f, normFragment m l.name input.channels epsilon index = .value f := by
  have each : ∀ param ∈ normParams, ∃ c, (do
      return Constant.ofSingles s!"{l.name}/{param}" [input.channels]
        (← m.weightWords l.name param) : LoweringOutcome Constant) = .value c := by
    intro param hparam
    have needed : (param, [input.channels]) ∈ l.kind.weights input := by
      rw [kind, LayerKind.weights]
      exact List.mem_map_of_mem hparam
    obtain ⟨xs, words, -⟩ := Model.exists_words fills hl first needed (by simp [channels.symm])
    exact ⟨_, by rw [words]; rfl⟩
  obtain ⟨constants, made⟩ := exists_forall₂ each
  exact ⟨_, by rw [normFragment, Outcome.mapM_eq_value_iff.2 made]; rfl⟩

end Parameters

/-! ### Fragments -/

namespace Layer

variable {m : Model} {ops : CustomOps} {p : GraphPlan} {l : Layer}

/-- Only a custom layer is refused for its operation. -/
lemma refused_iff (plain : p.primitive? l.name = none) : l.Refused p ↔ SomeLarge l.kind.words := by
  simp [Refused, plain]

/-- The steps of a window are stored unless one of them does not fit. -/
lemma refusesIff_steps (name : String) (steps : Nat × Nat) {rest : UInt32 → UInt32 → LoweringOutcome
      Fragment} {C : Prop} (after : ∀ h v, (rest h v).RefusesIff C LoweringError.IsLimit
      fun _ => True) :
    (do rest (← narrow name .stride steps.1) (← narrow name .stride steps.2)).RefusesIff
      (0x100000000 ≤ steps.1 ∨ 0x100000000 ≤ steps.2 ∨ C) LoweringError.IsLimit
      fun _ => True :=
  (refusesIff_narrow rfl steps.1).bind fun h _ =>
    (refusesIff_narrow rfl steps.2).bind fun v _ => after h v

/-- A resize is stored unless a side does not fit or it asks for two ways to place pixel centres. -/
lemma refusesIff_resizeFragment (name : String) (size : Nat × Nat) (s : Sampling) (input : Int32) :
    (resizeFragment name size s input).RefusesIff (Primitive.resizeBilinear size s).Unsupported
      LoweringError.IsLimit fun _ => True := by
  refine ((RefusesIff.require .resizeModes).bind fun _ _ =>
    (refusesIff_narrowSigned name size.1).bind fun height _ =>
      (refusesIff_narrowSigned name size.2).bind fun width _ =>
        .of_value (Outcome.pure_eq _) trivial).congr ?_
  rw [or_false, Primitive.Unsupported, Bool.not_eq_false', Bool.and_eq_true, or_comm, or_assoc]

/-- A planned layer of a model with readable parameters has a fragment unless it is refused. -/
theorem refusesIff_fragment (plan : m.architecture.plan ops = .value p) (fills : m.Fills p)
    (hl : l ∈ m.architecture.layers) {inputs : List Hwc} {hwc : Hwc} {primitive : Option Primitive}
    (planned : Planned ops p l inputs hwc primitive) {args : List Int32}
    (arity : args.length = inputs.length) (q : Quantize) :
    (l.fragment m p q hwc args).RefusesIff (l.Refused p) LoweringError.IsLimit fun _ => True := by
  have reads := planned.reads
  have first := Model.inputShape?_of_planned planned
  -- validation has seen all weights, so that only the limits of the stored form are left to fail
  -- at; these are checked kind by kind
  have channels : ∀ r ∈ inputs, r.channels ≠ 0 := by
    intro r hr
    obtain ⟨name, -, read⟩ := exists_mem_of_forall₂ reads.flip hr
    exact Architecture.channels_ne_zero plan read
  have shapes := planned.shapes
  have primitives := planned.primitive
  generalize hk : l.kind = kind at shapes
  cases shapes with
  | input =>
    refine (RefusesIff.of_value (fragment_of_input (by rw [hk]; rfl)) trivial).congr ?_
    simp [refused_iff primitives, hk, LayerKind.words]
  | @conv2d filters w a useBias input h v some made =>
    obtain ⟨x, rfl⟩ := List.length_eq_one_iff.1 arity
    obtain ⟨name, head, shape⟩ := Option.bind_eq_some_iff.1 first
    have inner := channels input (List.mem_cons_self ..)
    have full := (Window.full_kernel made.proper inner some).1
    have needed : ("kernel", [w.kernel.1, w.kernel.2, input.channels, filters])
        ∈ l.kind.weights input := by
      simp [hk, LayerKind.weights]
    have neededBias : useBias = true → ("bias", [filters]) ∈ l.kind.weights input := by
      rintro rfl
      simp [hk, LayerKind.weights]
    obtain ⟨xs, words, length, small⟩ := Model.exists_words fills hl first needed full
    have size := xs.size_toArray
    -- the kernel that is there is small enough for its transposition to be made
    have counted : Size.product? 1 [w.kernel.1, w.kernel.2, input.channels, filters]
        = Option.some xs.toArray.size := by
      rw [Size.product?_eq_some_iff full (by decide)]
      exact ⟨lt_of_eq_of_lt length.symm (by omega), (size.trans length).symm⟩
    obtain ⟨filter, transposed⟩ := exists_hwioToOhwi counted
    obtain ⟨bias, biased⟩ := Model.exists_biasConstant fills hl first some neededBias
    simp only [fragment, hk, head, shape, words, transposed, biased, GraphPlan.shapeOf,
      Outcome.orFault_some, Outcome.orError_some, Outcome.mapError_value, Outcome.value_bind,
      List.head?_cons]
    refine (refusesIff_steps l.name w.strides fun h v =>
      .of_value (Outcome.pure_eq _) trivial).congr ?_
    simp [refused_iff primitives, hk, LayerKind.words]
  | @depthwiseConv2d w a useBias input h v made =>
    obtain ⟨x, rfl⟩ := List.length_eq_one_iff.1 arity
    have inner := channels input (List.mem_cons_self ..)
    have full := (Window.full_kernel made.proper inner one_ne_zero).1
    have needed : ("depthwise_kernel", [w.kernel.1, w.kernel.2, input.channels, 1])
        ∈ l.kind.weights input := by
      simp [hk, LayerKind.weights]
    have neededBias : useBias = true → ("bias", [input.channels]) ∈ l.kind.weights input := by
      rintro rfl
      simp [hk, LayerKind.weights]
    obtain ⟨xs, words, -⟩ := Model.exists_words fills hl first needed full
    obtain ⟨bias, biased⟩ := Model.exists_biasConstant fills hl first inner neededBias
    simp only [fragment, hk, words, biased, Outcome.orFault_some, Outcome.value_bind,
      List.head?_cons]
    refine (refusesIff_steps l.name w.strides fun h v =>
      .of_value (Outcome.pure_eq _) trivial).congr ?_
    simp [refused_iff primitives, hk, LayerKind.words]
  | @batchNorm epsilon input =>
    obtain ⟨x, rfl⟩ := List.length_eq_one_iff.1 arity
    obtain ⟨f, made⟩ :=
      exists_normFragment fills hl first hk (channels hwc (List.mem_cons_self ..)) x
    refine (RefusesIff.of_value (a := f) ?_ trivial).congr ?_
    · simp only [fragment, hk, List.head?_cons, Outcome.orFault_some, Outcome.value_bind, made]
    · simp [refused_iff primitives, hk, LayerKind.words]
  | @activation a input =>
    obtain ⟨x, rfl⟩ := List.length_eq_one_iff.1 arity
    -- no number is narrowed here
    have found : ∃ f, l.fragment m p q hwc [x] = .value f := by
      cases a <;>
        simp only [fragment, hk, List.head?_cons, Outcome.orFault_some, Outcome.value_bind,
          Outcome.pure_eq, Outcome.value.injEq, exists_eq']
    obtain ⟨f, made⟩ := found
    refine (RefusesIff.of_value made trivial).congr ?_
    simp [refused_iff primitives, hk, LayerKind.words]
  | @add first second rest same =>
    have found : ∃ f, l.fragment m p q hwc args = .value f := by
      obtain ⟨x, args, rfl⟩ := List.exists_cons_of_length_eq_add_one arity
      obtain ⟨y, args, rfl⟩ := List.exists_cons_of_length_eq_add_one (Nat.succ.inj arity)
      cases args with
      | nil => exact ⟨_, by simp only [fragment, hk]; rfl⟩
      | cons z args => exact ⟨_, by simp only [fragment, hk]; rfl⟩
    obtain ⟨f, made⟩ := found
    refine (RefusesIff.of_value made trivial).congr ?_
    simp [refused_iff primitives, hk, LayerKind.words]
  | concat same =>
    refine (RefusesIff.of_value (by simp only [fragment, hk]; rfl) trivial).congr ?_
    simp [refused_iff primitives, hk, LayerKind.words]
  | @maxPool2d pool strides padding input h v made =>
    obtain ⟨x, rfl⟩ := List.length_eq_one_iff.1 arity
    simp only [fragment, hk, List.head?_cons, Outcome.orFault_some, Outcome.value_bind]
    refine (refusesIff_steps l.name (strides.getD pool) fun h v =>
      (refusesIff_narrow rfl pool.1).bind fun _ _ => (refusesIff_narrow rfl pool.2).bind fun _ _ =>
        .of_value (Outcome.pure_eq _) trivial).congr ?_
    simp [refused_iff primitives, hk, LayerKind.words]
  | @custom function arguments input operation resolved =>
    obtain ⟨x, rfl⟩ := List.length_eq_one_iff.1 arity
    cases operation with
    | resizeBilinear size s =>
      simp only [fragment, hk, primitives, List.head?_cons, Outcome.orFault_some,
        Outcome.value_bind]
      refine (refusesIff_resizeFragment l.name size s x).congr ?_
      simp [Refused, primitives, hk, LayerKind.words]

end Layer

/-! ### Dimensions -/

namespace Fragment

/-- The shapes of the tensors laid out for a fragment. -/
def shapes (hwc : Hwc) : Fragment → List Shape
  | .source => [1 :: hwc.sides]
  | .same _ => []
  | .program cs is => cs.map (·.shape) ++ is.map fun _ => 1 :: hwc.sides

/-- Some tensor laid out for a fragment has a dimension that does not fit. -/
def Large (hwc : Hwc) (f : Fragment) : Prop := ∃ shape ∈ f.shapes hwc, SomeLarge shape

variable {hwc : Hwc}

lemma large_source : Fragment.source.Large hwc ↔ SomeLarge hwc.sides := by
  simp [Large, shapes]

lemma large_same (index : Int32) : (Fragment.same index).Large hwc ↔ False := by
  simp [Large, shapes]

/-- The results of a program have the shape of the layer, and there is one. -/
lemma large_program {cs : List Constant} {is : List Instruction} (some : is ≠ []) :
    (Fragment.program cs is).Large hwc ↔
      (∃ c ∈ cs, SomeLarge c.shape) ∨ SomeLarge hwc.sides := by
  obtain ⟨i, is, rfl⟩ := List.exists_cons_of_ne_nil some
  constructor
  · rintro ⟨shape, among, large⟩
    rcases List.mem_append.1 among with constant | result
    · obtain ⟨c, hc, rfl⟩ := List.mem_map.1 constant
      exact .inl ⟨c, hc, large⟩
    · obtain ⟨_, -, rfl⟩ := List.mem_map.1 result
      exact .inr (by simpa using large)
  · rintro (⟨c, hc, large⟩ | large)
    · exact ⟨c.shape, List.mem_append_left _ (List.mem_map_of_mem hc), large⟩
    · exact ⟨1 :: hwc.sides, by simp [shapes], someLarge_cons.2 (.inr large)⟩

lemma large_plainProgram (name : String) (code : Opcode) (reads : List Int32)
    (options : OperatorOptions) :
    (plainProgram name code reads options).Large hwc ↔ SomeLarge hwc.sides := by
  rw [plainProgram, large_program (List.cons_ne_nil _ _)]
  simp

lemma large_addFragment {name : String} {args : List Int32} {f : Fragment}
    (several : 2 ≤ args.length) (h : addFragment name args = .value f) :
    f.Large hwc ↔ SomeLarge hwc.sides := by
  match args with
  | [] => simp at several
  | [_] => simp at several
  | [lhs, rhs] =>
    obtain rfl := Outcome.value.inj h
    exact large_plainProgram ..
  | lhs :: rhs :: third :: rest =>
    obtain rfl := Outcome.value.inj h
    rw [large_program (List.cons_ne_nil _ _)]
    simp

/-- A convolution has the dimensions of its filter, and its bias has one of these. -/
lemma large_convProgram {name : String} {code : Opcode} {input : Int32} {filter : Constant}
    {bias : Option Constant} {options : OperatorOptions} {sigmoid : Bool} {n : Nat}
    (biased : ∀ b ∈ bias, b.shape = [n]) (channels : hwc.channels = n) :
    (convProgram name code input filter bias options sigmoid).Large hwc ↔
      SomeLarge filter.shape ∨ SomeLarge hwc.sides := by
  rw [convProgram, large_program (List.cons_ne_nil _ _)]
  cases bias with
  | none => simp
  | some b =>
    have shape := biased b rfl
    simp only [Option.toList_some, List.mem_cons, List.not_mem_nil, or_false, exists_eq_or_imp,
      exists_eq_left, shape, Hwc.sides, channels, someLarge_cons, someLarge_nil]
    tauto

end Fragment

lemma Model.shape_of_biasConstant {m : Model} {layer : String} {useBias : Bool} {n : Nat}
    {c : Option Constant} (h : m.biasConstant layer useBias n = .value c) :
    ∀ b ∈ c, b.shape = [n] := by
  cases useBias with
  | false =>
    cases h
    exact nofun
  | true =>
    simp only [biasConstant, if_true, Outcome.bind_eq_value_iff, Outcome.pure_eq,
      Outcome.value.injEq] at h
    obtain ⟨xs, -, rfl⟩ := h
    rintro _ ⟨⟩
    rfl

namespace Layer

variable {m : Model} {ops : CustomOps} {p : GraphPlan} {l : Layer} {inputs : List Hwc} {hwc : Hwc}
  {primitive : Option Primitive}

/-- The shape of a planned layer is the one it has. -/
lemma wide_iff (planned : Planned ops p l inputs hwc primitive) :
    l.Wide p ↔ SomeLarge l.kind.kernelSides ∨ SomeLarge hwc.sides := by
  simp [Wide, planned.shape]

/-- The tensors laid out for a layer, and what it reads, have the dimensions of the layer and of
what it reads. -/
lemma large_fragment_iff (planned : Planned ops p l inputs hwc primitive) {q : Quantize}
    {args : List Int32} (arity : args.length = inputs.length) {f : Fragment}
    (h : l.fragment m p q hwc args = .value f) :
    (∃ r ∈ inputs, SomeLarge r.sides) ∨ f.Large hwc ↔
      (∃ r ∈ inputs, SomeLarge r.sides) ∨ l.Wide p := by
  rw [wide_iff planned]
  have reads := planned.reads
  have shapes := planned.shapes
  have primitives := planned.primitive
  generalize hk : l.kind = kind at shapes
  cases shapes with
  | input =>
    rw [fragment_of_input (by rw [hk]; rfl)] at h
    obtain rfl := Outcome.value.inj h
    simp [Fragment.large_source, LayerKind.kernelSides]
  | @conv2d filters w a useBias input =>
    obtain ⟨name, head, shape⟩ :=
      Option.bind_eq_some_iff.1 (Model.inputShape?_of_planned planned)
    simp only [fragment, hk, head, GraphPlan.shapeOf, shape, Outcome.orFault_some,
      Outcome.orError_some, Outcome.value_bind, Outcome.bind_eq_value_iff, Outcome.pure_eq,
      Outcome.value.injEq] at h
    obtain ⟨_, -, ohwi, -, bias, biased, _, -, _, -, _, -, rfl⟩ := h
    rw [Fragment.large_convProgram (Model.shape_of_biasConstant biased), Constant.shape_kernel]
    · simp only [List.mem_singleton, exists_eq_left, LayerKind.kernelSides, Hwc.sides,
        someLarge_cons, someLarge_nil]
      tauto
    · rfl
  | @depthwiseConv2d w a useBias input =>
    simp only [fragment, hk, Outcome.bind_eq_value_iff, Outcome.pure_eq, Outcome.value.injEq] at h
    obtain ⟨_, -, bias, biased, _, -, _, -, _, -, rfl⟩ := h
    rw [Fragment.large_convProgram (Model.shape_of_biasConstant biased), Constant.shape_kernel]
    · simp only [List.mem_singleton, exists_eq_left, LayerKind.kernelSides, Hwc.sides,
        someLarge_cons, someLarge_nil]
      tauto
    · rfl
  | batchNorm =>
    simp only [fragment, hk, normFragment, Outcome.bind_eq_value_iff, Outcome.pure_eq,
      Outcome.value.injEq, Outcome.mapM_eq_value_iff] at h
    obtain ⟨_, -, constants, made, rfl⟩ := h
    rw [Fragment.large_program (List.cons_ne_nil _ _)]
    -- the rows of a normalization are as long as the output has channels
    have row : (∃ c ∈ constants, SomeLarge c.shape) → SomeLarge hwc.sides := by
      rintro ⟨c, hc, large⟩
      obtain ⟨_, -, _, -, rfl⟩ := exists_mem_of_forall₂ made.flip hc
      simp only [Constant.ofSingles, someLarge_cons, someLarge_nil, or_false] at large
      simp [Hwc.sides, large]
    rw [or_iff_right_of_imp row]
    simp [LayerKind.kernelSides]
  | @activation a _ =>
    cases a with
    | linear =>
      simp only [fragment, hk, Outcome.bind_eq_value_iff, Outcome.pure_eq, Outcome.value.injEq] at h
      obtain ⟨_, -, rfl⟩ := h
      simp [Fragment.large_same, LayerKind.kernelSides]
    | _ =>
      simp only [fragment, hk, Outcome.bind_eq_value_iff, Outcome.pure_eq, Outcome.value.injEq] at h
      obtain ⟨_, -, rfl⟩ := h
      simp [Fragment.large_plainProgram, LayerKind.kernelSides]
  -- sums, concatenations, pools and resizes bring no large tensor but their outputs
  | add =>
    simp only [fragment, hk] at h
    have several : 2 ≤ args.length := by
      rw [arity]
      exact Nat.le_add_left 2 _
    rw [Fragment.large_addFragment several h]
    simp [LayerKind.kernelSides]
  | concat =>
    simp only [fragment, hk, Outcome.pure_eq, Outcome.value.injEq] at h
    subst h
    simp only [Fragment.large_plainProgram, LayerKind.kernelSides, someLarge_nil, false_or]
  | maxPool2d =>
    simp only [fragment, hk, Outcome.bind_eq_value_iff, Outcome.pure_eq, Outcome.value.injEq] at h
    obtain ⟨_, -, _, -, _, -, _, -, _, -, rfl⟩ := h
    simp only [Fragment.large_plainProgram, LayerKind.kernelSides, someLarge_nil, false_or]
  | @custom _ _ _ operation _ =>
    cases operation with
    | resizeBilinear size v =>
      simp only [fragment, hk, primitives, resizeFragment, Outcome.bind_eq_value_iff,
        Outcome.pure_eq, Outcome.value.injEq] at h
      obtain ⟨_, -, _, -, _, -, _, -, rfl⟩ := h
      rw [Fragment.large_program (List.cons_ne_nil _ _)]
      simp [LayerKind.kernelSides]

end Layer

/-! ### Runs -/

namespace Lowering

variable {m : Model} {ops : CustomOps} {p : GraphPlan} {q : Quantize} {s : Lowering} {l : Layer}
  {done : List Layer}

lemma shapes_addConstants (cs : List Constant) (s : Lowering) :
    (cs.foldl addConstant s).tensors.map (·.shape)
      = s.tensors.map (·.shape) ++ cs.map (·.shape) := by
  induction cs generalizing s with
  | nil => simp
  | cons c cs ih =>
    rw [List.foldl_cons, ih]
    simp [addConstant]

lemma shapes_addInstructions (base : Nat) (hwc : Hwc) (is : List Instruction) (s : Lowering) :
    (is.foldl (addInstruction base hwc) s).tensors.map (·.shape)
      = s.tensors.map (·.shape) ++ is.map fun _ => 1 :: hwc.sides := by
  induction is generalizing s with
  | nil => simp
  | cons i is ih =>
    rw [List.foldl_cons, ih, tensors_addInstruction]
    simp [addActivation, Hwc.sides]

/-- Laying out a fragment adds tensors of its shapes. -/
lemma shapes_emit (s : Lowering) (layer : String) (hwc : Hwc) (f : Fragment) :
    (s.emit layer hwc f).tensors.map (·.shape) = s.tensors.map (·.shape) ++ f.shapes hwc := by
  cases f with
  | source => simp [emit, bind, addActivation, Fragment.shapes, Hwc.sides]
  | same index => simp [emit, bind, Fragment.shapes]
  | program cs is =>
    have tensors : (s.emit layer hwc (.program cs is)).tensors
      = (is.foldl (addInstruction s.tensors.length hwc) (cs.foldl addConstant s)).tensors := rfl
    rw [tensors, shapes_addInstructions, shapes_addConstants, List.append_assoc, Fragment.shapes]

/-- Some tensor so far has a dimension that does not fit. -/
def Large (s : Lowering) : Prop := ∃ t ∈ s.tensors, SomeLarge t.shape

lemma large_emit_iff (layer : String) (hwc : Hwc) (f : Fragment) :
    (s.emit layer hwc f).Large ↔ s.Large ∨ f.Large hwc := by
  have shapes : ∀ s : Lowering, s.Large ↔ ∃ shape ∈ s.tensors.map (·.shape), SomeLarge shape := by
    simp [Large]
  rw [shapes, shapes_emit, shapes, Fragment.Large]
  simp only [List.mem_append, or_and_right, exists_or]

/-- What is known of the tables when the layers `done` have been lowered: each has a value, and the
large dimensions are those of wide layers. -/
structure Surveyed (p : GraphPlan) (done : List Layer) (s : Lowering) : Prop where
  /-- Every layer has a value. -/
  named : ∀ l ∈ done, ∃ index, s.values.lookup l.name = some index
  /-- A dimension does not fit exactly if a layer is wide. -/
  large : s.Large ↔ ∃ l ∈ done, l.Wide p

lemma surveyed_start (p : GraphPlan) : start.Surveyed p [] :=
  ⟨nofun, by simp [Large, start]⟩

/-- Laying out the fragment of a planned layer keeps the tables surveyed. -/
lemma Surveyed.emit (h : s.Surveyed p done) (earlier : ∀ name ∈ l.inbound, name ∈ done.map (·.name))
    {inputs : List Hwc} {hwc : Hwc} {primitive : Option Primitive}
    (planned : Planned ops p l inputs hwc primitive) {args : List Int32}
    (arity : args.length = inputs.length) {f : Fragment}
    (fragment : l.fragment m p q hwc args = .value f) :
    (s.emit l.name hwc f).Surveyed p (done ++ [l]) := by
  refine ⟨named_emit h.named l hwc f, ?_⟩
  -- what the layer reads belongs to layers done
  have before : (∃ r ∈ inputs, SomeLarge r.sides) → ∃ l' ∈ done, l'.Wide p := by
    rintro ⟨r, hr, large⟩
    obtain ⟨name, hname, read⟩ := exists_mem_of_forall₂ planned.reads.flip hr
    obtain ⟨l', hl', rfl⟩ := List.mem_map.1 (earlier name hname)
    exact ⟨l', hl', .inr ⟨r, read, large⟩⟩
  calc (s.emit l.name hwc f).Large
      ↔ (∃ l' ∈ done, l'.Wide p) ∨ f.Large hwc := by rw [large_emit_iff, h.large]
    _ ↔ (∃ l' ∈ done, l'.Wide p) ∨ (∃ r ∈ inputs, SomeLarge r.sides) ∨ f.Large hwc := by
        rw [← or_assoc, or_iff_left_of_imp before]
    _ ↔ (∃ l' ∈ done, l'.Wide p) ∨ (∃ r ∈ inputs, SomeLarge r.sides) ∨ l.Wide p := by
        rw [Layer.large_fragment_iff planned arity fragment]
    _ ↔ (∃ l' ∈ done, l'.Wide p) ∨ l.Wide p := by
        rw [← or_assoc, or_iff_left_of_imp before]
    _ ↔ ∃ l' ∈ done ++ [l], l'.Wide p := by
        simp [or_and_right, exists_or]

/-- The values that are named are found. -/
lemma exists_mapM_value {names : List String}
    (named : ∀ name ∈ names, ∃ index, s.values.lookup name = some index) :
    ∃ indices, names.mapM s.value = .value indices := by
  obtain ⟨indices, found⟩ := exists_forall₂ named
  exact ⟨indices, Outcome.mapM_eq_value_iff.2 (found.imp fun _ _ h => value_eq_value_iff.2 h)⟩

/-- A layer is lowered in its turn unless it is refused. -/
lemma Surveyed.refusesIff_lowerLayer (plan : m.architecture.plan ops = .value p)
    (fills : m.Fills p) {post : List Layer} (split : m.architecture.layers = done ++ l :: post)
    (h : s.Surveyed p done) :
    (lowerLayer m p q s l).RefusesIff (l.Refused p) LoweringError.IsLimit
      (Surveyed p (done ++ [l])) := by
  obtain ⟨earlier, inputs, hwc, primitive, planned⟩ := Architecture.planned_of_plan plan split
  have hl : l ∈ m.architecture.layers := by simp [split]
  have shape : p.shapeOf l.name = .value hwc := by
    rw [GraphPlan.shapeOf, planned.shape, Outcome.orError_some]
  -- what a layer reads has been lowered before, so its indices are found and only its fragment can
  -- fail
  have named : ∀ name ∈ l.inbound, ∃ index, s.values.lookup name = some index := by
    intro name hname
    obtain ⟨l', hl', rfl⟩ := List.mem_map.1 (earlier name hname)
    exact h.named l' hl'
  obtain ⟨args, found⟩ := exists_mapM_value named
  have arity : args.length = inputs.length :=
    (Outcome.mapM_eq_value_iff.1 found).length_eq.symm.trans planned.reads.length_eq
  refine .bind_value shape (.bind_value found ?_)
  refine ((Layer.refusesIff_fragment plan fills hl planned arity q).with_value.bind
    fun f made => .of_value (Outcome.pure_eq _) ?_).congr (iff_of_eq (or_false _))
  exact h.emit earlier planned arity made.1

end Lowering

/-! ### Models -/

lemma FlatTensor.refusesIff_checkDims (t : FlatTensor) :
    t.checkDims.RefusesIff (SomeLarge t.shape) LoweringError.IsLimit fun _ => True :=
  .forM fun n => ((refusesIff_narrow rfl n).bind fun _ _ =>
    .of_value (Outcome.pure_eq ()) trivial).congr (iff_of_eq (or_false _))

namespace Model

variable {m : Model} {ops : CustomOps} {p : GraphPlan}

/-- A valid model with well-sized parameters is lowered unless a layer exceeds the format. -/
lemma refusesIff_lower (valid : m.validate ops = .value p) (sized : m.WellSized)
    (options : ConverterOptions) :
    (m.lower ops options).RefusesIff (∃ l ∈ m.architecture.layers, l.Exceeds p)
      LoweringError.IsLimit fun _ => True := by
  have plan := (validate_eq_value_iff.1 valid).1
  have fills := sized.fills valid
  have checked : (m.validate ops).mapError LoweringError.ofGraph = .value p := by
    rw [valid, Outcome.mapError_value]
  have run : (m.architecture.layers.foldlM (Lowering.lowerLayer m p options.quantize)
      .start).RefusesIff (∃ l ∈ m.architecture.layers, l.Refused p) LoweringError.IsLimit
      (Lowering.Surveyed p m.architecture.layers) :=
    RefusesIff.foldlM (Lowering.surveyed_start p) fun pre l post s split surveyed =>
      Lowering.Surveyed.refusesIff_lowerLayer plan fills split surveyed
  have parts : ((∃ l ∈ m.architecture.layers, l.Refused p) ∨ ∃ l ∈ m.architecture.layers, l.Wide p) ↔
      ∃ l ∈ m.architecture.layers, l.Exceeds p := by
    simp only [Layer.Exceeds, and_or_left, exists_or]
  refine .bind_value checked ((run.bind fun s surveyed => ?_).congr parts)
  -- the ends of a planned graph are layers, so they have values
  have named : ∀ name ∈ m.architecture.layers.map (·.name), ∃ index,
      s.values.lookup name = some index := List.forall_mem_map.2 surveyed.named
  obtain ⟨inputs, foundIn⟩ := Lowering.exists_mapM_value fun name hname => by
    obtain ⟨l, hl, rfl, -⟩ := Architecture.input_mem_of_plan plan hname
    exact named l.name (List.mem_map_of_mem hl)
  obtain ⟨outputs, foundOut⟩ := Lowering.exists_mapM_value fun name hname =>
    named name (Architecture.output_mem_of_plan plan hname)
  refine .bind_value foundIn (.bind_value foundOut ?_)
  refine ((RefusesIff.forM FlatTensor.refusesIff_checkDims).bind fun _ _ =>
    .of_value (Outcome.pure_eq _) trivial).congr ?_
  rw [or_false]
  exact surveyed.large

/-- Lowering a valid model with well-sized parameters never breaks off.  It is refused exactly if a
layer exceeds the format: a step or the side of a pool does not fit a word, or a side of a resize a
signed one, or a resize has two ways to place pixel centres, or a dimension of a layer or a side of
its kernel does not fit.  The error says so; no value, shape, parameter or operation is ever
missing. -/
theorem lower_error_iff (valid : m.validate ops = .value p) (sized : m.WellSized)
    (options : ConverterOptions) :
    m.lower ops options ≠ .fault ∧
      ((∃ e, m.lower ops options = .error e) ↔ ∃ l ∈ m.architecture.layers, l.Exceeds p) ∧
      ∀ e, m.lower ops options = .error e → e.IsLimit := by
  have refuses := refusesIff_lower valid sized options
  exact ⟨refuses.ne_fault, refuses.exists_error_iff, fun e => refuses.of_error⟩

/-- A graph with a maximum whose step is the first number that is no word. -/
def leaping : Model where
  architecture := {
    name := "leaping"
    layers := [
      ⟨"ground", .input ⟨2, 2, 1⟩, []⟩,
      ⟨"leap", .maxPool2d (2, 2) (some (0x100000000, 1)) .same, ["ground"]⟩]
    inputs := ["ground"]
    outputs := ["leap"] }
  weights := .empty

/-- The step of the maximum is too large for a flat model, and the graph is refused for that. -/
theorem lower_error_iff_leaping :
    ∃ p, leaping.validate .empty = .value p ∧ leaping.WellSized ∧
      leaping.lower .empty .standard ≠ .fault ∧
      ((∃ e, leaping.lower .empty .standard = .error e) ↔
        ∃ l ∈ leaping.architecture.layers, l.Exceeds p) ∧
      (∀ e, leaping.lower .empty .standard = .error e → e.IsLimit) ∧
      ∃ l ∈ leaping.architecture.layers, l.Exceeds p := by
  obtain ⟨p, valid, -⟩ := Outcome.exists_of_holds
    (show (leaping.validate .empty).holds (fun _ => true) = true by decide +kernel)
  have sized : leaping.WellSized := wellSized_of_entries (by decide +kernel)
  obtain ⟨total, refused, limits⟩ := lower_error_iff valid sized .standard
  have step : SomeLarge leaping.architecture.layers[1].kind.words :=
    ⟨0x100000000, by decide, le_refl _⟩
  exact ⟨p, valid, sized, total, refused, limits, _, List.getElem_mem _, .inl (.inl step)⟩

end Model

end FlatNet
