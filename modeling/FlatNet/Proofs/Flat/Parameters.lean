import FlatNet.Proofs.Flat.Layout

/-!
The parameters of lowered models.

Without quantization every parameter of a layer is kept as a constant with the same bytes, the
kernel of a convolution with its output channel in front.  The main operator of the layer reads
these constants in the order of its operands, each has a buffer of its own, and there are no other
buffers than those of parameters and of the sizes that layers resize to.

* `Transposes`: the elements of a kernel in the order of a filter;
* `Share`, `Layer.Keeps`: what a layer adds to a flat model, and what it must be;
* `Layer.keeps_of_fragment`: what is laid out for a planned layer is that;
* `Lowering.Numbered`: constants have the buffers in their order;
* `FlatModel.parameters_of_lower`: a lowered model keeps the parameters of every layer.
-/

namespace FlatNet

/-! ### Kernels and filters -/

/-- The elements of a filter are those of a kernel, four bytes each, with the output channel in
front. -/
structure Transposes (kernel filter : Bytes) (kh kw ci co : Nat) : Prop where
  /-- There are as many. -/
  size : filter.length = kernel.length
  /-- Every element has moved to its place. -/
  element : ∀ y < kh, ∀ x < kw, ∀ i < ci, ∀ o < co,
    filter.element (((o * kh + y) * kw + x) * ci + i)
      = kernel.element (((y * kw + x) * ci + i) * co + o)

lemma transposes_of_hwioToOhwi {xs : List Binary32} {filter : Array Binary32}
    {kh kw ci co : Nat} (h : hwioToOhwi xs.toArray (kh, kw, ci, co) = .value filter) :
    Transposes (Bytes.ofSingles xs) (Bytes.ofSingles filter.toList) kh kw ci co where
  size := by simp [(size_of_hwioToOhwi h).2]
  element y hy x hx i hi o ho := by
    have moved := getElem?_of_hwioToOhwi h hy hx hi ho
    rw [Bytes.element_ofSingles, Bytes.element_ofSingles, Array.getElem?_toList, moved,
      List.getElem?_toArray]

/-! ### Shares of layers -/

/-- What a layer adds to a flat model. -/
structure Share where
  /-- Its operators. -/
  operators : List FlatOperator
  /-- The buffers of its constants. -/
  buffers : List Bytes

/-- The first operator of a share has a code and reads a value and then the operands; what follows
is the logistic function. -/
def Share.Leads (F : FlatModel) (share : Share) (code : Opcode) (operands : List Int32) : Prop :=
  ∃ op rest x, share.operators = op :: rest ∧ F.opcode op = .ok code ∧ op.inputs = x :: operands ∧
    ∀ op' ∈ rest, F.opcode op' = .ok .logistic

namespace Layer

/-- The operand of a bias is a constant that is the parameter itself, or −1 if there is none. -/
def KeepsBias (m : Model) (F : FlatModel) (l : Layer) (useBias : Bool) (operand : Int32)
    (buffers : List Bytes) : Prop :=
  if useBias then
    ∃ bias, m.weight? l.name "bias" = some bias ∧ F.constant operand = .ok (some bias) ∧
      buffers = [bias.bytes]
  else operand = -1 ∧ buffers = []

/-- The share of a layer keeps its parameters bit for bit: the main operator reads them in the
order of its operands, and their bytes are the buffers of the share.  A resize has a buffer for its
size, and no other layer has any. -/
def Keeps (m : Model) (p : GraphPlan) (F : FlatModel) (l : Layer) (share : Share) : Prop :=
  match l.kind with
  | .conv2d filters w _ useBias =>
    ∃ kernel channels filter f b biases, m.weight? l.name "kernel" = some kernel ∧
      kernel.dtype = .f32 ∧ kernel.shape = [w.kernel.1, w.kernel.2, channels, filters] ∧
      Transposes kernel.bytes filter w.kernel.1 w.kernel.2 channels filters ∧
      F.constant f = .ok (some ⟨.f32, [filters, w.kernel.1, w.kernel.2, channels], filter⟩) ∧
      l.KeepsBias m F useBias b biases ∧ share.Leads F .conv2d [f, b] ∧
      share.buffers = filter :: biases
  | .depthwiseConv2d w _ useBias =>
    ∃ kernel channels f b biases, m.weight? l.name "depthwise_kernel" = some kernel ∧
      kernel.dtype = .f32 ∧ kernel.shape = [w.kernel.1, w.kernel.2, channels, 1] ∧
      F.constant f = .ok (some ⟨.f32, [1, w.kernel.1, w.kernel.2, channels], kernel.bytes⟩) ∧
      l.KeepsBias m F useBias b biases ∧ share.Leads F .depthwiseConv2d [f, b] ∧
      share.buffers = kernel.bytes :: biases
  | .batchNorm _ =>
    ∃ gamma beta mean variance g b u v, m.weight? l.name "gamma" = some gamma ∧
      m.weight? l.name "beta" = some beta ∧ m.weight? l.name "moving_mean" = some mean ∧
      m.weight? l.name "moving_variance" = some variance ∧ F.constant g = .ok (some gamma) ∧
      F.constant b = .ok (some beta) ∧ F.constant u = .ok (some mean) ∧
      F.constant v = .ok (some variance) ∧ share.Leads F .batchNorm [g, b, u, v] ∧
      share.buffers = [gamma, beta, mean, variance].map (·.bytes)
  | .custom _ _ =>
    ∃ size s, p.primitive? l.name = some (.resizeBilinear size s) ∧
      share.buffers = [littleEndian 4 size.1 ++ littleEndian 4 size.2]
  | _ => share.buffers = []

end Layer

/-! ### Buffers that are laid out -/

/-- The constants of a fragment. -/
def Fragment.constants : Fragment → List Constant
  | .program constants _ => constants
  | _ => []

namespace Lowering

lemma buffers_foldl_addConstant (cs : List Constant) (s : Lowering) :
    (cs.foldl addConstant s).buffers = s.buffers ++ cs.map (·.data) := by
  induction cs generalizing s with
  | nil => exact (List.append_nil _).symm
  | cons c cs ih =>
    rw [List.foldl_cons, ih, addConstant, List.append_assoc, List.map_cons, List.singleton_append]

lemma buffers_addInstruction (base : Nat) (hwc : Hwc) (s : Lowering) (i : Instruction) :
    (addInstruction base hwc s i).buffers = s.buffers := by
  rw [addInstruction_eq]
  exact buffers_addCode _ _

lemma buffers_foldl_addInstruction (base : Nat) (hwc : Hwc) (is : List Instruction)
    (s : Lowering) : (is.foldl (addInstruction base hwc) s).buffers = s.buffers := by
  induction is generalizing s with
  | nil => rfl
  | cons i is ih => rw [List.foldl_cons, ih, buffers_addInstruction]

/-- A fragment adds the buffers of its constants. -/
lemma buffers_emit (s : Lowering) (layer : String) (hwc : Hwc) (f : Fragment) :
    (s.emit layer hwc f).buffers = s.buffers ++ f.constants.map (·.data) := by
  cases f with
  | program cs is =>
    exact (buffers_foldl_addInstruction _ hwc is _).trans (buffers_foldl_addConstant cs s)
  | _ => exact (List.append_nil _).symm

lemma operators_addInstruction (base : Nat) (hwc : Hwc) (s : Lowering) (i : Instruction) :
    s.operators <+: (addInstruction base hwc s i).operators := by
  rw [addInstruction_eq]
  exact List.prefix_append _ _

lemma operators_foldl_addInstruction (base : Nat) (hwc : Hwc) (is : List Instruction)
    (s : Lowering) : s.operators <+: (is.foldl (addInstruction base hwc) s).operators := by
  induction is generalizing s with
  | nil => exact List.prefix_refl _
  | cons i is ih => exact (operators_addInstruction base hwc s i).trans (ih _)

/-- A fragment adds operators behind the others. -/
lemma operators_emit (s : Lowering) (layer : String) (hwc : Hwc) (f : Fragment) :
    s.operators <+: (s.emit layer hwc f).operators := by
  cases f with
  | program cs is =>
    have constants := (foldl_addConstant cs s).2.2.1
    have instructions :=
      operators_foldl_addInstruction s.tensors.length hwc is (cs.foldl addConstant s)
    rwa [constants] at instructions
  | _ => exact List.prefix_refl _

end Lowering

/-! ### Parameters as constants -/

section Kinds

variable {m : Model} {ops : CustomOps} {p : GraphPlan} {l : Layer} {input : Hwc}
  {F : FlatModel} {s : Lowering}

section Parameters

variable (valid : m.validate ops = .value p) (sized : m.WellSized)
  (hl : l ∈ m.architecture.layers) (first : Model.inputShape? p l = some input)

include valid sized hl first

/-- A parameter that a layer needs is a tensor of its words. -/
lemma Model.weight?_of_words {param : String} {shape : Shape}
    (needed : (param, shape) ∈ l.kind.weights input) (full : 0 ∉ shape) {xs : List Binary32}
    (words : m.weightWords l.name param = .value xs) :
    m.weight? l.name param = some ⟨.f32, shape, Bytes.ofSingles xs⟩ := by
  obtain ⟨t, found, dtype, rfl⟩ := (validate_eq_value_iff.1 valid).2 l hl input first _ needed
  obtain ⟨t', found', words'⟩ := weightWords_eq_value_iff.1 words
  obtain rfl := Option.some.inj (found.symm.trans found')
  rw [Tensor.singles_eq dtype] at words'
  obtain rfl := Except.ok.inj words'
  have length := ((Tensor.wellSized_iff full).1 (sized _ t found dtype full)).2
  rw [dtype, show DType.f32.width = 4 from rfl, Nat.mul_comm] at length
  rw [found, Bytes.ofSingles_words length, ← dtype]

variable (small : F.tensors.length < 0x80000000)

include small

/-- A constant with as many words as a parameter has, in a shape of as many elements, is read
back. -/
lemma constant_of_words {param : String} {shape : Shape}
    (needed : (param, shape) ∈ l.kind.weights input) (full : 0 ∉ shape) {xs ys : List Binary32}
    (words : m.weightWords l.name param = .value xs) (many : ys.length = xs.length)
    {name : String} {shape' : Shape} (full' : 0 ∉ shape') (same : shape'.volume = shape.volume)
    {k : Nat} (holds : F.HoldsConstant k (.ofSingles name shape' ys)) :
    F.constant (Int32.ofNat k) = .ok (some ⟨.f32, shape', Bytes.ofSingles ys⟩) := by
  obtain ⟨length, bytes⟩ := Model.length_of_words (sized.fills valid) hl first needed full words
  have sized : shape'.byteCount? .f32 = some (Bytes.ofSingles ys).length := by
    rw [Shape.byteCount?_eq_some_iff full', Bytes.length_ofSingles, many, length, same,
      show DType.f32.width = 4 from rfl, Nat.mul_comm, ← length]
    exact ⟨bytes, rfl⟩
  obtain ⟨-, -, read⟩ := holds.constant (FlatModel.points_ofNat small holds.inside) sized
  exact read

/-- The bias behind the filter of a layer is kept. -/
lemma keepsBias_of_biasConstant {useBias : Bool} {n : Nat} (some : n ≠ 0)
    (needed : useBias = true → ("bias", [n]) ∈ l.kind.weights input) {c : Option Constant}
    (h : m.biasConstant l.name useBias n = .value c) {filter : Constant} {base : Nat} (next : Nat)
    (holds : ∀ k c', (filter :: c.toList)[k]? = Option.some c' → F.HoldsConstant (base + k) c') :
    l.KeepsBias m F useBias
      (FlatModel.operandAt base next (if c.isSome then .constant 1 else .absent))
      (c.toList.map (·.data)) := by
  cases useBias with
  | false =>
    cases h
    exact ⟨rfl, rfl⟩
  | true =>
    simp only [Model.biasConstant, if_true, Outcome.bind_eq_value_iff, Outcome.pure_eq,
      Outcome.value.injEq] at h
    obtain ⟨xs, words, rfl⟩ := h
    have full : 0 ∉ [n] := by simp [some.symm]
    exact ⟨_, Model.weight?_of_words valid sized hl first (needed rfl) full words,
      constant_of_words valid sized hl first small (needed rfl) full words rfl full rfl
        (holds 1 _ rfl), rfl⟩

end Parameters

/-- The main instruction of a program, and the logistic function if it must follow, lead a
share. -/
lemma Share.leads_of_emittedFrom (follows : Bool) (layer : String) {base next : Nat} {hwc : Hwc}
    {i : Instruction} {x : Int32} {operands : List Operand}
    (reads : i.operands = .value x :: operands) {opers : List FlatOperator}
    (h : F.EmittedFrom base hwc next
      (i :: if follows then [⟨.logistic, [.result], .none, layer⟩] else []) opers)
    (buffers : List Bytes) :
    Share.Leads F ⟨opers, buffers⟩ i.code (operands.map (FlatModel.operandAt base next)) := by
  cases h with
  | @cons _ _ _ op rest main later =>
    refine ⟨op, rest, x, rfl, main.code, ?_, ?_⟩
    · rw [main.inputs, reads]
      rfl
    · cases follows with
      | false =>
        cases later
        exact List.forall_mem_nil _
      | true =>
        cases later with
        | cons logistic none =>
          cases none
          exact List.forall_mem_singleton.2 logistic.code

/-- The tables grow by a share. -/
structure Lowering.Adds (s s' : Lowering) (share : Share) : Prop where
  /-- Its operators come last. -/
  operators : s'.operators = s.operators ++ share.operators
  /-- So do its buffers. -/
  buffers : s'.buffers = s.buffers ++ share.buffers

section Emitted

variable (valid : m.validate ops = .value p) (sized : m.WellSized)
  (hl : l ∈ m.architecture.layers) (first : Model.inputShape? p l = some input)
  (channels : input.channels ≠ 0) (small : F.tensors.length < 0x80000000) (counts : s.Counts)
  {hwc : Hwc} {args : List Int32} {f : Fragment} (within : (s.emit l.name hwc f).Within F)
  (h : l.fragment m p .none hwc args = .value f)

include valid sized hl first channels small counts within h

lemma keeps_conv2d {filters : Nat} {w : Window} {a : Activation} {useBias : Bool}
    (kind : l.kind = .conv2d filters w a useBias) (some : filters ≠ 0)
    (proper : w.degenerate = false) :
    ∃ share, s.Adds (s.emit l.name hwc f) share ∧ l.Keeps m p F share := by
  obtain ⟨name, head, shape⟩ := Option.bind_eq_some_iff.1 first
  simp only [Layer.fragment, kind, head, Outcome.orFault_some, Outcome.value_bind,
    GraphPlan.shapeOf, shape, Outcome.orError_some, Outcome.bind_eq_value_iff,
    Outcome.mapError_eq_value_iff, Outcome.pure_eq, Outcome.value.injEq] at h
  obtain ⟨hwio, words, ohwi, transposed, c, biased, strideH, -, strideW, -, x, -, rfl⟩ := h
  have many : ohwi.toList.length = hwio.length := by
    simpa using (size_of_hwioToOhwi transposed).2
  obtain ⟨full, full'⟩ := Window.full_kernel proper channels some
  have needed : ("kernel", [w.kernel.1, w.kernel.2, input.channels, filters])
      ∈ l.kind.weights input := by
    simp [kind, LayerKind.weights]
  have neededBias : useBias = true → ("bias", [filters]) ∈ l.kind.weights input := by
    rintro rfl
    simp [kind, LayerKind.weights]
  obtain ⟨constants, opers, operators, emitted, -, -⟩ := Lowering.emit_program small counts within
  have kernel := Model.weight?_of_words valid sized hl first needed full words
  have filter := constant_of_words valid sized hl first small needed full words many full'
    (Shape.volume_filter ..) (constants 0 _ rfl)
  have bias := keepsBias_of_biasConstant valid sized hl first small some neededBias biased
    (s.tensors.length + (c.toList.length + 1)) constants
  refine ⟨⟨opers, Bytes.ofSingles ohwi.toList :: c.toList.map (·.data)⟩,
    ⟨operators, Lowering.buffers_emit ..⟩, ?_⟩
  simp only [Layer.Keeps, kind]
  exact ⟨_, _, _, _, _, _, kernel, rfl, rfl, transposes_of_hwioToOhwi transposed, filter, bias,
    Share.leads_of_emittedFrom _ _ rfl emitted _, rfl⟩

lemma keeps_depthwiseConv2d {w : Window} {a : Activation} {useBias : Bool}
    (kind : l.kind = .depthwiseConv2d w a useBias) (proper : w.degenerate = false)
    (kept : hwc.channels = input.channels) :
    ∃ share, s.Adds (s.emit l.name hwc f) share ∧ l.Keeps m p F share := by
  simp only [Layer.fragment, kind, kept, Outcome.bind_eq_value_iff, Outcome.pure_eq,
    Outcome.value.injEq] at h
  obtain ⟨xs, words, c, biased, strideH, -, strideW, -, x, -, rfl⟩ := h
  obtain ⟨full, full'⟩ := Window.full_kernel proper channels one_ne_zero
  have needed : ("depthwise_kernel", [w.kernel.1, w.kernel.2, input.channels, 1])
      ∈ l.kind.weights input := by
    simp [kind, LayerKind.weights]
  have neededBias : useBias = true → ("bias", [input.channels]) ∈ l.kind.weights input := by
    rintro rfl
    simp [kind, LayerKind.weights]
  obtain ⟨constants, opers, operators, emitted, -, -⟩ := Lowering.emit_program small counts within
  have kernel := Model.weight?_of_words valid sized hl first needed full words
  have filter := constant_of_words valid sized hl first small needed full words rfl full'
    (Shape.volume_filter ..) (constants 0 _ rfl)
  have bias := keepsBias_of_biasConstant valid sized hl first small channels neededBias biased
    (s.tensors.length + (c.toList.length + 1)) constants
  refine ⟨⟨opers, Bytes.ofSingles xs :: c.toList.map (·.data)⟩,
    ⟨operators, Lowering.buffers_emit ..⟩, ?_⟩
  simp only [Layer.Keeps, kind]
  exact ⟨_, _, _, _, _, kernel, rfl, rfl, filter, bias,
    Share.leads_of_emittedFrom _ _ rfl emitted _, rfl⟩

lemma keeps_batchNorm {epsilon : Binary32} (kind : l.kind = .batchNorm epsilon)
    (kept : hwc.channels = input.channels) :
    ∃ share, s.Adds (s.emit l.name hwc f) share ∧ l.Keeps m p F share := by
  simp only [Layer.fragment, kind, kept, normFragment, normParams, Outcome.bind_eq_value_iff,
    Outcome.pure_eq, Outcome.value.injEq, Outcome.mapM_eq_value_iff, List.forall₂_cons_left_iff,
    List.forall₂_nil_left_iff] at h
  obtain ⟨x, -, -, ⟨-, -, ⟨gamma, hgamma, rfl⟩, ⟨-, -, ⟨beta, hbeta, rfl⟩, ⟨-, -,
    ⟨mean, hmean, rfl⟩, ⟨-, -, ⟨variance, hvariance, rfl⟩, rfl, rfl⟩, rfl⟩, rfl⟩, rfl⟩, rfl⟩ := h
  have full : 0 ∉ [input.channels] := by simp [channels.symm]
  have needed : ∀ param ∈ normParams, (param, [input.channels]) ∈ l.kind.weights input := by
    intro param hparam
    rw [kind]
    exact List.mem_map_of_mem hparam
  have stored : ∀ {param name : String} {xs : List Binary32} {k : Nat}, param ∈ normParams →
      m.weightWords l.name param = .value xs →
      F.HoldsConstant k (.ofSingles name [input.channels] xs) →
      m.weight? l.name param = some ⟨.f32, [input.channels], Bytes.ofSingles xs⟩ ∧
        F.constant (Int32.ofNat k) = .ok (some ⟨.f32, [input.channels], Bytes.ofSingles xs⟩) :=
    fun hparam words holds =>
      ⟨Model.weight?_of_words valid sized hl first (needed _ hparam) full words,
        constant_of_words valid sized hl first small (needed _ hparam) full words rfl full rfl
          holds⟩
  obtain ⟨constants, opers, operators, emitted, -, -⟩ := Lowering.emit_program small counts within
  obtain ⟨weightGamma, readGamma⟩ := stored (by decide) hgamma (constants 0 _ rfl)
  obtain ⟨weightBeta, readBeta⟩ := stored (by decide) hbeta (constants 1 _ rfl)
  obtain ⟨weightMean, readMean⟩ := stored (by decide) hmean (constants 2 _ rfl)
  obtain ⟨weightVariance, readVariance⟩ := stored (by decide) hvariance (constants 3 _ rfl)
  refine ⟨⟨opers, [gamma, beta, mean, variance].map Bytes.ofSingles⟩,
    ⟨operators, Lowering.buffers_emit ..⟩, ?_⟩
  simp only [Layer.Keeps, kind]
  exact ⟨_, _, _, _, _, _, _, _, weightGamma, weightBeta, weightMean, weightVariance, readGamma,
    readBeta, readMean, readVariance, Share.leads_of_emittedFrom false l.name rfl emitted _, rfl⟩

end Emitted

end Kinds

/-! ### Other kinds -/

section Plain

variable {m : Model} {p : GraphPlan} {q : Quantize} {l : Layer} {F : FlatModel} {s : Lowering}
  {hwc : Hwc} {args : List Int32} {f : Fragment}

/-- A fragment adds its operators and the buffers of its constants. -/
lemma Lowering.exists_adds (s : Lowering) (layer : String) (hwc : Hwc) (f : Fragment) :
    ∃ share, s.Adds (s.emit layer hwc f) share ∧ share.buffers = f.constants.map (·.data) := by
  obtain ⟨opers, operators⟩ := s.operators_emit layer hwc f
  exact ⟨⟨opers, _⟩, ⟨operators.symm, s.buffers_emit layer hwc f⟩, rfl⟩

/-- Whether a layer of a kind has constants. -/
def LayerKind.hasConstants : LayerKind → Bool
  | .conv2d .. | .depthwiseConv2d .. | .batchNorm _ | .custom .. => true
  | _ => false

lemma constants_addFragment {layer : String} (h : addFragment layer args = .value f) :
    f.constants = [] := by
  unfold addFragment at h
  split at h <;> cases h <;> rfl

/-- The fragments of the other kinds have no constants. -/
lemma constants_eq_nil (none : l.kind.hasConstants = false)
    (h : l.fragment m p q hwc args = .value f) : f.constants = [] := by
  cases kind : l.kind with
  | conv2d | depthwiseConv2d | batchNorm | custom =>
    rw [kind] at none
    cases none
  | input | concat =>
    simp only [Layer.fragment, kind, Outcome.pure_eq, Outcome.value.injEq] at h
    rw [← h]
    rfl
  | activation a =>
    cases a <;>
    · simp only [Layer.fragment, kind, Outcome.bind_eq_value_iff, Outcome.pure_eq,
        Outcome.value.injEq] at h
      obtain ⟨x, -, rfl⟩ := h
      rfl
  | add =>
    simp only [Layer.fragment, kind] at h
    exact constants_addFragment h
  | maxPool2d pool strides padding =>
    simp only [Layer.fragment, kind, Outcome.bind_eq_value_iff, Outcome.pure_eq,
      Outcome.value.injEq] at h
    obtain ⟨strideH, -, strideW, -, filterH, -, filterW, -, x, -, rfl⟩ := h
    rfl

lemma ofWord_of_narrowSigned {layer : String} {quantity : Quantity} {n : Nat} {i : Int32}
    (h : narrowSigned layer quantity n = .value i) :
    Bytes.ofWord i.toUInt32 = littleEndian 4 n := by
  unfold narrowSigned at h
  split at h
  · rename_i small
    cases h
    exact congrArg (littleEndian 4) (UInt32.toNat_ofNat_of_lt' (lt_trans small (by decide)))
  · cases h

/-- A resize adds the buffer of its size. -/
lemma keeps_custom {function : String} {arguments : Json} {size : Nat × Nat} {v : Sampling}
    (kind : l.kind = .custom function arguments)
    (resolved : p.primitive? l.name = some (.resizeBilinear size v))
    (h : l.fragment m p q hwc args = .value f) :
    ∃ share, s.Adds (s.emit l.name hwc f) share ∧ l.Keeps m p F share := by
  obtain ⟨share, adds, buffers⟩ := s.exists_adds l.name hwc f
  refine ⟨share, adds, ?_⟩
  simp only [Layer.fragment, kind, resolved, resizeFragment, Outcome.bind_eq_value_iff,
    Outcome.pure_eq, Outcome.value.injEq] at h
  obtain ⟨x, -, _, -, i, hi, j, hj, rfl⟩ := h
  simp only [Layer.Keeps, kind]
  refine ⟨size, v, resolved, ?_⟩
  rw [buffers, ← ofWord_of_narrowSigned hi, ← ofWord_of_narrowSigned hj]
  rfl

end Plain

/-- Without quantization, what is laid out for a planned layer keeps its parameters. -/
theorem Layer.keeps_of_fragment {m : Model} {ops : CustomOps} {p : GraphPlan} {l : Layer}
    {inputs : List Hwc} {hwc : Hwc} {primitive : Option Primitive} {F : FlatModel} {s : Lowering}
    (valid : m.validate ops = .value p) (sized : m.WellSized) (hl : l ∈ m.architecture.layers)
    (planned : Planned ops p l inputs hwc primitive) (small : F.tensors.length < 0x80000000)
    (counts : s.Counts) {args : List Int32} {f : Fragment}
    (within : (s.emit l.name hwc f).Within F) (h : l.fragment m p .none hwc args = .value f) :
    ∃ share, s.Adds (s.emit l.name hwc f) share ∧ l.Keeps m p F share := by
  have first := Model.inputShape?_of_planned planned
  have channels : ∀ input, inputs.head? = some input → input.channels ≠ 0 := by
    intro input head
    rw [head, Model.inputShape?, Option.bind_eq_some_iff] at first
    obtain ⟨name, -, found⟩ := first
    exact Architecture.channels_ne_zero (Model.validate_eq_value_iff.1 valid).1 found
  have primitives := planned.primitive
  have shapes := planned.shapes
  generalize hk : l.kind = kind at shapes
  -- kinds with constants are looked at one by one; the others keep none
  have adds := s.exists_adds l.name hwc f
  cases shapes with
  | conv2d some made =>
    exact keeps_conv2d valid sized hl first (channels _ rfl) small counts within h hk some
      made.proper
  | depthwiseConv2d made =>
    exact keeps_depthwiseConv2d valid sized hl first (channels _ rfl) small counts within h hk
      made.proper rfl
  | batchNorm =>
    exact keeps_batchNorm valid sized hl first (channels _ rfl) small counts within h hk rfl
  | @custom _ _ _ operation _ =>
    cases operation with
    | resizeBilinear size v => exact keeps_custom hk primitives h
  | _ =>
    obtain ⟨share, adds, buffers⟩ := adds
    rw [constants_eq_nil (by rw [hk]; rfl) h] at buffers
    refine ⟨share, adds, ?_⟩
    simp only [Keeps, hk]
    exact buffers

/-! ### Buffers of constants -/

namespace Lowering

variable {s S : Lowering} {F : FlatModel}

/-- The constants so far have the buffers behind the first one, one each and in their order. -/
def Numbered (s : Lowering) : Prop :=
  (s.tensors.filter (·.buffer ≠ 0)).map (·.buffer.toNat) = List.range' 1 (s.buffers.length - 1)

lemma numbered_start : start.Numbered := rfl

lemma Numbered.addActivation (h : s.Numbered) (name : String) (hwc : Hwc) :
    (s.addActivation name hwc).Numbered := by
  simpa [Numbered, Lowering.addActivation] using h

lemma Numbered.addConstant (h : s.Numbered) (counts : s.Counts)
    (few : s.tensors.length < 0x80000000) (c : Constant) : (s.addConstant c).Numbered := by
  have first := counts.first
  obtain ⟨number, constant⟩ := counts.next_buffer few
  have count : (s.addConstant c).buffers.length - 1 = s.buffers.length - 1 + 1 := by
    simp only [Lowering.addConstant, List.length_append, List.length_singleton]
    omega
  have last : 1 + 1 * (s.buffers.length - 1) = s.buffers.length := by omega
  rw [Numbered] at h ⊢
  rw [count, List.range'_concat, last, ← h, Lowering.addConstant, List.filter_append,
    List.map_append]
  simp only [List.filter_cons, decide_eq_true constant, if_true, List.filter_nil, List.map_cons,
    number, List.map_nil]

lemma Numbered.addInstruction (h : s.Numbered) (base : Nat) (hwc : Hwc) (i : Instruction) :
    (Lowering.addInstruction base hwc s i).Numbered := by
  have grown := h.addActivation i.output hwc
  rw [Numbered] at grown ⊢
  rw [tensors_addInstruction, buffers_addInstruction]
  exact grown

lemma Numbered.foldl_addInstruction (h : s.Numbered) (base : Nat) (hwc : Hwc)
    (is : List Instruction) : (is.foldl (Lowering.addInstruction base hwc) s).Numbered := by
  induction is generalizing s with
  | nil => exact h
  | cons i is ih => exact ih (h.addInstruction base hwc i)

lemma Numbered.foldl_addConstant (h : s.Numbered) (counts : s.Counts)
    (small : F.tensors.length < 0x80000000) {cs : List Constant}
    (within : (cs.foldl Lowering.addConstant s).Within F) :
    (cs.foldl Lowering.addConstant s).Numbered := by
  induction cs generalizing s with
  | nil => exact h
  | cons c cs ih =>
    have whole := (s.before_addConstant c).trans (Lowering.foldl_addConstant cs _).1
    have few := lt_of_le_of_lt (whole.within within).tensors.length_le small
    exact ih (h.addConstant counts few c) (counts.addConstant c) within

/-- Laying out a fragment gives every constant a buffer of its own. -/
lemma Numbered.emit (h : s.Numbered) (counts : s.Counts) (small : F.tensors.length < 0x80000000)
    {layer : String} {hwc : Hwc} {f : Fragment} (within : (s.emit layer hwc f).Within F) :
    (s.emit layer hwc f).Numbered := by
  cases f with
  | source => exact h.addActivation layer hwc
  | same index => exact h
  | program cs is =>
    have inner : (is.foldl (Lowering.addInstruction s.tensors.length hwc)
        (cs.foldl Lowering.addConstant s)).Within F :=
      ⟨within.codes, within.tensors, within.buffers⟩
    have before := (Lowering.foldl_addInstruction s.tensors.length hwc is _).1.within inner
    exact (h.foldl_addConstant counts small before).foldl_addInstruction s.tensors.length hwc is

/-- Layers that are lowered one after the other add their shares one after the other. -/
theorem shares_of_foldlM {m : Model} {ops : CustomOps} {p : GraphPlan}
    (valid : m.validate ops = .value p) (sized : m.WellSized)
    (small : F.tensors.length < 0x80000000) (within : S.Within F) {layers : List Layer}
    (among : ∀ l ∈ layers, l ∈ m.architecture.layers) (counts : s.Counts) (numbered : s.Numbered)
    (run : layers.foldlM (lowerLayer m p .none) s = .value S) :
    S.Numbered ∧ ∃ shares, List.Forall₂ (Layer.Keeps m p F) layers shares ∧
      S.operators = s.operators ++ shares.flatMap (·.operators) ∧
      S.buffers = s.buffers ++ shares.flatMap (·.buffers) := by
  -- over the layers: operators and buffers are only appended
  induction layers generalizing s with
  | nil =>
    cases run
    exact ⟨numbered, [], .nil, (List.append_nil _).symm, (List.append_nil _).symm⟩
  | cons l layers ih =>
    rw [List.forall_mem_cons] at among
    rw [List.foldlM_cons, Outcome.bind_eq_value_iff] at run
    obtain ⟨s', step, run⟩ := run
    obtain ⟨hwc, args, f, shape, found, fragment, rfl⟩ := lowerLayer_eq_value_iff.1 step
    obtain ⟨inputs, hwc', primitive, planned⟩ :=
      Architecture.planned_of_mem (Model.validate_eq_value_iff.1 valid).1 among.1
    obtain rfl := Option.some.inj (shape.symm.trans planned.shape)
    have inner := (before_of_foldlM run).1.within within
    obtain ⟨share, adds, keeps⟩ :=
      Layer.keeps_of_fragment valid sized among.1 planned small counts inner fragment
    obtain ⟨numberedS, shares, all, operators, buffers⟩ :=
      ih among.2 (counts.emit l.name hwc f) (numbered.emit counts small inner) run
    refine ⟨numberedS, share :: shares, .cons keeps all, ?_, ?_⟩
    · rw [operators, adds.operators, List.flatMap_cons, List.append_assoc]
    · rw [buffers, adds.buffers, List.flatMap_cons, List.append_assoc]

end Lowering

/-! ### Lowered models -/

namespace FlatModel

/-- A lowered model that is not quantized has the shares of its layers one after the other.  Each of
them keeps the parameters of its layer bit for bit.  Behind the first buffer, which is empty, stand
those of the shares alone, and each of them is that of one constant.  Operators name tensors by
signed integers of 32 bits, so there are fewer than `2 ^ 31` tensors. -/
theorem parameters_of_lower {m : Model} {ops : CustomOps} {options : ConverterOptions}
    {F : FlatModel} (unquantized : options.quantize = .none) (sized : m.WellSized)
    (lowered : m.lower ops options = .value F) (small : F.tensors.length < 0x80000000) :
    ∃ p shares, m.validate ops = .value p ∧
      List.Forall₂ (Layer.Keeps m p F) m.architecture.layers shares ∧
      F.operators = shares.flatMap (·.operators) ∧ F.buffers = [] :: shares.flatMap (·.buffers) ∧
      (F.tensors.filter (·.buffer ≠ 0)).map (·.buffer.toNat)
        = List.range' 1 (F.buffers.length - 1) := by
  obtain ⟨p, s, finishes⟩ := Lowering.exists_finishes lowered
  have run := finishes.run
  rw [unquantized] at run
  obtain ⟨numbered, shares, keeps, operators, buffers⟩ :=
    Lowering.shares_of_foldlM finishes.valid sized small finishes.within (fun _ => id)
      Lowering.counts_start Lowering.numbered_start run
  obtain ⟨-, tensors, operators', buffers'⟩ := finishes.tables
  refine ⟨p, shares, finishes.valid, keeps, operators'.trans operators, buffers'.trans buffers, ?_⟩
  rw [tensors, buffers']
  exact numbered

/-- A model with parameters of every kind, among them a NaN with a payload and a negative zero. -/
def blending : Model where
  architecture := {
    name := "blending"
    layers := [
      ⟨"in", .input ⟨1, 1, 2⟩, []⟩,
      ⟨"mix", .conv2d 2 ⟨(1, 1), (1, 1), .same⟩ .sigmoid true, ["in"]⟩,
      ⟨"spread", .depthwiseConv2d ⟨(1, 1), (1, 1), .same⟩ .linear false, ["mix"]⟩,
      ⟨"norm", .batchNorm ⟨0x3a83126f⟩, ["spread"]⟩]
    inputs := ["in"]
    outputs := ["norm"] }
  weights := .ofList [
    ("mix/kernel", ⟨.f32, [1, 1, 2, 2],
      Bytes.ofSingles [⟨0x3f800000⟩, ⟨0x7fc00001⟩, ⟨0x80000000⟩, ⟨0x40000000⟩]⟩),
    ("mix/bias", ⟨.f32, [2], Bytes.ofSingles [⟨0x00000000⟩, ⟨0x80000000⟩]⟩),
    ("spread/depthwise_kernel", ⟨.f32, [1, 1, 2, 1], Bytes.ofSingles [⟨0x3f800000⟩, ⟨0x40000000⟩]⟩),
    ("norm/gamma", ⟨.f32, [2], Bytes.ofSingles [⟨0x3f800000⟩, ⟨0x3f800000⟩]⟩),
    ("norm/beta", ⟨.f32, [2], Bytes.ofSingles [⟨0x00000000⟩, ⟨0x3f000000⟩]⟩),
    ("norm/moving_mean", ⟨.f32, [2], Bytes.ofSingles [⟨0x00000000⟩, ⟨0x7f800000⟩]⟩),
    ("norm/moving_variance", ⟨.f32, [2], Bytes.ofSingles [⟨0x3f800000⟩, ⟨0x3f800000⟩]⟩)]

/-- A model with parameters of every kind keeps them; the filter is stored transposed, bit for bit. -/
theorem parameters_of_lower_blending :
    ∃ F p shares, blending.lower .empty .standard = .value F ∧
      List.Forall₂ (Layer.Keeps blending p F) blending.architecture.layers shares ∧
      F.buffers = [] :: shares.flatMap (·.buffers) ∧
      F.buffers[1]? = some
        (Bytes.ofSingles [⟨0x3f800000⟩, ⟨0x80000000⟩, ⟨0x7fc00001⟩, ⟨0x40000000⟩]) := by
  obtain ⟨F, lowered, known⟩ := Outcome.exists_of_holds
    (show (blending.lower .empty .standard).holds (fun F =>
      decide (F.tensors.length < 0x80000000) && decide (F.buffers[1]? = some
        (Bytes.ofSingles [⟨0x3f800000⟩, ⟨0x80000000⟩, ⟨0x7fc00001⟩, ⟨0x40000000⟩]))) = true by
      decide +kernel)
  rw [Bool.and_eq_true, decide_eq_true_iff, decide_eq_true_iff] at known
  have sized : blending.WellSized := Model.wellSized_of_entries (by decide +kernel)
  obtain ⟨p, shares, -, keeps, -, buffers, -⟩ := parameters_of_lower rfl sized lowered known.1
  exact ⟨F, p, shares, lowered, keeps, buffers, known.2⟩

end FlatModel

end FlatNet
