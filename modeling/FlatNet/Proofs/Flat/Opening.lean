import FlatNet.Flat.Encode
import FlatNet.Flat.Interpreter
import FlatNet.Proofs.Feature.Safety
import FlatNet.Proofs.Flat.Accepted

/-!
Opening flat models.

Whatever a flat model declares, opening it ends in a prepared model or is refused, unless a
quantized constant holds an integer that, less the zero point, is no integer of 32 bits: this
one difference is formed without a check.  What is prepared names tensors that exist, and the
sides of its windows are dimensions of tensors or numbers of four bytes.

* `FlatModel.constant_eq_some_iff`: when a tensor is a constant;
* `FlatModel.overflows`, `FlatModel.numbers_safe`: the one case in which reading a
  constant breaks off;
* `FlatStep.Sound`, `FlatModel.step_safe`: what is known of a prepared operator;
* `FlatGraph.prepare_ne_fault`: opening does not break off otherwise.
-/

namespace FlatNet

open Outcome (SafeUnless)

/-! ### Zero points -/

namespace Quantization

/-- An integer, less the zero point, is an integer of 32 bits. -/
def InRange (q : Quantization) (n : Int) : Prop :=
  -0x80000000 ≤ n - q.zeroPoint.toInt ∧ n - q.zeroPoint.toInt < 0x80000000

instance (q : Quantization) (n : Int) : Decidable (q.InRange n) :=
  inferInstanceAs (Decidable (_ ∧ _))

variable {ε : Type}

/-- A number is read unless the difference leaves the range. -/
lemma number_eq (q : Quantization) (n : Int) : (q.number n : Outcome ε Float32)
    = if q.InRange n then .value (Scalar.ofInt (n - q.zeroPoint.toInt) * q.scale.value)
      else .fault := by
  by_cases inside : q.InRange n
  · have checked : (checkedInt32 (n - q.zeroPoint.toInt) : Outcome ε Int)
        = .value (n - q.zeroPoint.toInt) := if_pos inside
    rw [number, checked, if_pos inside]
    rfl
  · have checked : (checkedInt32 (n - q.zeroPoint.toInt) : Outcome ε Int) = .fault :=
      if_neg inside
    rw [number, checked, if_neg inside]
    rfl

lemma mapM_number_eq_fault_iff (q : Quantization) (ns : List Int) :
    (ns.mapM q.number : Outcome ε (List Float32)) = .fault ↔ ∃ n ∈ ns, ¬ q.InRange n := by
  rw [Outcome.mapM_eq_fault_iff]
  · refine exists_congr fun n => and_congr_right fun _ => ?_
    rw [number_eq]
    split <;> simp_all
  · intro n _ e
    rw [number_eq]
    split <;> exact nofun

end Quantization

namespace FlatModel

variable {m : FlatModel} {index : Int32}

/-! ### Constants -/

lemma lookup_safe {α : Type} {B : Prop} (x : Except FormatError α) :
    (lookup x).SafeUnless B (fun a => x = .ok a) :=
  (SafeUnless.ofExcept x).mapError

/-- A tensor is a constant if it names a buffer, not the first one, and the buffer holds the
bytes of its shape. -/
lemma constant_eq_some_iff {data : Tensor} :
    m.constant index = .ok (some data) ↔
      ∃ t bytes, m.tensor index = .ok t ∧ t.buffer ≠ 0 ∧ m.buffers[t.buffer.toNat]? = some bytes ∧
        data = ⟨t.dtype, t.shape, bytes⟩ ∧ data.WellSized := by
  simp only [constant, except_bind_eq_ok_iff]
  constructor
  · rintro ⟨t, tensor, h⟩
    split at h
    · exact nomatch h
    rename_i named
    split at h
    · exact nomatch h
    rename_i bytes there
    split at h
    · rename_i sized
      obtain rfl := Option.some.inj (Except.ok.inj h)
      exact ⟨t, bytes, tensor, named, there, rfl, sized⟩
    · exact nomatch h
  · rintro ⟨t, bytes, tensor, named, there, rfl, sized⟩
    refine ⟨t, tensor, ?_⟩
    rw [if_neg named, there]
    exact if_pos sized

/-- A quantized constant holds an integer that its zero point takes out of the range. -/
def overflows (m : FlatModel) (index : Int32) : Bool :=
  match m.tensor index, m.constant index with
  | .ok t, .ok (some data) => t.dtype = .i8 && t.quantization.any fun q =>
      data.bytes.any fun b => !decide (q.InRange b.toInt8.toInt)
  | _, _ => false

/-- The numbers of a quantized constant are not read exactly if one of its integers is taken
out of the range. -/
lemma overflows_iff : m.overflows index = true ↔
    ∃ t q data, m.tensor index = .ok t ∧ t.dtype = .i8 ∧ t.quantization = some q ∧
      m.constant index = .ok (some data) ∧ ∃ b ∈ data.bytes, ¬ q.InRange b.toInt8.toInt := by
  unfold overflows
  constructor
  · intro h
    split at h
    · rename_i t data tensor constant
      rw [Bool.and_eq_true, decide_eq_true_eq, Option.any_eq_true] at h
      obtain ⟨dtype, q, quantization, some⟩ := h
      rw [List.any_eq_true] at some
      obtain ⟨b, hb, outside⟩ := some
      exact ⟨t, q, data, tensor, dtype, quantization, constant, b, hb, by simpa using outside⟩
    · exact nomatch h
  · rintro ⟨t, q, data, tensor, dtype, quantization, constant, b, hb, outside⟩
    rw [tensor, constant]
    simp only [dtype, quantization, decide_true, Option.any_some, Bool.true_and, List.any_eq_true]
    exact ⟨b, hb, by simpa using outside⟩

/-- Reading the numbers of a constant breaks off only in this one case. -/
lemma numbers_safe (m : FlatModel) (index : Int32) :
    (m.numbers index).SafeUnless (m.overflows index = true)
      (fun _ => ∃ t, m.tensor index = .ok t ∧ ∃ n, t.shape.byteCount? t.dtype = some n) := by
  refine (lookup_safe (m.tensor index)).bind fun t tensor => ?_
  refine (lookup_safe (m.constant index)).bind fun found constant => ?_
  refine (SafeUnless.orError _ found).bind ?_
  rintro data rfl
  have sized : ∃ t, m.tensor index = .ok t ∧ ∃ n, t.shape.byteCount? t.dtype = some n := by
    obtain ⟨t', bytes, tensor', -, -, rfl, sized⟩ := constant_eq_some_iff.1 constant
    exact ⟨t', tensor', _, sized⟩
  split
  · exact (SafeUnless.ofExcept data.singles).mapError.bind fun _ _ => sized
  · rename_i q dtype quantization
    refine (SafeUnless.ofExcept data.smalls).mapError.bind fun ns smalls => ?_
    refine SafeUnless.bind (Q := fun _ => True) ?_ fun _ _ => sized
    -- only here can something break off: a zero point is taken off a byte with no check
    cases read : (ns.mapM q.number : PrepareOutcome (List Float32)) with
    | value xs => trivial
    | error e => trivial
    | fault =>
      obtain ⟨n, hn, outside⟩ := (q.mapM_number_eq_fault_iff ns).1 read
      obtain ⟨-, -, listed⟩ := except_bind_eq_ok_iff.1 smalls
      obtain ⟨b, hb, rfl⟩ := List.mem_map.1 (Except.ok.inj listed ▸ hn)
      exact overflows_iff.2 ⟨t, q, data, tensor, dtype, quantization, constant, b, hb, outside⟩
  · trivial

/-! ### Operators -/

/-- An operator names a quantized constant with an integer that is taken out of the range. -/
def Overflowing (m : FlatModel) (op : FlatOperator) : Prop :=
  ∃ index ∈ op.inputs, m.overflows index = true

/-- The dimensions of tensors are numbers of four bytes. -/
def Narrow (m : FlatModel) : Prop := ∀ t ∈ m.tensors, ∀ n ∈ t.shape, n < 0x100000000

end FlatModel

namespace FlatStep

/-- The places of the tensors that a step reads. -/
def reads : FlatStep → List Nat
  | conv input .. | depthwise input .. | batchNorm input .. | activate input _ | maxPool input ..
  | resize input .. => [input]
  | add lhs rhs _ => [lhs, rhs]
  | concat inputs _ => inputs

/-- The sizes in a step are small: the sides of its window or of its result are numbers of four
bytes, and the weights that a filter has for each input channel make a size. -/
def Small : FlatStep → Prop
  | conv _ _ out _ w _ =>
    w.Narrow ∧ ∃ n, Size.product? 1 [out, w.kernel.1, w.kernel.2] = some n
  | depthwise _ _ _ w _ | maxPool _ w _ => w.Narrow
  | resize _ size _ => size.1 < 0x100000000 ∧ size.2 < 0x100000000
  | batchNorm .. | activate .. | add .. | concat .. => True

/-- What is known of a step that was prepared among `n` tensors, provided that their dimensions
are `narrow`. -/
structure Sound (n : Nat) (narrow : Prop) (step : FlatStep) : Prop where
  /-- It reads tensors that exist. -/
  reads : ∀ place ∈ step.reads, place < n
  /-- Its sizes are small. -/
  small : narrow → step.Small

end FlatStep

section Operators

variable {m : FlatModel} {op : FlatOperator} {B : Prop}

lemma placeOf_safe {n : Nat} {index : Int32} (there : 0 ≤ index → InTable n index) :
    (placeOf index).SafeUnless B (· < n) := by
  unfold placeOf
  split
  · rename_i sign
    exact (there (Int32.le_iff_toInt_le.2 sign)).2
  · trivial

lemma sideOf_safe (n : Int32) : (sideOf n).SafeUnless B (· < 0x100000000) := by
  unfold sideOf
  split
  · have high := n.toInt_lt
    change n.toInt.toNat < 0x100000000
    omega
  · trivial

lemma windowOf_narrow {kh kw : Nat} (rows : kh < 0x100000000) (columns : kw < 0x100000000)
    (strideH strideW : UInt32) (padding : Padding) :
    (windowOf (kh, kw) strideH strideW padding).Narrow := ⟨rows, columns⟩

namespace FlatModel

lemma argument_safe (code : Opcode) (op : FlatOperator) (n : Nat) :
    (argument code op n).SafeUnless B (· ∈ op.inputs) :=
  (SafeUnless.orError _ _).mono id fun _ => List.mem_of_getElem?

lemma numbers_safe_of_mem {index : Int32} (named : index ∈ op.inputs) :
    (m.numbers index).SafeUnless (m.Overflowing op)
      (fun _ => ∃ t, m.tensor index = .ok t ∧ ∃ n, t.shape.byteCount? t.dtype = some n) :=
  (m.numbers_safe index).mono (fun bad => ⟨index, named, bad⟩) fun _ h => h

lemma numbers?_safe (m : FlatModel) (op : FlatOperator) (n : Nat) :
    (m.numbers? (op.inputs[n]?.getD (-1))).SafeUnless (m.Overflowing op) (fun _ => True) := by
  unfold numbers?
  cases found : op.inputs[n]? with
  | none => trivial
  | some index =>
    rw [Option.getD_some]
    split
    · trivial
    · exact (numbers_safe_of_mem (List.mem_of_getElem? found)).bind fun _ _ => trivial

lemma resizeSize_safe (m : FlatModel) (index : Int32) :
    (m.resizeSize index).SafeUnless B
      (fun size => size.1 < 0x100000000 ∧ size.2 < 0x100000000) := by
  refine (lookup_safe _).bind fun found _ => ?_
  refine (SafeUnless.orError _ found).bind fun data _ => ?_
  refine (SafeUnless.ofExcept data.ints).mapError.bind fun sides _ => ?_
  split
  · rename_i height width _
    refine (sideOf_safe height).bind fun h rows => ?_
    exact (sideOf_safe width).bind fun w columns => ⟨rows, columns⟩
  · trivial

lemma mem_of_tensor {index : Int32} {t : FlatTensor} (h : m.tensor index = .ok t) :
    t ∈ m.tensors := by
  unfold tensor entry? at h
  split at h
  · rename_i found
    split at found
    · exact Except.ok.inj h ▸ List.mem_of_getElem? found
    · exact nomatch found
  · exact nomatch h

/-- The weights that a stored filter has for each input channel make a size. -/
lemma filter_small {out kh kw c n : Nat} {dtype : DType}
    (sized : Shape.byteCount? [out, kh, kw, c] dtype = some n) :
    ∃ k, Size.product? 1 [out, kh, kw] = some k := by
  simp only [Shape.byteCount?, Shape.count?, Size.product?, List.foldlM_cons, List.foldlM_nil,
    Option.bind_eq_bind, Option.bind_eq_some_iff, Option.map_eq_some_iff] at sized ⊢
  obtain ⟨_, ⟨_, ⟨_, first, _, second, k, third, -⟩, -⟩, -⟩ := sized
  exact ⟨k, _, first, _, second, _, third, rfl⟩

/-- What is prepared of an operator is sound, and the preparation breaks off only over a
quantized constant that the operator names. -/
lemma stepOf_safe (places : m.PlacesExist) (listed : op ∈ m.operators) (code : Opcode)
    {input : Nat} (there : input < m.tensors.length) (output : Int32) :
    (m.stepOf op code input output).SafeUnless (m.Overflowing op)
      (FlatStep.Sound m.tensors.length m.Narrow) := by
  have one : ∀ place ∈ [input], place < m.tensors.length := List.forall_mem_singleton.2 there
  unfold stepOf
  dsimp only
  split
  · refine (argument_safe ..).bind fun filter named => ?_
    refine (lookup_safe _).bind fun t tensor => ?_
    split
    · rename_i out kh kw c shape
      -- the filter has as many elements as its shape says, so its sides are small
      refine (numbers_safe_of_mem named).bind ?_
      rintro weights ⟨t', tensor', n, sized⟩
      obtain rfl := Except.ok.inj (tensor.symm.trans tensor')
      refine (m.numbers?_safe op 2).bind fun bias _ => ⟨one, fun narrow => ⟨?_, ?_⟩⟩
      · have dims := narrow t (mem_of_tensor tensor)
        rw [shape] at dims
        exact windowOf_narrow (dims kh (by simp)) (dims kw (by simp)) ..
      · exact filter_small (shape ▸ sized)
    -- a filter of another rank is refused
    · trivial
  · refine (SafeUnless.require _ _).bind fun _ _ => ?_
    refine (argument_safe ..).bind fun filter named => ?_
    refine (lookup_safe _).bind fun t tensor => ?_
    split
    · rename_i kh kw c shape
      refine (numbers_safe_of_mem named).bind fun weights _ => ?_
      refine (m.numbers?_safe op 2).bind fun bias _ => ⟨one, fun narrow => ?_⟩
      have dims := narrow t (mem_of_tensor tensor)
      rw [shape] at dims
      exact windowOf_narrow (dims kh (by simp)) (dims kw (by simp)) ..
    · trivial
  · refine (argument_safe ..).bind fun _ named => ?_
    refine (numbers_safe_of_mem named).bind fun gamma _ => ?_
    refine (argument_safe ..).bind fun _ named => ?_
    refine (numbers_safe_of_mem named).bind fun beta _ => ?_
    refine (argument_safe ..).bind fun _ named => ?_
    refine (numbers_safe_of_mem named).bind fun mean _ => ?_
    refine (argument_safe ..).bind fun _ named => ?_
    exact (numbers_safe_of_mem named).bind fun variance _ => ⟨one, fun _ => trivial⟩
  · exact ⟨one, fun _ => trivial⟩
  · exact ⟨one, fun _ => trivial⟩
  · exact ⟨one, fun _ => trivial⟩
  · refine (argument_safe ..).bind fun rhs named => ?_
    refine (placeOf_safe (places.operands op listed rhs named)).bind fun place inside => ?_
    exact ⟨List.forall_mem_cons.2 ⟨there, List.forall_mem_singleton.2 inside⟩, fun _ => trivial⟩
  · refine (SafeUnless.require _ _).bind fun _ _ => ?_
    refine (SafeUnless.mapM_all fun index named =>
      placeOf_safe (places.operands op listed index named)).bind fun inputs inside => ?_
    exact ⟨inside, fun _ => trivial⟩
  · exact ⟨one, fun _ => windowOf_narrow (UInt32.toNat_lt _) (UInt32.toNat_lt _) ..⟩
  · refine (argument_safe ..).bind fun index _ => ?_
    refine (m.resizeSize_safe index).bind fun size small => ?_
    refine (lookup_safe _).bind fun t _ => ?_
    exact (SafeUnless.require _ _).bind fun _ _ => ⟨one, fun _ => small⟩
  · trivial

/-- The same with the checks before it. -/
theorem step_safe (places : m.PlacesExist) (listed : op ∈ m.operators) :
    (m.step op).SafeUnless (m.Overflowing op)
      (fun s => s.1.Sound m.tensors.length m.Narrow) := by
  refine (lookup_safe _).bind fun code _ => ?_
  split
  · rename_i output outputs
    have written : output ∈ op.outputs := by simp [outputs]
    refine (placeOf_safe fun _ => places.results op listed output written).bind fun place _ => ?_
    refine (argument_safe ..).bind fun index named => ?_
    refine (placeOf_safe (places.operands op listed index named)).bind fun input there => ?_
    exact (stepOf_safe places listed code there output).bind fun _ sound => sound
  · trivial

end FlatModel

end Operators

/-! ### Models -/

namespace FlatGraph

variable {m : FlatModel} {B : Prop}

/-- What is known of a model that was prepared, provided that the dimensions of its tensors are
`narrow`. -/
structure Sound (narrow : Prop) (g : FlatGraph) : Prop where
  /-- The sides of its inputs are numbers of four bytes. -/
  inputs : narrow → ∀ e ∈ g.inputs, e.hwc.height < 0x100000000 ∧ e.hwc.width < 0x100000000
  /-- Its outputs are tensors that exist. -/
  outputs : ∀ e ∈ g.outputs, e.place < g.names.length
  /-- Its steps are sound. -/
  steps : ∀ s ∈ g.steps, s.1.Sound g.names.length narrow

lemma endpoint_safe {index : Int32} (there : InTable m.tensors.length index) :
    (endpoint m index).SafeUnless B fun e => e.place < m.tensors.length ∧
      (m.Narrow → e.hwc.height < 0x100000000 ∧ e.hwc.width < 0x100000000) := by
  refine (SafeUnless.ofExcept _).mapError.bind fun t tensor => ?_
  refine (SafeUnless.require _ _).bind fun _ _ => ?_
  split
  · rename_i n height width channels shape
    refine ⟨there.2, fun narrow => ?_⟩
    have dims := narrow t (FlatModel.mem_of_tensor tensor)
    rw [shape] at dims
    exact ⟨dims height (by simp), dims width (by simp)⟩
  · trivial

/-- What is prepared is sound, and the preparation breaks off only over a quantized constant
with an integer that its zero point takes out of the range. -/
theorem prepare_safe (m : FlatModel) :
    (prepare m).SafeUnless (∃ op ∈ m.operators, m.Overflowing op) (Sound m.Narrow) := by
  refine (SafeUnless.ofExcept _).mapError.bind fun _ checked => ?_
  -- the places were checked first; everything below reads only at such places
  have places := FlatModel.checkIndices_eq_ok_iff.1 checked
  obtain ⟨ins, outs⟩ := List.forall_mem_append.1 places.ends
  refine (SafeUnless.mapM_all fun index named => endpoint_safe (ins index named)).bind
    fun inputs hin => ?_
  refine (SafeUnless.mapM_all fun index named => endpoint_safe (outs index named)).bind
    fun outputs hout => ?_
  refine (SafeUnless.mapM_all (Q := fun s => s.1.Sound m.tensors.length m.Narrow)
    fun entry named => ?_).bind fun steps sound => ?_
  · have listed : entry.1 ∈ m.operators := List.fst_mem_of_mem_zipIdx named
    exact ((FlatModel.step_safe places listed).mono (fun bad => ⟨_, listed, bad⟩)
      fun _ h => h).mapError
  · refine ⟨fun narrow e he => (hin e he).2 narrow, fun e he => ?_, fun s hs => ?_⟩
    · rw [List.length_map]
      exact (hout e he).1
    · rw [List.length_map]
      exact sound s hs

/-- Opening a flat model does not break off if no operator names a quantized constant with an
integer that its zero point takes out of the range. -/
theorem prepare_ne_fault {m : FlatModel}
    (inRange : ∀ op ∈ m.operators, ∀ index ∈ op.inputs, m.overflows index = false) :
    prepare m ≠ .fault := by
  intro broken
  obtain ⟨op, listed, index, named, bad⟩ := (prepare_safe m).of_fault broken
  exact absurd bad (by rw [inRange op listed index named]; exact Bool.false_ne_true)

/-- A convolution of a single pixel with the quantized weight one. -/
def quantizedPoint (zeroPoint : Int32) : FlatModel where
  version := FlatModel.formatVersion
  description := ""
  metadata := []
  codes := [.conv2d]
  tensors := [
    ⟨"in", .f32, [1, 1, 1, 1], 0, none⟩,
    ⟨"weight", .i8, [1, 1, 1, 1], 1, some ⟨.ofFloat 1, zeroPoint⟩⟩,
    ⟨"out", .f32, [1, 1, 1, 1], 0, none⟩]
  operators := [⟨0, [0, 1], [2], .conv2d .valid 1 1 .none⟩]
  inputs := [0]
  outputs := [2]
  buffers := [[], [1]]

/-- A quantized weight whose zero point is zero takes nothing out of the range. -/
theorem prepare_ne_fault_quantizedPoint :
    (∀ op ∈ (quantizedPoint 0).operators, ∀ index ∈ op.inputs,
      (quantizedPoint 0).overflows index = false) ∧ prepare (quantizedPoint 0) ≠ .fault := by
  have checked : ((quantizedPoint 0).operators.all fun op =>
      op.inputs.all fun index => !(quantizedPoint 0).overflows index) = true := by decide +kernel
  have inRange : ∀ op ∈ (quantizedPoint 0).operators, ∀ index ∈ op.inputs,
      (quantizedPoint 0).overflows index = false := by
    intro op listed index named
    have fits := List.all_eq_true.1 (List.all_eq_true.1 checked op listed) index named
    rwa [Bool.not_eq_true'] at fits
  exact ⟨inRange, prepare_ne_fault inRange⟩

/-- With the least zero point the bytes of the model are accepted, and opening it breaks off. -/
theorem prepare_eq_fault_quantizedPoint :
    ∃ m, FlatModel.decode (quantizedPoint (-0x80000000)).encode = .value m ∧
      prepare m = .fault := by
  have found : (FlatModel.decode (quantizedPoint (-0x80000000)).encode).holds
      (fun m => (prepare m).isFault) = true := by decide +kernel
  obtain ⟨m, accepted, broken⟩ := Outcome.exists_of_holds found
  exact ⟨m, accepted, Outcome.isFault_iff.1 broken⟩

end FlatGraph

end FlatNet
