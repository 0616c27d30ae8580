import FlatNet.Proofs.Flat.Tables
import FlatNet.Proofs.Graph.Model

/-!
Prepared programs of layers.

The operators laid out for a layer are prepared as a short program, which depends on the kind
of the layer, its prepared parameters and the places of the values it reads, and on nothing
else.  Of a quantized kernel other numbers are read than those of the layer, but as many.

* `FlatModel.numbers_ofSingles`: constants of floating-point words are read back;
* `FlatModel.exists_numbers_kernel`: kernels are read, quantized or not;
* `FlatModel.Prepares`: an operator passes its checks and is prepared as a step;
* `LayerKind.program`: the program of a kind of layer;
* `Layer.rendered_of_fragment`: the operators laid out for a layer are the program of what is
  read for its parameters;
* `Layer.realized_of_fragment`: without quantization they are the program of the layer itself.
-/

namespace FlatNet

/-! ### Constants -/

@[simp] lemma Constant.shape_kernel (q : Quantize) (name : String) (shape : Shape)
    (xs : List Binary32) : (kernel q name shape xs).shape = shape := by
  cases q <;> rfl

lemma length_quantize (xs : List Binary32) : (quantize xs).1.length = xs.length := by
  simp only [quantize, List.length_map]

/-- A quantized number stands for a number. -/
lemma exists_number {ε : Type} (scale : Binary32) (b : UInt8) :
    ∃ x, (Quantization.number ⟨scale, 0⟩ b.toInt8.toInt : Outcome ε Float32) = .value x := by
  have low := b.toInt8.le_toInt
  have high := b.toInt8.toInt_lt
  have small : (checkedInt32 (b.toInt8.toInt - (0 : Int32).toInt) : Outcome ε Int)
      = .value (b.toInt8.toInt - (0 : Int32).toInt) := by
    rw [checkedInt32, Int32.toInt_zero, if_pos (by omega)]
  exact ⟨_, by rw [Quantization.number]; dsimp only; rw [small]; rfl⟩

namespace FlatModel

variable {F : FlatModel}

/-- A constant of floating-point words, one for each element, is read back. -/
lemma numbers_ofSingles {k : Nat} {index : Int32} {name : String} {shape : Shape}
    {xs : List Binary32} (holds : F.HoldsConstant k (.ofSingles name shape xs))
    (points : F.Points index k) (full : 0 ∉ shape) (length : xs.length = shape.volume)
    (small : 4 * xs.length < Size.bound) :
    F.numbers index = .value (xs.map Binary32.value).toArray := by
  have sized : shape.byteCount? .f32 = some (Bytes.ofSingles xs).length := by
    rw [Shape.byteCount?_eq_some_iff full, Bytes.length_ofSingles, ← length,
      show DType.f32.width = 4 from rfl, Nat.mul_comm]
    exact ⟨small, rfl⟩
  obtain ⟨b, tensor, constant⟩ := holds.constant points sized
  have singles : (⟨.f32, shape, Bytes.ofSingles xs⟩ : Tensor).singles = .ok xs := by
    rw [Tensor.singles_eq rfl, Bytes.words_ofSingles]
  simp only [numbers, lookup, tensor, constant, Constant.ofSingles, Outcome.ofExcept_ok,
    Outcome.mapError_value, Outcome.value_bind, Outcome.orError_some]
  rw [show (Outcome.ofExcept (⟨.f32, shape, Bytes.ofSingles xs⟩ : Tensor).singles
    : Outcome TensorError _) = .value xs from by rw [singles]; rfl]
  rfl

/-- A kernel with one word for each element is read, and as it is if it is not quantized. -/
lemma exists_numbers_kernel {q : Quantize} {k : Nat} {index : Int32} {name : String}
    {shape : Shape} {xs : List Binary32} (holds : F.HoldsConstant k (.kernel q name shape xs))
    (points : F.Points index k) (full : 0 ∉ shape) (length : xs.length = shape.volume)
    (small : 4 * xs.length < Size.bound) :
    ∃ read, F.numbers index = .value read ∧
      (q = .none → read = (xs.map Binary32.value).toArray) := by
  cases q with
  | none => exact ⟨_, numbers_ofSingles holds points full length small, fun _ => rfl⟩
  | int8Weights =>
    have sized : shape.byteCount? .i8 = some (quantize xs).1.length := by
      rw [Shape.byteCount?_eq_some_iff full, length_quantize, ← length,
        show DType.i8.width = 1 from rfl, Nat.mul_one]
      exact ⟨by omega, rfl⟩
    obtain ⟨b, tensor, constant⟩ := holds.constant points sized
    -- zero points are zero here, so that no byte is out of range
    have each : ∀ n ∈ (quantize xs).1.map fun b => b.toInt8.toInt,
        ∃ x, (Quantization.number (quantize xs).2 n : PrepareOutcome Float32) = .value x :=
      List.forall_mem_map.2 fun b _ => exists_number _ b
    obtain ⟨read, all⟩ := exists_forall₂ each
    have smalls : (⟨.i8, shape, (quantize xs).1⟩ : Tensor).smalls
        = .ok ((quantize xs).1.map fun b => b.toInt8.toInt) := Tensor.smalls_eq rfl
    refine ⟨read.toArray, ?_, nofun⟩
    simp only [numbers, lookup, tensor, constant, Constant.kernel, Outcome.ofExcept_ok,
      Outcome.mapError_value, Outcome.value_bind, Outcome.orError_some, smalls,
      Outcome.mapM_eq_value_iff.2 all, Outcome.pure_eq]

/-- The shape of a constant is that of its tensor. -/
lemma HoldsConstant.tensor {k : Nat} {index : Int32} {c : Constant} (holds : F.HoldsConstant k c)
    (points : F.Points index k) :
    ∃ b, F.tensor index = .ok ⟨c.name, c.dtype, c.shape, b, c.quantization⟩ := by
  obtain ⟨b, -, found, -⟩ := holds
  exact ⟨b, points.tensor found⟩

/-! ### Operators -/

/-- A pooling operator pools by its options. -/
lemma stepOf_maxPool2d {op : FlatOperator} {padding : Padding}
    {strideH strideW filterH filterW : UInt32} {a : FusedActivation} {input : Nat} {out : Int32}
    (options : op.options = .pool2d padding strideH strideW filterH filterW a) :
    F.stepOf op .maxPool2d input out = .value
      (.maxPool input (windowOf (filterH.toNat, filterW.toNat) strideH strideW padding)
        a.activation) := by
  simp only [stepOf, options, Outcome.pure_eq]

/-- An operator passes its checks and is prepared as a step. -/
structure Prepares (F : FlatModel) (op : FlatOperator) (step : FlatStep × Nat) : Prop where
  /-- The places it names exist. -/
  places : F.checkOperator op = .ok ()
  /-- It is prepared. -/
  step : F.step op = .value step

variable {op : FlatOperator} {code : Opcode} {inputs : List Int32} {options : OperatorOptions}
  {place : Nat} {name : String} {hwc : Hwc}

/-- An operator is prepared if its first input is there, the others are there or left out, and
its code can be prepared. -/
lemma Emitted.prepares (emitted : F.Emitted op code inputs options place name hwc)
    (small : F.tensors.length < 0x80000000) {x : Int32} {k : Nat} (first : inputs.head? = some x)
    (points : F.Points x k) (others : ∀ i ∈ inputs, i = -1 ∨ ∃ k', F.Points i k')
    {st : FlatStep} (step : F.stepOf op code k (Int32.ofNat place) = .value st) :
    F.Prepares op (st, place) := by
  have output := points_ofNat small emitted.value.inside
  constructor
  · have checked : ∀ i ∈ op.inputs, (if 0 ≤ i then F.checkTensor i else .ok ()) = .ok () := by
      intro i hi
      rw [emitted.inputs] at hi
      split
      · rename_i inside
        rcases others i hi with rfl | ⟨k', hk'⟩
        · exact absurd inside (by decide)
        · exact hk'.checkTensor
      · rfl
    have inputs := (forM_eq_ok_iff (u := ())).2 checked
    have outputs : op.outputs.forM F.checkTensor = .ok () := by
      rw [emitted.outputs, forM_eq_ok_iff]
      intro i hi
      rw [List.mem_singleton.1 hi]
      exact output.checkTensor
    rw [checkOperator, emitted.code]
    simp only [bind, Except.bind, inputs, outputs]
  · have argument : argument code op 0 = .value x := by
      rw [FlatModel.argument, emitted.inputs, ← List.head?_eq_getElem?, first]
      rfl
    rw [FlatModel.step, emitted.code]
    simp only [lookup, emitted.outputs, argument, output.placeOf, points.placeOf, step,
      Outcome.ofExcept_ok, Outcome.mapError_value, Outcome.value_bind, Outcome.pure_eq]

section Codes

variable (small : F.tensors.length < 0x80000000) {x : Int32} {k : Nat} (points : F.Points x k)

include small points

lemma Emitted.conv2d {f b : Int32} {padding : Padding} {strideH strideW : UInt32}
    {a : FusedActivation}
    (emitted : F.Emitted op .conv2d [x, f, b] (.conv2d padding strideH strideW a) place name hwc)
    {t : FlatTensor} {kf : Nat} (filter : F.Points f kf) (tensor : F.tensor f = .ok t)
    {out kh kw ci : Nat} (shape : t.shape = [out, kh, kw, ci]) {weights : Array Float32}
    (numbers : F.numbers f = .value weights) {bias : Option (Array Float32)}
    (biased : F.numbers? b = .value bias) (there : b = -1 ∨ ∃ kb, F.Points b kb) :
    F.Prepares op
      (.conv k weights out bias (windowOf (kh, kw) strideH strideW padding) a.activation,
        place) := by
  refine emitted.prepares small rfl points ?_ ?_
  · simp only [List.forall_mem_cons]
    exact ⟨.inr ⟨k, points⟩, .inr ⟨kf, filter⟩, there, List.forall_mem_nil _⟩
  · simp only [stepOf, emitted.options, argument, emitted.inputs, List.getElem?_cons_succ,
      List.getElem?_cons_zero, Outcome.orError_some, Outcome.value_bind, lookup, tensor,
      Outcome.ofExcept_ok, Outcome.mapError_value, shape, numbers, Option.getD_some, biased,
      Outcome.pure_eq]

lemma Emitted.depthwiseConv2d {f b : Int32} {padding : Padding} {strideH strideW : UInt32}
    {a : FusedActivation}
    (emitted : F.Emitted op .depthwiseConv2d [x, f, b]
      (.depthwiseConv2d padding strideH strideW 1 a) place name hwc)
    {t : FlatTensor} {kf : Nat} (filter : F.Points f kf) (tensor : F.tensor f = .ok t)
    {kh kw c : Nat} (shape : t.shape = [1, kh, kw, c]) {weights : Array Float32}
    (numbers : F.numbers f = .value weights) {bias : Option (Array Float32)}
    (biased : F.numbers? b = .value bias) (there : b = -1 ∨ ∃ kb, F.Points b kb) :
    F.Prepares op
      (.depthwise k weights bias (windowOf (kh, kw) strideH strideW padding) a.activation,
        place) := by
  refine emitted.prepares small rfl points ?_ ?_
  · simp only [List.forall_mem_cons]
    exact ⟨.inr ⟨k, points⟩, .inr ⟨kf, filter⟩, there, List.forall_mem_nil _⟩
  · simp only [stepOf, emitted.options, argument, emitted.inputs, List.getElem?_cons_succ,
      List.getElem?_cons_zero, Outcome.orError_some, Outcome.value_bind, lookup, tensor,
      Outcome.ofExcept_ok, Outcome.mapError_value, shape, numbers, Option.getD_some, biased,
      Outcome.pure_eq, decide_true, Outcome.require_true]

lemma Emitted.batchNorm {gamma beta mean variance : Int32} {epsilon : Binary32}
    (emitted : F.Emitted op .batchNorm [x, gamma, beta, mean, variance] (.batchNorm epsilon) place
      name hwc)
    (there : ∀ i ∈ [gamma, beta, mean, variance], ∃ k', F.Points i k')
    {g b u v : Array Float32} (hgamma : F.numbers gamma = .value g)
    (hbeta : F.numbers beta = .value b) (hmean : F.numbers mean = .value u)
    (hvariance : F.numbers variance = .value v) :
    F.Prepares op (.batchNorm k ⟨g, b, u, v⟩ epsilon, place) := by
  refine emitted.prepares small rfl points ?_ ?_
  · exact List.forall_mem_cons.2 ⟨.inr ⟨k, points⟩, fun i hi => .inr (there i hi)⟩
  · simp only [stepOf, emitted.options, argument, emitted.inputs, List.getElem?_cons_succ,
      List.getElem?_cons_zero, Outcome.orError_some, Outcome.value_bind, hgamma, hbeta, hmean,
      hvariance, Outcome.pure_eq]

/-- The code of an activation function on its own. -/
lemma Emitted.activate {a : Activation} (applied : (code, a) ∈
      [(Opcode.relu, Activation.relu), (.relu6, .relu6), (.logistic, .sigmoid)])
    (emitted : F.Emitted op code [x] options place name hwc) :
    F.Prepares op (.activate k a, place) := by
  refine emitted.prepares small rfl points ?_ ?_
  · exact List.forall_mem_singleton.2 (.inr ⟨k, points⟩)
  · simp only [List.mem_cons, List.not_mem_nil, or_false, Prod.mk.injEq] at applied
    obtain ⟨rfl, rfl⟩ | ⟨rfl, rfl⟩ | ⟨rfl, rfl⟩ := applied <;> rfl

lemma Emitted.add {y : Int32} {ky : Nat} (right : F.Points y ky) {a : FusedActivation}
    (emitted : F.Emitted op .add [x, y] (.add a) place name hwc) :
    F.Prepares op (.add k ky a.activation, place) := by
  refine emitted.prepares small rfl points ?_ ?_
  · simp only [List.forall_mem_cons]
    exact ⟨.inr ⟨k, points⟩, .inr ⟨ky, right⟩, List.forall_mem_nil _⟩
  · simp only [stepOf, emitted.options, argument, emitted.inputs, List.getElem?_cons_succ,
      List.getElem?_cons_zero, Outcome.orError_some, Outcome.value_bind, right.placeOf,
      Outcome.pure_eq]

lemma Emitted.concatenation {rest : List Int32} {ks : List Nat} {a : FusedActivation}
    (there : List.Forall₂ F.Points (x :: rest) ks)
    (emitted : F.Emitted op .concatenation (x :: rest) (.concatenation 3 a) place name hwc) :
    F.Prepares op (.concat ks a.activation, place) := by
  have places : (x :: rest).mapM placeOf = .value ks := by
    rw [Outcome.mapM_eq_value_iff]
    exact there.imp fun i k' h => h.placeOf
  refine emitted.prepares small rfl points (fun i hi => ?_) ?_
  · obtain ⟨j, hj, rfl⟩ := List.mem_iff_getElem.1 hi
    exact .inr ⟨_, there.get hj (there.length_eq ▸ hj)⟩
  · simp only [stepOf, emitted.options, decide_true, Bool.true_or, Outcome.require_true,
      Outcome.value_bind, emitted.inputs, places, Outcome.pure_eq]

lemma Emitted.maxPool2d {padding : Padding} {strideH strideW filterH filterW : UInt32}
    {a : FusedActivation}
    (emitted : F.Emitted op .maxPool2d [x] (.pool2d padding strideH strideW filterH filterW a) place
      name hwc) :
    F.Prepares op
      (.maxPool k (windowOf (filterH.toNat, filterW.toNat) strideH strideW padding) a.activation,
        place) := by
  refine emitted.prepares small rfl points ?_ (stepOf_maxPool2d emitted.options)
  exact List.forall_mem_singleton.2 (.inr ⟨k, points⟩)

lemma Emitted.resizeBilinear {size : Int32} {s : Sampling} {h v : Nat}
    (emitted : F.Emitted op .resizeBilinear [x, size]
      (.resizeBilinear s.alignCorners s.halfPixelCenters) place name hwc)
    {ks : Nat} (there : F.Points size ks) (read : F.resizeSize size = .value (h, v))
    (height : hwc.height = h) (width : hwc.width = v) :
    F.Prepares op (.resize k (h, v) s, place) := by
  refine emitted.prepares small rfl points ?_ ?_
  · simp only [List.forall_mem_cons]
    exact ⟨.inr ⟨k, points⟩, .inr ⟨ks, there⟩, List.forall_mem_nil _⟩
  · have output := (points_ofNat small emitted.value.inside).tensor emitted.value
    simp only [stepOf, emitted.options, argument, emitted.inputs, List.getElem?_cons_succ,
      List.getElem?_cons_zero, Outcome.orError_some, Outcome.value_bind, read, lookup, output,
      Outcome.ofExcept_ok, Outcome.mapError_value, height, width, List.length_cons,
      List.length_nil, List.drop_succ_cons, List.drop_zero, List.take_succ_cons, List.take_zero,
      decide_true, Bool.and_self, Outcome.require_true, Outcome.pure_eq]

end Codes

end FlatModel

/-! ### Programs of kinds -/

/-- A step with a fused activation function, and the logistic function behind it if it must
follow. -/
def fusedSteps (a : Activation) (main : Activation → FlatStep) (place : Nat) :
    List (FlatStep × Nat) :=
  (main (fuse a).1.activation, place)
    :: if (fuse a).2 then [(.activate place .sigmoid, place + 1)] else []

/-- The sums of a value and further ones, each at the next place. -/
def sumSteps (sum place : Nat) : List Nat → List (FlatStep × Nat)
  | [] => []
  | rhs :: rest => (.add sum rhs .linear, place) :: sumSteps place (place + 1) rest

/-- The program of a kind of layer, from its prepared parameters, its primitive and the places
of the values it reads; the results stand at the places from `place`. -/
def LayerKind.program (kind : LayerKind) (params : Option LayerParams)
    (primitive : Option Primitive) (args : List Nat) (place : Nat) : List (FlatStep × Nat) :=
  match kind, params, primitive, args with
  | .conv2d filters w a _, some (.conv filter bias), _, [x] =>
    fusedSteps a (.conv x filter filters bias w) place
  | .depthwiseConv2d w a _, some (.depthwise filter bias), _, [x] =>
    fusedSteps a (.depthwise x filter bias w) place
  | .batchNorm epsilon, some (.norm params), _, [x] => [(.batchNorm x params epsilon, place)]
  | .activation .linear, _, _, _ => []
  | .activation a, _, _, [x] => [(.activate x a, place)]
  | .add, _, _, x :: rest => sumSteps x place rest
  | .concat, _, _, xs => [(.concat xs .linear, place)]
  | .maxPool2d pool strides padding, _, _, [x] =>
    [(.maxPool x (poolWindow pool strides padding) .linear, place)]
  | .custom _ _, _, some (.resizeBilinear size s), [x] => [(.resize x size s, place)]
  | _, _, _, _ => []

/-- The place of the value of a program: that of its last step, or that of the value it reads
if it has none. -/
def resultPlace (args : List Nat) (place : Nat) (steps : List (FlatStep × Nat)) : Nat :=
  if steps.isEmpty then args.headD 0 else place + steps.length - 1

@[simp] lemma length_sumSteps (sum place : Nat) (ks : List Nat) :
    (sumSteps sum place ks).length = ks.length := by
  induction ks generalizing sum place with
  | nil => rfl
  | cons k ks ih => rw [sumSteps, List.length_cons, List.length_cons, ih]

lemma resultPlace_sumSteps_cons (args : List Nat) (sum place k : Nat) (ks : List Nat) :
    resultPlace args place (sumSteps sum place (k :: ks)) = place + ks.length := by
  rw [resultPlace, sumSteps, List.isEmpty_cons, if_neg Bool.false_ne_true, List.length_cons,
    length_sumSteps]
  rfl

/-- The sum of a value and further ones behind it ends as far behind. -/
lemma resultPlace_sumSteps (args : List Nat) (place : Nat) (ks : List Nat) :
    resultPlace (place :: args) (place + 1) (sumSteps place (place + 1) ks) = place + ks.length := by
  cases ks with
  | nil => rfl
  | cons k ks =>
    rw [resultPlace_sumSteps_cons, List.length_cons, Nat.add_right_comm]
    rfl

/-! ### Operators laid out for a layer -/

namespace FlatModel.EmittedFrom

variable {F : FlatModel} {base next : Nat} {hwc : Hwc} {is : List Instruction}
  {ops : List FlatOperator}

lemma length_eq (h : F.EmittedFrom base hwc next is ops) : ops.length = is.length := by
  induction h with
  | nil => rfl
  | cons _ _ ih => rw [List.length_cons, List.length_cons, ih]

/-- Every instruction has a result. -/
lemma value (h : F.EmittedFrom base hwc next is ops) {j : Nat} (hj : j < is.length) :
    ∃ name, F.HoldsValue (next + j) name hwc := by
  induction h generalizing j with
  | nil => exact absurd hj (Nat.not_lt_zero j)
  | cons first _ ih =>
    cases j with
    | zero => exact ⟨_, first.value⟩
    | succ j =>
      obtain ⟨name, found⟩ := ih (Nat.lt_of_succ_lt_succ hj)
      exact ⟨name, by rwa [Nat.add_right_comm] at found⟩

/-- A step with a fused activation function is prepared if its main part is. -/
lemma fused (small : F.tensors.length < 0x80000000) {a : Activation} {i : Instruction}
    {layer : String} {main : Activation → FlatStep}
    (h : F.EmittedFrom base hwc next
      (i :: if (fuse a).2 then [⟨.logistic, [.result], .none, layer⟩] else []) ops)
    (first : ∀ op, F.Emitted op i.code (i.operands.map (operandAt base next)) i.options next
      i.output hwc → F.Prepares op (main (fuse a).1.activation, next)) :
    List.Forall₂ F.Prepares ops (fusedSteps a main next) := by
  rw [fusedSteps]
  cases h with
  | cons emitted rest =>
    refine .cons (first _ emitted) ?_
    split at rest
    · rename_i follows
      rw [if_pos follows]
      have result := points_ofNat small emitted.value.inside
      cases rest with
      | cons logistic rest =>
        cases rest
        refine .cons (logistic.activate small ?_ (by simp)) .nil
        exact result
    · rename_i alone
      rw [if_neg alone]
      cases rest
      exact .nil

end FlatModel.EmittedFrom

/-- Laying out a layer adds the operators of some steps, and names the place of their
result. -/
structure Lowering.Computes (F : FlatModel) (s s' : Lowering) (layer : String) (args : List Nat)
    (steps : List (FlatStep × Nat)) (place : Nat) (ops : List FlatOperator) (index : Int32) :
    Prop where
  /-- The operators. -/
  operators : s'.operators = s.operators ++ ops
  /-- They are the steps. -/
  prepares : List.Forall₂ F.Prepares ops steps
  /-- Their results stand behind the tensors so far, -/
  behind : s.tensors.length ≤ place
  /-- and end the table. -/
  length : s'.tensors.length = place + steps.length
  /-- The layer is named. -/
  values : s'.values = (layer, index) :: s.values
  /-- Its place is that of the result. -/
  points : F.Points index (resultPlace args place steps)
  /-- The result is among the tensors so far, -/
  inside : resultPlace args place steps < s'.tensors.length
  /-- and no constant. -/
  value : ∃ name hwc, F.HoldsValue (resultPlace args place steps) name hwc

/-- A program of instructions that are prepared as steps is laid out as these steps. -/
lemma Lowering.computes_of_program {F : FlatModel} {s : Lowering} {layer : String} {hwc : Hwc}
    {cs : List Constant} {is : List Instruction} {args : List Nat}
    (steps : Nat → List (FlatStep × Nat)) (small : F.tensors.length < 0x80000000)
    (counts : s.Counts) (within : (s.emit layer hwc (.program cs is)).Within F) (some : is ≠ [])
    (prepared : (∀ k c, cs[k]? = Option.some c → F.HoldsConstant (s.tensors.length + k) c) →
      ∀ ops, F.EmittedFrom s.tensors.length hwc (s.tensors.length + cs.length) is ops →
        List.Forall₂ F.Prepares ops (steps (s.tensors.length + cs.length))) :
    ∃ place ops index,
      Computes F s (s.emit layer hwc (.program cs is)) layer args (steps place) place ops index := by
  obtain ⟨constants, ops, operators, emitted, length, values⟩ := emit_program small counts within
  have prepares := prepared constants ops emitted
  have count : (steps (s.tensors.length + cs.length)).length = is.length :=
    prepares.length_eq.symm.trans emitted.length_eq
  have pos : 0 < is.length := List.length_pos_of_ne_nil some
  have full : (steps (s.tensors.length + cs.length)).isEmpty = false := by
    rw [List.isEmpty_eq_false_iff]
    intro none
    rw [none] at count
    exact absurd count.symm (Nat.ne_of_gt pos)
  have last : is.length - 1 < is.length := Nat.sub_lt pos one_pos
  obtain ⟨name, value⟩ := emitted.value last
  -- an operator for each instruction, so the last step writes the last place
  have result : resultPlace args (s.tensors.length + cs.length)
      (steps (s.tensors.length + cs.length))
      = s.tensors.length + cs.length + is.length - 1 := by
    rw [resultPlace, full, if_neg Bool.false_ne_true, count]
  rw [← Nat.add_sub_assoc pos] at value
  refine ⟨s.tensors.length + cs.length, ops, _, operators, prepares, Nat.le_add_right _ _, ?_,
    values, ?_, ?_, ?_⟩
  · rw [count, length]
  · rw [result]
    exact FlatModel.points_ofNat small value.inside
  · rw [result, length]
    exact Nat.sub_lt (Nat.add_pos_right _ pos) one_pos
  · rw [result]
    exact ⟨name, hwc, value⟩

/-! ### Parameters and numbers -/

lemma toNat_of_narrow {layer : String} {quantity : Quantity} {n : Nat} {w : UInt32}
    (h : narrow layer quantity n = .value w) : w.toNat = n := by
  unfold narrow at h
  split at h
  · rename_i small
    cases h
    exact UInt32.toNat_ofNat_of_lt' small
  · cases h

/-- A window whose strides are narrowed is the window of an operator. -/
lemma windowOf_of_narrow (kernel : Nat × Nat) {strides : Nat × Nat} (padding : Padding)
    {layer : String} {quantity quantity' : Quantity} {h v : UInt32}
    (down : narrow layer quantity strides.1 = .value h)
    (across : narrow layer quantity' strides.2 = .value v) :
    windowOf kernel h v padding = ⟨kernel, strides, padding⟩ := by
  rw [windowOf, toNat_of_narrow down, toNat_of_narrow across]

lemma toInt_of_narrowSigned {layer : String} {quantity : Quantity} {n : Nat} {i : Int32}
    (h : narrowSigned layer quantity n = .value i) : i.toInt = n := by
  unfold narrowSigned at h
  split at h
  · rename_i small
    cases h
    exact Int32.toInt_ofNat_of_lt small
  · cases h

lemma sideOf_of_narrowSigned {layer : String} {quantity : Quantity} {n : Nat} {i : Int32}
    (h : narrowSigned layer quantity n = .value i) : sideOf i = .value n := by
  have exact := toInt_of_narrowSigned h
  rw [sideOf, if_pos (by omega), exact, Int.toNat_natCast]

namespace Model

variable {m : Model} {ops : CustomOps} {p : GraphPlan} {l : Layer}

lemma weightWords_eq_value_iff {layer param : String} {xs : List Binary32} :
    m.weightWords layer param = .value xs ↔
      ∃ t, m.weight? layer param = some t ∧ t.singles = .ok xs := by
  simp only [weightWords, Outcome.bind_eq_value_iff, Outcome.orError_eq_value_iff,
    Outcome.mapError_eq_value_iff, Outcome.ofExcept_eq_value_iff]

/-- The prepared numbers of a parameter are those of its words. -/
lemma weight_of_words {layer param : String} {xs : List Binary32}
    (h : m.weightWords layer param = .value xs) :
    GraphModel.weight m layer param = .value (xs.map Binary32.value).toArray := by
  obtain ⟨t, found, words⟩ := weightWords_eq_value_iff.1 h
  exact GraphModel.weight_eq_value_iff.2 ⟨t, xs, found, words, rfl⟩

/-- The words of a parameter that a layer needs are as many as its shape says. -/
lemma length_of_words (fills : m.Fills p) (hl : l ∈ m.architecture.layers) {input : Hwc}
    (first : inputShape? p l = some input) {param : String} {shape : Shape}
    (needed : (param, shape) ∈ l.kind.weights input) (full : 0 ∉ shape) {xs : List Binary32}
    (h : m.weightWords l.name param = .value xs) :
    xs.length = shape.volume ∧ 4 * xs.length < Size.bound := by
  obtain ⟨t, xs', found, words, length⟩ := fills l hl input first _ _ needed full
  obtain ⟨t', found', words'⟩ := weightWords_eq_value_iff.1 h
  obtain rfl := Option.some.inj (found.symm.trans found')
  obtain rfl := Except.ok.inj (words.symm.trans words')
  exact length

end Model

/-! ### Fragments of kinds -/

/-- A kernel of a proper window is not empty, with its output channel behind or in front. -/
lemma Window.full_kernel {w : Window} (proper : w.degenerate = false) {ci co : Nat} (inner : ci ≠ 0)
    (outer : co ≠ 0) :
    0 ∉ [w.kernel.1, w.kernel.2, ci, co] ∧ 0 ∉ [co, w.kernel.1, w.kernel.2, ci] := by
  have sides := Window.degenerate_eq_false proper
  simp [sides.1.symm, sides.2.1.symm, inner.symm, outer.symm]

/-- A kernel has as many elements with its output channel in front. -/
lemma Shape.volume_filter (kh kw ci co : Nat) :
    volume [co, kh, kw, ci] = volume [kh, kw, ci, co] := by
  simp only [volume, List.foldl_cons, List.foldl_nil]
  ring

section Kinds

variable {m : Model} {ops : CustomOps} {p : GraphPlan} {l : Layer} {input : Hwc}
  {F : FlatModel} {s : Lowering}

section Parameters

variable (fills : m.Fills p) (hl : l ∈ m.architecture.layers)
  (first : Model.inputShape? p l = some input) (small : F.tensors.length < 0x80000000)

include fills hl first small

/-- A constant with as many words as a parameter has, in a shape of as many elements, is read
back. -/
lemma numbers_of_words {param : String} {shape : Shape}
    (needed : (param, shape) ∈ l.kind.weights input) (full : 0 ∉ shape) {xs ys : List Binary32}
    (words : m.weightWords l.name param = .value xs) (many : ys.length = xs.length)
    {name : String} {shape' : Shape} (full' : 0 ∉ shape') (same : shape'.volume = shape.volume)
    {k : Nat} (holds : F.HoldsConstant k (.ofSingles name shape' ys)) :
    F.numbers (Int32.ofNat k) = .value (ys.map Binary32.value).toArray := by
  obtain ⟨length, bytes⟩ := Model.length_of_words fills hl first needed full words
  rw [← many] at length bytes
  exact FlatModel.numbers_ofSingles holds (FlatModel.points_ofNat small holds.inside) full'
    (length.trans same.symm) bytes

/-- A kernel with as many words as a parameter has, in a shape of as many elements, is read. -/
lemma numbers_of_kernel {param : String} {shape : Shape}
    (needed : (param, shape) ∈ l.kind.weights input) (full : 0 ∉ shape) {xs ys : List Binary32}
    (words : m.weightWords l.name param = .value xs) (many : ys.length = xs.length)
    {name : String} {shape' : Shape} (full' : 0 ∉ shape') (same : shape'.volume = shape.volume)
    {q : Quantize} {k : Nat} (holds : F.HoldsConstant k (.kernel q name shape' ys)) :
    ∃ read, F.numbers (Int32.ofNat k) = .value read ∧
      (q = .none → read = (ys.map Binary32.value).toArray) := by
  obtain ⟨length, bytes⟩ := Model.length_of_words fills hl first needed full words
  rw [← many] at length bytes
  exact FlatModel.exists_numbers_kernel holds (FlatModel.points_ofNat small holds.inside) full'
    (length.trans same.symm) bytes

/-- The bias of a convolution, behind its filter, is read back as it is prepared. -/
lemma bias_of_biasConstant {useBias : Bool} {n : Nat} (some : n ≠ 0)
    (needed : useBias = true → ("bias", [n]) ∈ l.kind.weights input) {c : Option Constant}
    (h : m.biasConstant l.name useBias n = .value c) :
    ∃ bias, GraphModel.bias m l.name useBias = .value bias ∧
      ∀ (filter : Constant) (base next : Nat),
        (∀ k c', (filter :: c.toList)[k]? = Option.some c' → F.HoldsConstant (base + k) c') →
        let index := FlatModel.operandAt base next (if c.isSome then .constant 1 else .absent)
        F.numbers? index = .value bias ∧ (index = -1 ∨ ∃ k, F.Points index k) := by
  cases useBias with
  | false =>
    cases h
    exact ⟨none, rfl, fun _ _ _ _ => ⟨rfl, .inl rfl⟩⟩
  | true =>
    simp only [Model.biasConstant, if_true, Outcome.bind_eq_value_iff, Outcome.pure_eq,
      Outcome.value.injEq] at h
    obtain ⟨xs, words, rfl⟩ := h
    have full : 0 ∉ [n] := by simp [some.symm]
    refine ⟨Option.some (xs.map Binary32.value).toArray, ?_, fun filter base next holds => ?_⟩
    · rw [GraphModel.bias, if_pos rfl, Model.weight_of_words words]
      rfl
    · have constant := holds 1 _ rfl
      have points := FlatModel.points_ofNat small constant.inside
      have numbers := numbers_of_words fills hl first small (needed rfl) full words rfl full
        rfl constant
      -- the bias stands right behind the filter, at a place that is not negative
      have there : ¬ (Int32.ofNat (base + 1)).toInt < 0 := by
        rw [points.place]
        omega
      refine ⟨?_, .inr ⟨_, points⟩⟩
      simp only [Option.isSome_some, if_true, FlatModel.operandAt, FlatModel.numbers?, there,
        if_false, numbers]
      rfl

end Parameters

/-- A layer is prepared, and laid out as its program. -/
def Layer.Realized (m : Model) (p : GraphPlan) (l : Layer) (F : FlatModel)
    (primitive : Option Primitive) (places : List Nat) (s s' : Lowering) : Prop :=
  ∃ params, GraphModel.layerParams m p l = .value params ∧ ∃ place ops index,
    s.Computes F s' l.name places (l.kind.program params primitive places place) place ops index

/-- A layer is prepared, and laid out as the program of what is read for its parameters, which is
these themselves unless they are quantized. -/
def Layer.Rendered (m : Model) (p : GraphPlan) (q : Quantize) (l : Layer) (F : FlatModel)
    (primitive : Option Primitive) (places : List Nat) (s s' : Lowering) : Prop :=
  ∃ params read, GraphModel.layerParams m p l = .value params ∧ (q = .none → read = params) ∧
    ∃ place ops index,
      s.Computes F s' l.name places (l.kind.program read primitive places place) place ops index

lemma Layer.Realized.rendered {s' : Lowering} {primitive : Option Primitive} {places : List Nat}
    (h : l.Realized m p F primitive places s s') (q : Quantize) :
    l.Rendered m p q F primitive places s s' := by
  obtain ⟨params, prepared, computes⟩ := h
  exact ⟨params, params, prepared, fun _ => rfl, computes⟩

lemma Layer.Rendered.realized {s' : Lowering} {primitive : Option Primitive} {places : List Nat}
    (h : l.Rendered m p .none F primitive places s s') :
    l.Realized m p F primitive places s s' := by
  obtain ⟨params, read, prepared, same, computes⟩ := h
  obtain rfl := same rfl
  exact ⟨read, prepared, computes⟩

variable (fills : m.Fills p) (hl : l ∈ m.architecture.layers)
  (first : Model.inputShape? p l = some input) (channels : input.channels ≠ 0)
  (small : F.tensors.length < 0x80000000) (counts : s.Counts) {x : Int32} {k : Nat}
  (points : F.Points x k) {hwc : Hwc} {f : Fragment} {primitive : Option Primitive}
  {q : Quantize} (within : (s.emit l.name hwc f).Within F)

include fills hl first channels small counts points within

lemma rendered_conv2d {filters : Nat} {w : Window} {a : Activation} {useBias : Bool}
    (kind : l.kind = .conv2d filters w a useBias) (some : filters ≠ 0)
    (proper : w.degenerate = false) (h : l.fragment m p q hwc [x] = .value f) :
    l.Rendered m p q F primitive [k] s (s.emit l.name hwc f) := by
  have shapeOf : ∃ name, l.inbound.head? = Option.some name ∧ p.shape? name = Option.some input :=
    Option.bind_eq_some_iff.1 first
  obtain ⟨name, head, shape⟩ := shapeOf
  simp only [Layer.fragment, kind, head, Outcome.orFault_some, Outcome.value_bind,
    GraphPlan.shapeOf, shape, Outcome.orError_some, List.head?_cons, Outcome.bind_eq_value_iff,
    Outcome.mapError_eq_value_iff, Outcome.pure_eq, Outcome.value.injEq] at h
  obtain ⟨hwio, words, ohwi, transposed, c, biased, strideH, hstrideH, strideW, hstrideW, rfl⟩ := h
  -- the kernel is transposed as words, and the parameters of the layer are the transposed numbers
  have size := size_of_hwioToOhwi transposed
  have many : ohwi.toList.length = hwio.length := by simpa using size.2
  obtain ⟨full, full'⟩ := Window.full_kernel proper channels some
  have same := Shape.volume_filter w.kernel.1 w.kernel.2 input.channels filters
  have needed : ("kernel", [w.kernel.1, w.kernel.2, input.channels, filters])
      ∈ l.kind.weights input := by
    simp [kind, LayerKind.weights]
  have neededBias : useBias = true → ("bias", [filters]) ∈ l.kind.weights input := by
    rintro rfl
    simp [kind, LayerKind.weights]
  have window := windowOf_of_narrow w.kernel w.padding hstrideH hstrideW
  have transposed' := hwioToOhwi_map Binary32.value transposed
  rw [List.map_toArray] at transposed'
  obtain ⟨bias, prepared, read⟩ :=
    bias_of_biasConstant fills hl first small some neededBias biased
  have filter := (Lowering.emit_program small counts within).1 0 _ rfl
  have filterPoints := FlatModel.points_ofNat small filter.inside
  -- what is read back from a quantized filter are other numbers than the words of the kernel
  obtain ⟨weights, numbers, exact⟩ :=
    numbers_of_kernel fills hl first small needed full words many full' same filter
  rw [← Array.toList_map, Array.toArray_toList] at exact
  refine ⟨Option.some (.conv (ohwi.map Binary32.value) bias), Option.some (.conv weights bias), ?_,
    fun unquantized => by rw [exact unquantized],
    Lowering.computes_of_program _ small counts within (List.cons_ne_nil _ _)
      fun constants ops emitted => ?_⟩
  · simp only [GraphModel.layerParams, kind, first, Outcome.orError_some, Outcome.value_bind,
      Model.weight_of_words words, transposed', Outcome.mapError_value, prepared,
      Outcome.pure_eq]
  · simp only [LayerKind.program, kind]
    refine emitted.fused small fun op main => ?_
    obtain ⟨b, tensor⟩ := filter.tensor filterPoints
    obtain ⟨readBias, there⟩ :=
      read _ s.tensors.length (s.tensors.length + (_ :: c.toList).length) constants
    have step : F.Prepares op (.conv k weights filters bias
        (windowOf (w.kernel.1, w.kernel.2) strideH strideW w.padding) (fuse a).1.activation, _) :=
      main.conv2d small points filterPoints tensor (Constant.shape_kernel ..) numbers readBias there
    rw [window] at step
    exact step

lemma rendered_depthwiseConv2d {w : Window} {a : Activation} {useBias : Bool}
    (kind : l.kind = .depthwiseConv2d w a useBias) (proper : w.degenerate = false)
    (kept : hwc.channels = input.channels) (h : l.fragment m p q hwc [x] = .value f) :
    l.Rendered m p q F primitive [k] s (s.emit l.name hwc f) := by
  simp only [Layer.fragment, kind, List.head?_cons, Outcome.orFault_some,
    Outcome.value_bind, Outcome.bind_eq_value_iff, Outcome.pure_eq, Outcome.value.injEq] at h
  obtain ⟨xs, words, c, biased, strideH, hstrideH, strideW, hstrideW, rfl⟩ := h
  rw [kept] at biased
  obtain ⟨full, full'⟩ := Window.full_kernel proper channels one_ne_zero
  rw [← kept] at full'
  have same : Shape.volume [1, w.kernel.1, w.kernel.2, hwc.channels]
      = Shape.volume [w.kernel.1, w.kernel.2, input.channels, 1] := by
    rw [kept, Shape.volume_filter]
  have needed : ("depthwise_kernel", [w.kernel.1, w.kernel.2, input.channels, 1])
      ∈ l.kind.weights input := by
    simp [kind, LayerKind.weights]
  have neededBias : useBias = true → ("bias", [input.channels]) ∈ l.kind.weights input := by
    rintro rfl
    simp [kind, LayerKind.weights]
  have window := windowOf_of_narrow w.kernel w.padding hstrideH hstrideW
  obtain ⟨bias, prepared, read⟩ :=
    bias_of_biasConstant fills hl first small channels neededBias biased
  have filter := (Lowering.emit_program small counts within).1 0 _ rfl
  have filterPoints := FlatModel.points_ofNat small filter.inside
  obtain ⟨weights, numbers, exact⟩ :=
    numbers_of_kernel fills hl first small needed full words rfl full' same filter
  refine ⟨some (.depthwise (xs.map Binary32.value).toArray bias), some (.depthwise weights bias), ?_,
    fun unquantized => by rw [exact unquantized],
    Lowering.computes_of_program _ small counts within (List.cons_ne_nil _ _)
      fun constants ops emitted => ?_⟩
  · simp only [GraphModel.layerParams, kind, Model.weight_of_words words, Outcome.value_bind,
      prepared, Outcome.pure_eq]
  · simp only [LayerKind.program, kind]
    refine emitted.fused small fun op main => ?_
    obtain ⟨b, tensor⟩ := filter.tensor filterPoints
    obtain ⟨readBias, there⟩ :=
      read _ s.tensors.length (s.tensors.length + (_ :: c.toList).length) constants
    have step : F.Prepares op (.depthwise k weights bias
        (windowOf (w.kernel.1, w.kernel.2) strideH strideW w.padding) (fuse a).1.activation, _) :=
      main.depthwiseConv2d small points filterPoints tensor (Constant.shape_kernel ..) numbers
        readBias there
    rw [window] at step
    exact step

lemma realized_batchNorm {epsilon : Binary32} (kind : l.kind = .batchNorm epsilon)
    (kept : hwc.channels = input.channels) (h : l.fragment m p q hwc [x] = .value f) :
    l.Realized m p F primitive [k] s (s.emit l.name hwc f) := by
  simp only [Layer.fragment, kind, normFragment, normParams, List.head?_cons, Outcome.orFault_some,
    Outcome.value_bind, Outcome.bind_eq_value_iff, Outcome.pure_eq, Outcome.value.injEq,
    Outcome.mapM_eq_value_iff, List.forall₂_cons_left_iff, List.forall₂_nil_left_iff] at h
  obtain ⟨-, ⟨-, -, ⟨gamma, hgamma, rfl⟩, ⟨-, -, ⟨beta, hbeta, rfl⟩, ⟨-, -, ⟨mean, hmean, rfl⟩,
    ⟨-, -, ⟨variance, hvariance, rfl⟩, rfl, rfl⟩, rfl⟩, rfl⟩, rfl⟩, rfl⟩ := h
  have full : 0 ∉ [input.channels] := by simp [channels.symm]
  have needed : ∀ param ∈ normParams, (param, [input.channels]) ∈ l.kind.weights input := by
    intro param hparam
    rw [kind]
    exact List.mem_map_of_mem hparam
  refine ⟨some (.norm ⟨(gamma.map Binary32.value).toArray, (beta.map Binary32.value).toArray,
      (mean.map Binary32.value).toArray, (variance.map Binary32.value).toArray⟩), ?_,
    Lowering.computes_of_program _ small counts within (List.cons_ne_nil _ _)
      fun constants ops emitted => ?_⟩
  · simp only [GraphModel.layerParams, kind, Model.weight_of_words hgamma,
      Model.weight_of_words hbeta, Model.weight_of_words hmean, Model.weight_of_words hvariance,
      Outcome.value_bind, Outcome.pure_eq]
  -- the four rows are constants of one form, each read back as its words
  · have read : ∀ {param : String} {xs : List Binary32} {j : Nat}, param ∈ normParams →
        m.weightWords l.name param = .value xs →
        F.HoldsConstant (s.tensors.length + j)
          (.ofSingles s!"{l.name}/{param}" [hwc.channels] xs) →
        F.numbers (Int32.ofNat (s.tensors.length + j)) = .value (xs.map Binary32.value).toArray ∧
          ∃ k, F.Points (Int32.ofNat (s.tensors.length + j)) k := by
      intro param xs j hparam words holds
      refine ⟨?_, _, FlatModel.points_ofNat small holds.inside⟩
      refine numbers_of_words fills hl first small (needed param hparam) full words rfl ?_ ?_
        holds
      · rwa [kept]
      · rw [kept]
    obtain ⟨readGamma, thereGamma⟩ := read (by decide) hgamma (constants 0 _ rfl)
    obtain ⟨readBeta, thereBeta⟩ := read (by decide) hbeta (constants 1 _ rfl)
    obtain ⟨readMean, thereMean⟩ := read (by decide) hmean (constants 2 _ rfl)
    obtain ⟨readVariance, thereVariance⟩ := read (by decide) hvariance (constants 3 _ rfl)
    simp only [LayerKind.program, kind]
    cases emitted with
    | cons main rest =>
      cases rest
      refine .cons ?_ .nil
      refine main.batchNorm small points ?_ readGamma readBeta readMean readVariance
      simp only [List.forall_mem_cons]
      exact ⟨thereGamma, thereBeta, thereMean, thereVariance, List.forall_mem_nil _⟩

end Kinds

/-! ### Fragments without parameters -/

section Plain

variable {m : Model} {p : GraphPlan} {q : Quantize} {l : Layer} {F : FlatModel} {s : Lowering}
  {primitive : Option Primitive} {places : List Nat}

/-- A layer without parameters is prepared, and laid out as its program if its fragment is. -/
lemma realized_of_computes {s' : Lowering} (bare : GraphModel.layerParams m p l = .value none)
    (h : ∃ place ops index, s.Computes F s' l.name places
      (l.kind.program none primitive places place) place ops index) :
    l.Realized m p F primitive places s s' :=
  ⟨none, bare, h⟩

variable (small : F.tensors.length < 0x80000000) (counts : s.Counts) {hwc : Hwc}

include small counts

/-- A program of one instruction that reads values is laid out as one step. -/
lemma computes_of_plain {code : Opcode} {inputs : List Int32} {options : OperatorOptions}
    {st : FlatStep} (within : (s.emit l.name hwc (plainProgram l.name code inputs options)).Within F)
    (step : ∀ place op, F.Emitted op code inputs options place l.name hwc →
      F.Prepares op (st, place)) :
    ∃ place ops index, s.Computes F (s.emit l.name hwc (plainProgram l.name code inputs options))
      l.name places [(st, place)] place ops index := by
  refine Lowering.computes_of_program (fun place => [(st, place)]) small counts within
    (List.cons_ne_nil _ _) fun _ ops emitted => ?_
  cases emitted with
  | cons main rest =>
    cases rest
    refine .cons (step _ _ ?_) .nil
    have values : (inputs.map Operand.value).map
        (FlatModel.operandAt s.tensors.length s.tensors.length) = inputs := by
      rw [List.map_map]
      exact List.map_id inputs
    rw [← values]
    exact main

omit counts in
/-- The further summands of a sum are added one by one. -/
lemma prepares_addInstructions {layer : String} {base next i : Nat} {rest : List Int32}
    {ks : List Nat} (there : List.Forall₂ F.Points rest ks)
    (sum : F.Points (Int32.ofNat next) next) {ops : List FlatOperator}
    (h : F.EmittedFrom base hwc (next + 1) (addInstructions layer i rest) ops) :
    List.Forall₂ F.Prepares ops (sumSteps next (next + 1) ks) := by
  induction there generalizing next i ops with
  | nil =>
    cases h
    exact .nil
  | @cons y ky rest ks right _ ih =>
    -- the last sum takes the name of the layer, the others are numbered
    have unfolded : ∃ name, addInstructions layer i (y :: rest)
        = ⟨.add, [.result, .value y], .add .none, name⟩ :: addInstructions layer (i + 1) rest := by
      cases rest with
      | nil => exact ⟨_, rfl⟩
      | cons => exact ⟨_, rfl⟩
    obtain ⟨name, unfolded⟩ := unfolded
    rw [unfolded] at h
    cases h with
    | cons first rest =>
      have result := FlatModel.points_ofNat small first.value.inside
      exact .cons (first.add small sum right) (ih result rest)

variable {args : List Int32} {f : Fragment} (there : List.Forall₂ F.Points args places)
  (within : (s.emit l.name hwc f).Within F)

include there within

lemma realized_add (kind : l.kind = .add) (several : 2 ≤ args.length)
    (h : addFragment l.name args = .value f) :
    l.Realized m p F primitive places s (s.emit l.name hwc f) := by
  refine realized_of_computes (by rw [GraphModel.layerParams, kind]) ?_
  rw [kind]
  cases there with
  | nil => simp at several
  | cons left others =>
    cases others with
    | nil => simp at several
    | cons right others =>
      cases others with
      | nil =>
        obtain rfl := Outcome.value.inj h
        exact computes_of_plain small counts within fun place op emitted =>
          emitted.add small left right
      | cons third others =>
        obtain rfl := Outcome.value.inj h
        refine Lowering.computes_of_program _ small counts within (List.cons_ne_nil _ _)
          fun _ ops emitted => ?_
        cases emitted with
        | cons first rest =>
          have sum := FlatModel.points_ofNat small first.value.inside
          exact .cons (first.add small left right)
            (prepares_addInstructions small (.cons third others) sum rest)

lemma realized_concat (kind : l.kind = .concat) (some : args ≠ [])
    (h : l.fragment m p q hwc args = .value f) :
    l.Realized m p F primitive places s (s.emit l.name hwc f) := by
  refine realized_of_computes (by rw [GraphModel.layerParams, kind]) ?_
  simp only [Layer.fragment, kind, Outcome.pure_eq, Outcome.value.injEq] at h
  subst h
  rw [kind]
  obtain ⟨x, rest, rfl⟩ := List.exists_cons_of_ne_nil some
  cases there with
  | cons first others =>
    exact computes_of_plain small counts within fun place op emitted =>
      emitted.concatenation small first (.cons first others)

end Plain

section Unary

variable {m : Model} {p : GraphPlan} {q : Quantize} {l : Layer} {F : FlatModel} {s : Lowering}
  {primitive : Option Primitive} (small : F.tensors.length < 0x80000000) (counts : s.Counts)
  {hwc : Hwc} {x : Int32} {k : Nat} (points : F.Points x k) {f : Fragment}
  (within : (s.emit l.name hwc f).Within F) (h : l.fragment m p q hwc [x] = .value f)

include small counts points within h

lemma realized_activation {a : Activation} (kind : l.kind = .activation a)
    (before : k < s.tensors.length) (value : ∃ name hwc, F.HoldsValue k name hwc) :
    l.Realized m p F primitive [k] s (s.emit l.name hwc f) := by
  refine realized_of_computes (by rw [GraphModel.layerParams, kind]) ?_
  rw [kind]
  cases a with
  | linear =>
    simp only [Layer.fragment, kind, List.head?_cons, Outcome.orFault_some, Outcome.value_bind,
      Outcome.pure_eq, Outcome.value.injEq] at h
    subst h
    exact ⟨s.tensors.length, [], x, (List.append_nil _).symm, .nil, le_refl _, rfl, rfl, points,
      before, value⟩
  | _ =>
    simp only [Layer.fragment, kind, List.head?_cons, Outcome.orFault_some, Outcome.value_bind,
      Outcome.pure_eq, Outcome.value.injEq] at h
    subst h
    exact computes_of_plain small counts within fun place op emitted =>
      emitted.activate small points (by decide)

lemma realized_maxPool2d {pool : Nat × Nat} {strides : Option (Nat × Nat)} {padding : Padding}
    (kind : l.kind = .maxPool2d pool strides padding) :
    l.Realized m p F primitive [k] s (s.emit l.name hwc f) := by
  refine realized_of_computes (by rw [GraphModel.layerParams, kind]) ?_
  simp only [Layer.fragment, kind, List.head?_cons, Outcome.orFault_some, Outcome.value_bind,
    Outcome.bind_eq_value_iff, Outcome.pure_eq, Outcome.value.injEq] at h
  obtain ⟨strideH, hstrideH, strideW, hstrideW, filterH, hfilterH, filterW, hfilterW, rfl⟩ := h
  have window : windowOf (filterH.toNat, filterW.toNat) strideH strideW padding
      = LayerKind.poolWindow pool strides padding := by
    rw [windowOf_of_narrow _ _ hstrideH hstrideW, toNat_of_narrow hfilterH,
      toNat_of_narrow hfilterW]
    rfl
  rw [kind]
  refine computes_of_plain small counts within fun place op emitted => ?_
  have step := emitted.maxPool2d small points
  rw [window] at step
  exact step

/-- The size that a custom layer resizes to is read back. -/
lemma realized_custom {function : String} {arguments : Json} {size : Nat × Nat} {v : Sampling}
    (kind : l.kind = .custom function arguments)
    (resolved : p.primitive? l.name = some (.resizeBilinear size v))
    (height : hwc.height = size.1) (width : hwc.width = size.2) :
    l.Realized m p F (p.primitive? l.name) [k] s (s.emit l.name hwc f) := by
  refine realized_of_computes (by rw [GraphModel.layerParams, kind]) ?_
  simp only [Layer.fragment, kind, resolved, resizeFragment, List.head?_cons, Outcome.orFault_some,
    Outcome.value_bind, Outcome.bind_eq_value_iff, Outcome.pure_eq, Outcome.value.injEq] at h
  obtain ⟨_, -, i, hi, j, hj, rfl⟩ := h
  rw [resolved, kind]
  refine Lowering.computes_of_program _ small counts within (List.cons_ne_nil _ _)
    fun constants ops emitted => ?_
  have constant := constants 0 _ rfl
  have place := FlatModel.points_ofNat small constant.inside
  -- the two sides are stored as an integer tensor of two elements, and read back from there
  have sized : Shape.byteCount? [2] .i32
      = some (Bytes.ofWord i.toUInt32 ++ Bytes.ofWord j.toUInt32).length := by
    rw [List.length_append, Bytes.length_ofWord, Bytes.length_ofWord]
    rfl
  obtain ⟨_, -, data⟩ := constant.constant place sized
  have words : Bytes.words (Bytes.ofWord i.toUInt32 ++ Bytes.ofWord j.toUInt32)
      = [i.toUInt32, j.toUInt32] := by
    have stored := Bytes.words_flatMap_ofWord [i.toUInt32, j.toUInt32]
    rwa [List.flatMap_cons, List.flatMap_cons, List.flatMap_nil, List.append_nil] at stored
  have ints : (⟨.i32, [2], Bytes.ofWord i.toUInt32 ++ Bytes.ofWord j.toUInt32⟩ : Tensor).ints
      = .ok [i, j] := by
    rw [Tensor.ints, Tensor.expect, words]
    rfl
  have read : F.resizeSize (Int32.ofNat (s.tensors.length + 0)) = .value size := by
    simp only [FlatModel.resizeSize, FlatModel.lookup, data, ints, Outcome.ofExcept_ok,
      Outcome.mapError_value, Outcome.value_bind, Outcome.orError_some, sideOf_of_narrowSigned hi,
      sideOf_of_narrowSigned hj, Outcome.pure_eq]
  cases emitted with
  | cons main rest =>
    cases rest
    exact .cons (main.resizeBilinear small points place read height width) .nil

end Unary

/-! ### Fragments of planned layers -/

section Planned

variable {m : Model} {ops : CustomOps} {p : GraphPlan} {l : Layer} {inputs : List Hwc} {hwc : Hwc}
  {primitive : Option Primitive} {F : FlatModel} {s : Lowering}

/-- The fragment of a planned layer that is no input is laid out as the program of its kind, with
what is read for its parameters. -/
theorem Layer.rendered_of_fragment {q : Quantize}
    (valid : m.validate ops = .value p) (fills : m.Fills p) (hl : l ∈ m.architecture.layers)
    (planned : Planned ops p l inputs hwc primitive) (computed : l.kind.isInput = false)
    (small : F.tensors.length < 0x80000000) (counts : s.Counts) {args : List Int32}
    {places : List Nat} (there : List.Forall₂ F.Points args places)
    (arity : args.length = inputs.length)
    (values : ∀ k ∈ places, k < s.tensors.length ∧ ∃ name hwc, F.HoldsValue k name hwc)
    {f : Fragment}
    (within : (s.emit l.name hwc f).Within F) (h : l.fragment m p q hwc args = .value f) :
    l.Rendered m p q F primitive places s (s.emit l.name hwc f) := by
  have first := Model.inputShape?_of_planned planned
  have channels : ∀ input, inputs.head? = some input → input.channels ≠ 0 := by
    intro input head
    rw [head, Model.inputShape?, Option.bind_eq_some_iff] at first
    obtain ⟨name, -, found⟩ := first
    exact Architecture.channels_ne_zero (Model.validate_eq_value_iff.1 valid).1 found
  -- all kinds but sums and concatenations read a single value
  have one : ∀ {input : Hwc}, inputs = [input] →
      ∃ x k, args = [x] ∧ places = [k] ∧ F.Points x k := by
    rintro input rfl
    obtain ⟨x, rfl⟩ := List.length_eq_one_iff.1 arity
    cases there with
    | cons points rest =>
      cases rest
      exact ⟨x, _, rfl, rfl, points⟩
  have primitives := planned.primitive
  have shapes := planned.shapes
  generalize hk : l.kind = kind at shapes
  cases shapes with
  | input =>
    rw [hk] at computed
    cases computed
  | conv2d some made =>
    obtain ⟨x, k, rfl, rfl, points⟩ := one rfl
    exact rendered_conv2d fills hl first (channels _ rfl) small counts points within hk some
      made.proper h
  | depthwiseConv2d made =>
    obtain ⟨x, k, rfl, rfl, points⟩ := one rfl
    exact rendered_depthwiseConv2d fills hl first (channels _ rfl) small counts points within
      hk made.proper rfl h
  | batchNorm =>
    obtain ⟨x, k, rfl, rfl, points⟩ := one rfl
    -- nothing is quantized from here on, so these layers are realized as they are
    exact (realized_batchNorm fills hl first (channels _ rfl) small counts points within hk
      rfl h).rendered q
  | activation =>
    obtain ⟨x, k, rfl, rfl, points⟩ := one rfl
    obtain ⟨before, value⟩ := values k (List.mem_singleton_self k)
    exact (realized_activation small counts points within h hk before value).rendered q
  | add =>
    have several : 2 ≤ args.length := by
      rw [arity]
      exact Nat.le_add_left 2 _
    simp only [Layer.fragment, hk] at h
    exact (realized_add small counts there within hk several h).rendered q
  | concat =>
    have some : args ≠ [] := by
      rw [← List.length_pos_iff, arity]
      exact Nat.succ_pos _
    exact (realized_concat small counts there within hk some h).rendered q
  | maxPool2d made =>
    obtain ⟨x, k, rfl, rfl, points⟩ := one rfl
    exact (realized_maxPool2d small counts points within h hk).rendered q
  | @custom _ _ _ operation _ =>
    obtain ⟨x, k, rfl, rfl, points⟩ := one rfl
    cases operation with
    | resizeBilinear size v =>
      rw [← primitives]
      exact (realized_custom small counts points within h hk primitives rfl rfl).rendered q

/-- Without quantization, the fragment of a planned layer that is no input is laid out as the
program of its kind. -/
theorem Layer.realized_of_fragment (valid : m.validate ops = .value p) (fills : m.Fills p)
    (hl : l ∈ m.architecture.layers) (planned : Planned ops p l inputs hwc primitive)
    (computed : l.kind.isInput = false) (small : F.tensors.length < 0x80000000) (counts : s.Counts)
    {args : List Int32} {places : List Nat} (there : List.Forall₂ F.Points args places)
    (arity : args.length = inputs.length)
    (values : ∀ k ∈ places, k < s.tensors.length ∧ ∃ name hwc, F.HoldsValue k name hwc)
    {f : Fragment} (within : (s.emit l.name hwc f).Within F)
    (h : l.fragment m p .none hwc args = .value f) :
    l.Realized m p F primitive places s (s.emit l.name hwc f) :=
  (rendered_of_fragment valid fills hl planned computed small counts there arity values within
    h).realized

end Planned

end FlatNet
