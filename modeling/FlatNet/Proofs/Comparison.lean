import FlatNet.Proofs.Fidelity
import FlatNet.Proofs.Scalar

/-!
What a comparison that passes has seen.

A comparison keeps the largest difference of all numbers compared so far.  It starts at zero, no
difference is NaN, and the larger of two numbers that are not NaN bounds both, so the difference
that is reported bounds the difference of every pair of numbers for one element of one output of one
sample.  Nothing is left out: outputs are paired only if there are equally many of them, and numbers
only if the shapes are equal, for which tensors have equally many numbers.  The models may change
the states in which they run.

* `bounds_maxDifference`: the largest difference bounds that of every pair of numbers;
* `Tensor.Related`, `RelatedOn`: outputs, and runs on the probes of a sample, whose numbers are
  related element by element;
* `related_outputs`, `related_compareSample`, `related_compareSamples`: what the outputs of one
  sample, one sample, and all samples show;
* `Fidelity.Admits`: differences within a report;
* `admits_of_passed`: a comparison that passes has compared every pair of numbers, and admits it;
* `GraphModel.wellSized_inference`, `FlatGraph.wellSized_inference`: layer graphs and flat models
  give well-sized outputs.
-/

namespace FlatNet

open Scalar (le_trans le_max)

/-! ### Numbers -/

/-- A difference is the absolute value of the difference unless that is NaN. -/
lemma difference_eq (x y : Float32) :
    difference x y = if (x - y).isNaN then 1 / 0 else (x - y).abs := by
  rw [← Scalar.isNaN_abs]
  rfl

lemma isNaN_difference (x y : Float32) : (difference x y).isNaN = false := by
  rw [difference_eq]
  split
  · decide +kernel
  · rename_i number
    rw [Scalar.isNaN_abs]
    simpa using number

/-- The difference of two numbers is within a bound. -/
def Within (bound x y : Float32) : Prop := difference x y ≤ bound

lemma Within.trans {bound bound' x y : Float32} (h : Within bound x y) (le : bound ≤ bound') :
    Within bound' x y := le_trans h le

variable {acc r : Float32}

lemma maxDifference_cons (x y : Float32) (xs ys : List Float32) :
    maxDifference acc (x :: xs) (y :: ys) = maxDifference (Scalar.max acc (difference x y)) xs ys :=
  rfl

/-- The largest difference bounds the differences of all pairs. -/
lemma bounds_maxDifference (known : acc.isNaN = false) {xs ys : List Float32}
    (length : xs.length = ys.length) :
    acc ≤ maxDifference acc xs ys ∧ List.Forall₂ (Within (maxDifference acc xs ys)) xs ys := by
  induction xs generalizing acc ys with
  | nil =>
    obtain rfl := List.eq_nil_of_length_eq_zero length.symm
    exact ⟨Scalar.le_refl known, .nil⟩
  | cons x xs ih =>
    obtain ⟨y, ys, rfl⟩ := List.exists_cons_of_length_eq_add_one length.symm
    rw [maxDifference_cons]
    obtain ⟨before, here⟩ := le_max known (isNaN_difference x y)
    obtain ⟨later, rest⟩ := ih (Scalar.le_iff.1 before).2.1 (Nat.succ.inj length)
    exact ⟨le_trans before later, .cons (le_trans here later) rest⟩

/-! ### Outputs -/

/-- A well-sized tensor has a number for every element of its shape. -/
lemma count_of_outputNumbers {t : Tensor} (sized : t.WellSized) {xs : List Float32}
    (read : outputNumbers t = .value xs) : t.shape.count? = some xs.length := by
  simp only [outputNumbers, Outcome.bind_eq_value_iff, Outcome.mapError_eq_value_iff,
    Outcome.ofExcept_eq_value_iff, Outcome.pure_eq, Outcome.value.injEq] at read
  obtain ⟨words, read, rfl⟩ := read
  obtain ⟨dtype, rfl⟩ := Tensor.singles_eq_ok_iff.1 read
  rw [Tensor.WellSized, Shape.byteCount?, Option.bind_eq_some_iff] at sized
  obtain ⟨n, counted, bytes⟩ := sized
  have bytes := (Size.mul?_eq_some_iff.1 bytes).2
  rw [dtype, show DType.f32.width = 4 from rfl] at bytes
  rw [counted, List.length_map, List.length_map, Bytes.length_words]
  congr 1
  omega

/-- Two outputs have one shape and a number each for every element of it, and the numbers of an
element are related. -/
def Tensor.Related (R : Float32 → Float32 → Prop) (t u : Tensor) : Prop :=
  t.shape = u.shape ∧ ∃ xs ys, outputNumbers t = .value xs ∧ outputNumbers u = .value ys ∧
    t.shape.count? = some xs.length ∧ List.Forall₂ R xs ys

lemma Tensor.Related.imp {R S : Float32 → Float32 → Prop} (weaker : ∀ x y, R x y → S x y)
    {t u : Tensor} (h : t.Related R u) : t.Related S u := by
  obtain ⟨shape, xs, ys, read, read', counted, numbers⟩ := h
  exact ⟨shape, xs, ys, read, read', counted, numbers.imp weaker⟩

lemma related_compareOutput {t u : Tensor} (sized : t.WellSized) (sized' : u.WellSized)
    (known : acc.isNaN = false) {index : Nat}
    (compared : compareOutput acc ((t, u), index) = .value r) :
    acc ≤ r ∧ t.Related (Within r) u := by
  obtain ⟨shape, xs, ys, read, read', rfl⟩ := compareOutput_eq_value_iff.1 compared
  have counted := count_of_outputNumbers sized read
  have length : xs.length = ys.length :=
    Option.some.inj (counted.symm.trans (shape ▸ count_of_outputNumbers sized' read'))
  obtain ⟨before, numbers⟩ := bounds_maxDifference known length
  exact ⟨before, shape, xs, ys, read, read', counted, numbers⟩

/-- The largest difference bounds those of all outputs. -/
lemma related_outputs {outs outs' : List Tensor} (sized : ∀ t ∈ outs, t.WellSized)
    (sized' : ∀ t ∈ outs', t.WellSized) (length : outs.length = outs'.length)
    (known : acc.isNaN = false) {n : Nat}
    (compared : ((outs.zip outs').zipIdx n).foldlM compareOutput acc = .value r) :
    acc ≤ r ∧ List.Forall₂ (Tensor.Related (Within r)) outs outs' := by
  -- over the outputs; a bound reached so far holds for the final maximum as well
  induction outs generalizing outs' acc n with
  | nil =>
    obtain rfl := Outcome.value.inj compared
    obtain rfl := List.eq_nil_of_length_eq_zero length.symm
    exact ⟨Scalar.le_refl known, .nil⟩
  | cons t outs ih =>
    obtain ⟨u, outs', rfl⟩ := List.exists_cons_of_length_eq_add_one length.symm
    rw [List.zip_cons_cons, List.zipIdx_cons, List.foldlM_cons, Outcome.bind_eq_value_iff]
      at compared
    obtain ⟨acc', first, compared⟩ := compared
    rw [List.forall_mem_cons] at sized sized'
    obtain ⟨before, here⟩ := related_compareOutput sized.1 sized'.1 known first
    obtain ⟨later, rest⟩ := ih sized.2 sized'.2 (Nat.succ.inj length) (Scalar.le_iff.1 before).2.1
      compared
    exact ⟨le_trans before later, .cons (here.imp fun _ _ h => h.trans later) rest⟩

/-! ### Samples -/

variable {σ : Type}

/-- Whatever a model returns is well sized. -/
def StatefulModel.WellSized (m : StatefulModel σ) : Prop :=
  ∀ inputs s outs s', m.infer inputs s = .value (outs, s') → ∀ t ∈ outs, t.WellSized

/-- Two models run on the probes of a sample, one after the other, and give equally many outputs,
and the numbers of an element are related. -/
def RelatedOn (R : Float32 → Float32 → Prop) (reference converted : StatefulModel σ) (sample : Nat)
    (s s' : σ) : Prop :=
  ∃ inputs expected mid actual, probeInputs reference.spec.inputs sample = .value inputs ∧
    reference.infer inputs s = .value (expected, mid) ∧
    converted.infer inputs mid = .value (actual, s') ∧
    List.Forall₂ (Tensor.Related R) expected actual

variable {reference converted : StatefulModel σ}

lemma RelatedOn.imp {R S : Float32 → Float32 → Prop} (weaker : ∀ x y, R x y → S x y)
    {sample : Nat} {s s' : σ} (h : RelatedOn R reference converted sample s s') :
    RelatedOn S reference converted sample s s' := by
  obtain ⟨inputs, expected, mid, actual, probes, ran, ran', outputs⟩ := h
  exact ⟨inputs, expected, mid, actual, probes, ran, ran',
    outputs.imp fun _ _ related => related.imp weaker⟩

lemma related_compareSample (sized : reference.WellSized) (sized' : converted.WellSized)
    {acc r : Float32 × σ} (known : acc.1.isNaN = false) {sample : Nat}
    (compared : compareSample reference converted acc sample = .value r) :
    acc.1 ≤ r.1 ∧ RelatedOn (Within r.1) reference converted sample acc.2 r.2 := by
  obtain ⟨inputs, expected, mid, actual, probes, ran, ran', length, outputs⟩ :=
    compareSample_eq_value_iff.1 compared
  obtain ⟨before, related⟩ := related_outputs (sized _ _ _ _ ran) (sized' _ _ _ _ ran') length known
    outputs
  exact ⟨before, inputs, expected, mid, actual, probes, ran, ran', related⟩

/-- The largest difference bounds those of all samples, which run one after the other. -/
lemma related_compareSamples (sized : reference.WellSized) (sized' : converted.WellSized)
    {acc r : Float32 × σ} (known : acc.1.isNaN = false) {sample count : Nat}
    (compared : compareSamples reference converted acc sample count = .value r) :
    acc.1 ≤ r.1 ∧ ∃ states : Nat → σ, states 0 = acc.2 ∧ states count = r.2 ∧ ∀ i < count,
      RelatedOn (Within r.1) reference converted (sample + i) (states i) (states (i + 1)) := by
  -- over the samples, with the state that each leaves to the next; the maximum never falls
  induction count generalizing acc sample with
  | zero =>
    obtain rfl := Outcome.value.inj compared
    exact ⟨Scalar.le_refl known, fun _ => acc.2, rfl, rfl, nofun⟩
  | succ count ih =>
    rw [compareSamples, Outcome.bind_eq_value_iff] at compared
    obtain ⟨acc', first, compared⟩ := compared
    obtain ⟨before, here⟩ := related_compareSample sized sized' known first
    obtain ⟨later, states, start, stop, rest⟩ := ih (Scalar.le_iff.1 before).2.1 compared
    refine ⟨le_trans before later, fun i => i.casesOn acc.2 states, rfl, stop, ?_⟩
    rw [Nat.forall_lt_succ_left]
    refine ⟨?_, fun i hi => ?_⟩
    · change RelatedOn _ _ _ sample acc.2 (states 0)
      rw [start]
      exact here.imp fun _ _ h => h.trans later
    · rw [← Nat.add_assoc, Nat.add_right_comm]
      exact rest i hi

/-! ### Interpreters -/

/-- Tensors that feature maps make are well sized. -/
lemma wellSized_of_mapM {α ε : Type} {read : α → Outcome ε FeatureMap} {wrap : KernelError → ε}
    {xs : List α} {outs : List Tensor}
    (made : (xs.mapM fun x => do (← read x).toTensor.mapError wrap) = .value outs) :
    ∀ t ∈ outs, t.WellSized := by
  intro t ht
  obtain ⟨x, -, made⟩ := exists_mem_of_forall₂ (Outcome.mapM_eq_value_iff.1 made).flip ht
  obtain ⟨m, -, made⟩ := Outcome.bind_eq_value_iff.1 made
  have made := Outcome.mapError_eq_value_iff.1 made
  rw [FeatureMap.toTensor, Outcome.mapError_eq_value_iff, Outcome.ofExcept_eq_value_iff,
    Tensor.ofSingles, Tensor.ofBytes_eq_ok_iff] at made
  exact made.2

/-- The outputs of a layer graph are well sized. -/
lemma GraphModel.wellSized_inference (gm : GraphModel) : gm.inference.stateful.WellSized := by
  intro inputs s outs s' run
  rw [InferenceModel.stateful_infer_eq_value_iff] at run
  obtain ⟨_, _, run⟩ := Outcome.bind_eq_value_iff.1 (Outcome.mapError_eq_value_iff.1 run)
  obtain ⟨_, _, outputs⟩ := Outcome.bind_eq_value_iff.1 run
  exact wellSized_of_mapM outputs

/-- The outputs of a flat model are well sized. -/
lemma FlatGraph.wellSized_inference (fg : FlatGraph) : fg.inference.stateful.WellSized := by
  intro inputs s outs s' run
  rw [InferenceModel.stateful_infer_eq_value_iff] at run
  obtain ⟨_, _, run⟩ := Outcome.bind_eq_value_iff.1 (Outcome.mapError_eq_value_iff.1 run)
  obtain ⟨_, _, outputs⟩ := Outcome.bind_eq_value_iff.1 run
  exact wellSized_of_mapM outputs

/-- Whether the numbers of two models pass a test at some element on the probes of a sample. -/
def GraphModel.runsApart (test : Float32 → Float32 → Bool) (gm : GraphModel) (fg : FlatGraph)
    (sample : Nat) : Bool :=
  (probeInputs gm.inference.spec.inputs sample).holds fun inputs =>
    (gm.inference.infer inputs).holds fun outs => (fg.inference.infer inputs).holds fun outs' =>
      (outs.zip outs').any fun p => (outputNumbers p.1).holds fun xs =>
        (outputNumbers p.2).holds fun ys => (xs.zip ys).any fun q => test q.1 q.2

lemma not_relatedOn_of_runsApart {test : Float32 → Float32 → Bool} {gm : GraphModel}
    {fg : FlatGraph} {sample : Nat} (h : gm.runsApart test fg sample = true)
    {R : Float32 → Float32 → Prop} (fails : ∀ x y, R x y → test x y = false) (s s' : Unit) :
    ¬ RelatedOn R gm.inference.stateful fg.inference.stateful sample s s' := by
  rintro ⟨inputs, expected, mid, actual, probes, ran, ran', outputs⟩
  rw [InferenceModel.stateful_infer_eq_value_iff] at ran ran'
  rw [GraphModel.runsApart, show gm.inference.spec = gm.inference.stateful.spec from rfl, probes,
    Outcome.holds, ran, Outcome.holds, ran', Outcome.holds, List.any_eq_true] at h
  obtain ⟨⟨t, u⟩, pair, h⟩ := h
  obtain ⟨-, xs, ys, read, read', -, numbers⟩ := (List.forall₂_iff_zip.1 outputs).2 pair
  rw [read, Outcome.holds, read', Outcome.holds, List.any_eq_true] at h
  obtain ⟨⟨x, y⟩, pair, passes⟩ := h
  have fails := fails x y ((List.forall₂_iff_zip.1 numbers).2 pair)
  exact Bool.eq_false_iff.1 fails passes

/-! ### Reports -/

/-- The difference of two numbers is within a report: it is at most the reported and the accepted
one, or it is NaN, which is reported to be infinite and passes only if infinity is accepted. -/
structure Fidelity.Admits (f : Fidelity) (x y : Float32) : Prop where
  /-- A difference that is a number. -/
  close : (x - y).isNaN = false → (x - y).abs ≤ f.maxDifference ∧ (x - y).abs ≤ f.tolerance
  /-- A difference that is NaN. -/
  apart : (x - y).isNaN = true → f.maxDifference = 1 / 0 ∧ f.tolerance = 1 / 0

lemma Fidelity.admits_of_within {f : Fidelity} (passed : f.passed = true) {x y : Float32}
    (h : Within f.maxDifference x y) : f.Admits x y := by
  have le : f.maxDifference ≤ f.tolerance := of_decide_eq_true passed
  rw [Within, difference_eq] at h
  constructor
  · intro number
    rw [number, if_neg Bool.false_ne_true] at h
    exact ⟨h, le_trans h le⟩
  · intro nan
    rw [nan, if_pos rfl] at h
    exact ⟨Scalar.infinity_le_iff.1 h, Scalar.infinity_le_iff.1 (le_trans h le)⟩

/-- A comparison of models whose outputs are well sized passes only if it has compared something:
some sample is asked for, and on every sample both models run on the same probes and give equally
many outputs of equal shapes, and at every element the difference is within the report.  Only an
infinite tolerance accepts a difference that is NaN. -/
theorem admits_of_passed (sized : reference.WellSized) (sized' : converted.WellSized)
    {samples : Nat} {tolerance : Float32} {s s' : σ} {report : Fidelity}
    (compared : compareStateful reference converted samples tolerance s = .value (report, s'))
    (passed : report.passed = true) :
    1 ≤ samples ∧ report.samples = samples ∧ report.tolerance = tolerance ∧
      ∃ states : Nat → σ, states 0 = s ∧ states samples = s' ∧ ∀ i < samples,
        RelatedOn report.Admits reference converted i (states i) (states (i + 1)) := by
  obtain ⟨some, -, ran, counted, accepted⟩ := compareStateful_eq_value_iff.1 compared
  have known : ((0 : Float32), s).1.isNaN = false := by
    change (0 : Float32).isNaN = false
    decide +kernel
  obtain ⟨-, states, start, stop, related⟩ := related_compareSamples sized sized' known ran
  refine ⟨Nat.one_le_iff_ne_zero.2 some, counted, accepted, states, start, stop, fun i hi => ?_⟩
  have within := related i hi
  rw [Nat.zero_add] at within
  exact within.imp fun x y h => Fidelity.admits_of_within passed h

namespace GraphModel

/-- A model that doubles a pixel passes the comparison with its lowered form on two samples. -/
theorem admits_of_passed_doubled :
    ∃ F gm fg report, (scaling ⟨0x40000000⟩).lower .empty .standard = .value F ∧
      prepare (scaling ⟨0x40000000⟩) .empty = .value gm ∧ FlatGraph.prepare F = .value fg ∧
      gm.inference.stateful.WellSized ∧ fg.inference.stateful.WellSized ∧
      compareStateful gm.inference.stateful fg.inference.stateful 2 defaultTolerance.value () =
        .value (report, ()) ∧ report.passed = true ∧
      ∃ states : Nat → Unit, states 0 = () ∧ ∀ i < 2,
        RelatedOn report.Admits gm.inference.stateful fg.inference.stateful i (states i)
          (states (i + 1)) := by
  obtain ⟨F, gm, fg, report, lowered, -, prepared, opened, compared, passed⟩ :=
    exists_compared (scaling ⟨0x40000000⟩) 2 (fun _ report => report.passed) (by decide +kernel)
  have compared := compareModels_eq_value_iff.1 compared
  obtain ⟨-, -, -, states, start, -, related⟩ :=
    admits_of_passed gm.wellSized_inference fg.wellSized_inference compared passed
  exact ⟨F, gm, fg, report, lowered, prepared, opened, gm.wellSized_inference,
    fg.wellSized_inference, compared, passed, states, start, related⟩

/-- An infinite output is compared with itself, and passes if every difference is accepted. -/
theorem admits_of_passed_infinity :
    ∃ F gm fg report, (scaling ⟨0x7f800000⟩).lower .empty .standard = .value F ∧
      prepare (scaling ⟨0x7f800000⟩) .empty = .value gm ∧ FlatGraph.prepare F = .value fg ∧
      gm.inference.stateful.WellSized ∧ fg.inference.stateful.WellSized ∧
      compareStateful gm.inference.stateful fg.inference.stateful 1 (1 / 0) () =
        .value (report, ()) ∧ report.passed = true ∧
      ∀ s s', ¬ RelatedOn (fun x y => (x - y).isNaN = false ∧ (x - y).abs ≤ report.tolerance ∧
        (x - y).abs ≤ report.maxDifference) gm.inference.stateful fg.inference.stateful 0 s s' := by
  obtain ⟨F, gm, fg, report, lowered, -, prepared, opened, compared, h⟩ :=
    exists_comparison (scaling ⟨0x7f800000⟩) 1 (1 / 0)
      (fun gm fg report => report.passed && gm.runsApart (fun x y => (x - y).isNaN) fg 0)
      (by decide +kernel)
  rw [Bool.and_eq_true] at h
  exact ⟨F, gm, fg, report, lowered, prepared, opened, gm.wellSized_inference,
    fg.wellSized_inference, compareModels_eq_value_iff.1 compared, h.1,
    not_relatedOn_of_runsApart h.2 fun x y close => close.1⟩

end GraphModel

end FlatNet
