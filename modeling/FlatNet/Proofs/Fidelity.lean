import FlatNet.Fidelity
import FlatNet.Proofs.Flat.Simulation
import FlatNet.Proofs.Scalar

/-!
Comparisons of models that agree.

A model that gives every output that the reference gives is compared with it number by number,
and each number with itself.  The difference of a finite number and itself is zero; that of an
infinity and itself is NaN, which a comparison takes for an infinite difference, as it does for
NaN.  So a comparison reports no difference if all outputs of the reference on the probes are
finite, and an infinite one otherwise.

* `difference_self`: the difference of a number and itself;
* `Tensor.Every`, `InferenceModel.EveryOn`: outputs whose numbers all pass a test;
* `Reports`, `reports_compareSample`, `reports_compareModels`: what is reported of models that
  agree, output by output and sample by sample;
* `GraphModel.compareModels_of_lower`: what is reported of a model and its lowered form.
-/

namespace FlatNet

/-! ### Equal numbers -/

/-- The difference of a number and itself is infinite unless the number is finite. -/
lemma difference_self (x : Float32) : difference x x = if x.isFinite then 0 else 1 / 0 := by
  rw [difference, Scalar.sub_self_eq]
  split <;> decide +kernel

/-- No difference is reported if everything compared so far is finite, else an infinite one. -/
def Reports (finite : Prop) (r : Float32) : Prop := finite ∧ r = 0 ∨ ¬ finite ∧ r = 1 / 0

namespace Reports

variable {P Q : Prop} {acc r : Float32}

lemma congr (h : Reports P r) (same : P ↔ Q) : Reports Q r := by
  rw [Reports, ← same]
  exact h

/-- One more number is compared with itself. -/
lemma max (h : Reports P acc) (x : Float32) :
    Reports (P ∧ x.isFinite = true) (Scalar.max acc (difference x x)) := by
  have none : Scalar.max 0 0 = 0 := by decide +kernel
  have first : Scalar.max 0 (1 / 0) = 1 / 0 := by decide +kernel
  have second : Scalar.max (1 / 0) 0 = 1 / 0 := by decide +kernel
  have both : Scalar.max (1 / 0) (1 / 0) = 1 / 0 := by decide +kernel
  rw [difference_self]
  rcases h with ⟨holds, rfl⟩ | ⟨fails, rfl⟩ <;> cases finite : x.isFinite
  · exact .inr ⟨fun h => (nomatch h.2), first⟩
  · exact .inl ⟨⟨holds, rfl⟩, none⟩
  · exact .inr ⟨fun h => fails h.1, both⟩
  · exact .inr ⟨fun h => fails h.1, second⟩

/-- A list of numbers is compared with itself. -/
lemma maxDifference (h : Reports P acc) (xs : List Float32) :
    Reports (P ∧ ∀ x ∈ xs, x.isFinite = true) (maxDifference acc xs xs) := by
  induction xs generalizing P acc with
  | nil => exact h.congr (by simp)
  | cons x xs ih => exact (ih (h.max x)).congr (by simp [and_assoc])

end Reports

/-! ### Equal outputs -/

/-- Every number of an output passes a test. -/
def Tensor.Every (test : Float32 → Bool) (t : Tensor) : Prop :=
  ∀ xs, outputNumbers t = .value xs → ∀ x ∈ xs, test x = true

/-- The outputs of a place are compared if they have one shape and both can be read. -/
lemma compareOutput_eq_value_iff {acc r : Float32} {t u : Tensor} {index : Nat} :
    compareOutput acc ((t, u), index) = .value r ↔
      t.shape = u.shape ∧ ∃ xs ys, outputNumbers t = .value xs ∧ outputNumbers u = .value ys ∧
        maxDifference acc xs ys = r := by
  simp only [compareOutput, Outcome.bind_eq_value_iff, Outcome.require_eq_value_iff,
    Outcome.pure_eq, Outcome.value.injEq, exists_const, decide_eq_true_iff, exists_and_left]

variable {P : Prop} {acc r : Float32}

lemma reports_compareOutput (h : Reports P acc) {t : Tensor} {index : Nat}
    (compared : compareOutput acc ((t, t), index) = .value r) :
    Reports (P ∧ t.Every (·.isFinite)) r := by
  obtain ⟨-, xs, ys, read, read', rfl⟩ := compareOutput_eq_value_iff.1 compared
  obtain rfl := Outcome.value.inj (read.symm.trans read')
  refine (h.maxDifference xs).congr (and_congr_right fun _ => ⟨fun all ys hys => ?_, fun all => ?_⟩)
  · exact Outcome.value.inj (read.symm.trans hys) ▸ all
  · exact all xs read

lemma reports_outputs {outs : List Tensor} (h : Reports P acc) {n : Nat}
    (compared : ((outs.zip outs).zipIdx n).foldlM compareOutput acc = .value r) :
    Reports (P ∧ ∀ t ∈ outs, t.Every (·.isFinite)) r := by
  induction outs generalizing P acc n with
  | nil =>
    obtain rfl := Outcome.value.inj compared
    exact h.congr (by simp)
  | cons t outs ih =>
    rw [List.zip_cons_cons, List.zipIdx_cons, List.foldlM_cons, Outcome.bind_eq_value_iff]
      at compared
    obtain ⟨acc', first, later⟩ := compared
    exact (ih (reports_compareOutput h first) later).congr (by simp [and_assoc])

/-! ### Samples -/

section Stateful

variable {σ : Type} {reference converted : StatefulModel σ} {acc r : Float32 × σ}

/-- A sample is compared if both models run on its probes, one after the other, and their outputs
match. -/
lemma compareSample_eq_value_iff {sample : Nat} :
    compareSample reference converted acc sample = .value r ↔
      ∃ inputs expected s actual, probeInputs reference.spec.inputs sample = .value inputs ∧
        reference.infer inputs acc.2 = .value (expected, s) ∧
        converted.infer inputs s = .value (actual, r.2) ∧ expected.length = actual.length ∧
        (expected.zip actual).zipIdx.foldlM compareOutput acc.1 = .value r.1 := by
  simp only [compareSample, Outcome.bind_eq_value_iff, Outcome.mapError_eq_value_iff,
    Outcome.require_eq_value_iff, Outcome.pure_eq, Outcome.value.injEq, Prod.exists,
    decide_eq_true_iff]
  constructor
  · rintro ⟨inputs, probes, expected, s, ran, actual, s', ran', _, same, largest, outputs, rfl⟩
    exact ⟨inputs, expected, s, actual, probes, ran, ran', same, outputs⟩
  · rintro ⟨inputs, expected, s, actual, probes, ran, ran', same, outputs⟩
    exact ⟨inputs, probes, expected, s, ran, actual, r.2, ran', ⟨⟩, same, r.1, outputs, rfl⟩

/-- Models are compared if some sample is asked for, they declare the same inputs, and every sample
is compared. -/
lemma compareStateful_eq_value_iff {samples : Nat} {tolerance : Float32} {s s' : σ}
    {report : Fidelity} :
    compareStateful reference converted samples tolerance s = .value (report, s') ↔
      samples ≠ 0 ∧
        reference.spec.inputs.map (·.dims) = converted.spec.inputs.map (·.dims) ∧
        compareSamples reference converted (0, s) 0 samples = .value (report.maxDifference, s') ∧
        report.samples = samples ∧ report.tolerance = tolerance := by
  simp only [compareStateful, Outcome.bind_eq_value_iff, Outcome.require_eq_value_iff,
    Outcome.pure_eq, Outcome.value.injEq, Prod.exists, Prod.mk.injEq, decide_eq_true_iff]
  constructor
  · rintro ⟨_, some, _, same, largest, t, ran, rfl, rfl⟩
    exact ⟨some, same, ran, rfl, rfl⟩
  · rintro ⟨some, same, ran, rfl, rfl⟩
    exact ⟨⟨⟩, some, ⟨⟩, same, report.maxDifference, s', ran, rfl, rfl⟩

end Stateful

/-- On the probes of a sample every number that a model gives passes a test. -/
def InferenceModel.EveryOn (test : Float32 → Bool) (m : InferenceModel) (sample : Nat) : Prop :=
  ∀ inputs outs, probeInputs m.spec.inputs sample = .value inputs → m.infer inputs = .value outs →
    ∀ t ∈ outs, t.Every test

lemma InferenceModel.stateful_infer_eq_value_iff {m : InferenceModel} {inputs outs : List Tensor}
    {s s' : Unit} :
    m.stateful.infer inputs s = .value (outs, s') ↔ m.infer inputs = .value outs := by
  simp [InferenceModel.stateful, Outcome.bind_eq_value_iff, Outcome.pure_eq]

variable {reference converted : InferenceModel}

/-- Models that keep no state are compared as they are when they keep one. -/
lemma compareModels_eq_value_iff {samples : Nat} {tolerance : Float32} {report : Fidelity} :
    compareModels reference converted samples tolerance = .value report ↔
      compareStateful reference.stateful converted.stateful samples tolerance () =
        .value (report, ()) := by
  simp [compareModels, Outcome.bind_eq_value_iff, Outcome.pure_eq, Unique.exists_iff]

lemma reports_compareSample
    (agree : ∀ inputs outs, reference.infer inputs = .value outs →
      converted.infer inputs = .value outs)
    {acc r : Float32 × Unit} (h : Reports P acc.1) {sample : Nat}
    (compared : compareSample reference.stateful converted.stateful acc sample = .value r) :
    Reports (P ∧ reference.EveryOn (·.isFinite) sample) r.1 := by
  obtain ⟨inputs, expected, s, actual, probes, ran, ran', -, outputs⟩ :=
    compareSample_eq_value_iff.1 compared
  rw [InferenceModel.stateful_infer_eq_value_iff] at ran ran'
  obtain rfl := Outcome.value.inj ((agree inputs expected ran).symm.trans ran')
  refine (reports_outputs h outputs).congr (and_congr_right fun _ => ⟨fun all is os hi ho => ?_,
    fun all => all inputs expected probes ran⟩)
  obtain rfl := Outcome.value.inj (probes.symm.trans hi)
  exact Outcome.value.inj (ran.symm.trans ho) ▸ all

lemma reports_compareSamples
    (agree : ∀ inputs outs, reference.infer inputs = .value outs →
      converted.infer inputs = .value outs)
    {acc r : Float32 × Unit} (h : Reports P acc.1) {sample count : Nat}
    (compared :
      compareSamples reference.stateful converted.stateful acc sample count = .value r) :
    Reports (P ∧ ∀ i < count, reference.EveryOn (·.isFinite) (sample + i)) r.1 := by
  induction count generalizing P acc sample with
  | zero =>
    obtain rfl := Outcome.value.inj compared
    exact h.congr (by simp)
  | succ count ih =>
    rw [compareSamples, Outcome.bind_eq_value_iff] at compared
    obtain ⟨acc', first, later⟩ := compared
    refine (ih (reports_compareSample agree h first) later).congr ?_
    rw [and_assoc, Nat.forall_lt_succ_left]
    simp only [Nat.add_zero, Nat.add_assoc, Nat.add_comm 1]

/-- A model that gives every output that the reference gives is reported to differ only where an
output is not finite. -/
theorem reports_compareModels
    (agree : ∀ inputs outs, reference.infer inputs = .value outs →
      converted.infer inputs = .value outs)
    {samples : Nat} {tolerance : Float32} {report : Fidelity}
    (compared : compareModels reference converted samples tolerance = .value report) :
    Reports (∀ sample < samples, reference.EveryOn (·.isFinite) sample) report.maxDifference ∧
      report.samples = samples ∧ report.tolerance = tolerance := by
  obtain ⟨-, -, ran, counted, accepted⟩ :=
    compareStateful_eq_value_iff.1 (compareModels_eq_value_iff.1 compared)
  have start : Reports True (0, ()).1 := .inl ⟨trivial, rfl⟩
  exact ⟨(reports_compareSamples agree start ran).congr (by simp), counted, accepted⟩

/-! ### Lowered models -/

/-- A model and its lowered form are reported to have no difference, and pass, if the outputs of
the model on the probes are finite; else the difference is reported to be infinite. -/
theorem GraphModel.compareModels_of_lower {m : Model} {ops : CustomOps}
    {options : ConverterOptions} {F : FlatModel} {gm : GraphModel} {fg : FlatGraph} {samples : Nat}
    {tolerance : Float32} {report : Fidelity} (unquantized : options.quantize = .none)
    (sized : m.WellSized) (lowered : m.lower ops options = .value F)
    (small : F.tensors.length < 0x80000000) (prepared : GraphModel.prepare m ops = .value gm)
    (opened : FlatGraph.prepare F = .value fg) (tolerant : 0 ≤ tolerance)
    (compared : compareModels gm.inference fg.inference samples tolerance = .value report) :
    ((∀ sample < samples, gm.inference.EveryOn (·.isFinite) sample) →
        report.maxDifference = 0 ∧ report.passed = true) ∧
      (¬ (∀ sample < samples, gm.inference.EveryOn (·.isFinite) sample) →
        report.maxDifference = 1 / 0) := by
  obtain ⟨p, V, g, valid, opened', laid, inputs, outputs⟩ :=
    FlatModel.prepare_of_lower unquantized sized lowered small
  obtain rfl := Outcome.value.inj (opened'.symm.trans opened)
  -- both models give the same outputs, so that only a difference that is no number is left
  have agree : ∀ is os, gm.inference.infer is = .value os → g.inference.infer is = .value os := by
    intro is os run
    have tracks : Outcome.Tracks False Eq (gm.infer is) (g.infer is) :=
      FlatGraph.tracks_infer prepared valid laid inputs outputs False.elim is
    obtain ⟨os', run', rfl⟩ := tracks.1 os (Outcome.mapError_eq_value_iff.1 run)
    exact Outcome.mapError_eq_value_iff.2 run'
  obtain ⟨reports, -, accepts⟩ := reports_compareModels agree compared
  rcases reports with ⟨finite, none⟩ | ⟨infinite, some⟩
  · refine ⟨fun _ => ⟨none, ?_⟩, fun h => absurd finite h⟩
    rw [Fidelity.passed, none, accepts]
    exact decide_eq_true tolerant
  · exact ⟨fun h => absurd h infinite, fun _ => some⟩

namespace GraphModel

/-- A model that multiplies its input, a single number, by a weight. -/
def scaling (weight : Binary32) : Model where
  architecture := {
    name := "scaling"
    layers := [
      ⟨"in", .input ⟨1, 1, 1⟩, []⟩,
      ⟨"scaled", .conv2d 1 ⟨(1, 1), (1, 1), .same⟩ .linear false, ["in"]⟩]
    inputs := ["in"]
    outputs := ["scaled"] }
  weights := .ofList [("scaled/kernel", ⟨.f32, [1, 1, 1, 1], Bytes.ofSingles [weight]⟩)]

/-- Whether every number that a model gives on the probes of a sample passes a test. -/
def runsWith (test : Float32 → Bool) (gm : GraphModel) (sample : Nat) : Bool :=
  (probeInputs gm.inference.spec.inputs sample).holds fun inputs =>
    (gm.inference.infer inputs).holds fun outs =>
      outs.all fun t => (outputNumbers t).holds (·.all test)

lemma everyOn_of_runsWith {test : Float32 → Bool} {gm : GraphModel} {sample : Nat}
    (h : gm.runsWith test sample = true) : gm.inference.EveryOn test sample := by
  intro inputs outs probes run t ht xs numbers
  rw [runsWith, probes, Outcome.holds, run, Outcome.holds, List.all_eq_true] at h
  have all := h t ht
  rw [numbers, Outcome.holds, List.all_eq_true] at all
  exact all

/-- A model is compared with its lowered form by evaluation. -/
lemma exists_comparison (m : Model) (samples : Nat) (tolerance : Float32)
    (accept : GraphModel → FlatGraph → Fidelity → Bool)
    (h : (m.lower .empty .standard).holds (fun F => decide (F.tensors.length < 0x80000000) &&
      (prepare m .empty).holds fun gm => (FlatGraph.prepare F).holds fun fg =>
        (compareModels gm.inference fg.inference samples tolerance).holds
          (accept gm fg)) = true) :
    ∃ F gm fg report, m.lower .empty .standard = .value F ∧ F.tensors.length < 0x80000000 ∧
      prepare m .empty = .value gm ∧ FlatGraph.prepare F = .value fg ∧
      compareModels gm.inference fg.inference samples tolerance = .value report ∧
      accept gm fg report = true := by
  obtain ⟨F, lowered, h⟩ := Outcome.exists_of_holds h
  rw [Bool.and_eq_true, decide_eq_true_iff] at h
  obtain ⟨small, h⟩ := h
  obtain ⟨gm, prepared, h⟩ := Outcome.exists_of_holds h
  obtain ⟨fg, opened, h⟩ := Outcome.exists_of_holds h
  obtain ⟨report, compared, accepted⟩ := Outcome.exists_of_holds h
  exact ⟨F, gm, fg, report, lowered, small, prepared, opened, compared, accepted⟩

/-- A model is compared with its lowered form by evaluation, with the tolerance of no option. -/
lemma exists_compared (m : Model) (samples : Nat) (accept : GraphModel → Fidelity → Bool)
    (h : (m.lower .empty .standard).holds (fun F => decide (F.tensors.length < 0x80000000) &&
      (prepare m .empty).holds fun gm => (FlatGraph.prepare F).holds fun fg =>
        (compareModels gm.inference fg.inference samples defaultTolerance.value).holds
          (accept gm)) = true) :
    ∃ F gm fg report, m.lower .empty .standard = .value F ∧ F.tensors.length < 0x80000000 ∧
      prepare m .empty = .value gm ∧ FlatGraph.prepare F = .value fg ∧
      compareModels gm.inference fg.inference samples defaultTolerance.value = .value report ∧
      accept gm report = true :=
  exists_comparison m samples defaultTolerance.value (fun gm _ => accept gm) h

/-- A model that doubles a pixel is compared with its lowered form on one sample, and no difference is
found. -/
theorem compareModels_of_lower_doubled :
    ∃ F gm fg report, (scaling ⟨0x40000000⟩).lower .empty .standard = .value F ∧
      prepare (scaling ⟨0x40000000⟩) .empty = .value gm ∧ FlatGraph.prepare F = .value fg ∧
      compareModels gm.inference fg.inference 1 defaultTolerance.value = .value report ∧
      report.maxDifference = 0 ∧ report.passed = true := by
  have sized : (scaling ⟨0x40000000⟩).WellSized := Model.wellSized_of_entries (by decide +kernel)
  obtain ⟨F, gm, fg, report, lowered, small, prepared, opened, compared, finite⟩ :=
    exists_compared (scaling ⟨0x40000000⟩) 1 (fun gm _ => gm.runsWith (·.isFinite) 0)
      (by decide +kernel)
  have none := (compareModels_of_lower rfl sized lowered small prepared opened
    (show (0 : Float32) ≤ defaultTolerance.value by decide +kernel) compared).1
  refine ⟨F, gm, fg, report, lowered, prepared, opened, compared, none fun sample first => ?_⟩
  obtain rfl := Nat.lt_one_iff.1 first
  exact everyOn_of_runsWith finite

/-- An infinite output is compared with itself, and counts as an infinite difference. -/
theorem compareModels_of_lower_infinity :
    ∃ F gm fg report, (scaling ⟨0x7f800000⟩).WellSized ∧
      (scaling ⟨0x7f800000⟩).lower .empty .standard = .value F ∧
      prepare (scaling ⟨0x7f800000⟩) .empty = .value gm ∧ FlatGraph.prepare F = .value fg ∧
      (0 : Float32) ≤ defaultTolerance.value ∧
      compareModels gm.inference fg.inference 1 defaultTolerance.value = .value report ∧
      (∀ sample < 1, gm.inference.EveryOn (fun x => !x.isNaN) sample) ∧
      ¬ (report.maxDifference = 0 ∧ report.passed = true) := by
  obtain ⟨F, gm, fg, report, lowered, -, prepared, opened, compared, h⟩ :=
    exists_compared (scaling ⟨0x7f800000⟩) 1
      (fun gm report => gm.runsWith (fun x => !x.isNaN) 0 && !report.passed) (by decide +kernel)
  rw [Bool.and_eq_true, Bool.not_eq_true'] at h
  refine ⟨F, gm, fg, report, Model.wellSized_of_entries (by decide +kernel), lowered, prepared,
    opened, by decide +kernel, compared, fun sample first => ?_, fun pass => ?_⟩
  · obtain rfl := Nat.lt_one_iff.1 first
    exact everyOn_of_runsWith h.1
  · rw [h.2] at pass
    exact nomatch pass.2

end GraphModel

end FlatNet
