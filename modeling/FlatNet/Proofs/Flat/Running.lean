import FlatNet.Proofs.Flat.Opening

/-!
Running flat models.

A flat model that was read from bytes and opened runs on any tensors to an end, in outputs or
in a refusal, with one exception: a step may form a length that is no size.  A convolution forms
the length it expects of its filter from the declared sides of the filter and the channels of
the map it is given, before it compares this length with the filter; a filter with an empty
dimension declares any sides and holds a single number.

* `FlatStep.Overflows`: a step forms a length that is no size;
* `FlatStep.eval_safe`, `FlatStep.eval_eq_fault`: a step breaks off exactly then;
* `FlatGraph.RunOverflows`: a run comes to such a step;
* `FlatGraph.infer_eq_fault_iff`: a run breaks off exactly then.
-/

namespace FlatNet

open Outcome (SafeUnless)
open FeatureMap (Held ConcatFits channelSum)

/-! ### Steps -/

namespace FlatStep

variable {ε : Type}

/-- A step forms a length that is no size: the one that a convolution expects of its filter, or
the number of channels of maps that fit side by side. -/
def Overflows (get : Nat → Outcome ε FeatureMap) : FlatStep → Prop
  | conv input _ out _ w _ => ∃ m, get input = .value m ∧
      Size.bound ≤ out * w.kernel.1 * w.kernel.2 * m.hwc.channels
  | depthwise input _ _ w _ => ∃ m, get input = .value m ∧
      Size.bound ≤ w.kernel.1 * w.kernel.2 * m.hwc.channels
  | concat inputs _ => ∃ ms, inputs.mapM get = .value ms ∧ ConcatFits ms ∧
      Size.bound ≤ channelSum ms
  | batchNorm .. | activate .. | add .. | maxPool .. | resize .. => False

variable {get : Nat → Outcome ε FeatureMap} {refuse : KernelError → ε} {step : FlatStep}

/-- A step breaks off only if it forms a length that is no size, and its value is held in memory
if those that it reads are. -/
lemma eval_safe (small : step.Small)
    (held : ∀ place ∈ step.reads, (get place).SafeUnless (step.Overflows get) Held) :
    (step.eval get refuse).SafeUnless (step.Overflows get) Held := by
  -- a step reads maps that are held; its kernel breaks off only as the step is said to
  cases step with
  | conv input filter out bias w a =>
    obtain ⟨narrow, n, front⟩ := small
    refine (held input (List.mem_singleton_self _)).with_value.bind ?_
    rintro m ⟨read, hm⟩
    refine SafeUnless.mapError ((FeatureMap.conv2d_safe hm narrow front).mono ?_ fun _ h => h)
    intro large
    obtain ⟨-, -, rfl⟩ := Size.product?_triple front
    exact ⟨m, read, large⟩
  | depthwise input filter bias w a =>
    refine (held input (List.mem_singleton_self _)).with_value.bind ?_
    rintro m ⟨read, hm⟩
    refine SafeUnless.mapError ((FeatureMap.depthwiseConv2d_safe hm small).mono ?_ fun _ h => h)
    exact fun large => ⟨m, read, large⟩
  | batchNorm input params epsilon =>
    refine (held input (List.mem_singleton_self _)).bind fun m hm => ?_
    exact (FeatureMap.batchNorm_safe hm params epsilon.value).mapError
  | activate input a =>
    exact (held input (List.mem_singleton_self _)).bind fun m hm => hm.activate a
  | add lhs rhs a =>
    refine (held lhs (by simp [reads])).bind fun x hx => ?_
    refine (held rhs (by simp [reads])).bind fun y _ => ?_
    exact (FeatureMap.add_safe hx y).mapError
  | concat inputs a =>
    refine (SafeUnless.mapM_all held).with_value.bind ?_
    rintro ms ⟨read, hms⟩
    refine SafeUnless.bind (SafeUnless.mapError ((FeatureMap.concat_safe hms).mono ?_
      fun _ h => h)) fun r hr => hr.activate a
    rintro ⟨fits, large⟩
    exact ⟨ms, read, fits, large⟩
  | maxPool input w a =>
    refine (held input (List.mem_singleton_self _)).bind fun m hm => ?_
    exact (FeatureMap.maxPool2d_safe hm small).mapError.bind fun r hr => hr.activate a
  | resize input size s =>
    refine (held input (List.mem_singleton_self _)).bind fun m hm => ?_
    exact (FeatureMap.resizeBilinear_safe hm small.1 small.2 s).mapError

/-- A step that forms such a length does break off. -/
lemma eval_eq_fault (small : step.Small) (overflows : step.Overflows get) :
    step.eval get refuse = .fault := by
  cases step with
  | conv input filter out bias w a =>
    obtain ⟨-, n, front⟩ := small
    obtain ⟨-, -, rfl⟩ := Size.product?_triple front
    obtain ⟨m, read, large⟩ := overflows
    simp only [eval, read, Outcome.value_bind, FeatureMap.conv2d_eq_fault front large,
      Outcome.mapError]
  | depthwise input filter bias w a =>
    obtain ⟨m, read, large⟩ := overflows
    simp only [eval, read, Outcome.value_bind, FeatureMap.depthwiseConv2d_eq_fault small large,
      Outcome.mapError]
  | concat inputs a =>
    obtain ⟨ms, read, fits, large⟩ := overflows
    simp only [eval, read, Outcome.value_bind, FeatureMap.concat_eq_fault fits large,
      Outcome.mapError, Outcome.fault_bind]
  | batchNorm | activate | add | maxPool | resize => exact overflows.elim

end FlatStep

/-! ### Runs -/

namespace FlatGraph

/-- A run of steps comes to one that forms a length that is no size. -/
inductive RunOverflows (g : FlatGraph) : Values → List (FlatStep × Nat) → Prop where
  /-- The first step does. -/
  | here {values : Values} {step : FlatStep × Nat} {rest : List (FlatStep × Nat)} :
      step.1.Overflows (g.value values) → RunOverflows g values (step :: rest)
  /-- A later one does. -/
  | later {values values' : Values} {step : FlatStep × Nat} {rest : List (FlatStep × Nat)} :
      g.run values step = .value values' → RunOverflows g values' rest →
      RunOverflows g values (step :: rest)

variable {g : FlatGraph} {values : Values} {B : Prop}

/-- Every value written so far is held in memory. -/
def AllHeld (values : Values) : Prop := ∀ p ∈ values, p.2.Held

lemma value_safe (held : AllHeld values) {place : Nat} (there : place < g.names.length) :
    (g.value values place).SafeUnless B Held := by
  unfold value
  split
  · rename_i m found
    obtain ⟨before, after, split, -⟩ := List.lookup_eq_some_iff.1 found
    exact held (place, m) (by simp [split])
  · exact (SafeUnless.orFault (List.getElem?_eq_getElem there)).bind fun _ _ => trivial

/-- A step keeps the values held in memory, or breaks off over a length. -/
lemma run_safe {step : FlatStep × Nat} (sound : step.1.Sound g.names.length True)
    (held : AllHeld values) :
    (g.run values step).SafeUnless (step.1.Overflows (g.value values)) AllHeld := by
  refine (FlatStep.eval_safe (sound.small trivial) fun place hp =>
    value_safe held (sound.reads place hp)).bind fun m hm => ?_
  exact List.forall_mem_cons.2 ⟨hm, held⟩

/-- A run keeps the values held in memory, or comes to a step that breaks off. -/
lemma foldlM_run_safe {steps : List (FlatStep × Nat)}
    (sound : ∀ s ∈ steps, s.1.Sound g.names.length True) (held : AllHeld values) :
    (steps.foldlM g.run values).SafeUnless (g.RunOverflows values steps) AllHeld := by
  induction steps generalizing values with
  | nil => exact held
  | cons step rest ih =>
    obtain ⟨first, later⟩ := List.forall_mem_cons.1 sound
    rw [List.foldlM_cons]
    refine ((run_safe first held).with_value.mono .here fun _ h => h).bind ?_
    rintro values' ⟨ran, held'⟩
    exact (ih later held').mono (.later ran) fun _ h => h

/-- A run that comes to such a step does break off. -/
lemma foldlM_run_eq_fault {steps : List (FlatStep × Nat)}
    (sound : ∀ s ∈ steps, s.1.Sound g.names.length True) (h : g.RunOverflows values steps) :
    steps.foldlM g.run values = .fault := by
  induction h with
  | here overflows =>
    have first := (sound _ (List.mem_cons_self ..)).small trivial
    rw [List.foldlM_cons, run, FlatStep.eval_eq_fault first overflows]
    rfl
  | later ran _ ih =>
    rw [List.foldlM_cons, ran, Outcome.value_bind]
    exact ih fun s hs => sound s (List.mem_cons_of_mem _ hs)

/-- An input is read into memory. -/
lemma readInput_safe {e : Endpoint} {t : Tensor} (sized : t.WellSized)
    (small : e.hwc.height < 0x100000000 ∧ e.hwc.width < 0x100000000) :
    (readInput e t).SafeUnless B Held := by
  refine (FeatureMap.ofTensor_safe sized).mapError.bind ?_
  rintro m ⟨stored, -, full⟩
  refine (SafeUnless.require _ _).bind fun _ same => ?_
  rw [decide_eq_true_eq] at same
  exact ⟨stored, full.height, full.width, by rw [same]; exact ⟨small.1, small.2⟩⟩

lemma readInputs_safe {inputs : List Tensor} (sized : ∀ t ∈ inputs, t.WellSized)
    (small : ∀ e ∈ g.inputs, e.hwc.height < 0x100000000 ∧ e.hwc.width < 0x100000000) :
    (g.readInputs inputs).SafeUnless B AllHeld := by
  refine (SafeUnless.require _ _).bind fun _ _ => ?_
  refine SafeUnless.foldlM (List.forall_mem_nil _) fun values p hp held => ?_
  obtain ⟨declared, given⟩ := List.of_mem_zip hp
  refine (readInput_safe (sized p.2 given) (small p.1 declared)).bind fun m hm => ?_
  exact List.forall_mem_cons.2 ⟨hm, held⟩

end FlatGraph

/-! ### Models read from bytes -/

namespace FlatModel

/-- The dimensions of a model that was read from bytes are numbers of four bytes. -/
lemma narrow_of_decode {bs : Bytes} {m : FlatModel} (h : decode bs = .value m) : m.Narrow := by
  simp only [decode, Outcome.bind_eq_value_iff] at h
  obtain ⟨⟨⟨tables, spans⟩, rest⟩, read, _, -, _, -, buffers, -, _, -, same⟩ := h
  obtain ⟨-, -, fits, -⟩ := sound_tables.gives bs _ _ read
  obtain rfl := Outcome.value.inj same
  exact fun t ht n hn => (fits.entries t ht).dims n hn

end FlatModel

namespace FlatGraph

/-- A run of a flat model that was read from bytes breaks off exactly if it comes to a step that
forms a length that is no size; on any tensors, and whatever the model declares. -/
theorem infer_eq_fault_iff {bs : Bytes} {m : FlatModel} {g : FlatGraph} {inputs : List Tensor}
    (accepted : FlatModel.decode bs = .value m) (opened : prepare m = .value g)
    (sized : ∀ t ∈ inputs, t.WellSized) :
    g.infer inputs = .fault ↔
      ∃ values, g.readInputs inputs = .value values ∧ g.RunOverflows values g.steps := by
  have narrow := FlatModel.narrow_of_decode accepted
  have sound := (prepare_safe m).of_value opened
  have steps : ∀ s ∈ g.steps, s.1.Sound g.names.length True := fun s hs =>
    ⟨(sound.steps s hs).reads, fun _ => (sound.steps s hs).small narrow⟩
  constructor
  -- inputs are read, steps run and outputs given back; only the steps can break off
  · refine SafeUnless.of_fault (Q := fun _ => True) ?_
    refine (readInputs_safe sized (sound.inputs narrow)).with_value.bind ?_
    rintro values ⟨read, held⟩
    refine ((foldlM_run_safe steps held).mono (fun broken => ⟨values, read, broken⟩)
      fun _ h => h).bind fun values' held' => ?_
    refine (SafeUnless.mapM_all (Q := fun _ => True) fun e he => ?_).mono id fun _ _ => trivial
    refine (value_safe held' (sound.outputs e he)).bind fun r _ => ?_
    exact (FeatureMap.toTensor_safe r).mapError
  · rintro ⟨values, read, broken⟩
    rw [infer, read, Outcome.value_bind, foldlM_run_eq_fault steps broken, Outcome.fault_bind]

/-- A convolution whose filter declares almost `2 ^ 64` elements of no input channel, and holds
one number. -/
def emptyFilter : FlatModel where
  version := FlatModel.formatVersion
  description := ""
  metadata := []
  codes := [.conv2d]
  tensors := [
    ⟨"in", .f32, [1, 1, 1, 2], 0, none⟩,
    ⟨"filter", .f32, [0xffffffff, 0xffffffff, 1, 0], 1, none⟩,
    ⟨"out", .f32, [1, 1, 1, 1], 0, none⟩]
  operators := [⟨0, [0, 1], [2], .conv2d .same 1 1 .none⟩]
  inputs := [0]
  outputs := [2]
  buffers := [[], [0, 0, 0, 0]]

/-- A pixel of two channels. -/
def blackPixel : Tensor := ⟨.f32, [1, 1, 1, 2], [0, 0, 0, 0, 0, 0, 0, 0]⟩

lemma wellSized_blackPixel : ∀ t ∈ [blackPixel], t.WellSized := by decide +kernel

lemma exists_emptyFilter : ∃ m g, FlatModel.decode emptyFilter.encode = .value m ∧
    prepare m = .value g ∧ g.infer [blackPixel] = .fault := by
  have found : (FlatModel.decode emptyFilter.encode).holds (fun m =>
      (prepare m).holds fun g => (g.infer [blackPixel]).isFault) = true := by decide +kernel
  obtain ⟨m, accepted, found⟩ := Outcome.exists_of_holds found
  obtain ⟨g, opened, broken⟩ := Outcome.exists_of_holds found
  exact ⟨m, g, accepted, opened, Outcome.isFault_iff.1 broken⟩

/-- A run that breaks off comes to a convolution whose filter has too many elements to count. -/
theorem infer_eq_fault_iff_emptyFilter : ∃ m g, FlatModel.decode emptyFilter.encode = .value m ∧
    prepare m = .value g ∧ (∀ t ∈ [blackPixel], t.WellSized) ∧
    ∃ values, g.readInputs [blackPixel] = .value values ∧ g.RunOverflows values g.steps := by
  obtain ⟨m, g, accepted, opened, broken⟩ := exists_emptyFilter
  exact ⟨m, g, accepted, opened, wellSized_blackPixel,
    (infer_eq_fault_iff accepted opened wellSized_blackPixel).1 broken⟩

/-- The bytes of the model are accepted and opened, and running it on a tensor breaks off. -/
theorem infer_eq_fault_emptyFilter : ∃ m g, FlatModel.decode emptyFilter.encode = .value m ∧
    prepare m = .value g ∧ Tensor.ofBytes .f32 [1, 1, 1, 2] blackPixel.bytes = .ok blackPixel ∧
    g.infer [blackPixel] = .fault := by
  obtain ⟨m, g, accepted, opened, broken⟩ := exists_emptyFilter
  exact ⟨m, g, accepted, opened, by decide +kernel, broken⟩

end FlatGraph

end FlatNet
