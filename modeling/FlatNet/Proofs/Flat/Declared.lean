import FlatNet.Proofs.Flat.Running
import FlatNet.Proofs.Flat.Simulation

/-!
Declared and computed shapes of flat models.

A flat model declares a shape for each of its tensors, and its operators make shapes of their
own.  Opening a model compares the two for the size of a resize, and for no other operator.  So
the shapes of the outputs follow from the declared shapes of the inputs and from the operators
alone, and they are the declared ones only if these agree.

* `FlatStep.shape`: the shape that an operator makes of the shapes that it reads;
* `FlatGraph.flow`: the shapes that the operators of a model make, one after the other;
* `FlatGraph.Flows`, `FlatGraph.flows_steps`: values have these shapes, along a run;
* `FlatGraph.infer_admits_iff`: when the outputs of a run have the declared shapes.
-/

namespace FlatNet

/-! ### Operators -/

/-- How many positions a window has along an axis that it fits. -/
def Padding.positions (p : Padding) (input kernel stride : Nat) : Nat :=
  match p with
  | same => (input + stride - 1) / stride
  | valid => (input - kernel) / stride + 1

lemma Padding.Covers.positions_eq {p : Padding} {input kernel stride n : Nat}
    (h : p.Covers input kernel stride n) : p.positions input kernel stride = n := by
  cases p with
  | same => exact Eq.symm h
  | valid => exact h.2.2.symm

/-- The shape that a window makes of an image, with some number of channels. -/
def Window.image (w : Window) (input : Hwc) (channels : Nat) : Hwc :=
  ⟨w.padding.positions input.height w.kernel.1 w.strides.1,
    w.padding.positions input.width w.kernel.2 w.strides.2, channels⟩

lemma Window.Makes.image_eq {w : Window} {input : Hwc} {h v : Nat} (made : w.Makes input h v)
    (channels : Nat) : w.image input channels = ⟨h, v, channels⟩ := by
  rw [image, made.rows.positions_eq, made.columns.positions_eq]

namespace FlatStep

/-- The shape that an operator makes, from the shapes of tensors. -/
def shape (shapes : Nat → Hwc) : FlatStep → Hwc
  | conv input _ out _ w _ => w.image (shapes input) out
  | depthwise input _ _ w _ => w.image (shapes input) (shapes input).channels
  | batchNorm input _ _ => shapes input
  | activate input _ => shapes input
  | add lhs _ _ => shapes lhs
  | concat inputs _ =>
    ⟨(shapes (inputs.headD 0)).height, (shapes (inputs.headD 0)).width,
      (inputs.map fun place => (shapes place).channels).sum⟩
  | maxPool input w _ => w.image (shapes input) (shapes input).channels
  | resize input size _ => ⟨size.1, size.2, (shapes input).channels⟩

variable {ε : Type} {get : Nat → Outcome ε FeatureMap} {refuse : KernelError → ε}
  {shapes : Nat → Hwc} {step : FlatStep} {r : FeatureMap}

/-- The value of an operator has the shape that the operator makes of the shapes of the values
that it reads. -/
lemma hwc_of_eval (follows : ∀ place m, get place = .value m → m.hwc = shapes place)
    (h : step.eval get refuse = .value r) : r.hwc = step.shape shapes := by
  -- each kernel makes the shape that its declared form gives for the shapes it reads
  cases step with
  | conv input filter out bias w a =>
    obtain ⟨m, read, h⟩ := Outcome.bind_eq_value_iff.1 h
    obtain ⟨_, _, made, shaped, -⟩ :=
      (m.conv2d_ends filter out bias w a).of_value (Outcome.mapError_eq_value_iff.1 h)
    rw [shape, ← follows input m read, made.image_eq]
    exact shaped.hwc
  | depthwise input filter bias w a =>
    obtain ⟨m, read, h⟩ := Outcome.bind_eq_value_iff.1 h
    obtain ⟨_, _, made, shaped, -⟩ :=
      (m.depthwiseConv2d_ends filter bias w a).of_value (Outcome.mapError_eq_value_iff.1 h)
    rw [shape, ← follows input m read, made.image_eq]
    exact shaped.hwc
  | batchNorm input params epsilon =>
    obtain ⟨m, read, h⟩ := Outcome.bind_eq_value_iff.1 h
    obtain ⟨shaped, -⟩ :=
      (m.batchNorm_ends params epsilon.value).of_value (Outcome.mapError_eq_value_iff.1 h)
    exact shaped.hwc.trans (follows input m read)
  | activate input a =>
    obtain ⟨m, read, h⟩ := Outcome.bind_eq_value_iff.1 h
    obtain rfl := Outcome.value.inj h
    exact follows input m read
  | add lhs rhs a =>
    obtain ⟨x, read, h⟩ := Outcome.bind_eq_value_iff.1 h
    obtain ⟨y, -, h⟩ := Outcome.bind_eq_value_iff.1 h
    obtain ⟨-, shaped, -⟩ := (x.add_ends y a).of_value (Outcome.mapError_eq_value_iff.1 h)
    exact shaped.hwc.trans (follows lhs x read)
  | concat inputs a =>
    obtain ⟨ms, read, h⟩ := Outcome.bind_eq_value_iff.1 h
    obtain ⟨m, joined, h⟩ := Outcome.bind_eq_value_iff.1 h
    obtain rfl := Outcome.value.inj h
    have joined := (FeatureMap.concat_ends ms).of_value (Outcome.mapError_eq_value_iff.1 joined)
    obtain ⟨first, rest, rfl, -, shaped, -⟩ := joined
    have made : List.Forall₂ (fun place m => FeatureMap.hwc m = shapes place) inputs
        (first :: rest) := (Outcome.mapM_eq_value_iff.1 read).imp follows
    cases made with
    | @cons place _ places _ here later =>
      -- concatenated channels are the sum over the shapes that the places have
      have channels :
          rest.map (·.hwc.channels) = places.map fun place => (shapes place).channels := by
        rw [← List.forall₂_eq_eq_eq, List.forall₂_map_left_iff, List.forall₂_map_right_iff]
        exact later.flip.imp fun m place same => congrArg Hwc.channels same
      rw [FeatureMap.activate, shaped.hwc, shape, FeatureMap.channelSum, ← List.sum_eq_foldl,
        List.map_cons, List.map_cons, channels, here]
      rfl
  | maxPool input w a =>
    obtain ⟨m, read, h⟩ := Outcome.bind_eq_value_iff.1 h
    obtain ⟨x, pooled, h⟩ := Outcome.bind_eq_value_iff.1 h
    obtain rfl := Outcome.value.inj h
    obtain ⟨_, _, made, shaped, -⟩ :=
      (m.maxPool2d_ends w).of_value (Outcome.mapError_eq_value_iff.1 pooled)
    rw [shape, ← follows input m read, made.image_eq]
    exact shaped.hwc
  | resize input size s =>
    obtain ⟨m, read, h⟩ := Outcome.bind_eq_value_iff.1 h
    obtain ⟨shaped, -⟩ :=
      (m.resizeBilinear_ends size s).of_value (Outcome.mapError_eq_value_iff.1 h)
    rw [shape, ← follows input m read]
    exact shaped.hwc

end FlatStep

/-! ### Runs -/

/-- A tensor is admitted by the declaration of an activation exactly if it has its shape, with
any batch size. -/
lemma TensorSpec.admits_activation_iff {name : String} {height width channels : Nat} {t : Tensor} :
    (activation name height width channels).Admits t ↔
      t.dtype = .f32 ∧ ∃ batch, t.shape = [batch, height, width, channels] := by
  constructor
  · rintro ⟨dtype, -, dims⟩
    generalize t.shape = shape at dims ⊢
    rcases dims with _ | ⟨-, _ | ⟨rows, _ | ⟨columns, _ | ⟨depth, ⟨⟩⟩⟩⟩⟩
    exact ⟨dtype, _, by rw [rows _ rfl, columns _ rfl, depth _ rfl]⟩
  · rintro ⟨dtype, batch, shape⟩
    refine ⟨dtype, by rw [shape]; rfl, ?_⟩
    rw [shape]
    simp [activation]

namespace FlatGraph

/-- The shapes that the tensors of a model get: those that are declared for the inputs, and those
that the operators make, one after the other. -/
def flow (g : FlatGraph) : Nat → Hwc :=
  g.steps.foldl (fun shapes s => Function.update shapes s.2 (s.1.shape shapes))
    (g.inputs.foldl (fun shapes e => Function.update shapes e.place e.hwc) fun _ => ⟨0, 0, 0⟩)

/-- Every value has the shape of its tensor. -/
def Flows (shapes : Nat → Hwc) (values : Values) : Prop :=
  ∀ place m, values.lookup place = some m → m.hwc = shapes place

variable {g : FlatGraph} {shapes : Nat → Hwc} {values values' : Values}

lemma Flows.cons (h : Flows shapes values) {place : Nat} {m : FeatureMap} {hwc : Hwc}
    (made : m.hwc = hwc) : Flows (Function.update shapes place hwc) ((place, m) :: values) := by
  intro other r found
  by_cases same : other = place
  · subst same
    rw [List.lookup_cons_self, Option.some_inj] at found
    rw [Function.update_self, ← found, made]
  · rw [lookup_cons_of_ne same] at found
    rw [Function.update_of_ne same]
    exact h other r found

/-- Values of the inputs have the declared shapes of the inputs. -/
lemma flows_inputs {given : List (Endpoint × Tensor)} (h : Flows shapes values)
    (run : (given.foldlM (fun values p => do
      return (p.1.place, ← readInput p.1 p.2) :: values) values : Result Values) = .value values') :
    Flows ((given.map (·.1)).foldl (fun shapes e => Function.update shapes e.place e.hwc) shapes)
      values' := by
  induction given generalizing shapes values with
  | nil =>
    cases run
    exact h
  | cons p given ih =>
    rw [List.foldlM_cons, Outcome.bind_eq_value_iff] at run
    obtain ⟨next, read, run⟩ := run
    simp only [readInput, Outcome.bind_eq_value_iff, Outcome.require_eq_value_iff, Outcome.pure_eq,
      Outcome.value.injEq, decide_eq_true_eq] at read
    obtain ⟨_, ⟨m, -, _, same, rfl⟩, rfl⟩ := read
    exact ih (h.cons same) run

lemma flows_readInputs {inputs : List Tensor} (h : g.readInputs inputs = .value values) :
    Flows (g.inputs.foldl (fun shapes e => Function.update shapes e.place e.hwc)
      fun _ => ⟨0, 0, 0⟩) values := by
  rw [readInputs, Outcome.bind_eq_value_iff] at h
  obtain ⟨_, count, read⟩ := h
  rw [Outcome.require_eq_value_iff, decide_eq_true_eq] at count
  have empty : Flows (fun _ => ⟨0, 0, 0⟩) [] := by simp [Flows]
  have follows := flows_inputs empty read
  rwa [List.map_fst_zip count.ge] at follows

/-- Values of the flowing shapes stay so along a run. -/
lemma flows_steps {steps : List (FlatStep × Nat)} (h : Flows shapes values)
    (run : steps.foldlM g.run values = .value values') :
    Flows (steps.foldl (fun shapes s => Function.update shapes s.2 (s.1.shape shapes)) shapes)
      values' := by
  -- over the steps, with the shapes updated as the values are
  induction steps generalizing shapes values with
  | nil =>
    cases run
    exact h
  | cons s steps ih =>
    rw [List.foldlM_cons, Outcome.bind_eq_value_iff] at run
    obtain ⟨next, step, run⟩ := run
    simp only [FlatGraph.run, Outcome.bind_eq_value_iff, Outcome.pure_eq,
      Outcome.value.injEq] at step
    obtain ⟨r, evaluated, rfl⟩ := step
    have made : r.hwc = s.1.shape shapes :=
      FlatStep.hwc_of_eval (fun place m read => h place m (value_eq_value_iff.1 read)) evaluated
    exact ih (h.cons made) run

/-- The outputs of a run have the flowing shapes. -/
lemma outputs_flow {inputs outs : List Tensor} (h : g.infer inputs = .value outs) :
    List.Forall₂ (fun e t => ({ e with hwc := g.flow e.place } : Endpoint).spec.Admits t)
      g.outputs outs := by
  rw [infer, Outcome.bind_eq_value_iff] at h
  obtain ⟨start, read, h⟩ := h
  rw [Outcome.bind_eq_value_iff] at h
  obtain ⟨values, run, outputs⟩ := h
  have follows : Flows g.flow values := flows_steps (flows_readInputs read) run
  rw [Outcome.mapM_eq_value_iff] at outputs
  refine outputs.imp fun e t made => ?_
  obtain ⟨m, found, made⟩ := Outcome.bind_eq_value_iff.1 made
  rw [← follows e.place m (value_eq_value_iff.1 found)]
  exact TensorSpec.admits_toTensor (Outcome.mapError_eq_value_iff.1 made) e.name

/-- **Outputs have the declared shapes exactly if the operators make them.**  Every output of a
run is of rank four, and its height, width and channels are those that the operators make of the
declared shapes of the inputs, one after the other.  So the outputs have their declared shapes
exactly if these are the shapes that the operators make. -/
theorem infer_admits_iff {inputs outs : List Tensor} (run : g.infer inputs = .value outs) :
    List.Forall₂ (fun e t => ∃ batch, t.shape =
      [batch, (g.flow e.place).height, (g.flow e.place).width, (g.flow e.place).channels])
      g.outputs outs ∧
    (List.Forall₂ TensorSpec.Admits g.spec.outputs outs ↔
      ∀ e ∈ g.outputs, g.flow e.place = e.hwc) := by
  have follow := outputs_flow run
  refine ⟨follow.imp fun e t h => (TensorSpec.admits_activation_iff.1 h).2, ?_⟩
  rw [spec, List.forall₂_map_left_iff]
  clear run
  generalize g.outputs = declared at follow
  induction follow with
  | nil => simp
  | @cons e t es ts here _ ih =>
    -- an output of the shape that flows to its place fits its declaration only if both are one
    -- shape
    have same : e.spec.Admits t ↔ g.flow e.place = e.hwc := by
      obtain ⟨dtype, batch, shape⟩ := TensorSpec.admits_activation_iff.1 here
      obtain ⟨place, name, ⟨height, width, channels⟩⟩ := e
      rw [Endpoint.spec, TensorSpec.admits_activation_iff, shape, and_iff_right dtype]
      cases g.flow place
      simp
    rw [List.forall₂_cons, List.forall_mem_cons, same, ih]

/-- A model whose output is declared as its operator makes it runs on a pixel. -/
theorem infer_admits_iff_positivePart : ∃ g outs, prepare FlatModel.positivePart = .value g ∧
    g.infer [blackPixel] = .value outs ∧ List.Forall₂ TensorSpec.Admits g.spec.outputs outs := by
  obtain ⟨g, prepared, ran⟩ := Outcome.exists_of_holds
    (show (prepare FlatModel.positivePart).holds (fun g => (g.infer [blackPixel]).holds
      fun _ => ∀ e ∈ g.outputs, g.flow e.place = e.hwc) = true by decide +kernel)
  obtain ⟨outs, run, declared⟩ := Outcome.exists_of_holds ran
  exact ⟨g, outs, prepared, run, (infer_admits_iff run).2.2 (of_decide_eq_true declared)⟩

/-- A model that keeps the positive part of a pixel, and declares it a larger image. -/
def enlargedPixel : FlatModel where
  version := FlatModel.formatVersion
  description := ""
  metadata := []
  codes := [.relu]
  tensors := [⟨"x", .f32, [1, 1, 1, 2], 0, none⟩, ⟨"y", .f32, [1, 5, 5, 3], 0, none⟩]
  operators := [⟨0, [0], [1], .none⟩]
  inputs := [0]
  outputs := [1]
  buffers := [[]]

/-- The bytes of the model are accepted and opened, and a run ends in an output that is not as
declared. -/
theorem infer_not_admits_enlargedPixel : ∃ m g outs,
    FlatModel.decode enlargedPixel.encode = .value m ∧ prepare m = .value g ∧
    g.infer [blackPixel] = .value outs ∧ ¬ List.Forall₂ TensorSpec.Admits g.spec.outputs outs := by
  have found : (FlatModel.decode enlargedPixel.encode).holds (fun m => (prepare m).holds fun g =>
      (g.infer [blackPixel]).holds fun outs => g.spec.outputs = [.activation "y" 5 5 3] ∧
        outs.map (·.shape) = [[1, 1, 1, 2]]) = true := by decide +kernel
  obtain ⟨m, accepted, found⟩ := Outcome.exists_of_holds found
  obtain ⟨g, opened, found⟩ := Outcome.exists_of_holds found
  obtain ⟨outs, run, found⟩ := Outcome.exists_of_holds found
  obtain ⟨declared, shapes⟩ := of_decide_eq_true found
  refine ⟨m, g, outs, accepted, opened, run, fun admits => ?_⟩
  -- the output has one pixel and two channels, and 5 × 5 × 3 were declared
  rw [declared] at admits
  cases admits with
  | cons first _ =>
    obtain ⟨-, batch, shape⟩ := TensorSpec.admits_activation_iff.1 first
    simp [shape] at shapes

end FlatGraph

end FlatNet
