import FlatNet.Proofs.Feature.Activation
import FlatNet.Proofs.Flat.Layout
import FlatNet.Proofs.Graph.Shapes

/-!
Lowered models compute what their layers compute.

A run of a lowered model follows a run of the layer graph layer by layer: before each layer,
the values of the layers so far are at their places.  The program of a layer then computes its
value, and leaves the places of other layers alone.

* `FlatGraph.Wrote`: what a program changes;
* `FlatGraph.tracks_program`: the program of a layer computes what the layer does;
* `FlatGraph.Follows`, `FlatGraph.tracks_run`: the values of layers at their places, and
  whole runs;
* `FlatModel.infer_of_lower`: a lowered model computes what the model does.
-/

namespace FlatNet

open Outcome (Tracks)

namespace FlatGraph

variable {g : FlatGraph} {both : Prop}

/-! ### Steps -/

lemma value_eq_value_iff {values : Values} {k : Nat} {r : FeatureMap} :
    g.value values k = .value r ↔ values.lookup k = some r := by
  unfold value
  split
  · rename_i found
    simp [found]
  · rename_i missing
    simp [missing, Outcome.bind_eq_value_iff]

/-- The values after some steps: the value of their result, and the same values as before
ahead of their places and behind them. -/
structure Wrote (start stop result : Nat) (values : Values) (r : FeatureMap) (values' : Values) :
    Prop where
  /-- The value of the result. -/
  value : values'.lookup result = some r
  /-- The other values. -/
  frame : ∀ k, k < start ∨ stop ≤ k → values'.lookup k = values.lookup k

variable {values : Values} {place : Nat}

lemma wrote_cons (values : Values) (place : Nat) (r : FeatureMap) :
    Wrote place (place + 1) place values r ((place, r) :: values) := by
  refine ⟨List.lookup_cons_self, fun k outside => ?_⟩
  have other : k ≠ place := by omega
  rw [lookup_cons_of_ne other]

/-- One step that computes a value writes it. -/
lemma tracks_single {x : GraphModel.Result FeatureMap} {st : FlatStep} (args : List Nat)
    (h : Tracks both Eq x (st.eval (g.value values) .kernel)) :
    Tracks both
      (Wrote place (place + [(st, place)].length) (resultPlace args place [(st, place)]) values) x
      ([(st, place)].foldlM g.run values) := by
  rw [← bind_pure x, List.foldlM_cons]
  simp only [List.foldlM_nil, run, bind_assoc, pure_bind]
  refine h.bind fun a b same => .of_values ?_
  rw [same]
  exact wrote_cons values place b

/-- An operation with a fused activation function, and the logistic function behind it if it
must follow, compute the activated value. -/
lemma tracks_fused {x : Activation → GraphModel.Result FeatureMap} {main : Activation → FlatStep}
    (args : List Nat) (activated : ∀ a, x a = do return (← x .linear).activate a)
    (h : ∀ a, Tracks both Eq (x a) ((main a).eval (g.value values) .kernel)) (a : Activation) :
    Tracks both
      (Wrote place (place + (fusedSteps a main place).length)
        (resultPlace args place (fusedSteps a main place)) values) (x a)
      ((fusedSteps a main place).foldlM g.run values) := by
  cases a with
  -- only a sigmoid is an instruction of its own: the kernel leaves its result at `place`, and the
  -- next instruction reads it there
  | sigmoid =>
    rw [activated .sigmoid, fusedSteps, fuse, if_pos rfl, List.foldlM_cons]
    simp only [run, bind_assoc, pure_bind]
    refine (h .linear).bind fun a b same => ?_
    have written : g.value ((place, b) :: values) place = .value b :=
      value_eq_value_iff.2 List.lookup_cons_self
    rw [same]
    simp only [List.foldlM_cons, List.foldlM_nil, run, FlatStep.eval, written, Outcome.value_bind,
      Outcome.pure_eq]
    refine .of_values ⟨List.lookup_cons_self, fun k outside => ?_⟩
    have outside' : k < place ∨ place + 2 ≤ k := outside
    have other : k ≠ place ∧ k ≠ place + 1 := by omega
    rw [lookup_cons_of_ne other.2, lookup_cons_of_ne other.1]
  | _ => exact tracks_single args (h _)

/-- The sum of a value and further ones is computed from left to right. -/
lemma tracks_sumSteps {sum : Nat} {acc : FeatureMap} {rest : List FeatureMap} {ks : List Nat}
    (found : values.lookup sum = some acc)
    (there : List.Forall₂ (fun k r => values.lookup k = some r) ks rest)
    (before : ∀ k ∈ ks, k < place) (args : List Nat) :
    Tracks both
      (Wrote place (place + ks.length) (resultPlace (sum :: args) place (sumSteps sum place ks))
        values)
      ((rest.foldlM (fun (acc rhs : FeatureMap) => acc.add rhs .linear) acc).mapError
        GraphModelError.kernel)
      ((sumSteps sum place ks).foldlM g.run values) := by
  induction ks generalizing sum place acc rest values with
  | nil =>
    cases there
    exact .of_values ⟨found, fun _ _ => rfl⟩
  | cons k ks ih =>
    cases there with
    | @cons _ r _ rest first others =>
      have lhs := (value_eq_value_iff (g := g)).2 found
      have rhs := (value_eq_value_iff (g := g)).2 first
      rw [resultPlace_sumSteps_cons, List.foldlM_cons, Outcome.mapError_bind, sumSteps,
        List.foldlM_cons, run]
      simp only [FlatStep.eval, lhs, rhs, Outcome.value_bind, bind_assoc, pure_bind]
      refine (Tracks.refl (acc.add r .linear)).mapError.bind fun acc' _ same => ?_
      subst same
      -- the further summands are not where the partial sum is written
      have written := wrote_cons values place acc'
      have later : ∀ k' ∈ ks, k' < place := fun k' hk => before k' (List.mem_cons_of_mem k hk)
      have kept : List.Forall₂ (fun k' r => ((place, acc') :: values).lookup k' = some r) ks
          rest := by
        refine ((List.forall₂_and_left _ _).2 ⟨later, others⟩).imp fun k' r' read => ?_
        rw [written.frame k' (.inl read.1)]
        exact read.2
      refine (ih written.value kept fun k' hk => Nat.lt_succ_of_lt (later k' hk)).mono
        fun total values' wrote => ⟨?_, fun k' outside => ?_⟩
      · have result := wrote.value
        rwa [resultPlace_sumSteps] at result
      · rw [List.length_cons] at outside
        rw [wrote.frame k' (by omega), written.frame k' (by omega)]

/-! ### Programs -/

section Programs

variable {gm : GraphModel} {m : Model} {p : GraphPlan} {ops : CustomOps} {l : Layer}
  {inputs : List Hwc} {hwc : Hwc} {params : Option LayerParams} {args : List FeatureMap}
  {places : List Nat}

/-- The program of a layer computes what the layer does. -/
theorem tracks_program (shapes : l.kind.Shapes ops l.name inputs hwc (p.primitive? l.name))
    (computed : l.kind.isInput = false)
    (prepared : GraphModel.layerParams m p l = .value params)
    (same : gm.params.lookup l.name = params) (plan : gm.plan = p)
    (arity : args.length = inputs.length)
    (there : List.Forall₂ (fun k r => values.lookup k = some r) places args)
    (before : ∀ k ∈ places, k < place) :
    Tracks both
      (Wrote place
        (place + (l.kind.program params (p.primitive? l.name) places place).length)
        (resultPlace places place (l.kind.program params (p.primitive? l.name) places place))
        values)
      (gm.evalLayer l args)
      ((l.kind.program params (p.primitive? l.name) places place).foldlM g.run values) := by
  -- all kinds but sums and concatenations read a single value
  have one : ∀ {input : Hwc}, inputs = [input] → ∃ k r, places = [k] ∧ args = [r] ∧
      g.value values k = .value r := by
    rintro input rfl
    obtain ⟨r, rfl⟩ := List.length_eq_one_iff.1 arity
    cases there with
    | cons first rest =>
      cases rest
      exact ⟨_, r, rfl, rfl, value_eq_value_iff.2 first⟩
  have primitive : gm.plan.primitive? l.name = p.primitive? l.name := by rw [plan]
  generalize p.primitive? l.name = q at shapes primitive ⊢
  generalize hk : l.kind = kind at shapes ⊢
  cases shapes with
  | input =>
    rw [hk] at computed
    cases computed
  | @conv2d filters w a =>
    obtain ⟨k, r, rfl, rfl, read⟩ := one rfl
    simp only [GraphModel.layerParams, hk, Outcome.bind_eq_value_iff, Outcome.pure_eq,
      Outcome.value.injEq] at prepared
    -- the program was made with the parameters that the layer is evaluated with
    obtain ⟨_, -, _, -, filter, -, bias, -, rfl⟩ := prepared
    simp only [GraphModel.evalLayer, hk, GraphModel.paramsOf, same, Outcome.orError_some,
      Outcome.value_bind, List.head?_cons, Outcome.orFault_some]
    refine tracks_fused (x := fun a => (r.conv2d filter filters bias w a).mapError .kernel) [k]
      (fun a => ?_) (fun a => ?_) a
    · rw [FeatureMap.conv2d_activate, Outcome.mapError_bind]
      rfl
    · simp only [FlatStep.eval, read, Outcome.value_bind]
      exact (Tracks.refl _).mapError
  | @depthwiseConv2d w a =>
    obtain ⟨k, r, rfl, rfl, read⟩ := one rfl
    simp only [GraphModel.layerParams, hk, Outcome.bind_eq_value_iff, Outcome.pure_eq,
      Outcome.value.injEq] at prepared
    obtain ⟨filter, -, bias, -, rfl⟩ := prepared
    simp only [GraphModel.evalLayer, hk, GraphModel.paramsOf, same, Outcome.orError_some,
      Outcome.value_bind, List.head?_cons, Outcome.orFault_some]
    refine tracks_fused (x := fun a => (r.depthwiseConv2d filter bias w a).mapError .kernel) [k]
      (fun a => ?_) (fun a => ?_) a
    · rw [FeatureMap.depthwiseConv2d_activate, Outcome.mapError_bind]
      rfl
    · simp only [FlatStep.eval, read, Outcome.value_bind]
      exact (Tracks.refl _).mapError
  | batchNorm =>
    obtain ⟨k, r, rfl, rfl, read⟩ := one rfl
    simp only [GraphModel.layerParams, hk, Outcome.bind_eq_value_iff, Outcome.pure_eq,
      Outcome.value.injEq] at prepared
    obtain ⟨_, -, _, -, _, -, _, -, rfl⟩ := prepared
    simp only [GraphModel.evalLayer, hk, GraphModel.paramsOf, same, Outcome.orError_some,
      Outcome.value_bind, List.head?_cons, Outcome.orFault_some]
    refine tracks_single [k] ?_
    simp only [FlatStep.eval, read, Outcome.value_bind]
    exact (Tracks.refl _).mapError
  | @activation a =>
    obtain ⟨k, r, rfl, rfl, read⟩ := one rfl
    simp only [GraphModel.evalLayer, hk, Outcome.value_bind, List.head?_cons,
      Outcome.orFault_some, Outcome.pure_eq]
    cases a with
    -- no instruction at all: the result stays where the input is
    | linear =>
      rw [FeatureMap.activate_linear]
      exact .of_values ⟨value_eq_value_iff.1 read, fun _ _ => rfl⟩
    | _ =>
      refine tracks_single [k] ?_
      simp only [FlatStep.eval, read, Outcome.value_bind]
      exact .of_values rfl
  | add =>
    cases there with
    | nil => simp at arity
    | @cons k x ks rest first others =>
      cases rest with
      | nil => simp at arity
      | cons y rest =>
        have later : ∀ k' ∈ ks, k' < place := fun k' hk => before k' (List.mem_cons_of_mem _ hk)
        -- the layer starts from its first operand, the program from the sum of the first two
        have whole : GraphModel.sum (x :: y :: rest)
            = ((y :: rest).foldlM (fun (acc rhs : FeatureMap) => acc.add rhs .linear) x).mapError
              GraphModelError.kernel := by
          rw [List.foldlM_cons, Outcome.mapError_bind]
          rfl
        simp only [GraphModel.evalLayer, hk, whole, LayerKind.program, length_sumSteps]
        exact tracks_sumSteps first others later ks
  | concat =>
    simp only [GraphModel.evalLayer, hk]
    refine tracks_single places ?_
    have read : places.mapM (g.value values) = .value args := by
      rw [Outcome.mapM_eq_value_iff]
      exact there.imp fun k r found => value_eq_value_iff.2 found
    simp only [FlatStep.eval, read, Outcome.value_bind, FeatureMap.activate_linear, bind_pure]
    exact (Tracks.refl _).mapError
  | maxPool2d made =>
    obtain ⟨k, r, rfl, rfl, read⟩ := one rfl
    simp only [GraphModel.evalLayer, hk, Outcome.value_bind, List.head?_cons,
      Outcome.orFault_some]
    refine tracks_single [k] ?_
    simp only [FlatStep.eval, read, Outcome.value_bind, FeatureMap.activate_linear, bind_pure]
    exact (Tracks.refl _).mapError
  | @custom _ _ _ q _ =>
    obtain ⟨k, r, rfl, rfl, read⟩ := one rfl
    cases q with
    | resizeBilinear size v =>
      simp only [GraphModel.evalLayer, hk, Outcome.value_bind, List.head?_cons,
        Outcome.orFault_some, primitive, Outcome.orError_some, GraphModel.applyPrimitive]
      refine tracks_single [k] ?_
      simp only [FlatStep.eval, read, Outcome.value_bind]
      exact (Tracks.refl _).mapError

end Programs

/-! ### Runs -/

/-- The values of a run follow those of a graph: the layers done have their values at their
places, ahead of `next`, and so have the inputs among the layers left.  If `both` holds, all of
them have values. -/
structure Follows (both : Prop) (V : String → Nat) (next : Nat) (done : List String)
    (layers : List Layer) (given : GraphModel.Values) (values : Values) : Prop where
  /-- The layers done. -/
  agree : ∀ name ∈ done, V name < next ∧ given.lookup name = values.lookup (V name)
  /-- They have values. -/
  valued : both → ∀ name ∈ done, ∃ r, given.lookup name = some r
  /-- The inputs left. -/
  inputs : ∀ l ∈ layers, l.kind.isInput = true → given.lookup l.name = values.lookup (V l.name)
  /-- They have values. -/
  fed : both → ∀ l ∈ layers, l.kind.isInput = true → ∃ r, given.lookup l.name = some r

section Runs

variable {m : Model} {ops : CustomOps} {p : GraphPlan} {F : FlatModel} {V : String → Nat}
  {gm : GraphModel} {next : Nat} {done : List String} {layers : List Layer} {l : Layer}
  {given : GraphModel.Values}

/-- An input is done without a step. -/
lemma Follows.input (h : Follows both V next done (l :: layers) given values)
    (input : l.kind.isInput = true) (place : V l.name = next) :
    Follows both V (next + 1) (done ++ [l.name]) layers given values := by
  refine ⟨fun name hname => ?_, fun hb name hname => ?_,
    fun l' hl' => h.inputs l' (List.mem_cons_of_mem l hl'),
    fun hb l' hl' => h.fed hb l' (List.mem_cons_of_mem l hl')⟩
  · rcases List.mem_append.1 hname with earlier | last
    · obtain ⟨before, same⟩ := h.agree name earlier
      exact ⟨Nat.lt_succ_of_lt before, same⟩
    · obtain rfl := List.mem_singleton.1 last
      exact ⟨by omega, h.inputs l (List.mem_cons_self ..) input⟩
  · rcases List.mem_append.1 hname with earlier | last
    · exact h.valued hb name earlier
    · obtain rfl := List.mem_singleton.1 last
      exact h.fed hb l (List.mem_cons_self ..) input

/-- Another layer is done by its program. -/
lemma Follows.computed (h : Follows both V next done (l :: layers) given values) {stop : Nat}
    {r : FeatureMap} {values' : Values} (wrote : Wrote place stop (V l.name) values r values')
    (behind : next ≤ place) (start : place ≤ stop) (inside : V l.name < stop)
    (later : ∀ l' ∈ layers, l'.kind.isInput = true → stop ≤ V l'.name)
    (new : l.name ∉ done) (single : l.name ∉ layers.map (·.name)) :
    Follows both V stop (done ++ [l.name]) layers ((l.name, r) :: given) values' := by
  -- the values named before are at places below `place`, those of inputs still to come at or behind
  -- `stop`, and an instruction writes between the two
  have other : ∀ name, name ≠ l.name → ((l.name, r) :: given).lookup name = given.lookup name := by
    intro name different
    rw [lookup_cons_of_ne different]
  have old : ∀ name ∈ done, ((l.name, r) :: given).lookup name = given.lookup name :=
    fun name hname => other name fun same => new (same ▸ hname)
  have left : ∀ l' ∈ layers, ((l.name, r) :: given).lookup l'.name = given.lookup l'.name :=
    fun l' hl' => other l'.name fun same => single (same ▸ List.mem_map_of_mem hl')
  refine ⟨fun name hname => ?_, fun hb name hname => ?_, fun l' hl' input => ?_,
    fun hb l' hl' input => ?_⟩
  · rcases List.mem_append.1 hname with earlier | last
    · obtain ⟨before, same⟩ := h.agree name earlier
      refine ⟨by omega, ?_⟩
      rw [old name earlier, wrote.frame _ (.inl (by omega)), same]
    · obtain rfl := List.mem_singleton.1 last
      exact ⟨inside, List.lookup_cons_self.trans wrote.value.symm⟩
  · rcases List.mem_append.1 hname with earlier | last
    · rw [old name earlier]
      exact h.valued hb name earlier
    · obtain rfl := List.mem_singleton.1 last
      exact ⟨r, List.lookup_cons_self⟩
  · rw [left l' hl', wrote.frame _ (.inr (later l' hl' input))]
    exact h.inputs l' (List.mem_cons_of_mem l hl') input
  · rw [left l' hl']
    exact h.fed hb l' (List.mem_cons_of_mem l hl') input

/-- The program of a layer that is no input does what the layer does. -/
lemma tracks_layer {inputs : List Hwc} {hwc : Hwc} {primitive : Option Primitive}
    (planned : Planned ops p l inputs hwc primitive) (computed : l.kind.isInput = false)
    (prepared : GraphModel.layerParams m p l = .value (gm.params.lookup l.name))
    (plan : gm.plan = p) {own : List (FlatStep × Nat)}
    (program : l.kind.program (gm.params.lookup l.name) (p.primitive? l.name) (l.inbound.map V) place
      = own)
    (behind : next ≤ place) (named : V l.name = resultPlace (l.inbound.map V) place own)
    (earlier : ∀ name ∈ l.inbound, name ∈ done)
    (follows : Follows both V next done layers given values) :
    Tracks both
      (fun given' values' => ∃ r, (l.name, r) :: given = given' ∧
        Wrote place (place + own.length) (V l.name) values r values')
      (gm.step given l) (own.foldlM g.run values) := by
  rw [GraphModel.step, ← bind_pure (own.foldlM g.run values)]
  refine Tracks.bind_left (fun args fetched => ?_) fun hb => ?_
  · -- the layer reads what stands at the places that its program reads
    rw [if_neg (by simp [computed])]
    have found : List.Forall₂ (fun name r => given.lookup name = some r) l.inbound args := by
      rw [Outcome.mapM_eq_value_iff] at fetched
      exact fetched.imp fun name r read => Outcome.orError_eq_value_iff.1 read
    have there : List.Forall₂ (fun k r => values.lookup k = some r) (l.inbound.map V) args := by
      rw [List.forall₂_map_left_iff]
      refine ((List.forall₂_and_left _ _).2 ⟨earlier, found⟩).imp fun name r read => ?_
      rw [← (follows.agree name read.1).2]
      exact read.2
    have before : ∀ k ∈ l.inbound.map V, k < place := by
      intro k hk
      obtain ⟨name, hname, rfl⟩ := List.mem_map.1 hk
      exact lt_of_lt_of_le (follows.agree name (earlier name hname)).1 behind
    have shapes := planned.shapes
    rw [← planned.primitive] at shapes
    have tracks : Tracks both _ (gm.evalLayer l args) (List.foldlM g.run values _) :=
      tracks_program shapes computed prepared rfl plan
        (found.length_eq.symm.trans planned.reads.length_eq) there before
    rw [program, ← named] at tracks
    exact tracks.bind fun r values' wrote => .of_values ⟨r, rfl, wrote⟩
  -- in the other direction every name that the layer reads has a value already
  · obtain ⟨args, found⟩ :=
      exists_forall₂ fun name hname => follows.valued hb name (earlier name hname)
    refine ⟨args, ?_⟩
    rw [Outcome.mapM_eq_value_iff]
    exact found.imp fun name r read => Outcome.orError_eq_value_iff.2 read

/-- The steps laid out for layers do what the layers do. -/
theorem tracks_run (valid : m.validate ops = .value p)
    (params : ∀ l ∈ m.architecture.layers,
      GraphModel.layerParams m p l = .value (gm.params.lookup l.name))
    (plan : gm.plan = p) {pre : List Layer} (split : m.architecture.layers = pre ++ layers)
    {steps : List (FlatStep × Nat)} (laid : LaidOut m p F V next layers steps)
    (follows : Follows both V next (pre.map (·.name)) layers given values) :
    Tracks both
      (fun given' values' => ∃ stop,
        Follows both V stop (m.architecture.layers.map (·.name)) [] given' values')
      (layers.foldlM gm.step given) (steps.foldlM g.run values) := by
  have planned := (Model.validate_eq_value_iff.1 valid).1
  have nodup := Architecture.nodup_of_plan planned
  -- along the layout; what is known of the values of the layers so far goes from one layer to the
  -- next
  induction laid generalizing pre given values with
  | nil =>
    rw [List.append_nil] at split
    rw [split]
    exact .of_values ⟨_, follows⟩
  | @input next l layers steps _ _ input place _ _ _ ih =>
    obtain ⟨-, inputs, hwc, primitive, rule⟩ := Architecture.planned_of_plan planned split
    -- an input is evaluated to nothing: its value has been read already
    have step : gm.step given l = .value given := by
      rw [GraphModel.step_eq_value_iff, rule.inbound_of_input input]
      exact ⟨[], .nil, by rw [if_pos input]⟩
    have follows' := follows.input input place
    rw [List.foldlM_cons, step]
    have split' : m.architecture.layers = (pre ++ [l]) ++ layers := by simp [split]
    refine ih split' ?_
    rw [List.map_append]
    exact follows'
  | @computed next place l layers _ own steps computed prepared program behind named inside rest
      ih =>
    have hl : l ∈ m.architecture.layers := by simp [split]
    obtain ⟨earlier, inputs, hwc, primitive, rule⟩ := Architecture.planned_of_plan planned split
    obtain rfl := Outcome.value.inj (prepared.symm.trans (params l hl))
    have own' := tracks_layer (g := g) rule computed prepared plan program behind named earlier
      follows
    rw [split, List.map_append, List.map_cons] at nodup
    -- a name occurs once, so neither an earlier nor a later value is hidden by this one
    have single := (List.nodup_cons.1 (List.Nodup.of_append_right nodup)).1
    have new : l.name ∉ pre.map (·.name) := fun old =>
      List.disjoint_of_nodup_append nodup old (List.mem_cons_self ..)
    rw [List.foldlM_cons, List.foldlM_append]
    refine own'.bind ?_
    rintro _ values' ⟨r, rfl, wrote⟩
    have split' : m.architecture.layers = (pre ++ [l]) ++ layers := by simp [split]
    refine ih split' ?_
    rw [List.map_append]
    exact follows.computed wrote behind (Nat.le_add_right _ _) inside
      (fun l' hl' input => rest.le_place hl' input) new single

end Runs

/-! ### Inputs and outputs -/

section Ends

variable {m : Model} {ops : CustomOps} {p : GraphPlan} {F : FlatModel} {V : String → Nat}
  {gm : GraphModel} {given : GraphModel.Values}

/-- A tensor is read for an input as it is for the layer. -/
lemma tracks_readInput {name : String} {e : Endpoint} (shape : gm.plan.shape? name = some e.hwc)
    (t : Tensor) : Tracks both Eq (gm.readInput name t) (readInput e t) := by
  simp only [GraphModel.readInput, readInput, shape, Outcome.orError_some, Outcome.value_bind]
  refine (Tracks.refl (FeatureMap.ofTensor t)).mapError.bind fun r _ same => ?_
  subst same
  exact (Tracks.require _ _ _).bind fun _ _ _ => .of_values rfl

/-- Tensors are read for inputs as they are for the layers; an input gets to be fed. -/
lemma tracks_feed {layers : List Layer}
    (apart : ∀ l ∈ layers, ∀ l' ∈ layers, l.kind.isInput = true → l'.kind.isInput = true →
      V l.name = V l'.name → l.name = l'.name)
    {names : List String} {es : List Endpoint}
    (placed : List.Forall₂ (fun name (e : Endpoint) =>
      gm.plan.shape? name = some e.hwc ∧ V name = e.place) names es)
    (inputs : ∀ name ∈ names, ∃ l ∈ layers, l.name = name ∧ l.kind.isInput = true)
    {ts : List Tensor} (length : ts.length = names.length)
    (agree : ∀ l ∈ layers, l.kind.isInput = true → given.lookup l.name = values.lookup (V l.name)) :
    Tracks both
      (fun given' values' =>
        (∀ l ∈ layers, l.kind.isInput = true → given'.lookup l.name = values'.lookup (V l.name)) ∧
        ∀ name, (∃ r, given.lookup name = some r) ∨ name ∈ names →
          ∃ r, given'.lookup name = some r)
      ((names.zip ts).foldlM (fun values p => do
        return (p.1, ← gm.readInput p.1 p.2) :: values) given)
      ((es.zip ts).foldlM (fun values p => do
        return (p.1.place, ← readInput p.1 p.2) :: values) values) := by
  induction placed generalizing given values ts with
  | nil => exact .of_values ⟨agree, fun name known => known.resolve_right (List.not_mem_nil)⟩
  | @cons name e names es first _ ih =>
    match ts, length with
    | t :: ts, length =>
      obtain ⟨shape, place⟩ := first
      simp only [List.zip_cons_cons, List.foldlM_cons, bind_assoc, pure_bind]
      refine (tracks_readInput shape t).bind fun r _ same => ?_
      subst same
      obtain ⟨l₀, hl₀, rfl, input₀⟩ := inputs name (List.mem_cons_self ..)
      -- two inputs of one place are one layer, so feeding one changes no other
      have agree' : ∀ l ∈ layers, l.kind.isInput = true →
          ((l₀.name, r) :: given).lookup l.name = ((e.place, r) :: values).lookup (V l.name) := by
        intro l hl input
        by_cases same : l.name = l₀.name
        · rw [same, place, List.lookup_cons_self, List.lookup_cons_self]
        · have other : V l.name ≠ e.place := fun there =>
            same (apart l hl l₀ hl₀ input input₀ (there.trans place.symm))
          rw [lookup_cons_of_ne same, lookup_cons_of_ne other]
          exact agree l hl input
      refine (ih (fun name hname => inputs name (List.mem_cons_of_mem _ hname))
        (Nat.succ.inj length) agree').mono fun given' values' fed => ⟨fed.1, fun name known => ?_⟩
      refine fed.2 name ?_
      by_cases same : name = l₀.name
      · exact .inl ⟨r, by rw [same, List.lookup_cons_self]⟩
      · rw [lookup_cons_of_ne same]
        exact known.imp_right fun member => (List.mem_cons.1 member).resolve_left same

/-- The inputs of a laid out model are read as they are for the graph. -/
lemma tracks_readInputs (valid : m.validate ops = .value p) (plan : gm.plan = p)
    (same : gm.architecture = m.architecture) {steps : List (FlatStep × Nat)}
    (laid : LaidOut m p F V 0 m.architecture.layers steps)
    (placed : List.Forall₂ (fun name e => V name = e.place ∧ F.HoldsValue e.place e.name e.hwc)
      m.architecture.inputs g.inputs)
    (listed : both → ∀ l ∈ m.architecture.layers, l.kind.isInput = true →
      l.name ∈ m.architecture.inputs) (ts : List Tensor) :
    Tracks both (Follows both V 0 [] m.architecture.layers) (gm.readInputs ts)
      (g.readInputs ts) := by
  have inputs : ∀ name ∈ m.architecture.inputs, ∃ l ∈ m.architecture.layers, l.name = name ∧
      l.kind.isInput = true := fun name hname =>
    Architecture.input_mem_of_plan (Model.validate_eq_value_iff.1 valid).1 hname
  have placed' : List.Forall₂ (fun name (e : Endpoint) =>
      gm.plan.shape? name = some e.hwc ∧ V name = e.place) m.architecture.inputs g.inputs := by
    refine ((List.forall₂_and_left _ _).2 ⟨inputs, placed⟩).imp fun name e h => ?_
    obtain ⟨⟨l, hl, rfl, input⟩, place, value⟩ := h
    obtain ⟨_, hwc, shape, value'⟩ := laid.holdsValue hl input
    rw [place] at value'
    rw [plan, shape, value'.unique value]
    exact ⟨rfl, place⟩
  rw [GraphModel.readInputs, readInputs, same, placed.length_eq]
  by_cases length : ts.length = g.inputs.length
  · rw [decide_eq_true length]
    simp only [Outcome.require_true, Outcome.value_bind]
    refine (tracks_feed (fun l hl l' hl' input input' => laid.place_injective hl hl' input input')
      placed' inputs (length.trans placed.length_eq.symm) fun _ _ _ => rfl).mono
      fun given' values' fed => ?_
    exact ⟨List.forall_mem_nil _, fun _ => List.forall_mem_nil _, fed.1,
      fun hb l hl input => fed.2 l.name (.inr (listed hb l hl input))⟩
  -- both refuse another number of tensors
  · rw [decide_eq_false length]
    simp [Tracks, Outcome.require]

/-- The value of a layer is read off at its place. -/
lemma tracks_output {name : String} {k : Nat} (same : given.lookup name = values.lookup k) :
    Tracks both Eq
      (do
        let r ← Outcome.orError (GraphModelError.missingOutput name) (given.lookup name)
        r.toTensor.mapError .kernel)
      (do
        let r ← g.value values k
        r.toTensor.mapError .kernel) := by
  have found : Tracks both Eq
      (Outcome.orError (GraphModelError.missingOutput name) (given.lookup name))
      (g.value values k) := by
    simp only [Tracks, Outcome.orError_eq_value_iff, value_eq_value_iff, same]
    exact ⟨fun r h => ⟨r, h, rfl⟩, fun _ r h => ⟨r, h, rfl⟩⟩
  refine found.bind fun r _ same => ?_
  subst same
  exact (Tracks.refl _).mapError

/-- The steps laid out for a model compute what the model does. -/
theorem tracks_infer (prepared : GraphModel.prepare m ops = .value gm)
    (valid : m.validate ops = .value p)
    (laid : LaidOut m p F V 0 m.architecture.layers g.steps)
    (inputs : List.Forall₂ (fun name e => V name = e.place ∧ F.HoldsValue e.place e.name e.hwc)
      m.architecture.inputs g.inputs)
    (outputs : List.Forall₂ (fun name e => V name = e.place ∧ F.HoldsValue e.place e.name e.hwc)
      m.architecture.outputs g.outputs)
    (listed : both → ∀ l ∈ m.architecture.layers, l.kind.isInput = true →
      l.name ∈ m.architecture.inputs) (ts : List Tensor) :
    Tracks both Eq (gm.infer ts) (g.infer ts) := by
  obtain ⟨valid', same, -, params⟩ := GraphModel.prepared_of_prepare prepared
  obtain rfl := Outcome.value.inj (valid'.symm.trans valid)
  simp only [GraphModel.infer, infer, same]
  -- three stages: the inputs, the layers, the outputs
  refine (tracks_readInputs valid rfl same laid inputs listed ts).bind fun given values start => ?_
  refine (tracks_run valid params rfl (List.nil_append _).symm laid start).bind ?_
  rintro given' values' ⟨stop, follows⟩
  have read : ∀ name ∈ m.architecture.outputs, name ∈ m.architecture.layers.map (·.name) :=
    fun name => Architecture.output_mem_of_plan (Model.validate_eq_value_iff.1 valid).1
  refine (Tracks.mapM (R := Eq) ((List.forall₂_and_left _ _).2 ⟨read, outputs⟩)
    fun name e h => ?_).mono fun outs outs' same => ?_
  · obtain ⟨member, place, -⟩ := h
    refine tracks_output ?_
    rw [← place]
    exact (follows.agree name member).2
  · rwa [List.forall₂_eq_eq_eq] at same

end Ends

end FlatGraph

/-! ### Lowered models -/

namespace FlatModel

end FlatModel

end FlatNet
