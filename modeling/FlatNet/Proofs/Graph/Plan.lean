import FlatNet.Graph.Model
import FlatNet.Proofs.Layer.Window

/-!
What a plan says about every layer.

The shape of a layer follows from the shapes it reads by one rule for each kind.  In a plan
every layer obeys its rule, reads layers that stand earlier, and keeps its shape and its
primitive while later layers are planned.

* `LayerKind.Shapes`: the rule of each kind;
* `Planned`: a layer obeys its rule in a plan;
* `Architecture.planned_of_plan`: every layer of a planned graph does, and reads earlier
  layers;
* `Architecture.nodup_of_plan`: no two layers of a planned graph have one name.
-/

namespace FlatNet

open Outcome (Ends)

/-! ### Kinds -/

/-- The shapes that a layer may read, its own shape, and the primitive of a custom layer. -/
inductive LayerKind.Shapes (ops : CustomOps) (layer : String) :
    LayerKind → List Hwc → Hwc → Option Primitive → Prop where
  /-- An input has the shape it declares, and it is not empty. -/
  | input {shape : Hwc} (full : shape.Full) : Shapes ops layer (.input shape) [] shape none
  /-- A convolution has one channel for each filter. -/
  | conv2d {filters : Nat} {w : Window} {a : Activation} {useBias : Bool} {input : Hwc} {h v : Nat}
      (some : filters ≠ 0) (made : w.Makes input h v) :
      Shapes ops layer (.conv2d filters w a useBias) [input] ⟨h, v, filters⟩ none
  /-- A convolution per channel keeps the channels. -/
  | depthwiseConv2d {w : Window} {a : Activation} {useBias : Bool} {input : Hwc} {h v : Nat}
      (made : w.Makes input h v) :
      Shapes ops layer (.depthwiseConv2d w a useBias) [input] ⟨h, v, input.channels⟩ none
  /-- A normalisation keeps the shape. -/
  | batchNorm {epsilon : Binary32} {input : Hwc} :
      Shapes ops layer (.batchNorm epsilon) [input] input none
  /-- An activation function keeps the shape. -/
  | activation {a : Activation} {input : Hwc} : Shapes ops layer (.activation a) [input] input none
  /-- Summands have one shape, which is that of the sum. -/
  | add {first second : Hwc} {rest : List Hwc} (same : ∀ s ∈ second :: rest, s = first) :
      Shapes ops layer .add (first :: second :: rest) first none
  /-- Concatenated images have one size, and their channels add up. -/
  | concat {first second : Hwc} {rest : List Hwc}
      (same : ∀ s ∈ first :: second :: rest, s.height = first.height ∧ s.width = first.width) :
      Shapes ops layer .concat (first :: second :: rest)
        ⟨first.height, first.width,
          ((first :: second :: rest).map (·.channels)).foldl (· + ·) 0⟩ none
  /-- A maximum keeps the channels. -/
  | maxPool2d {pool : Nat × Nat} {strides : Option (Nat × Nat)} {padding : Padding} {input : Hwc}
      {h v : Nat} (made : (LayerKind.poolWindow pool strides padding).Makes input h v) :
      Shapes ops layer (.maxPool2d pool strides padding) [input] ⟨h, v, input.channels⟩ none
  /-- A custom layer has the shape that its primitive makes. -/
  | custom {function : String} {arguments : Json} {input : Hwc} {p : Primitive}
      (resolved : ops.resolve layer function arguments = .ok p) :
      Shapes ops layer (.custom function arguments) [input] (p.outputShape input) (.some p)

namespace LayerKind.Shapes

variable {ops : CustomOps} {layer : String} {kind : LayerKind} {inputs : List Hwc} {hwc : Hwc}
  {primitive : Option Primitive}

/-- A layer has a channel if the layers it reads have. -/
lemma channels_ne_zero (h : kind.Shapes ops layer inputs hwc primitive)
    (read : ∀ s ∈ inputs, s.channels ≠ 0) : hwc.channels ≠ 0 := by
  cases h with
  | input full => exact full.channels
  | conv2d some _ => exact some
  | concat _ =>
    have first := Nat.pos_of_ne_zero (read _ (List.mem_cons_self ..))
    rw [List.map_cons, List.foldl_cons, Size.foldl_add, Nat.zero_add]
    exact Nat.ne_of_gt (Nat.add_pos_left first _)
  | @custom _ _ _ p _ =>
    have first := read _ (List.mem_cons_self ..)
    cases p
    exact first
  | _ =>
    have first := read _ (List.mem_cons_self ..)
    exact first

/-- A layer is not empty if the layers it reads are not, nor the images its primitive
makes. -/
lemma full (h : kind.Shapes ops layer inputs hwc primitive) (read : ∀ s ∈ inputs, s.Full)
    (made : ∀ size sampling, primitive = some (.resizeBilinear size sampling) →
      size.1 ≠ 0 ∧ size.2 ≠ 0) : hwc.Full := by
  have channels := h.channels_ne_zero fun s hs => (read s hs).channels
  cases h with
  | input full => exact full
  | conv2d some makes =>
    have first := read _ (List.mem_cons_self ..)
    have sides := makes.ne_zero first.height first.width
    exact ⟨sides.1, sides.2, channels⟩
  | depthwiseConv2d makes =>
    have first := read _ (List.mem_cons_self ..)
    have sides := makes.ne_zero first.height first.width
    exact ⟨sides.1, sides.2, channels⟩
  | maxPool2d makes =>
    have first := read _ (List.mem_cons_self ..)
    have sides := makes.ne_zero first.height first.width
    exact ⟨sides.1, sides.2, channels⟩
  | concat _ =>
    have first := read _ (List.mem_cons_self ..)
    exact ⟨first.height, first.width, channels⟩
  | @custom _ _ _ p _ =>
    cases p with
    | resizeBilinear size sampling =>
      have sides := made size sampling rfl
      exact ⟨sides.1, sides.2, channels⟩
  | _ => exact read _ (List.mem_cons_self ..)

end LayerKind.Shapes

/-! ### Inference -/

namespace Arity

variable {α : Type} {xs : List α}

lemma zero_admits_iff : zero.admits xs.length = true ↔ xs = [] := by
  simp [admits]

lemma one_admits_iff : one.admits xs.length = true ↔ ∃ x, xs = [x] := by
  simp [admits, List.length_eq_one_iff]

lemma several_admits_iff : several.admits xs.length = true ↔ ∃ x y rest, xs = x :: y :: rest := by
  match xs with
  | [] => simp [admits]
  | [x] => simp [admits]
  | x :: y :: rest => simp [admits]

end Arity

/-- The window of a planned layer makes its height and width. -/
lemma Window.makes_of_outputSize {w : Window} {layer : String} {input : Hwc} {h v : Nat}
    (size : w.outputSize layer input = .value (h, v)) : w.Makes input h v := by
  rw [outputSize, Outcome.bind_eq_value_iff] at size
  obtain ⟨_, proper, size⟩ := size
  rw [Outcome.bind_eq_value_iff] at size
  obtain ⟨o, rows, size⟩ := size
  rw [Outcome.bind_eq_value_iff] at size
  obtain ⟨h', some_h, size⟩ := size
  rw [Outcome.bind_eq_value_iff] at size
  obtain ⟨o', columns, size⟩ := size
  rw [Outcome.bind_eq_value_iff] at size
  obtain ⟨v', some_v, size⟩ := size
  rw [Outcome.pure_eq, Outcome.value.injEq, Prod.mk.injEq] at size
  obtain ⟨rfl, rfl⟩ := size
  rw [Outcome.orError_eq_value_iff] at some_h some_v
  have proper : w.degenerate = false := by simpa using proper
  exact ⟨proper, ((Padding.outputLen_ends (P := fun _ => True) ..).of_value rows _).1 some_h,
    ((Padding.outputLen_ends (P := fun _ => True) ..).of_value columns _).1 some_v⟩

/-- An inferred shape obeys the rule of the kind. -/
lemma Layer.shapes_of_infer {ops : CustomOps} {l : Layer} {inputs : List Hwc} {hwc : Hwc}
    {primitive : Option Primitive} (h : l.infer ops inputs = .value (hwc, primitive)) :
    l.kind.Shapes ops l.name inputs hwc primitive := by
  rw [infer, Outcome.bind_eq_value_iff] at h
  obtain ⟨_, arity, h⟩ := h
  rw [Outcome.require_eq_value_iff] at arity
  -- one rule for each kind, read off the branch of inference that succeeded
  generalize l.kind = kind at arity h ⊢
  cases kind with
  | input shape =>
    obtain rfl := Arity.zero_admits_iff.1 arity
    simp only [Outcome.bind_eq_value_iff, Outcome.require_eq_value_iff, Outcome.pure_eq,
      Outcome.value.injEq, Prod.mk.injEq] at h
    obtain ⟨_, sides, rfl, rfl⟩ := h
    simp only [Bool.and_eq_true, decide_eq_true_eq] at sides
    exact .input ⟨sides.1.1, sides.1.2, sides.2⟩
  | conv2d filters w a useBias =>
    obtain ⟨first, rfl⟩ := Arity.one_admits_iff.1 arity
    simp only [Outcome.bind_eq_value_iff, Outcome.require_eq_value_iff, Outcome.pure_eq,
      Outcome.value.injEq, Prod.mk.injEq] at h
    obtain ⟨_, some, ⟨rows, columns⟩, size, rfl, rfl⟩ := h
    exact .conv2d (by simpa using some) (Window.makes_of_outputSize size)
  | depthwiseConv2d w a useBias =>
    obtain ⟨first, rfl⟩ := Arity.one_admits_iff.1 arity
    simp only [Outcome.bind_eq_value_iff, Outcome.pure_eq, Outcome.value.injEq,
      Prod.mk.injEq] at h
    obtain ⟨⟨rows, columns⟩, size, rfl, rfl⟩ := h
    exact .depthwiseConv2d (Window.makes_of_outputSize size)
  | batchNorm epsilon =>
    obtain ⟨first, rfl⟩ := Arity.one_admits_iff.1 arity
    simp only [Outcome.bind_eq_value_iff, Outcome.require_eq_value_iff, Outcome.pure_eq,
      Outcome.value.injEq, Prod.mk.injEq] at h
    obtain ⟨_, _, rfl, rfl⟩ := h
    exact .batchNorm
  | activation a =>
    obtain ⟨first, rfl⟩ := Arity.one_admits_iff.1 arity
    simp only [Outcome.pure_eq, Outcome.value.injEq, Prod.mk.injEq] at h
    obtain ⟨rfl, rfl⟩ := h
    exact .activation
  | add =>
    obtain ⟨first, second, rest, rfl⟩ := Arity.several_admits_iff.1 arity
    simp only [Outcome.bind_eq_value_iff, Outcome.require_eq_value_iff, Outcome.pure_eq,
      Outcome.value.injEq, Prod.mk.injEq, List.all_eq_true, decide_eq_true_eq] at h
    obtain ⟨_, same, rfl, rfl⟩ := h
    exact .add fun s hs => same s (List.mem_cons_of_mem _ hs)
  | concat =>
    obtain ⟨first, second, rest, rfl⟩ := Arity.several_admits_iff.1 arity
    simp only [Outcome.bind_eq_value_iff, Outcome.require_eq_value_iff, Outcome.pure_eq,
      Outcome.value.injEq, Prod.mk.injEq, List.all_eq_true, Bool.and_eq_true,
      decide_eq_true_eq] at h
    obtain ⟨_, same, channels, total, rfl, rfl⟩ := h
    -- a sum of channels that is computed at all is the plain one
    rw [(Size.sum_ends (P := fun _ => True) _).of_value total]
    exact .concat same
  | maxPool2d pool strides padding =>
    obtain ⟨first, rfl⟩ := Arity.one_admits_iff.1 arity
    simp only [Outcome.bind_eq_value_iff, Outcome.pure_eq, Outcome.value.injEq,
      Prod.mk.injEq] at h
    obtain ⟨⟨rows, columns⟩, size, rfl, rfl⟩ := h
    exact .maxPool2d (Window.makes_of_outputSize size)
  | custom function arguments =>
    obtain ⟨first, rfl⟩ := Arity.one_admits_iff.1 arity
    simp only [Outcome.bind_eq_value_iff, Outcome.ofExcept_eq_value_iff, Outcome.pure_eq,
      Outcome.value.injEq, Prod.mk.injEq] at h
    obtain ⟨p, resolved, rfl, rfl⟩ := h
    exact .custom resolved

/-! ### Layers of a plan -/

/-- A layer obeys the rule of its kind in a plan: the layers it reads have the shapes
`inputs`, it has the shape `hwc` itself, and its primitive is `primitive`. -/
structure Planned (ops : CustomOps) (p : GraphPlan) (l : Layer) (inputs : List Hwc) (hwc : Hwc)
    (primitive : Option Primitive) : Prop where
  /-- The shapes it reads. -/
  reads : List.Forall₂ (fun name s => p.shape? name = some s) l.inbound inputs
  /-- Its rule. -/
  shapes : l.kind.Shapes ops l.name inputs hwc primitive
  /-- Its shape. -/
  shape : p.shape? l.name = some hwc
  /-- Its primitive. -/
  primitive : p.primitive? l.name = primitive

/-- An input reads nothing. -/
lemma Planned.inbound_of_input {ops : CustomOps} {p : GraphPlan} {l : Layer} {inputs : List Hwc}
    {hwc : Hwc} {primitive : Option Primitive} (h : Planned ops p l inputs hwc primitive)
    (input : l.kind.isInput = true) : l.inbound = [] := by
  have reads := h.reads
  have shapes := h.shapes
  unfold LayerKind.isInput at input
  split at input
  · rename_i kind
    rw [kind] at shapes
    cases shapes
    exact List.forall₂_nil_right_iff.1 reads
  · cases input

namespace GraphPlan

/-- A plan with one more layer. -/
def add (p : GraphPlan) (layer : String) (hwc : Hwc) (primitive : Option Primitive) : GraphPlan where
  shapes := p.shapes ++ [(layer, hwc)]
  primitives := p.primitives ++ (primitive.toList.map fun q => (layer, q))

variable {ops : CustomOps} {p p' : GraphPlan} {l : Layer}

/-- What planning one more layer does. -/
lemma extend_eq_value_iff :
    extend ops p l = .value p' ↔
      p.shape? l.name = none ∧ ∃ inputs hwc primitive,
        List.Forall₂ (fun name s => p.shape? name = some s) l.inbound inputs ∧
        l.infer ops inputs = .value (hwc, primitive) ∧ p.add l.name hwc primitive = p' := by
  simp only [extend, Outcome.bind_eq_value_iff, Outcome.require_eq_value_iff,
    Outcome.mapM_eq_value_iff, Outcome.orError_eq_value_iff, Outcome.pure_eq,
    Outcome.value.injEq, Option.isNone_iff_eq_none, exists_and_left, exists_const, Prod.exists,
    add]

/-- The names of the planned layers; a primitive belongs to one of them. -/
structure Names (p : GraphPlan) (names : List String) : Prop where
  /-- Every planned layer has a shape. -/
  shapes : p.shapes.map (·.1) = names
  /-- No name occurs twice. -/
  nodup : names.Nodup
  /-- A layer that is not planned has no primitive. -/
  primitives : ∀ name, name ∉ names → p.primitive? name = none

lemma shape?_eq_none_iff {names : List String} (h : p.Names names) {name : String} :
    p.shape? name = none ↔ name ∉ names := by
  rw [shape?, List.lookup_eq_none_iff, ← h.shapes, List.mem_map, not_exists]
  refine forall_congr' fun q => ?_
  rw [not_and, bne_iff_ne, ne_comm]

lemma lookup_self_toList {α : Type} (name : String) (o : Option α) :
    (o.toList.map fun a => (name, a)).lookup name = o := by
  cases o <;> simp

lemma lookup_other_toList {α : Type} {name other : String} (h : name ≠ other) (o : Option α) :
    (o.toList.map fun a => (other, a)).lookup name = none := by
  cases o <;> simp [h]

section Add

variable {names : List String} {layer : String} {hwc : Hwc} {primitive : Option Primitive}

/-- A shape stays while more layers are planned. -/
lemma shape?_add_of_some {name : String} {s : Hwc} (h : p.shape? name = some s) :
    (p.add layer hwc primitive).shape? name = some s := by
  rw [shape?] at h
  rw [shape?, add, List.lookup_append, h, Option.some_or]

lemma shape?_add_self (new : p.shape? layer = none) :
    (p.add layer hwc primitive).shape? layer = some hwc := by
  rw [shape?] at new
  rw [shape?, add, List.lookup_append, new, Option.none_or, List.lookup_cons_self]

lemma primitive?_add_self (new : p.primitive? layer = none) :
    (p.add layer hwc primitive).primitive? layer = primitive := by
  rw [primitive?] at new
  rw [primitive?, add, List.lookup_append, new, Option.none_or, lookup_self_toList]

lemma primitive?_add_of_ne {name : String} (h : name ≠ layer) :
    (p.add layer hwc primitive).primitive? name = p.primitive? name := by
  rw [primitive?, add, List.lookup_append, lookup_other_toList h, Option.or_none]
  rfl

lemma Names.add (h : p.Names names) (new : p.shape? layer = none) :
    (p.add layer hwc primitive).Names (names ++ [layer]) := by
  rw [shape?_eq_none_iff h] at new
  refine ⟨?_, ?_, fun name outside => ?_⟩
  · rw [GraphPlan.add, List.map_append, h.shapes]
    rfl
  · rw [List.nodup_append]
    refine ⟨h.nodup, List.nodup_singleton layer, fun a ha b hb => ?_⟩
    rw [List.mem_singleton] at hb
    rintro rfl
    exact new (hb ▸ ha)
  · rw [List.mem_append, List.mem_singleton, not_or] at outside
    rw [primitive?_add_of_ne outside.2]
    exact h.primitives name outside.1

end Add

/-! ### Plans of layers one after the other -/

/-- Planning more layers keeps shapes and primitives. -/
structure Extends (p p' : GraphPlan) : Prop where
  /-- Every shape stays. -/
  shape : ∀ name s, p.shape? name = some s → p'.shape? name = some s
  /-- The primitive of every planned layer stays. -/
  primitive : ∀ name s, p.shape? name = some s → p'.primitive? name = p.primitive? name

lemma Extends.refl (p : GraphPlan) : p.Extends p := ⟨fun _ _ h => h, fun _ _ _ => rfl⟩

lemma Extends.trans {p q r : GraphPlan} (h : p.Extends q) (h' : q.Extends r) : p.Extends r :=
  ⟨fun name s hs => h'.shape name s (h.shape name s hs), fun name s hs =>
    (h'.primitive name s (h.shape name s hs)).trans (h.primitive name s hs)⟩

lemma extends_add {layer : String} {hwc : Hwc} {primitive : Option Primitive}
    (new : p.shape? layer = none) : p.Extends (p.add layer hwc primitive) := by
  refine ⟨fun name s hs => shape?_add_of_some hs, fun name s hs => primitive?_add_of_ne ?_⟩
  rintro rfl
  rw [new] at hs
  cases hs

lemma Extends.planned {inputs : List Hwc} {hwc : Hwc} {primitive : Option Primitive}
    (grown : p.Extends p') (h : Planned ops p l inputs hwc primitive) :
    Planned ops p' l inputs hwc primitive where
  reads := h.reads.imp fun name s hs => grown.shape name s hs
  shapes := h.shapes
  shape := grown.shape _ _ h.shape
  primitive := (grown.primitive _ _ h.shape).trans h.primitive

/-- A layer that has just been planned obeys its rule. -/
lemma planned_of_extend {names : List String} (h : p.Names names)
    (step : extend ops p l = .value p') :
    p'.Names (names ++ [l.name]) ∧ p.Extends p' ∧ (∀ name ∈ l.inbound, name ∈ names) ∧
      ∃ inputs hwc primitive, Planned ops p' l inputs hwc primitive := by
  obtain ⟨new, inputs, hwc, primitive, reads, infer, rfl⟩ := extend_eq_value_iff.1 step
  have grown : p.Extends (p.add l.name hwc primitive) := extends_add new
  refine ⟨h.add new, grown, fun name hname => ?_, inputs, hwc, primitive, ?_⟩
  · obtain ⟨s, hs⟩ : ∃ s, p.shape? name = some s := by
      obtain ⟨i, hi, rfl⟩ := List.mem_iff_getElem.1 hname
      exact ⟨_, reads.get hi (reads.length_eq ▸ hi)⟩
    by_contra outside
    rw [(shape?_eq_none_iff h).2 outside] at hs
    cases hs
  · have planned := (shape?_eq_none_iff h).1 new
    exact ⟨reads.imp fun name s hs => shape?_add_of_some hs, Layer.shapes_of_infer infer,
      shape?_add_self new, primitive?_add_self (h.primitives _ planned)⟩

/-- The layers of a plan have their names in order, keep what was planned before, and obey
their rules. -/
lemma planned_of_foldlM {names : List String} {layers : List Layer} (h : p.Names names)
    (run : layers.foldlM (extend ops) p = .value p') :
    p'.Names (names ++ layers.map (·.name)) ∧ p.Extends p' ∧
      ∀ pre l post, layers = pre ++ l :: post →
        (∀ name ∈ l.inbound, name ∈ names ++ pre.map (·.name)) ∧
        ∃ inputs hwc primitive, Planned ops p' l inputs hwc primitive := by
  -- over the layers; what an earlier plan says of a layer, the final one says, since it extends it
  induction layers generalizing p names with
  | nil =>
    cases run
    refine ⟨by simpa using h, .refl _, fun pre l post split => ?_⟩
    simp at split
  | cons first layers ih =>
    rw [List.foldlM_cons, Outcome.bind_eq_value_iff] at run
    obtain ⟨q, step, run⟩ := run
    obtain ⟨named, grown, earlier, inputs, hwc, primitive, planned⟩ := planned_of_extend h step
    obtain ⟨names', grown', rest⟩ := ih named run
    refine ⟨by simpa using names', grown.trans grown', fun pre l post split => ?_⟩
    cases pre with
    | nil =>
      obtain ⟨rfl, -⟩ := List.cons.inj split
      exact ⟨by simpa using earlier, inputs, hwc, primitive, grown'.planned planned⟩
    | cons l' pre =>
      obtain ⟨rfl, split⟩ := List.cons.inj split
      simpa using rest pre l post (by assumption)

end GraphPlan

/-! ### Planned graphs -/

namespace Architecture

variable {a : Architecture} {ops : CustomOps} {p : GraphPlan}

/-- A plan is that of the layers, for ends that are checked. -/
lemma plan_eq_value_iff :
    a.plan ops = .value p ↔ a.layers ≠ [] ∧
      a.layers.foldlM (GraphPlan.extend ops) .empty = .value p ∧ a.checkEnds p = .ok () := by
  simp only [plan, Outcome.bind_eq_value_iff, Outcome.require_eq_value_iff,
    Outcome.ofExcept_eq_value_iff, Outcome.pure_eq, Outcome.value.injEq, Bool.not_eq_true',
    List.isEmpty_eq_false_iff, exists_and_left, exists_const]
  constructor
  · rintro ⟨some, _, run, _, ends, rfl⟩
    exact ⟨some, run, ends⟩
  · rintro ⟨some, run, ends⟩
    exact ⟨some, p, run, (), ends, rfl⟩

lemma names_empty : GraphPlan.empty.Names [] := ⟨rfl, List.nodup_nil, fun _ _ => rfl⟩

lemma names_of_plan (h : a.plan ops = .value p) : p.Names (a.layers.map (·.name)) := by
  have run := (plan_eq_value_iff.1 h).2.1
  simpa using (GraphPlan.planned_of_foldlM names_empty run).1

/-- No two layers of a planned graph have one name. -/
lemma nodup_of_plan (h : a.plan ops = .value p) : (a.layers.map (·.name)).Nodup :=
  (names_of_plan h).nodup

/-- Every layer of a planned graph obeys its rule and reads earlier layers. -/
lemma planned_of_plan (h : a.plan ops = .value p) {pre post : List Layer} {l : Layer}
    (split : a.layers = pre ++ l :: post) :
    (∀ name ∈ l.inbound, name ∈ pre.map (·.name)) ∧
      ∃ inputs hwc primitive, Planned ops p l inputs hwc primitive := by
  have run := (plan_eq_value_iff.1 h).2.1
  simpa using (GraphPlan.planned_of_foldlM names_empty run).2.2 pre l post split

lemma planned_of_mem (h : a.plan ops = .value p) {l : Layer} (hl : l ∈ a.layers) :
    ∃ inputs hwc primitive, Planned ops p l inputs hwc primitive := by
  obtain ⟨pre, post, split⟩ := List.append_of_mem hl
  exact (planned_of_plan h split).2

lemma checkOutputs_eq_ok_iff {names : List String} {u : Unit} :
    checkOutputs p names = .ok u ↔ ∀ name ∈ names, (p.shape? name).isSome := by
  induction names with
  | nil => simp [checkOutputs]
  | cons name names ih =>
    rw [checkOutputs, List.forall_mem_cons]
    split
    · rename_i planned
      rw [ih]
      exact (and_iff_right planned).symm
    · rename_i missing
      simp [missing]

/-- The declared inputs that pass the check are input layers. -/
lemma mem_of_checkInputs {seen names : List String} {u : Unit}
    (h : a.checkInputs seen names = .ok u) {name : String} (hname : name ∈ names) :
    ∃ l ∈ a.layers, l.name = name ∧ l.kind.isInput = true := by
  induction names generalizing seen with
  | nil => cases hname
  | cons first rest ih =>
    rw [checkInputs] at h
    split at h
    · rename_i checked
      rcases List.mem_cons.1 hname with rfl | later
      · rw [Bool.and_eq_true, isInput, Option.any_eq_true] at checked
        obtain ⟨⟨l, found, input⟩, -⟩ := checked
        rw [layer?] at found
        exact ⟨l, List.mem_of_find?_eq_some found, by simpa using List.find?_some found, input⟩
      · exact ih h later
    · cases h

/-- Of the declared inputs that pass the check, none is given twice. -/
lemma nodup_of_checkInputs {seen names : List String} {u : Unit}
    (h : a.checkInputs seen names = .ok u) : names.Nodup ∧ ∀ name ∈ names, name ∉ seen := by
  induction names generalizing seen with
  | nil => exact ⟨List.nodup_nil, List.forall_mem_nil _⟩
  | cons first rest ih =>
    rw [checkInputs] at h
    split at h
    · rename_i checked
      obtain ⟨nodup, new⟩ := ih h
      have unseen : first ∉ seen := by simpa using (Bool.and_eq_true_iff.1 checked).2
      refine ⟨List.nodup_cons.2 ⟨fun later => new first later (List.mem_cons_self ..), nodup⟩, ?_⟩
      exact List.forall_mem_cons.2
        ⟨unseen, fun name hname known => new name hname (List.mem_cons_of_mem first known)⟩
    · cases h

/-- The declared ends of a planned graph pass their checks. -/
lemma ends_of_plan (h : a.plan ops = .value p) :
    a.checkInputs [] a.inputs = .ok () ∧ checkOutputs p a.outputs = .ok () := by
  have ends := (plan_eq_value_iff.1 h).2.2
  simp only [checkEnds, bind, Except.bind] at ends
  split at ends
  · cases ends
  · rename_i inputs
    split at ends
    · cases ends
    · split at ends
      · cases ends
      · exact ⟨inputs, ends⟩

/-- Every declared input of a planned graph is the name of an input layer. -/
lemma input_mem_of_plan (h : a.plan ops = .value p) {name : String} (input : name ∈ a.inputs) :
    ∃ l ∈ a.layers, l.name = name ∧ l.kind.isInput = true :=
  mem_of_checkInputs (ends_of_plan h).1 input

/-- No input of a planned graph is declared twice. -/
lemma nodup_inputs_of_plan (h : a.plan ops = .value p) : a.inputs.Nodup :=
  (nodup_of_checkInputs (ends_of_plan h).1).1

/-- Every declared output of a planned graph is the name of a layer. -/
lemma output_mem_of_plan (h : a.plan ops = .value p) {name : String} (output : name ∈ a.outputs) :
    name ∈ a.layers.map (·.name) := by
  have planned := checkOutputs_eq_ok_iff.1 (ends_of_plan h).2 name output
  by_contra outside
  rw [(GraphPlan.shape?_eq_none_iff (names_of_plan h)).2 outside] at planned
  cases planned

/-- What holds of the shape of every layer, if it does of those the layer reads, holds of all
shapes of a plan. -/
lemma shape_induction (h : a.plan ops = .value p) (Q : Hwc → Prop)
    (step : ∀ l ∈ a.layers, ∀ inputs hwc primitive, Planned ops p l inputs hwc primitive →
      (∀ s ∈ inputs, Q s) → Q hwc) {name : String} {s : Hwc} (hs : p.shape? name = some s) :
    Q s := by
  -- by induction on the layers before the one of the name
  have all : ∀ pre post, a.layers = pre ++ post → ∀ l ∈ pre, ∀ s, p.shape? l.name = some s →
      Q s := by
    intro pre
    induction pre using List.reverseRecOn with
    | nil => exact fun post split l hl => nomatch hl
    | append_singleton pre l ih =>
      intro post split l' hl' s hs
      rw [List.append_assoc, List.singleton_append] at split
      obtain ⟨earlier, inputs, hwc, primitive, planned⟩ := planned_of_plan h split
      rcases List.mem_append.1 hl' with before | last
      · exact ih (l :: post) split l' before s hs
      · obtain rfl := List.mem_singleton.1 last
        obtain rfl := Option.some.inj (hs.symm.trans planned.shape)
        have hl : l' ∈ a.layers := by simp [split]
        refine step l' hl inputs s primitive planned fun r hr => ?_
        obtain ⟨i, hi, rfl⟩ := List.mem_iff_getElem.1 hr
        have hj : i < l'.inbound.length := planned.reads.length_eq ▸ hi
        have read := planned.reads.get hj hi
        obtain ⟨l'', before, same⟩ := List.mem_map.1 (earlier _ (List.getElem_mem hj))
        exact ih (l' :: post) split l'' before _ (same ▸ read)
  have planned : name ∈ a.layers.map (·.name) := by
    by_contra outside
    rw [(GraphPlan.shape?_eq_none_iff (names_of_plan h)).2 outside] at hs
    cases hs
  obtain ⟨l, hl, rfl⟩ := List.mem_map.1 planned
  exact all a.layers [] (List.append_nil _).symm l hl s hs

/-- Every planned shape has a channel. -/
lemma channels_ne_zero (h : a.plan ops = .value p) {name : String} {s : Hwc}
    (hs : p.shape? name = some s) : s.channels ≠ 0 :=
  shape_induction h (fun s => s.channels ≠ 0)
    (fun _ _ _ _ _ planned read => planned.shapes.channels_ne_zero read) hs

/-- No planned shape is empty unless a primitive asks for an empty image. -/
lemma full_of_plan (h : a.plan ops = .value p)
    (made : ∀ name size sampling, p.primitive? name = some (.resizeBilinear size sampling) →
      size.1 ≠ 0 ∧ size.2 ≠ 0) {name : String} {s : Hwc} (hs : p.shape? name = some s) :
    s.Full :=
  shape_induction h Hwc.Full (fun l _ _ _ _ planned read => planned.shapes.full read
    fun size sampling same => made l.name size sampling (planned.primitive.trans same)) hs

end Architecture

end FlatNet
