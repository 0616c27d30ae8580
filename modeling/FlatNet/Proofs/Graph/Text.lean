import FlatNet.Graph.Text
import FlatNet.Proofs.Json.Text

/-!
Graphs read back from their text.

Everything in the text of a graph but numbers that are no sizes and the arguments of custom
layers is known to read back; these two are asked for.

* `LayerKind.Legible`: the numbers and arguments of a layer read back;
* `LayerKind.exists_tree`, `Layer.exists_tree`: kinds and layers read back;
* `Architecture.parse?_text`: graphs read back.
-/

namespace FlatNet

open Json Json.Tree

/-! ### Parts -/

lemma Padding.ofName?_name (p : Padding) : Padding.ofName? p.name = some p := by
  cases p <;> decide

lemma Activation.ofName?_name (a : Activation) : Activation.ofName? a.name = some a := by
  cases a <;> decide

/-- A pair of sizes. -/
def SmallPair (p : Nat × Nat) : Prop := p.1 < Size.bound ∧ p.2 < Size.bound

/-- The tree of a pair of sizes. -/
def pairTree (p : Nat × Nat) : Tree := .array ([p.1, p.2].map Tree.ofNat)

lemma reads_pairText (p : Nat × Nat) : Reads (pairText p) (pairTree p) := reads_sizes [p.1, p.2]

lemma sizePair?_pairTree {depth : Nat} (deep : 1 < depth) {p : Nat × Nat} (small : SmallPair p) :
    (pairTree p).sizePair? depth = some p := by
  have sizes := sizes?_array deep [p.1, p.2]
    (List.forall_mem_cons.2 ⟨small.1, List.forall_mem_singleton.2 small.2⟩)
  rw [pairTree, sizePair?, sizes]

lemma reads_flagText (b : Bool) : Reads (flagText b) (.bool b) := reads_bool b

lemma reads_namesText (names : List String) :
    Reads (namesText names) (.array (names.map Tree.ofText)) := by
  refine reads_bracketed (List.forall₂_map_left_iff.2 (List.forall₂_map_right_iff.2 ?_))
  exact List.forall₂_same.2 fun s _ => reads_quote s

lemma names?_array {depth : Nat} (deep : 1 < depth) (names : List String) :
    names? depth (.array (names.map Tree.ofText)) = some names := by
  have read := list?_array deep (fun _ => Tree.text?) Tree.ofText id
    fun s (_ : s ∈ names) => text?_ofText s
  rwa [List.map_id] at read

lemma word?_ofText (buffered : Bool) (depth : Nat) (s : String) :
    (Tree.ofText s).word? buffered depth = some s := string?_pieces s

/-! ### Layers -/

namespace LayerKind

/-- The numbers of a layer are sizes, and its epsilon and its arguments read back at a depth. -/
def Legible (depth : Nat) : LayerKind → Prop
  | input s => s.height < Size.bound ∧ s.width < Size.bound ∧ s.channels < Size.bound
  | conv2d filters w _ _ => filters < Size.bound ∧ SmallPair w.kernel ∧ SmallPair w.strides
  | depthwiseConv2d w _ _ => SmallPair w.kernel ∧ SmallPair w.strides
  | batchNorm epsilon => ∃ t, Reads (float32Text epsilon) t ∧ t.single? = some epsilon
  | maxPool2d pool strides _ => SmallPair pool ∧ ∀ p ∈ strides, SmallPair p
  | custom _ arguments => ∃ t, Reads arguments.text t ∧ t.value? depth = some arguments
  | _ => True

/-- The configuration of a legible layer reads as fields that give its kind back. -/
lemma exists_fields {depth : Nat} (deep : 1 < depth) {kind : LayerKind}
    (legible : kind.Legible depth) {fields : List (String × String)}
    (config : kind.config = some fields) :
    ∃ ms : Members, List.Forall₂ (fun p q => p.1 = q.1 ∧ Reads p.2 q.2) fields ms ∧
      ∀ buffered, ofFields? ⟨buffered, depth⟩ kind.className ms = some kind := by
  -- for each kind the members are given, then that they are the texts of the fields and that the
  -- reader makes the kind of them
  cases kind with
  | input s =>
    cases config
    have sizes := sizes?_array deep [s.height, s.width, s.channels] (by
      simpa [Legible] using legible)
    refine ⟨[("shape", .array ([s.height, s.width, s.channels].map .ofNat))],
      .cons ⟨rfl, reads_sizes _⟩ .nil, fun buffered => ?_⟩
    simp only [List.map_cons, List.map_nil] at sizes
    simp [ofFields?, className, Members.required?, Members.find?, ConfigContext.hwc?, sizes]
  | conv2d filters w a useBias =>
    cases config
    obtain ⟨small, kernel, strides⟩ := legible
    refine ⟨[("filters", .ofNat filters), ("kernel_size", pairTree w.kernel),
      ("strides", pairTree w.strides), ("padding", .ofText w.padding.name),
      ("activation", .ofText a.name), ("use_bias", .bool useBias)], ?_, fun buffered => ?_⟩
    · exact .cons ⟨rfl, reads_toString _⟩ (.cons ⟨rfl, reads_pairText _⟩
        (.cons ⟨rfl, reads_pairText _⟩ (.cons ⟨rfl, reads_quote _⟩ (.cons ⟨rfl, reads_quote _⟩
          (.cons ⟨rfl, reads_flagText _⟩ .nil)))))
    · simp [ofFields?, className, Members.required?, Members.optional?, Members.find?,
        ConfigContext.window?, ConfigContext.padding?, ConfigContext.activation?, size?_ofNat small,
        sizePair?_pairTree deep kernel, sizePair?_pairTree deep strides, word?_ofText,
        Padding.ofName?_name, Activation.ofName?_name, flag?]
  | depthwiseConv2d w a useBias =>
    cases config
    obtain ⟨kernel, strides⟩ := legible
    refine ⟨[("kernel_size", pairTree w.kernel), ("strides", pairTree w.strides),
      ("padding", .ofText w.padding.name), ("activation", .ofText a.name),
      ("use_bias", .bool useBias)], ?_, fun buffered => ?_⟩
    · exact .cons ⟨rfl, reads_pairText _⟩ (.cons ⟨rfl, reads_pairText _⟩ (.cons ⟨rfl, reads_quote _⟩
        (.cons ⟨rfl, reads_quote _⟩ (.cons ⟨rfl, reads_flagText _⟩ .nil))))
    · simp [ofFields?, className, Members.required?, Members.optional?, Members.find?,
        ConfigContext.window?, ConfigContext.padding?, ConfigContext.activation?,
        sizePair?_pairTree deep kernel, sizePair?_pairTree deep strides, word?_ofText,
        Padding.ofName?_name, Activation.ofName?_name, flag?]
  | batchNorm epsilon =>
    cases config
    obtain ⟨t, reads, value⟩ := legible
    refine ⟨[("epsilon", t)], .cons ⟨rfl, reads⟩ .nil, fun buffered => ?_⟩
    simp [ofFields?, className, Members.optional?, Members.find?, value]
  | activation a =>
    cases config
    refine ⟨[("activation", .ofText a.name)], .cons ⟨rfl, reads_quote _⟩ .nil, fun buffered => ?_⟩
    simp [ofFields?, className, Members.required?, Members.find?, ConfigContext.activation?,
      word?_ofText, Activation.ofName?_name]
  | add => cases config
  | concat => cases config
  | maxPool2d pool strides padding =>
    cases config
    obtain ⟨small, steps⟩ := legible
    -- strides that are left out are written as null
    obtain ⟨t, reads, value⟩ : ∃ t, Reads ((strides.map pairText).getD "null") t ∧
        ∀ buffered, ConfigContext.strides? ⟨buffered, depth⟩ t = some strides := by
      cases strides with
      | none => exact ⟨.null, reads_null, fun _ => rfl⟩
      | some p =>
        refine ⟨pairTree p, reads_pairText p, fun buffered => ?_⟩
        rw [pairTree, ConfigContext.strides?, ← pairTree, sizePair?_pairTree deep (steps p rfl)]
        · rfl
        · exact Tree.noConfusion
    refine ⟨[("pool_size", pairTree pool), ("strides", t), ("padding", .ofText padding.name)],
      .cons ⟨rfl, reads_pairText _⟩ (.cons ⟨rfl, reads⟩ (.cons ⟨rfl, reads_quote _⟩ .nil)),
      fun buffered => ?_⟩
    simp [ofFields?, className, Members.required?, Members.optional?, Members.find?, value,
      ConfigContext.padding?, sizePair?_pairTree deep small, word?_ofText, Padding.ofName?_name]
  | custom function arguments =>
    cases config
    obtain ⟨t, reads, value⟩ := legible
    refine ⟨[("function", .ofText function), ("arguments", t)],
      .cons ⟨rfl, reads_quote _⟩ (.cons ⟨rfl, reads⟩ .nil), fun buffered => ?_⟩
    simp [ofFields?, className, Members.required?, Members.optional?, Members.find?, value]

/-- The text of a legible kind reads as a tree that gives the kind back. -/
lemma exists_tree {depth : Nat} (deep : 3 < depth) {kind : LayerKind}
    (legible : kind.Legible (depth - 2)) :
    ∃ t, Reads kind.text t ∧ ofTree? depth t = some kind := by
  cases config : kind.config with
  | none =>
    refine ⟨.record [("class_name", .ofText kind.className)], ?_, ?_⟩
    · rw [text, config]
      exact reads_record (.cons ⟨rfl, reads_quote _⟩ .nil)
    -- without a configuration there are only the kinds that have none
    · have named : ofName? kind.className = some kind := by
        cases kind <;> first | rfl | cases config
      rw [ofTree?, record?_record _ (by omega)]
      · simp [Members.required?, Members.find?, word?_ofText, named]
      · exact fun _ _ => Tree.noConfusion
  | some fields =>
    obtain ⟨ms, reads, value⟩ := exists_fields (show 1 < depth - 2 by omega) legible config
    refine ⟨.record [("class_name", .ofText kind.className), ("config", .record ms)], ?_, ?_⟩
    · rw [text, config]
      exact reads_record (.cons ⟨rfl, reads_quote _⟩ (.cons ⟨rfl, reads_record reads⟩ .nil))
    · have fields : ofConfig? false (depth - 1) kind.className (some (.record ms)) = some kind := by
        rw [ofConfig?, record?_record _ (by omega)]
        · exact value false
        · exact Tree.noConfusion
      rw [ofTree?, record?_record _ (by omega)]
      · simp [Members.required?, Members.find?, word?_ofText, configFirst, fields]
      · exact fun _ _ => Tree.noConfusion

end LayerKind

/-- The text of a legible layer reads as a tree that gives the layer back. -/
lemma Layer.exists_tree {depth : Nat} (deep : 4 < depth) {l : Layer}
    (legible : l.kind.Legible (depth - 3)) :
    ∃ t, Reads l.text t ∧ ofTree? depth t = some l := by
  obtain ⟨kind, reads, value⟩ := LayerKind.exists_tree (show 3 < depth - 1 by omega) legible
  refine ⟨.record [("name", .ofText l.name), ("layer", kind),
    ("inbound", .array (l.inbound.map .ofText))], ?_, ?_⟩
  · exact reads_record (.cons ⟨rfl, reads_quote _⟩ (.cons ⟨rfl, reads⟩
      (.cons ⟨rfl, reads_namesText _⟩ .nil)))
  · rw [ofTree?, record?_record _ (by omega)]
    · simp [Members.required?, Members.optional?, Members.find?, value,
        names?_array (show 1 < depth - 1 by omega)]
    · exact fun _ => Tree.noConfusion

/-! ### Graphs -/

namespace Architecture

/-- The depth at which the arguments of custom layers are read. -/
def argumentDepth : Nat := Json.depthLimit - 5

/-- The layers of a graph are legible. -/
def Legible (a : Architecture) : Prop := ∀ l ∈ a.layers, l.kind.Legible argumentDepth

lemma exists_trees {depth : Nat} (deep : 4 < depth) {layers : List Layer}
    (legible : ∀ l ∈ layers, l.kind.Legible (depth - 3)) :
    ∃ ts, List.Forall₂ Reads (layers.map Layer.text) ts ∧
      ts.mapM (Layer.ofTree? depth) = some layers := by
  induction layers with
  | nil => exact ⟨[], .nil, rfl⟩
  | cons l layers ih =>
    rw [List.forall_mem_cons] at legible
    obtain ⟨t, reads, value⟩ := Layer.exists_tree deep legible.1
    obtain ⟨ts, later, values⟩ := ih legible.2
    refine ⟨t :: ts, .cons reads later, ?_⟩
    rw [List.mapM_cons, value, values]
    rfl

/-- A legible graph reads back from its text. -/
theorem parse?_text {a : Architecture} (legible : a.Legible) : parse? a.text = some a := by
  obtain ⟨ts, reads, values⟩ := exists_trees (show 4 < Json.depthLimit - 2 by decide) legible
  have whole : Reads a.text (.record [("name", .ofText a.name), ("layers", .array ts),
      ("inputs", .array (a.inputs.map .ofText)), ("outputs", .array (a.outputs.map .ofText))]) :=
    reads_record (.cons ⟨rfl, reads_quote _⟩ (.cons ⟨rfl, reads_bracketed reads⟩
      (.cons ⟨rfl, reads_namesText _⟩ (.cons ⟨rfl, reads_namesText _⟩ .nil))))
  have layers : (Tree.array ts).list? (Json.depthLimit - 1) Layer.ofTree? = some a.layers := by
    rw [list?, if_neg (by decide)]
    exact values
  rw [parse?, parse?_of_reads whole, Option.bind_some, ofTree?, record?_record _ (by decide)]
  · simp [Members.required?, Members.find?, layers,
      names?_array (show 1 < Json.depthLimit - 1 by decide)]
  · exact fun _ => Tree.noConfusion

end Architecture

end FlatNet
