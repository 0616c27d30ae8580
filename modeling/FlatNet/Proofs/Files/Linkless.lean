import FlatNet.Files.Alias
import FlatNet.Proofs.Files.Store
import FlatNet.Proofs.Outcome

/-!
Stores without links.

Without links the place of a path is the one that its steps lead to, whatever the files are; they
only decide whether the way may be taken, and for that only the directories count.  So files can
be put and erased on the side without changing where any path leads.

* `Store.Linkless`: stores without links, with `Linkless.walkPath_eq_ok_iff` for their ways;
* `Store.placeOf`: the place of a path by its steps;
* `Store.Alike`: stores with the same directories, with `Alike.walkPath`;
* `Store.names`: the names of a file, with `Store.SameBut` for changes at some places;
* `Store.Leads`: paths of files, with what reading and removing does at them.
-/

namespace FlatNet.Store

variable {s s' : Store} {bytes : Bytes} {p : Path}

/-! ### Ways -/

/-- A store without links. -/
def Linkless (s : Store) : Prop := ∀ place p, s.get? place ≠ some (.link p)

/-- A list of places without links makes a store without links. -/
lemma linkless_of_nodes (h : ∀ q ∈ s.nodes, ∀ p, q.2 ≠ .link p) : s.Linkless := by
  intro place p there
  unfold get? at there
  split at there
  · cases there
  · obtain ⟨before, after, nodes, -⟩ := List.lookup_eq_some_iff.1 there
    exact h (place, .link p) (by rw [nodes]; simp) p rfl

/-- The place that the steps of a path lead to. -/
def placeOf (s : Store) (p : Path) : Place := (startOf s.current p).walk p.steps

/-- What a step of a way does where there are no links. -/
lemma Linkless.advance_cons_eq_ok_iff (plain : s.Linkless) {looksLast : Bool} {place : Place}
    {step : PathStep} {rest : List PathStep} {stop : Stop} :
    s.advance looksLast place (step :: rest) = .ok stop ↔
      s.requireFolder place = .ok () ∧
        (rest = [] ∧ (looksLast = true → requireName step = .ok ()) ∧ stop = .ending place step ∨
          rest ≠ [] ∧ requireName step = .ok () ∧
            s.advance looksLast (step.goto place) rest = .ok stop) := by
  rw [advance.eq_def]
  dsimp only
  cases s.requireFolder place with
  | error e => simp [bind, Except.bind]
  | ok u =>
    -- only the last step may be looked at without a name; links, which would stop the walk, are not
    -- there
    rcases rest with - | ⟨next, rest⟩
    · cases looksLast with
      | false => simp [bind, Except.bind, pure, Except.pure, eq_comm]
      | true =>
        cases requireName step with
        | error e => simp [bind, Except.bind]
        | ok v =>
          simp only [bind, Except.bind, List.isEmpty_nil, Bool.not_true, Bool.and_false,
            Bool.false_eq_true, if_false]
          split
          · rename_i target found
            exact absurd found (plain _ target)
          · simp [pure, Except.pure, eq_comm]
          · rename_i more
            exact absurd rfl more
    · cases requireName step with
      | error e => simp [bind, Except.bind]
      | ok v =>
        simp only [bind, Except.bind, List.isEmpty_cons, Bool.false_and, Bool.false_eq_true, if_false]
        split
        · rename_i target found
          exact absurd found (plain _ target)
        · rename_i ended _
          cases ended
        · simp

/-- A way leads where its steps lead. -/
lemma Linkless.exists_of_advance (plain : s.Linkless) {looksLast : Bool} {place : Place}
    {steps : List PathStep} {stop : Stop} (h : s.advance looksLast place steps = .ok stop) :
    ∃ folder last, stop = .ending folder last ∧ last.goto folder = place.walk steps ∧
      (looksLast = true → requireName last = .ok ()) := by
  induction steps generalizing place with
  | nil =>
    cases h
    exact ⟨place, .here, rfl, rfl, fun _ => rfl⟩
  | cons step rest ih =>
    rw [plain.advance_cons_eq_ok_iff] at h
    obtain ⟨-, ⟨rfl, named, rfl⟩ | ⟨-, -, h⟩⟩ := h
    · exact ⟨place, step, rfl, rfl, named⟩
    · exact ih h

/-- How a way is walked where there are no links. -/
lemma Linkless.walk_eq_ok_iff (plain : s.Linkless) {lookup : Lookup} {links : Nat} {place : Place}
    {steps : List PathStep} {separator : Bool} {e : Ending} :
    s.walk lookup links place steps separator = .ok e ↔ e.separator = separator ∧
      s.advance (lookup.applies separator) place steps = .ok (.ending e.folder e.last) := by
  rw [walk.eq_def]
  cases way : s.advance (lookup.applies separator) place steps with
  | error e => simp
  | ok stop =>
    obtain ⟨folder, last, rfl, -, -⟩ := plain.exists_of_advance way
    simp only [Except.ok.injEq, Stop.ending.injEq]
    constructor
    · rintro rfl
      exact ⟨rfl, rfl, rfl⟩
    · rintro ⟨rfl, rfl, rfl⟩
      rfl

lemma Linkless.place_of_walk (plain : s.Linkless) {lookup : Lookup} {links : Nat} {place : Place}
    {steps : List PathStep} {separator : Bool} {e : Ending}
    (h : s.walk lookup links place steps separator = .ok e) : e.place = place.walk steps := by
  obtain ⟨_, _, same, leads, -⟩ := plain.exists_of_advance (plain.walk_eq_ok_iff.1 h).2
  cases same
  exact leads

/-- How a path is walked where there are no links. -/
lemma Linkless.walkPath_eq_ok_iff (plain : s.Linkless) {lookup : Lookup} {e : Ending} :
    s.walkPath lookup p = .ok e ↔ requirePath p = .ok () ∧ e.separator = p.endsInSeparator ∧
      s.advance (lookup.applies p.endsInSeparator) (startOf s.current p) p.steps
        = .ok (.ending e.folder e.last) := by
  rw [walkPath, except_bind_eq_ok_iff, Unique.exists_iff, plain.walk_eq_ok_iff]

lemma Linkless.place_eq (plain : s.Linkless) {lookup : Lookup} {e : Ending}
    (h : s.walkPath lookup p = .ok e) : e.place = s.placeOf p := by
  obtain ⟨_, -, way⟩ := except_bind_eq_ok_iff.1 h
  exact plain.place_of_walk way

/-- A way whose last step is looked up has checked its name. -/
lemma Linkless.requireName_of_walkPath (plain : s.Linkless) {lookup : Lookup} {e : Ending}
    (looks : lookup.applies p.endsInSeparator = true) (h : s.walkPath lookup p = .ok e) :
    requireName e.last = .ok () := by
  obtain ⟨-, -, way⟩ := plain.walkPath_eq_ok_iff.1 h
  obtain ⟨_, _, same, -, named⟩ := plain.exists_of_advance way
  cases same
  exact named looks

/-! ### Stores with the same directories -/

/-- Stores without links that have the same directories. -/
structure Alike (s s' : Store) : Prop where
  /-- The current directory is the same. -/
  current : s'.current = s.current
  /-- The first one has no links. -/
  linkless : s.Linkless
  /-- The second one has no links. -/
  linkless' : s'.Linkless
  /-- A place is a directory in both of them or in none. -/
  folders : ∀ place, s'.get? place = some .directory ↔ s.get? place = some .directory

namespace Alike

lemma refl (plain : s.Linkless) : s.Alike s := ⟨rfl, plain, plain, fun _ => Iff.rfl⟩

lemma symm (h : s.Alike s') : s'.Alike s :=
  ⟨h.current.symm, h.linkless', h.linkless, fun place => (h.folders place).symm⟩

lemma trans {s'' : Store} (h : s.Alike s') (h' : s'.Alike s'') : s.Alike s'' :=
  ⟨h'.current.trans h.current, h.linkless, h'.linkless',
    fun place => (h'.folders place).trans (h.folders place)⟩

lemma placeOf (h : s.Alike s') (p : Path) : s'.placeOf p = s.placeOf p := by
  rw [Store.placeOf, Store.placeOf, h.current]

lemma advance (h : s.Alike s') {looksLast looksLast' : Bool} {place folder : Place}
    {steps : List PathStep} {last : PathStep} (named : requireName last = .ok ())
    (way : s.advance looksLast place steps = .ok (.ending folder last)) :
    s'.advance looksLast' place steps = .ok (.ending folder last) := by
  induction steps generalizing place with
  | nil =>
    cases way
    rfl
  | cons step rest ih =>
    rw [h.linkless.advance_cons_eq_ok_iff] at way
    rw [h.linkless'.advance_cons_eq_ok_iff]
    obtain ⟨inside, way⟩ := way
    rw [requireFolder_eq_ok_iff] at inside ⊢
    refine ⟨(h.folders place).2 inside, ?_⟩
    obtain ⟨rfl, -, same⟩ | ⟨more, name, way⟩ := way
    · cases same
      exact .inl ⟨rfl, fun _ => named, rfl⟩
    · exact .inr ⟨more, name, ih way⟩

/-- A path leads in one store where it leads in the other, however it is looked up, unless the
last name is refused. -/
lemma walkPath (h : s.Alike s') {lookup lookup' : Lookup} {e : Ending}
    (named : requireName e.last = .ok ()) (way : s.walkPath lookup p = .ok e) :
    s'.walkPath lookup' p = .ok e := by
  obtain ⟨allowed, separator, way⟩ := h.linkless.walkPath_eq_ok_iff.1 way
  refine h.linkless'.walkPath_eq_ok_iff.2 ⟨allowed, separator, ?_⟩
  rw [startOf, h.current, ← startOf]
  exact h.advance named way

/-- A file that is read from one store is read from the other, if its place holds the same. -/
lemma read (h : s.Alike s') (same : s'.get? (s.placeOf p) = s.get? (s.placeOf p))
    (found : s.read p = .ok bytes) : s'.read p = .ok bytes := by
  rw [Store.read, locate, except_bind_eq_ok_iff] at found
  obtain ⟨at?, found, contents⟩ := found
  obtain ⟨e, way, found⟩ := except_bind_eq_ok_iff.1 found
  have named := h.linkless.requireName_of_walkPath rfl way
  have place := h.linkless.place_eq way
  have found' : s'.resolve e = .ok at? := by
    rw [← found, resolve, resolve, place, same]
  rw [Store.read, locate, h.walkPath named way]
  exact except_bind_eq_ok_iff.2 ⟨at?, found', contents⟩

end Alike

/-- The names of the file at a place, that one and its other ones. -/
def names (s : Store) (place : Place) : List Place :=
  place :: (s.numbers.map (·.1)).filter (s.shares place)

lemma mem_names_iff {place other : Place} :
    other ∈ s.names place ↔ s.shares place other = true := by
  rw [names, List.mem_cons, List.mem_filter]
  constructor
  · rintro (rfl | ⟨-, shared⟩)
    · simp [shares]
    · exact shared
  · intro shared
    by_cases here : other = place
    · exact .inl here
    · have both := shared
      simp only [shares, Ne.symm here, decide_false, Bool.false_or, Bool.and_eq_true,
        Option.isSome_iff_exists, decide_eq_true_eq] at both
      obtain ⟨⟨number, found⟩, same⟩ := both
      rw [found, eq_comm, List.lookup_eq_some_iff] at same
      obtain ⟨before, after, numbers, -⟩ := same
      exact .inr ⟨by rw [numbers]; simp, shared⟩

/-- A store after changes to files at some places. -/
structure SameBut (s s' : Store) (places : List Place) : Prop where
  /-- Both have the same directories. -/
  alike : s.Alike s'
  /-- Every other place holds what it held. -/
  others : ∀ place ∉ places, s'.get? place = s.get? place

namespace SameBut

variable {places more : List Place}

lemma refl (plain : s.Linkless) : s.SameBut s places := ⟨.refl plain, fun _ _ => rfl⟩

lemma trans {s'' : Store} (h : s.SameBut s' places) (h' : s'.SameBut s'' places) :
    s.SameBut s'' places :=
  ⟨h.alike.trans h'.alike, fun place other => (h'.others place other).trans (h.others place other)⟩

lemma mono (h : s.SameBut s' places) (within : places ⊆ more) : s.SameBut s' more :=
  ⟨h.alike, fun place other => h.others place fun there => other (within there)⟩

/-- A file at another place is read as before. -/
lemma read (h : s.SameBut s' places) (other : s.placeOf p ∉ places) (found : s.read p = .ok bytes) :
    s'.read p = .ok bytes :=
  h.alike.read (h.others _ other) found

end SameBut

/-- A path leads to a place by a name, as that of a file does. -/
def Leads (s : Store) (p : Path) : Prop :=
  ∃ e, s.walkPath .always p = .ok e ∧ e.separator = false ∧ ∃ n, e.last = .name n

namespace Leads

variable (plain : s.Linkless) (h : s.Leads p)
include plain h

lemma placeOf_ne_nil : s.placeOf p ≠ [] := by
  obtain ⟨e, way, -, n, name⟩ := h
  rw [← plain.place_eq way, Ending.place, name]
  exact List.append_ne_nil_of_right_ne_nil _ (List.cons_ne_nil _ _)

end Leads

end FlatNet.Store
