import FlatNet.Files.Store
import Mathlib.Tactic

/-!
Files that are written are read back.

A file is written where a path leads to.  The place is no directory and no link, and no directory
or link changes with the file, so the same path leads there again afterwards.

* `Store.Plain`: a place that no way passes;
* `Store.get?_fill_eq_directory_iff`, `Store.get?_fill_eq_link_iff`: what is written leaves
  directories and links as they are;
* `Store.advance_fill`, `Store.walk_fill`: ways that lead to such a place stay;
* `Store.read_of_write`: what is written at a path is read from it.
-/

namespace FlatNet.Store

variable {s : Store} {target : Place} {bytes : Bytes}

/-- A place that holds nothing or a file, so that no way passes it. -/
def Plain (s : Store) (target : Place) : Prop :=
  target ≠ [] ∧ s.get? target ≠ some .directory ∧ ∀ p, s.get? target ≠ some (.link p)

lemma requireFolder_eq_ok_iff {place : Place} :
    s.requireFolder place = .ok () ↔ s.get? place = some .directory := by
  unfold requireFolder
  split <;> simp_all

/-- What is written to a file, under all its names, makes and removes no directory. -/
lemma get?_fill_eq_directory_iff (free : s.get? target ≠ some .directory) (bytes : Bytes)
    (place : Place) :
    (s.fill target bytes).get? place = some .directory ↔ s.get? place = some .directory := by
  by_cases here : place = target
  · subst here
    have below : place ≠ [] := by
      rintro rfl
      exact free rfl
    rw [get?_fill_self s below]
    exact ⟨nofun, fun folder => absurd folder free⟩
  · rw [get?_fill_of_ne s here]
    split
    · cases s.get? place with
      | none => simp
      | some node => cases node <;> simp [Node.refill]
    · rfl

/-- What is written to a file, under all its names, makes and removes no link. -/
lemma get?_fill_eq_link_iff (plain : s.Plain target) (bytes : Bytes) (place : Place) (p : Path) :
    (s.fill target bytes).get? place = some (.link p) ↔ s.get? place = some (.link p) := by
  by_cases here : place = target
  · rw [here, get?_fill_self s plain.1]
    exact ⟨nofun, fun link => absurd link (plain.2.2 p)⟩
  · rw [get?_fill_of_ne s here]
    split
    · cases s.get? place with
      | none => simp
      | some node => cases node <;> simp [Node.refill]
    · rfl

/-- A directory is another place than one that no way passes, and stays a directory. -/
lemma requireFolder_fill {place : Place} (plain : s.Plain target)
    (h : s.requireFolder place = .ok ()) : (s.fill target bytes).requireFolder place = .ok () := by
  rw [requireFolder_eq_ok_iff] at h ⊢
  exact (get?_fill_eq_directory_iff plain.2.1 bytes place).2 h

/-- What a step of a way that looks at every place does. -/
lemma advance_cons_eq_ok_iff {place : Place} {step : PathStep} {rest : List PathStep}
    {stop : Stop} :
    s.advance true place (step :: rest) = .ok stop ↔
      s.requireFolder place = .ok () ∧ requireName step = .ok () ∧
        ((∃ p, s.get? (step.goto place) = some (.link p) ∧ stop = .link place p rest) ∨
          (∀ p, s.get? (step.goto place) ≠ some (.link p)) ∧
            (rest = [] ∧ stop = .ending place step ∨
              rest ≠ [] ∧ s.advance true (step.goto place) rest = .ok stop)) := by
  rw [advance.eq_def]
  dsimp only
  cases s.requireFolder place with
  | error e => simp [bind, Except.bind]
  | ok u =>
    cases requireName step with
    | error e => simp [bind, Except.bind]
    | ok v =>
      simp only [bind, Except.bind, Bool.not_true, Bool.and_false, Bool.false_eq_true, if_false]
      split
      · rename_i p found
        simp [found, pure, Except.pure, eq_comm]
      · rename_i unlinked
        simp [show ∀ p, s.get? (step.goto place) ≠ some (.link p) from unlinked, pure, Except.pure,
          eq_comm]
      · rename_i more unlinked
        simp [show ∀ p, s.get? (step.goto place) ≠ some (.link p) from unlinked,
          show _ ≠ [] from more]

/-- A way stays as it is when a file is written at a place that it does not pass. -/
lemma advance_fill (plain : s.Plain target) {place : Place} {steps : List PathStep} {stop : Stop}
    (h : s.advance true place steps = .ok stop) :
    (s.fill target bytes).advance true place steps = .ok stop := by
  induction steps generalizing place with
  | nil => exact h
  | cons step rest ih =>
    rw [advance_cons_eq_ok_iff] at h ⊢
    simp only [ne_eq, get?_fill_eq_link_iff plain]
    obtain ⟨folder, name, h⟩ := h
    refine ⟨requireFolder_fill plain folder, name, ?_⟩
    exact h.imp id fun ⟨unlinked, h⟩ => ⟨unlinked, h.imp id fun ⟨more, h⟩ => ⟨more, ih h⟩⟩

/-- A way that ends with a name has looked at it, and it is no link. -/
lemma ne_link_of_advance {place folder : Place} {steps : List PathStep} {n : String}
    (h : s.advance true place steps = .ok (.ending folder (.name n))) (p : Path) :
    s.get? (folder ++ [n]) ≠ some (.link p) := by
  induction steps generalizing place with
  | nil => cases h
  | cons step rest ih =>
    rw [advance_cons_eq_ok_iff] at h
    obtain ⟨-, -, ⟨p, -, other⟩ | ⟨unlinked, ⟨-, same⟩ | ⟨-, h⟩⟩⟩ := h
    · cases other
    · cases same
      exact unlinked p
    · exact ih h

/-- A way that asks for no directory at its end never did. -/
lemma separator_of_walk {lookup : Lookup} {links : Nat} {place : Place} {steps : List PathStep}
    {separator : Bool} {e : Ending} (h : s.walk lookup links place steps separator = .ok e)
    (open? : e.separator = false) : separator = false := by
  fun_induction walk s lookup links place steps separator with
  | case1 => cases h
  | case2 =>
    cases h
    exact open?
  | case3 => cases h
  | case4 _ _ _ _ _ _ _ _ ih => exact (Bool.or_eq_false_iff.1 (ih h)).1

/-- A way that ends with a name ends at no link. -/
lemma ne_link_of_walk {links : Nat} {place : Place} {steps : List PathStep} {separator : Bool}
    {e : Ending} {n : String} (h : s.walk .unlessSeparated links place steps separator = .ok e)
    (open? : e.separator = false) (name : e.last = .name n) (p : Path) :
    s.get? e.place ≠ some (.link p) := by
  have start := separator_of_walk h open?
  generalize which : Lookup.unlessSeparated = lookup at h
  fun_induction walk s lookup links place steps separator with
  | case1 => cases h
  | case2 _ _ _ _ folder last way =>
    subst which start
    cases h
    obtain rfl : last = .name n := name
    exact ne_link_of_advance way p
  | case3 => cases h
  | case4 _ _ _ _ _ _ _ _ ih => exact ih (separator_of_walk h open?) h

/-- A way to a place stays as it is when a file is written there. -/
lemma walk_fill {links : Nat} {place : Place} {steps : List PathStep} {separator : Bool} {e : Ending}
    (h : s.walk .unlessSeparated links place steps separator = .ok e) (open? : e.separator = false)
    (plain : s.Plain target) :
    (s.fill target bytes).walk .always links place steps separator = .ok e := by
  have start := separator_of_walk h open?
  generalize which : Lookup.unlessSeparated = lookup at h
  -- along the walk: no step of it depends on what the file holds
  fun_induction walk s lookup links place steps separator with
  | case1 => cases h
  | case2 _ _ _ _ _ _ way =>
    subst which start
    unfold walk
    rw [show Lookup.always.applies false = true from rfl, advance_fill plain way]
    exact h
  | case3 => cases h
  | case4 _ _ _ _ _ _ way _ ih =>
    subst which start
    unfold walk
    rw [show Lookup.always.applies false = true from rfl, advance_fill plain way]
    exact ih (separator_of_walk h open?) h

/-- What a write does that is not refused. -/
lemma exists_of_write {s' : Store} {p : Path} (h : s.write p bytes = .ok s') :
    ∃ e n, requirePath p = .ok () ∧
      s.walk .unlessSeparated linkLimit (startOf s.current p) p.steps p.endsInSeparator = .ok e ∧
      e.last = .name n ∧ e.separator = false ∧ s.get? e.place ≠ some .directory ∧
      s' = s.fill e.place bytes := by
  unfold write walkPath at h
  cases allowed : requirePath p with
  | error e =>
    rw [allowed] at h
    cases h
  | ok u =>
    -- a path, a way to its end, a name there, and no directory of that name
    cases way : s.walk .unlessSeparated linkLimit (startOf s.current p) p.steps
        p.endsInSeparator with
    | error e =>
      rw [allowed] at h
      simp only [bind, Except.bind, way] at h
      cases h
    | ok e =>
      rw [allowed] at h
      simp only [bind, Except.bind, way] at h
      split at h
      · cases h
      · rename_i n name other
        split at h
        · cases h
        · rename_i open?
          cases h
          exact ⟨e, n, rfl, rfl, name, Bool.not_eq_true _ ▸ open?, other, rfl⟩
      · cases h

/-- What is written at a path is read from it. -/
theorem read_of_write {s' : Store} {p : Path} (h : s.write p bytes = .ok s') :
    s'.read p = .ok bytes := by
  obtain ⟨e, n, allowed, way, name, open?, notFolder, rfl⟩ := exists_of_write h
  have some? : e.place ≠ [] := by
    rw [Ending.place, name]
    exact List.append_ne_nil_of_right_ne_nil _ (List.cons_ne_nil _ _)
  have plain : s.Plain e.place := ⟨some?, notFolder, ne_link_of_walk way open? name⟩
  -- the file is found the way it was written, for nothing on that way has changed
  have again : (s.fill e.place bytes).walkPath .always p = .ok e := by
    rw [walkPath, allowed]
    exact walk_fill way open? plain
  have found : (s.fill e.place bytes).resolve e = .ok (e.place, .file bytes) := by
    rw [resolve, get?_fill_self s some?]
    simp [open?]
  rw [read, locate, again]
  change ((s.fill e.place bytes).resolve e >>= _) = _
  rw [found]
  rfl

end FlatNet.Store
