import FlatNet.Pipeline.Config
import FlatNet.Proofs.Files.Faithful

/-!
The check of the settings of a run.

Without links the place of a path is the one that its steps lead to, whether the directories on the
way are tried as they are written, after the steps up are cancelled, or not at all.  So the check
compares the places at which the machine would look for the three files, and finds fault with the
settings exactly if two of them are the same.

* `PipelineConfig.clash?`: the first two paths with one place, with `PipelineConfig.samePath?_paths`;
* `PipelineConfig.check`, `Faithful.run_checkConfig`: the check, and that it is what is run;
* `PipelineConfig.Faulty`, `PipelineConfig.Allowed`: what is wrong with settings, and what those
  that are allowed have, with `PipelineConfig.check_cases`;
* `Store.Denotes`: the entry of a directory that a path leads to;
* `Host.checkConfig_refuses_iff`: settings are refused exactly if two paths denote one entry.
-/

namespace FlatNet

namespace PipelineConfig

/-- The three files of a run have three places. -/
structure Apart (c : PipelineConfig) (s : Store) : Prop where
  /-- The checkpoint is not the intermediate file. -/
  input_intermediate : s.placeOf c.input ≠ s.placeOf c.intermediate
  /-- The checkpoint is not the output. -/
  input_output : s.placeOf c.input ≠ s.placeOf c.output
  /-- The intermediate file is not the output. -/
  intermediate_output : s.placeOf c.intermediate ≠ s.placeOf c.output

/-- Settings that nothing is wrong with. -/
structure Allowed (c : PipelineConfig) (s : Store) : Prop extends c.Apart s where
  /-- No path is empty. -/
  named : ∀ p ∈ c.paths, p.2.isEmpty = false
  /-- Images have a size. -/
  sized : c.resizeSize ≠ 0

/-- The fault of settings whose three paths have these places: the first two that are the same. -/
def clash? (c : PipelineConfig) (input intermediate output : Place) : Option SettingsFault :=
  if input = intermediate then some (.samePath .input .intermediate c.input)
  else if input = output then some (.samePath .input .output c.input)
  else if intermediate = output then some (.samePath .intermediate .output c.intermediate)
  else none

variable {c : PipelineConfig} {input intermediate output : Place}

lemma clash?_eq_none_iff : c.clash? input intermediate output = none ↔
    input ≠ intermediate ∧ input ≠ output ∧ intermediate ≠ output := by
  unfold clash?
  split_ifs <;> simp_all

lemma exists_clash_iff : (∃ fault, c.clash? input intermediate output = some fault) ↔
    input = intermediate ∨ input = output ∨ intermediate = output := by
  rw [← Option.ne_none_iff_exists', Ne, clash?_eq_none_iff]
  tauto

/-- The search for two paths with one place goes through all pairs. -/
lemma samePath?_paths (c : PipelineConfig) (placeOf : Path → Place) :
    samePath? (c.paths.map fun p => (p.1, p.2, placeOf p.2))
      = c.clash? (placeOf c.input) (placeOf c.intermediate) (placeOf c.output) := by
  simp only [paths, List.map_cons, List.map_nil, samePath?, clash?, List.find?_cons, List.find?_nil]
  generalize placeOf c.input = input, placeOf c.intermediate = intermediate,
    placeOf c.output = output
  by_cases first : input = intermediate
  · simp [first]
  by_cases second : input = output
  · subst second
    simp [first, Ne.symm first]
  by_cases third : intermediate = output
  · simp [third, Ne.symm second, second]
  · simp [first, second, third, Ne.symm first, Ne.symm second, Ne.symm third]

/-- The check of settings, for the places of paths. -/
def check (c : PipelineConfig) (placeOf : Path → Place) : Outcome SettingsFault Unit :=
  match c.paths.find? (·.2.isEmpty) with
  | some (role, _) => .error (.emptyPath role)
  | none =>
    match samePath? (c.paths.map fun p => (p.1, p.2, placeOf p.2)) with
    | some fault => .error fault
    | none => if c.resizeSize = 0 then .error .zeroSize else .value ()

/-- The check of settings that have three paths and a size is the comparison of places. -/
lemma check_eq (named : ∀ p ∈ c.paths, p.2.isEmpty = false) (sized : c.resizeSize ≠ 0)
    (placeOf : Path → Place) :
    c.check placeOf = (c.clash? (placeOf c.input) (placeOf c.intermediate) (placeOf c.output)).elim
      (.value ()) .error := by
  have present : c.paths.find? (·.2.isEmpty) = none :=
    List.find?_eq_none.2 fun p hp => by simp [named p hp]
  simp only [check, present, samePath?_paths, if_neg sized]
  cases c.clash? (placeOf c.input) (placeOf c.intermediate) (placeOf c.output) <;> rfl

end PipelineConfig

/-- The check of the settings changes nothing. -/
lemma Host.Faithful.run_checkConfig {h : Host (StateM Store)} (faithful : h.Faithful) {s : Store}
    (plain : s.Linkless) (c : PipelineConfig) :
    (h.checkConfig c).run s = (c.check s.placeOf, s) := by
  have one : ∀ p : PathRole × Path,
      (do return (p.1, p.2, ← h.place p.2) : StateM Store _) s
        = ((p.1, p.2, s.placeOf p.2), s) := by
    intro p
    change (h.place p.2 >>= fun place => pure (p.1, p.2, place) : StateM Store _) s = _
    simp only [bind, StateT.bind, faithful.run_place plain]
    rfl
  unfold Host.checkConfig PipelineConfig.check
  cases c.paths.find? (·.2.isEmpty) with
  | some empty => rfl
  | none =>
    dsimp only
    rw [Action.run_bind_of_value (Action.run_lift_of_eq (Store.mapM_of_unchanged one c.paths))]
    cases PipelineConfig.samePath? (c.paths.map fun p => (p.1, p.2, s.placeOf p.2)) with
    | some fault => rfl
    | none =>
      dsimp only
      split <;> rfl

/-! ### Entries of directories -/

/-- A path denotes the entry at a place: the machine takes its steps one by one, down to a directory
that is there, and the last one is the name of the entry. -/
def Store.Denotes (s : Store) (p : Path) (place : Place) : Prop :=
  ∃ e n, s.walkPath .never p = .ok e ∧ e.last = .name n ∧ e.place = place

namespace Store.Denotes

variable {s : Store} {p : Path} {place : Place} (h : s.Denotes p place)
include h

/-- The steps of a path lead to the entry that it denotes. -/
lemma placeOf_eq (plain : s.Linkless) : s.placeOf p = place := by
  obtain ⟨e, -, way, -, rfl⟩ := h
  exact (plain.place_eq way).symm

lemma isEmpty_eq_false : p.isEmpty = false := by
  obtain ⟨e, -, way, -⟩ := h
  obtain ⟨_, allowed, -⟩ := except_bind_eq_ok_iff.1 way
  unfold requirePath at allowed
  split_ifs at allowed with nul empty
  exact eq_false_of_ne_true empty

end Store.Denotes

/-- Settings with a size, whose paths denote entries of directories that are there, are refused
exactly if two of the entries are the same. -/
theorem Host.checkConfig_refuses_iff {h : Host (StateM Store)} (faithful : h.Faithful) {s : Store}
    (plain : s.Linkless) {c : PipelineConfig} (sized : c.resizeSize ≠ 0)
    {input intermediate output : Place} (first : s.Denotes c.input input)
    (second : s.Denotes c.intermediate intermediate) (third : s.Denotes c.output output) :
    ((∃ fault, (h.checkConfig c).run s = (.error fault, s)) ↔
        input = intermediate ∨ input = output ∨ intermediate = output) ∧
      (h.checkConfig c).run s
        = ((c.clash? input intermediate output).elim (.value ()) .error, s) := by
  have named : ∀ p ∈ c.paths, p.2.isEmpty = false := by
    simp only [PipelineConfig.paths, List.forall_mem_cons, List.not_mem_nil, false_implies,
      implies_true, and_true]
    exact ⟨first.isEmpty_eq_false, second.isEmpty_eq_false, third.isEmpty_eq_false⟩
  have run := faithful.run_checkConfig plain c
  rw [PipelineConfig.check_eq named sized, first.placeOf_eq plain, second.placeOf_eq plain,
    third.placeOf_eq plain] at run
  refine ⟨?_, run⟩
  rw [← PipelineConfig.exists_clash_iff (c := c), run]
  cases c.clash? input intermediate output with
  | none => constructor <;> rintro ⟨_, ⟨⟩⟩
  | some fault => exact ⟨fun _ => ⟨fault, rfl⟩, fun _ => ⟨fault, rfl⟩⟩

/-- A directory with another one in it, and paths from there: two of them denote one file that is
not there, and the third one another file. -/
theorem Host.checkConfig_refuses_iff_nested :
    let s : Store :=
      ⟨[(["work"], .directory), (["work", "sub"], .directory)], ["work", "sub"], []⟩
    let c : PipelineConfig := { PipelineConfig.standard with
      input := ⟨"../net.ckpt"⟩, intermediate := ⟨"/work/./sub/..//net.ckpt"⟩
      output := ⟨"net.ckpt"⟩ }
    s.Linkless ∧ c.resizeSize ≠ 0 ∧ s.Denotes c.input ["work", "net.ckpt"] ∧
      s.Denotes c.intermediate ["work", "net.ckpt"] ∧
      s.Denotes c.output ["work", "sub", "net.ckpt"] ∧
      (Store.host.checkConfig c).run s
        = (.error (.samePath .input .intermediate ⟨"../net.ckpt"⟩), s) := by
  intro s c
  have plain : s.Linkless := Store.linkless_of_nodes (by simp [s])
  have first : s.Denotes c.input ["work", "net.ckpt"] :=
    ⟨⟨["work"], .name "net.ckpt", false⟩, "net.ckpt", by decide +kernel, rfl, rfl⟩
  have second : s.Denotes c.intermediate ["work", "net.ckpt"] :=
    ⟨⟨["work"], .name "net.ckpt", false⟩, "net.ckpt", by decide +kernel, rfl, rfl⟩
  have third : s.Denotes c.output ["work", "sub", "net.ckpt"] :=
    ⟨⟨["work", "sub"], .name "net.ckpt", false⟩, "net.ckpt", by decide +kernel, rfl, rfl⟩
  have sized : c.resizeSize ≠ 0 := by decide
  exact ⟨plain, sized, first, second, third,
    (Host.checkConfig_refuses_iff Store.faithful_host plain sized first second third).2⟩

end FlatNet
