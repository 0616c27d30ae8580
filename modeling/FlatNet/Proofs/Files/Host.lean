import FlatNet.Files.Host
import FlatNet.Proofs.Files.Store
import FlatNet.Proofs.Outcome

/-!
Runs on a store.

A program that acts on a store is run from a store to an ending and a store; a sequence ends in
a value exactly when its parts do, one after the other.

* `Action.run_bind_eq_value_iff`, `Action.run_bind_of_value`: runs of sequences;
* `Store.run_read_of_ok`, `Store.run_write_eq_value_iff`: runs of single operations.
-/

namespace FlatNet

namespace Action

variable {ε α β : Type} {x : Action (StateM Store) ε α} {f : α → Action (StateM Store) ε β}
  {s s' : Store}

/-- How a sequence runs: what follows is run only after a value. -/
lemma run_bind_store : (x >>= f).run s =
    (match (x.run s).1 with
      | .value a => (f a).run
      | .error e => pure (.error e)
      | .fault => pure .fault : StateM Store (Outcome ε β)) (x.run s).2 := rfl

/-- A run goes on from the value and the store that its first part ends in. -/
lemma run_bind_of_value {a : α} (h : x.run s = (.value a, s')) :
    (x >>= f).run s = (f a).run s' := by
  rw [run_bind_store, h]

/-- A sequence ends in a value exactly when its parts do. -/
lemma run_bind_eq_value_iff {b : β} :
    (x >>= f).run s = (.value b, s') ↔
      ∃ a s₁, x.run s = (.value a, s₁) ∧ (f a).run s₁ = (.value b, s') := by
  constructor
  · intro h
    cases first : x.run s with
    | mk ending s₁ =>
      rw [run_bind_store, first] at h
      cases ending with
      | value a => exact ⟨a, s₁, rfl, h⟩
      | error e => cases h
      | fault => cases h
  · rintro ⟨a, s₁, first, rest⟩
    exact (run_bind_of_value first).trans rest

/-- A look at the machine that cannot be refused gives what is seen. -/
lemma run_lift_of_eq {y : StateM Store α} {a : α} (h : y s = (a, s')) :
    (lift y : Action (StateM Store) ε α).run s = (.value a, s') := by
  change (Outcome.value (y s).1, (y s).2) = (Outcome.value a, s')
  rw [h]

@[simp] lemma run_ofOutcome_store (x : Outcome ε α) :
    (ofOutcome x : Action (StateM Store) ε α).run s = (x, s) := rfl

end Action

namespace Store

variable {ε : Type} {s s' : Store} {path : Path} {bytes : Bytes} {describe : IoError → ε}

/-- A traversal that changes nothing at any entry changes nothing. -/
lemma mapM_of_unchanged {α β : Type} {f : α → StateM Store β} {g : α → β}
    (h : ∀ a, f a s = (g a, s)) (xs : List α) : xs.mapM f s = (xs.map g, s) := by
  induction xs with
  | nil => rfl
  | cons x xs ih =>
    rw [List.mapM_cons]
    simp only [bind, StateT.bind, h, ih]
    rfl

/-- A file that can be read is read, and the store stays as it is. -/
lemma run_read_of_ok (h : s.read path = .ok bytes) :
    (Action.attempt describe (host.read path)).run s = (.value bytes, s) := by
  have run : (Action.attempt describe (host.read path)).run s
      = ((Outcome.ofExcept (s.read path)).mapError describe, s) := rfl
  rw [run, h]
  rfl

/-- A file is written exactly if the write is not refused. -/
lemma run_write_eq_value_iff :
    (Action.attempt describe (host.write path bytes)).run s = (.value (), s') ↔
      s.write path bytes = .ok s' := by
  -- the store of the run is the written one, if there is one
  have run : (Action.attempt describe (host.write path bytes)).run s
      = ((Outcome.ofExcept (update (fun s => s.write path bytes) s).1).mapError describe,
        (update (fun s => s.write path bytes) s).2) := rfl
  rw [run, update]
  cases s.write path bytes with
  | ok written =>
    constructor
    · intro h
      cases h
      rfl
    · intro h
      cases h
      rfl
  | error e =>
    constructor
    · intro h
      cases h
    · intro h
      cases h

end Store

end FlatNet
