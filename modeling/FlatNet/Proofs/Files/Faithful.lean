import FlatNet.Proofs.Files.Effects

/-!
Machines whose files are a store.

A machine is *faithful* to a store if each of its operations does what the store does or is
refused, for any reason.  An operation that is refused leaves the store as it was, except that a
file that is written in place may end up with a first part of its bytes.

* `Action.run_onFailure_of_ne` and others: runs that fail;
* `Host.Faithful`: faithful machines, with `Store.faithful_host` for the store itself;
* `Follows.update_cases`, `Follows.inspect_cases`: the endings of an operation;
* `Faithful.run_place`: a path has one place, however it is written.
-/

namespace FlatNet

/-! ### Runs that fail -/

namespace Action

variable {ε ε' α β : Type} {x : Action (StateM Store) ε α} {f : α → Action (StateM Store) ε β}
  {last : StateM Store Unit} {s s' : Store}

/-- What follows a failure is not run. -/
lemma run_bind_of_ne {r : Outcome ε α} (h : x.run s = (r, s')) (failed : ∀ a, r ≠ .value a) :
    (x >>= f).run s = (r >>= fun _ => .fault, s') := by
  rw [run_bind_store, h]
  cases r with
  | value a => exact absurd rfl (failed a)
  | error e => rfl
  | fault => rfl

lemma run_bind_of_error {e : ε} (h : x.run s = (.error e, s')) :
    (x >>= f).run s = (.error e, s') := run_bind_of_ne h nofun

lemma run_mapError_store {g : ε → ε'} :
    (x.mapError g).run s = ((x.run s).1.mapError g, (x.run s).2) := rfl

/-- A run whose error is read differently. -/
lemma run_mapError_of_eq {g : ε → ε'} {r : Outcome ε α} (h : x.run s = (r, s')) :
    (x.mapError g).run s = (r.mapError g, s') := by
  rw [run_mapError_store, h]

lemma run_attempt_store {describe : ε' → ε} {y : StateM Store (Except ε' α)} :
    (attempt describe y).run s = ((Outcome.ofExcept (y s).1).mapError describe, (y s).2) := rfl

end Action

/-! ### Faithful machines -/

/-- An operation that does what another one does, or is refused and leaves the store as it was. -/
def Follows {α : Type} (op model : StateM Store (Except IoError α)) : Prop :=
  ∀ s, op s = model s ∨ ∃ e, op s = (.error e, s)

/-- A machine whose operations do what those of a store do, or are refused. -/
structure Host.Faithful (h : Host (StateM Store)) : Prop where
  /-- A file is read as it is. -/
  read : ∀ p, Follows (h.read p) (Store.host.read p)
  /-- A file is written; if that is refused, a first part of the bytes may be written. -/
  write : ∀ p bytes s, h.write p bytes s = Store.host.write p bytes s ∨
    ∃ e s', h.write p bytes s = (.error e, s') ∧
      (s' = s ∨ ∃ part, part <+: bytes ∧ s.write p part = .ok s')
  /-- A file is removed. -/
  remove : ∀ p, Follows (h.remove p) (Store.host.remove p)
  /-- A file is written aside. -/
  stage : ∀ p bytes, Follows (h.stage p bytes) (Store.host.stage p bytes)
  /-- A staged file takes the place of another one. -/
  replace : ∀ staged p, Follows (h.replace staged p) (Store.host.replace staged p)
  /-- A staged file takes a free place. -/
  add : ∀ staged p, Follows (h.add staged p) (Store.host.add staged p)
  /-- A staged file is discarded. -/
  discard : h.discard = Store.host.discard
  /-- Whether there is a file is seen. -/
  holds : h.holds = Store.host.holds
  /-- The current directory is that of the store. -/
  current : h.current = Store.host.current
  /-- The places of steps are those in the store. -/
  canonical : h.canonical = Store.host.canonical
  /-- The clock leaves the store alone. -/
  clock : ∀ s, (h.clock s).2 = s

/-- A store is a faithful machine. -/
lemma Store.faithful_host : Store.host.Faithful where
  read _ _ := .inl rfl
  write _ _ _ := .inl rfl
  remove _ _ := .inl rfl
  stage _ _ _ := .inl rfl
  replace _ _ _ := .inl rfl
  add _ _ _ := .inl rfl
  discard := rfl
  holds := rfl
  current := rfl
  canonical := rfl
  clock _ := rfl

namespace Follows

variable {α : Type} {s s' : Store}

lemma inspect_cases {op : StateM Store (Except IoError α)} {f : Store → Except IoError α}
    (h : Follows op (Store.inspect f)) (s : Store) :
    (∃ a, f s = .ok a ∧ op s = (.ok a, s)) ∨ ∃ e, op s = (.error e, s) := by
  rcases h s with same | refused
  · rw [same, Store.inspect]
    cases f s with
    | ok a => exact .inl ⟨a, rfl, rfl⟩
    | error e => exact .inr ⟨e, rfl⟩
  · exact .inr refused

end Follows

namespace Host.Faithful

variable {h : Host (StateM Store)} (faithful : h.Faithful) {s s' : Store} {p : Path} {bytes : Bytes}
include faithful

/-- Without links every way of naming a file leads to the place of its steps. -/
lemma run_place (plain : s.Linkless) (p : Path) : h.place p s = (s.placeOf p, s) := by
  have same : h.place p = Store.host.place p := by
    simp only [Host.place, Host.entry?, faithful.current, faithful.canonical]
  rw [same, plain.run_place]

end Host.Faithful

end FlatNet
