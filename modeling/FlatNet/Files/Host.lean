import FlatNet.Files.Store
import FlatNet.Outcome

/-!
What the program asks of the machine it runs on.

A host offers the operations on files that the program needs, and a clock.  A store is a host
whose clock stands still, so a program that takes any host can be run, and reasoned about, as
a function from stores to stores.

* `Host`: the operations;
* `Action`: computations on a machine that end in an outcome;
* `Store.host`: stores as hosts.
-/

namespace FlatNet

/-! ### Actions -/

/-- A computation on a machine that ends in an outcome. -/
def Action (m : Type → Type) (ε α : Type) : Type := m (Outcome ε α)

namespace Action

variable {m : Type → Type} {ε ε' α β : Type}

/-- The computation on the machine. -/
def run (x : Action m ε α) : m (Outcome ε α) := x

/-- The action of a computation on the machine. -/
def ofRun (x : m (Outcome ε α)) : Action m ε α := x

@[simp] theorem run_ofRun (x : m (Outcome ε α)) : (ofRun x).run = x := rfl

variable [Monad m]

/-- An action that does nothing. -/
def ofOutcome (x : Outcome ε α) : Action m ε α := ofRun (pure x)

/-- Continue from a value; an error or a fault is final. -/
def bind (x : Action m ε α) (f : α → Action m ε β) : Action m ε β :=
  ofRun do
    match ← x.run with
    | .value a => (f a).run
    | .error e => pure (.error e)
    | .fault => pure .fault

instance : Monad (Action m ε) where
  pure a := ofOutcome (.value a)
  bind := bind

/-- An action that is refused. -/
def refuse (e : ε) : Action m ε α := ofOutcome (.error e)

/-- An action of the machine that cannot be refused. -/
def lift (x : m α) : Action m ε α := ofRun do return .value (← x)

/-- An action of the machine, its error read as given. -/
def attempt (describe : ε' → ε) (x : m (Except ε' α)) : Action m ε α :=
  ofRun do return (Outcome.ofExcept (← x)).mapError describe

/-- Read the error differently. -/
def mapError (f : ε → ε') (x : Action m ε α) : Action m ε' α :=
  ofRun do return (← x.run).mapError f

/-- Act once more if an action does not end in a value. -/
def onFailure (x : Action m ε α) (last : m Unit) : Action m ε α :=
  ofRun do
    match ← x.run with
    | .value a => pure (.value a)
    | .error e => last; pure (.error e)
    | .fault => last; pure .fault

/-! ### Runs -/

@[simp] theorem run_ofOutcome (x : Outcome ε α) :
    (ofOutcome x : Action m ε α).run = pure x := rfl

@[simp] theorem run_pure (a : α) : (pure a : Action m ε α).run = pure (.value a) := rfl

@[simp] theorem run_refuse (e : ε) : (refuse e : Action m ε α).run = pure (.error e) := rfl

/-- A run goes on after a value only. -/
theorem run_bind (x : Action m ε α) (f : α → Action m ε β) :
    (x >>= f).run = x.run >>= fun ending =>
      match ending with
      | .value a => (f a).run
      | .error e => pure (.error e)
      | .fault => pure .fault := rfl

end Action

/-! ### Hosts -/

/-- The operations of a machine. -/
structure Host (m : Type → Type) where
  /-- The contents of a file. -/
  read : Path → m (Except IoError Bytes)
  /-- Write a file, and make it if there is none. -/
  write : Path → Bytes → m (Except IoError Unit)
  /-- Remove a file. -/
  remove : Path → m (Except IoError Unit)
  /-- Whether a path leads to anything. -/
  holds : Path → m Bool
  /-- Write a file aside, in the directory of the path that it is meant for. -/
  stage : Path → Bytes → m (Except IoError Place)
  /-- Put a staged file in place of whatever is there. -/
  replace : Place → Path → m (Except IoError Unit)
  /-- Put a staged file in place if nothing is there. -/
  add : Place → Path → m (Except IoError Unit)
  /-- Remove a staged file. -/
  discard : Place → m Unit
  /-- The current directory. -/
  current : m Place
  /-- The place that steps from the root lead to. -/
  canonical : List PathStep → m (Except IoError Place)
  /-- The time in microseconds since some moment. -/
  clock : m Nat

namespace Store

/-- An operation that changes a store unless it is refused. -/
def update (f : Store → Except IoError Store) : StateM Store (Except IoError Unit) := fun s =>
  match f s with
  | .ok s' => (.ok (), s')
  | .error e => (.error e, s)

/-- An operation that looks at a store. -/
def inspect {α : Type} (f : Store → α) : StateM Store α := fun s => (f s, s)

/-- A store as a host. -/
def host : Host (StateM Store) where
  read p := inspect fun s => s.read p
  write p bytes := update fun s => s.write p bytes
  remove p := update fun s => s.remove p
  holds p := inspect fun s => s.holds p
  stage p bytes := fun s =>
    match s.stage p bytes with
    | .ok (s', place) => (.ok place, s')
    | .error e => (.error e, s)
  replace staged p := update fun s => s.replace staged p
  add staged p := update fun s => s.add staged p
  discard staged := fun s => ((), s.erase staged)
  current := inspect (·.current)
  canonical steps := inspect fun s => s.canonical steps
  clock := inspect fun _ => 0

end Store

end FlatNet
