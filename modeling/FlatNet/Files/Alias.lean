import FlatNet.Files.Host

/-!
One place for all aliases of a file.

Two paths may name one file by different steps.  The place of a path is found through the
files where its directory exists, and by its steps alone where it does not.

* `Path.absolute`: the steps of a path from the root;
* `Host.entry?`: the place that steps name, if its directory exists;
* `Host.place`: the place of a path.
-/

namespace FlatNet

/-- The moves of a path from the root, seen from the current directory. -/
def Path.absolute (current : Place) (p : Path) : List PathStep :=
  if p.isAbsolute then p.moves else current.steps ++ p.moves

namespace Host

variable {m : Type → Type} [Monad m]

/-- The place that steps from the root name, if the last one goes to a name and the directory
before it exists. -/
def entry? (h : Host m) (steps : List PathStep) : m (Option Place) := do
  match steps.getLast? with
  | some (.name s) =>
    match ← h.canonical steps.dropLast with
    | .ok folder => return some (folder ++ [s])
    | .error _ => return none
  | _ => return none

/-- The place of a path.  The files decide what a step up from a link means, so the steps are
tried as they are before those that go up are cancelled. -/
def place (h : Host m) (p : Path) : m Place := do
  let steps := p.absolute (← h.current)
  match ← h.entry? steps with
  | some place => return place
  | none =>
    let plain := Place.walk [] steps
    match ← h.entry? plain.steps with
    | some place => return place
    | none => return plain

end Host

end FlatNet
