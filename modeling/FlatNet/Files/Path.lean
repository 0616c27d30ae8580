/-!
Paths.

A path is kept as it was written.  It names a file by steps: stay, go up, or go to a name; a
path that starts with a separator starts at the root.

* `Path`: a path and its text;
* `Path.steps`, `Path.moves`: its steps, with and without those that stay;
* `Path.parent?`, `Path.ancestors`, `Path.folder`: the paths of the directories that it names;
* `Place`, `PathStep.goto`, `Place.walk`: places by their names from the root, and steps
  between them.
-/

namespace FlatNet

/-- A path, as it was written. -/
structure Path where
  /-- The text. -/
  text : String
  deriving DecidableEq, Repr, Inhabited

/-- A step of a path. -/
inductive PathStep where
  /-- Stay. -/
  | here
  /-- Go to the directory above. -/
  | up
  /-- Go to a name in this directory. -/
  | name (s : String)
  deriving DecidableEq, Repr, Inhabited

/-- A place in a tree of files: the names on the way from the root. -/
abbrev Place := List String

namespace PathStep

/-- The step that a piece of a path stands for; the empty piece stands for none. -/
def ofPiece? (piece : List Char) : Option PathStep :=
  if piece = [] then none
  else if piece = ['.'] then some here
  else if piece = ['.', '.'] then some up
  else some (name (String.ofList piece))

/-- The text of a step. -/
def text : PathStep → String
  | here => "."
  | up => ".."
  | name s => s

/-- The place after a step; there is nothing above the root. -/
def goto (place : Place) : PathStep → Place
  | here => place
  | up => place.dropLast
  | name s => place ++ [s]

@[simp] theorem goto_here (place : Place) : here.goto place = place := rfl

@[simp] theorem goto_up (place : Place) : up.goto place = place.dropLast := rfl

@[simp] theorem goto_name (place : Place) (s : String) : (name s).goto place = place ++ [s] := rfl

end PathStep

/-- The place after steps, every one of them taken without a look at the files. -/
def Place.walk (place : Place) (steps : List PathStep) : Place := steps.foldl PathStep.goto place

/-- The steps from the root to a place. -/
def Place.steps (place : Place) : List PathStep := place.map .name

/-- The steps to a place lead there. -/
theorem Place.walk_steps (start place : Place) : start.walk place.steps = start ++ place := by
  induction place generalizing start with
  | nil => simp [Place.walk, Place.steps]
  | cons s rest ih =>
    have next := ih (start ++ [s])
    simp only [Place.walk, Place.steps] at next
    simp [Place.walk, Place.steps, next]

namespace Path

/-- The pieces between separators. -/
def pieces : List Char → List (List Char)
  | [] => [[]]
  | c :: rest =>
    if c = '/' then [] :: pieces rest
    else
      match pieces rest with
      | [] => [[c]]
      | piece :: others => (c :: piece) :: others

/-- The steps of a path. -/
def steps (p : Path) : List PathStep := (pieces p.text.toList).filterMap PathStep.ofPiece?

/-- The steps that move. -/
def moves (p : Path) : List PathStep := p.steps.filter (· ≠ .here)

/-- Whether a path starts at the root. -/
def isAbsolute (p : Path) : Bool := p.text.toList.head? = some '/'

/-- Whether a path ends in a separator, and so asks for a directory. -/
def endsInSeparator (p : Path) : Bool := p.text.toList.getLast? = some '/'

/-- Whether a path is empty. -/
def isEmpty (p : Path) : Bool := p.text.isEmpty

/-- Whether a path has the character that no name has. -/
def hasNul (p : Path) : Bool := p.text.toList.contains '\x00'

/-- The path that leads from the root by steps. -/
def ofSteps (steps : List PathStep) : Path :=
  ⟨"/" ++ "/".intercalate (steps.map PathStep.text)⟩

/-! ### Directories of a path -/

/-- Whether a piece that follows another one adds nothing to it. -/
def isVoid (piece : List Char) : Bool := piece = [] || piece = ['.']

/-- Pieces without those at the end that add nothing. -/
def trimPieces (pieces : List (List Char)) : List (List Char) :=
  (pieces.reverse.dropWhile isVoid).reverse

/-- The path of pieces. -/
def ofPieces (pieces : List (List Char)) : Path := ⟨String.ofList (['/'].intercalate pieces)⟩

/-- A path without its last name.  It is the first part of the path as it was written; the root
and the empty path have none. -/
def parent? (p : Path) : Option Path :=
  match pieces p.text.toList with
  | [] => none
  | first :: rest =>
    match trimPieces rest with
    | [] => if first = [] then none else some ⟨""⟩
    | named =>
      match first, trimPieces named.dropLast with
      | [], [] => some ⟨"/"⟩
      | first, others => some (ofPieces (first :: others))

/-- A path and the paths above it, up to `fuel` of them. -/
def ancestorsWith : Nat → Path → List Path
  | 0, _ => []
  | fuel + 1, p =>
    match p.parent? with
    | none => []
    | some parent => p :: ancestorsWith fuel parent

/-- A path and the paths above it, the longest one first; neither the root nor the empty path is
one of them. -/
def ancestors (p : Path) : List Path := ancestorsWith (pieces p.text.toList).length p

/-- The path of the directory that a path names a file in, which is the current one if it does
not say. -/
def folder (p : Path) : Path :=
  match p.parent? with
  | none => ⟨"."⟩
  | some parent => if parent.isEmpty then ⟨"."⟩ else parent

end Path

end FlatNet
