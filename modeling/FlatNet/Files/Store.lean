import FlatNet.Bytes
import FlatNet.Files.Path

/-!
Trees of files.

A store holds files, directories and links by their places; the root is always a directory.  A
file may have several names, all of which show what is written through one of them.
Operations take paths as a file system does: step by step, through directories and links, up
to forty links on a way.  Paths and names have limits; the last name of a path counts only where
it is looked up.

* `Store`, `Store.get?`, `Store.listing`: stores and what they hold;
* `Store.put`, `Store.erase`, `Store.fill`: changes of a place, and of a file under all its names;
* `IoError`: why an operation on files is refused;
* `Store.advance`, `Store.walk`: the way of a path through a store;
* `Store.read`, `Store.write`, `Store.remove`, `Store.holds`: operations on files;
* `Store.stage`, `Store.replace`, `Store.add`: a file written aside and then put in place;
* `Store.makeDirectories`, `Store.makeLink`: further contents.
-/

namespace FlatNet

/-! ### Errors -/

/-- Why an operation on files is refused. -/
inductive IoError where
  /-- There is nothing at a place. -/
  | notFound
  /-- A directory is asked for, and there is something else. -/
  | notADirectory
  /-- A file is asked for, and there is a directory. -/
  | isADirectory
  /-- There is something already. -/
  | alreadyExists
  /-- The way has too many links. -/
  | filesystemLoop
  /-- The place is in use. -/
  | resourceBusy
  /-- A name is too long. -/
  | invalidFilename
  /-- A path has a character that no path has. -/
  | invalidInput
  /-- The bytes of a file are no text. -/
  | invalidData
  /-- Another error, by its number. -/
  | other (code : Nat)
  deriving DecidableEq, Repr, Inhabited

namespace IoError

/-- The number of an error that has one. -/
def code? : IoError → Option Nat
  | notFound => some 2
  | resourceBusy => some 16
  | alreadyExists => some 17
  | notADirectory => some 20
  | isADirectory => some 21
  | invalidFilename => some 36
  | filesystemLoop => some 40
  | invalidInput => none
  | invalidData => none
  | other code => some code

/-- The error of a number. -/
def ofCode (code : Nat) : IoError :=
  match code with
  | 2 => notFound
  | 16 => resourceBusy
  | 17 => alreadyExists
  | 20 => notADirectory
  | 21 => isADirectory
  | 36 => invalidFilename
  | 40 => filesystemLoop
  | code => other code

/-- The wording of an error. -/
def message : IoError → String
  | invalidInput => "file name contained an unexpected NUL byte"
  | invalidData => "stream did not contain valid UTF-8"
  | e => s!"os error {(e.code?).getD 0}"

end IoError

/-! ### Contents -/

/-- What a place may hold. -/
inductive Node where
  /-- A file with its contents. -/
  | file (bytes : Bytes)
  /-- A directory. -/
  | directory
  /-- A link to another path. -/
  | link (target : Path)
  deriving DecidableEq, Repr, Inhabited

/-- What a place holds once its file has other contents. -/
def Node.refill (bytes : Bytes) : Node → Node
  | file _ => file bytes
  | node => node

/-- Files, directories and links by their places, and the current directory. -/
structure Store where
  /-- What the places below the root hold. -/
  nodes : List (Place × Node)
  /-- The current directory. -/
  current : Place
  /-- Numbers of the files that have several names: places with one number name one file. -/
  numbers : List (Place × Nat)
  deriving Repr, Inhabited

namespace Store

/-- A store that holds nothing but its current directory. -/
def empty (current : Place) : Store :=
  ⟨(List.range current.length).map fun i => (current.take (i + 1), .directory), current, []⟩

/-- What a place holds. -/
def get? (s : Store) (place : Place) : Option Node :=
  if place = [] then some .directory else s.nodes.lookup place

/-- Let a place hold something new; the file that it named keeps its other names. -/
def put (s : Store) (place : Place) (node : Node) : Store :=
  { s with
    nodes := (place, node) :: s.nodes.filter (·.1 != place)
    numbers := s.numbers.filter (·.1 != place) }

/-- Let a place hold nothing; the file that it named keeps its other names. -/
def erase (s : Store) (place : Place) : Store :=
  { s with
    nodes := s.nodes.filter (·.1 != place)
    numbers := s.numbers.filter (·.1 != place) }

/-- Whether two places name one file. -/
def shares (s : Store) (place other : Place) : Bool :=
  place = other ||
    (s.numbers.lookup place).isSome && s.numbers.lookup place = s.numbers.lookup other

/-- Write the file at a place, or make it; what is written shows under all names of the file. -/
def fill (s : Store) (place : Place) (bytes : Bytes) : Store :=
  { s with nodes := (place, .file bytes) :: (s.nodes.filter (·.1 != place)).map fun p =>
      (p.1, if s.shares place p.1 then p.2.refill bytes else p.2) }

/-- The root is a directory. -/
@[simp] theorem get?_root (s : Store) : s.get? [] = some .directory := rfl

/-- Leaving a place out changes what that place holds and nothing else. -/
theorem lookup_filter_ne (place other : Place) (nodes : List (Place × Node)) :
    (nodes.filter (·.1 != place)).lookup other
      = if other = place then none else nodes.lookup other := by
  induction nodes with
  | nil => simp
  | cons node rest ih =>
    obtain ⟨p, n⟩ := node
    by_cases same : p = place
    · subst same
      rw [List.filter_cons_of_neg (by simp), ih]
      by_cases h : other = p
      · simp [h]
      · have differs : (other == p) = false := by simpa using h
        simp [List.lookup_cons, h, differs]
    · rw [List.filter_cons_of_pos (by simp [same])]
      by_cases h : other = p
      · subst h
        simp [same]
      · have differs : (other == p) = false := by simpa using h
        simp only [List.lookup_cons, differs]
        exact ih

/-- What a list holds at a place once every entry has been changed. -/
theorem lookup_map (change : Place → Node → Node) (place : Place) (nodes : List (Place × Node)) :
    (nodes.map fun p => (p.1, change p.1 p.2)).lookup place
      = (nodes.lookup place).map (change place) := by
  induction nodes with
  | nil => rfl
  | cons node rest ih =>
    obtain ⟨p, n⟩ := node
    by_cases h : place = p
    · simp [h]
    · have differs : (place == p) = false := by simpa using h
      simp only [List.map_cons, List.lookup_cons, differs]
      exact ih

/-- A place holds what was written there. -/
theorem get?_fill_self (s : Store) {place : Place} (h : place ≠ []) (bytes : Bytes) :
    (s.fill place bytes).get? place = some (.file bytes) := by
  simp [get?, fill, h]

/-- Another place holds what it held, unless it is a name of the file that was written. -/
theorem get?_fill_of_ne (s : Store) {place other : Place} (h : other ≠ place) (bytes : Bytes) :
    (s.fill place bytes).get? other
      = if s.shares place other then (s.get? other).map (·.refill bytes) else s.get? other := by
  have differs : (other == place) = false := by simp [h]
  by_cases root : other = []
  · simp [get?, root, Node.refill]
  · have changed := lookup_map (fun q n => if s.shares place q then n.refill bytes else n) other
      (s.nodes.filter (·.1 != place))
    simp only [get?, fill, root, if_false, List.lookup_cons, differs, changed, lookup_filter_ne, h]
    split <;> simp

/-- What is written under one name of a file shows under the other. -/
example : ((⟨[(["a"], .file [1]), (["b"], .file [1])], [], [(["a"], 7), (["b"], 7)]⟩ : Store).fill
    ["a"] [2, 3]).get? ["b"] = some (.file [2, 3]) := by decide

/-- The places below a directory and what they hold, a directory before its contents and
names in ascending order. -/
def below (s : Store) (folder : Place) : List (Place × Node) :=
  (s.nodes.filter fun p => folder.isPrefixOf p.1 && p.1 != folder).mergeSort fun p q =>
    decide (¬ q.1 < p.1)

/-- The line of a place in a listing: its name, and the size of a file or a mark. -/
def nodeLine (name : String) : Node → String
  | .file bytes => s!"{name}:{bytes.length}"
  | .directory => name ++ "/"
  | .link _ => name ++ "@"

/-- What lies below the current directory, a line each. -/
def listing (s : Store) : List String :=
  (s.below s.current).map fun p =>
    nodeLine ("/".intercalate (p.1.drop s.current.length)) p.2

/-! ### Ways -/

/-- How far a way leads without a link. -/
inductive Stop where
  /-- To a directory from which one step is left. -/
  | ending (folder : Place) (last : PathStep)
  /-- To a link in a directory, from whose target the rest of the way goes on. -/
  | link (folder : Place) (target : Path) (rest : List PathStep)

/-- Where a way ends: one step away from a directory. -/
structure Ending where
  /-- The directory. -/
  folder : Place
  /-- The last step. -/
  last : PathStep
  /-- Whether a separator follows the last step. -/
  separator : Bool
  deriving DecidableEq, Repr

/-- The place of an ending. -/
def Ending.place (e : Ending) : Place := e.last.goto e.folder

/-- Check that steps can be taken from a place. -/
def requireFolder (s : Store) (place : Place) : Except IoError Unit :=
  match s.get? place with
  | some .directory => .ok ()
  | some _ => .error .notADirectory
  | none => .error .notFound

/-- Check the name of a step; names have at most 255 bytes. -/
def requireName : PathStep → Except IoError Unit
  | .name s => if s.utf8ByteSize ≤ 255 then .ok () else .error .invalidFilename
  | _ => .ok ()

/-- Whether the last step of a way is looked up, and followed if it is a link. -/
inductive Lookup where
  /-- It is only named. -/
  | never
  /-- It is. -/
  | always
  /-- It is, unless a separator follows it. -/
  | unlessSeparated
  deriving DecidableEq, Repr

/-- Whether the last step is looked up, for whether a separator follows it. -/
def Lookup.applies : Lookup → Bool → Bool
  | never, _ => false
  | always, _ => true
  | unlessSeparated, separator => !separator

/-- Go as far as there is no link. -/
def advance (s : Store) (looksLast : Bool) (place : Place) : List PathStep → Except IoError Stop
  | [] => .ok (.ending place .here)
  | step :: rest => do
    s.requireFolder place
    if rest.isEmpty && !looksLast then return .ending place step
    else
      requireName step
      match s.get? (step.goto place), rest with
      | some (.link target), _ => return .link place target rest
      | _, [] => return .ending place step
      | _, _ => s.advance looksLast (step.goto place) rest

/-- Where a path starts, seen from a directory. -/
def startOf (folder : Place) (p : Path) : Place := if p.isAbsolute then [] else folder

/-- The end of a way that may pass `links` links. -/
def walk (s : Store) (lookup : Lookup) (links : Nat) (place : Place) (steps : List PathStep)
    (separator : Bool) : Except IoError Ending :=
  match s.advance (lookup.applies separator) place steps with
  | .error e => .error e
  | .ok (.ending folder last) => .ok ⟨folder, last, separator⟩
  | .ok (.link folder target rest) =>
    match links with
    | 0 => .error .filesystemLoop
    | links + 1 =>
      s.walk lookup links (startOf folder target) (target.steps ++ rest)
        (separator || rest.isEmpty && target.endsInSeparator)

/-- The number of links a way may pass. -/
def linkLimit : Nat := 40

/-- The number of bytes that paths stay below. -/
def pathLimit : Nat := 4096

/-- Check a path by itself. -/
def requirePath (p : Path) : Except IoError Unit :=
  if p.hasNul then .error .invalidInput
  else if p.isEmpty then .error .notFound
  else if p.text.utf8ByteSize < pathLimit then .ok ()
  else .error .invalidFilename

/-- The end of the way of a path. -/
def walkPath (s : Store) (lookup : Lookup) (p : Path) : Except IoError Ending := do
  requirePath p
  s.walk lookup linkLimit (startOf s.current p) p.steps p.endsInSeparator

/-- The place that an ending names, and what it holds.  Steps that are no names are refused as
given. -/
def entry (s : Store) (refusal : IoError) (e : Ending) : Except IoError (Place × Option Node) := do
  match e.last with
  | .name name =>
    requireName (.name name)
    return (e.place, s.get? e.place)
  | _ => .error refusal

/-- The place that an ending leads to, and what it holds. -/
def resolve (s : Store) (e : Ending) : Except IoError (Place × Node) :=
  match s.get? e.place with
  | none => .error .notFound
  | some (.file bytes) => if e.separator then .error .notADirectory else .ok (e.place, .file bytes)
  | some node => .ok (e.place, node)

/-- The place that a path leads to, and what it holds. -/
def locate (s : Store) (p : Path) : Except IoError (Place × Node) := do
  s.resolve (← s.walkPath .always p)

/-- The place that steps from the root lead to. -/
def canonical (s : Store) (steps : List PathStep) : Except IoError Place := do
  return (← s.resolve (← s.walk .always linkLimit [] steps false)).1

/-! ### Files -/

/-- Whether a path leads to anything. -/
def holds (s : Store) (p : Path) : Bool := (s.locate p).isOk

/-- The contents of a file. -/
def read (s : Store) (p : Path) : Except IoError Bytes := do
  match ← s.locate p with
  | (_, .file bytes) => return bytes
  | (_, .directory) => .error .isADirectory
  | (_, .link _) => .error .filesystemLoop

/-- Write a file, and make it if there is none. -/
def write (s : Store) (p : Path) (bytes : Bytes) : Except IoError Store := do
  let e ← s.walkPath .unlessSeparated p
  match e.last, s.get? e.place with
  | .name _, some .directory => .error .isADirectory
  | .name _, _ =>
    if e.separator then .error .isADirectory else return s.fill e.place bytes
  | _, _ => .error .isADirectory

/-- Remove a file or a link. -/
def remove (s : Store) (p : Path) : Except IoError Store := do
  let e ← s.walkPath .never p
  match ← s.entry .isADirectory e with
  | (_, none) => .error .notFound
  | (_, some .directory) => .error .isADirectory
  | (place, some _) => if e.separator then .error .notADirectory else return s.erase place

/-! ### Staged files -/

/-- A name that is longer than every name in use. -/
def freshName (s : Store) : String :=
  let used := s.nodes.map (·.1) ++ s.numbers.map (·.1)
  let longest := used.foldl (fun n p => max n ((p.getLast?.getD "").length)) 0
  ".tmp" ++ String.ofList (List.replicate longest 'x')

/-- The number of bytes that the name of a staged file counts for in its path. -/
def freshNameSize : Nat := 10

/-- The number of bytes of the path from the root of a file with a fresh name. -/
def freshPathSize (s : Store) (folder : Path) : Nat :=
  let above := if folder.isAbsolute then 0 else (Path.ofSteps s.current.steps).text.utf8ByteSize + 1
  above + folder.text.utf8ByteSize + 1 + freshNameSize

/-- The directory that a path names a file in. -/
def folderOf (s : Store) (p : Path) : Except IoError Place := do
  let folder := p.folder
  if folder.hasNul then .error .invalidInput
  else if pathLimit ≤ s.freshPathSize folder then .error .invalidFilename
  else
    let e ← s.walk .always linkLimit (startOf s.current folder) folder.steps false
    let (place, _) ← s.resolve e
    s.requireFolder place
    return place

/-- Write a file aside, in the directory of the path that it is meant for. -/
def stage (s : Store) (p : Path) (bytes : Bytes) : Except IoError (Store × Place) := do
  let place := (← s.folderOf p) ++ [s.freshName]
  return (s.put place (.file bytes), place)

/-- Move what a place holds to another place. -/
def move (s : Store) (source target : Place) : Except IoError Store :=
  match s.get? source with
  | some node => .ok ((s.erase source).put target node)
  | none => .error .notFound

/-- Put a staged file in place of whatever file or link is there. -/
def replace (s : Store) (staged : Place) (p : Path) : Except IoError Store := do
  let e ← s.walkPath .never p
  let (place, node) ← s.entry .resourceBusy e
  if e.separator then .error .notADirectory
  else if node = some .directory then .error .isADirectory
  else s.move staged place

/-- Put a staged file in place if nothing is there. -/
def add (s : Store) (staged : Place) (p : Path) : Except IoError Store := do
  let e ← s.walkPath .never p
  match ← s.entry .alreadyExists e with
  | (place, none) => if e.separator then .error .notADirectory else s.move staged place
  | _ => .error .alreadyExists

/-! ### Directories and links -/

/-- Make a directory where nothing is. -/
def makeDirectory (s : Store) (p : Path) : Except IoError Store := do
  match ← s.entry .alreadyExists (← s.walkPath .never p) with
  | (place, none) => return s.put place .directory
  | _ => .error .alreadyExists

/-- Whether a path leads to a directory. -/
def isDirectory (s : Store) (p : Path) : Bool :=
  match s.locate p with
  | .ok (_, .directory) => true
  | _ => false

/-- Make a directory unless it is there. -/
def ensureDirectory (s : Store) (p : Path) : Except IoError Store :=
  match s.makeDirectory p with
  | .error .alreadyExists => if s.isDirectory p then .ok s else .error .alreadyExists
  | result => result

/-- Make the first directory of a list, and those after it first where that cannot be done
without them.  What is made stays even if the rest is refused. -/
def ensureDirectories (s : Store) : List Path → Except IoError Unit × Store
  | [] => (.ok (), s)
  | p :: above =>
    match s.ensureDirectory p with
    | .ok made => (.ok (), made)
    | .error .notFound =>
      match s.ensureDirectories above with
      | (.ok (), parent) =>
        match parent.ensureDirectory p with
        | .ok made => (.ok (), made)
        | .error e => (.error e, parent)
      | refused => refused
    | .error e => (.error e, s)

/-- Make the directory of a path and those above it. -/
def makeDirectories (s : Store) (p : Path) : Except IoError Unit × Store :=
  s.ensureDirectories p.ancestors

/-- Make a link. -/
def makeLink (s : Store) (target p : Path) : Except IoError Store := do
  if p.hasNul then .error .invalidInput
  else
    requirePath target
    let e ← s.walkPath .never p
    match ← s.entry .alreadyExists e with
    | (place, none) => if e.separator then .error .notFound else return s.put place (.link target)
    | _ => .error .alreadyExists

end Store

end FlatNet
