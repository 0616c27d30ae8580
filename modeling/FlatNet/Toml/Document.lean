import FlatNet.Toml.Grammar

/-!
The tables of TOML text.

Statements fill a tree of tables.  A table is opened at most once by a header, and dotted keys
only extend tables that dotted keys have made; a table that a longer header has passed
through may still be opened.

* `Toml.Value`: the values of a text;
* `Toml.Entry`: tables under construction;
* `Toml.descend`: the change of a table at the end of a path;
* `Toml.parse?`: the members of the outermost table of a text.
-/

namespace FlatNet.Toml

/-! ### Values -/

/-- A value. -/
inductive Value where
  /-- A string. -/
  | text (s : String)
  /-- A number. -/
  | number (n : Numeral)
  /-- A truth value. -/
  | flag (b : Bool)
  /-- A date, a time, or both. -/
  | moment
  /-- An array. -/
  | array (items : List Value)
  /-- A table with its members. -/
  | table (members : List (String × Value))
  deriving Repr, Inhabited

/-- How a table came to be. -/
inductive Origin where
  /-- Opened by a header. -/
  | opened
  /-- Passed through by a longer header. -/
  | passed
  /-- Made by dotted keys. -/
  | dotted
  deriving DecidableEq, Repr

/-- A member of a table under construction. -/
inductive Entry where
  /-- A finished value. -/
  | value (v : Value)
  /-- A table. -/
  | table (origin : Origin) (members : List (String × Entry))
  /-- An array of tables. -/
  | items (tables : List (List (String × Entry)))
  deriving Repr, Inhabited

/-- The members of a table under construction, in the order of their first mention. -/
abbrev Members := List (String × Entry)

/-! ### Changes -/

/-- Replace the member of a key. -/
def replaceKey (key : String) (e : Entry) (members : Members) : Members :=
  members.map fun p => if p.1 = key then (key, e) else p

/-- Change the table at the end of a path.  Missing tables are made; on the way of dotted keys
no table that a header has opened may stand. -/
def descend (dotted : Bool) (change : Origin → Members → Option Members) (origin : Origin)
    (members : Members) : List String → Option Members
  | [] => change origin members
  | key :: rest =>
    match members.lookup key with
    | none => do
      let made := if dotted then Origin.dotted else .passed
      return members ++ [(key, .table made (← descend dotted change made [] rest))]
    | some (.value _) => none
    | some (.table found inner) =>
      if dotted ∧ found = .opened then none
      else do
        return replaceKey key (.table found (← descend dotted change found inner rest)) members
    | some (.items tables) =>
      match tables.getLast? with
      | none => none
      | some inner => do
        let changed ← descend dotted change .opened inner rest
        return replaceKey key (.items (tables.dropLast ++ [changed])) members

/-- Add a member that is not there. -/
def insertNew (key : String) (e : Entry) (members : Members) : Option Members :=
  match members.lookup key with
  | none => some (members ++ [(key, e)])
  | some _ => none

/-- Assign a value to keys of a table. -/
def assign (path : List String) (v : Value) (origin : Origin) (members : Members) :
    Option Members :=
  match path.getLast? with
  | none => none
  | some key =>
    let add (found : Origin) (inner : Members) : Option Members :=
      if path.length = 1 ∨ found = .dotted then insertNew key (.value v) inner else none
    descend true add origin members path.dropLast

/-- Open the table of a key. -/
def openTable (key : String) (members : Members) : Option Members :=
  match members.lookup key with
  | none => some (members ++ [(key, .table .opened [])])
  | some (.table .passed inner) =>
    some (replaceKey key (.table .opened inner) members)
  | some _ => none

/-- Add an item to the array of tables of a key. -/
def addItem (key : String) (members : Members) : Option Members :=
  match members.lookup key with
  | none => some (members ++ [(key, .items [[]])])
  | some (.items tables) => some (replaceKey key (.items (tables ++ [[]])) members)
  | some _ => none

/-- Change the table that holds the last key of a path. -/
def atParent (change : String → Members → Option Members) (members : Members)
    (path : List String) : Option Members :=
  match path.getLast? with
  | none => none
  | some key => descend false (fun _ => change key) .opened members path.dropLast

/-! ### Finished values -/

mutual

/-- The value of a finished member. -/
def Entry.finish : Entry → Value
  | .value v => v
  | .table _ members => .table (memberValues members)
  | .items tables => .array (itemValues tables)

/-- The values of finished members. -/
def memberValues : List (String × Entry) → List (String × Value)
  | [] => []
  | (key, e) :: rest => (key, e.finish) :: memberValues rest

/-- The values of finished items. -/
def itemValues : List (List (String × Entry)) → List Value
  | [] => []
  | members :: rest => .table (memberValues members) :: itemValues rest

end

mutual

/-- The value that was written. -/
def Tree.value? : Tree → Option Value
  | .text s => some (.text s)
  | .number n => some (.number n)
  | .flag b => some (.flag b)
  | .moment => some .moment
  | .array items => do return .array (← arrayValues? items)
  | .table pairs => do return .table (memberValues (← pairMembers? [] pairs))

/-- The values of items. -/
def arrayValues? : List Tree → Option (List Value)
  | [] => some []
  | t :: rest => do return (← t.value?) :: (← arrayValues? rest)

/-- The members that pairs add. -/
def pairMembers? (members : Members) : List (List String × Tree) → Option Members
  | [] => some members
  | (path, t) :: rest => do pairMembers? (← assign path (← t.value?) .opened members) rest

end

/-! ### Documents -/

/-- A document under construction. -/
structure Draft where
  /-- The members of the outermost table. -/
  root : Members
  /-- The table that assignments belong to. -/
  current : List String

namespace Draft

/-- The document before its first line. -/
def empty : Draft := ⟨[], []⟩

/-- The document after a further line. -/
def add (d : Draft) : Statement → Option Draft
  | .assign path t => do
    let v ← t.value?
    return ⟨← descend false (assign path v) .opened d.root d.current, d.current⟩
  | .table path => do return ⟨← atParent openTable d.root path, path⟩
  | .item path => do return ⟨← atParent addItem d.root path, path⟩

end Draft

/-- The members of the outermost table of a text. -/
def parse? (s : String) : Option (List (String × Value)) := do
  let d ← (← statements? s).foldlM Draft.add .empty
  return memberValues d.root

end FlatNet.Toml
