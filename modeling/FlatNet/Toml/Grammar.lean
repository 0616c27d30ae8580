import FlatNet.Toml.Numeral

/-!
The grammar of TOML text.

Text is first read into statements, one a line: assignments of values to keys and headers of
tables.  Which keys name the same table, and whether that is allowed, is decided afterwards.

* `Toml.Tree`: values as written;
* `Toml.Statement`: the lines that say something;
* `Toml.statements?`: the statements of a text.
-/

namespace FlatNet.Toml

/-- A value as written. -/
inductive Tree where
  /-- A string. -/
  | text (s : String)
  /-- A number. -/
  | number (n : Numeral)
  /-- A truth value. -/
  | flag (b : Bool)
  /-- A date, a time, or both. -/
  | moment
  /-- An array. -/
  | array (items : List Tree)
  /-- A table on one line. -/
  | table (pairs : List (List String × Tree))
  deriving Repr, Inhabited

/-- A line that says something. -/
inductive Statement where
  /-- A value for keys. -/
  | assign (path : List String) (value : Tree)
  /-- What follows belongs to a table. -/
  | table (path : List String)
  /-- What follows belongs to a further item of an array of tables. -/
  | item (path : List String)
  deriving Repr, Inhabited

/-! ### Values -/

/-- A word that must stand in front. -/
def literal (word : List Char) (t : Tree) (cs : List Char) : Option (Tree × List Char) :=
  if word.isPrefixOf cs then some (t, cs.drop word.length) else none

/-- A number, a date or a time. -/
def quantity (cs : List Char) : Option (Tree × List Char) :=
  match moment cs with
  | some rest => some (.moment, rest)
  | none => (numeral cs).map fun p => (.number p.1, p.2)

mutual

/-- A value inside `depth` arrays and tables.  Every call takes a character or ends, so twice
the length of the text is fuel enough. -/
def value (fuel depth : Nat) (cs : List Char) : Option (Tree × List Char) :=
  match fuel with
  | 0 => none
  | fuel + 1 =>
    match cs with
    | [] => none
    | '[' :: rest => if depth + 1 < depthLimit then items fuel (depth + 1) [] rest else none
    | '\x7b' :: rest =>
      if depth + 1 < depthLimit then
        match skipBlank rest with
        | '\x7d' :: rest => some (.table [], rest)
        | rest => pairs fuel (depth + 1) [] rest
      else none
    | 't' :: rest => literal ['r', 'u', 'e'] (.flag true) rest
    | 'f' :: rest => literal ['a', 'l', 's', 'e'] (.flag false) rest
    | c :: _ =>
      if c = '"' ∨ c = '\'' then (string cs).map fun p => (.text p.1, p.2)
      else quantity cs

/-- The items of an array from the next one on, if there is one. -/
def items (fuel depth : Nat) (acc : List Tree) (cs : List Char) : Option (Tree × List Char) :=
  match fuel with
  | 0 => none
  | fuel + 1 =>
    match skipBreaks false cs with
    | none => none
    | some (']' :: rest) => some (.array acc.reverse, rest)
    | some cs =>
      match value fuel depth cs with
      | none => none
      | some (t, rest) =>
        match skipBreaks false rest with
        | some (',' :: rest) => items fuel depth (t :: acc) rest
        | some (']' :: rest) => some (.array (t :: acc).reverse, rest)
        | _ => none

/-- The pairs of a table on one line from the next one on. -/
def pairs (fuel depth : Nat) (acc : List (List String × Tree)) (cs : List Char) :
    Option (Tree × List Char) :=
  match fuel with
  | 0 => none
  | fuel + 1 =>
    match keys cs with
    | some (path, '=' :: rest) =>
      match value fuel depth (skipBlank rest) with
      | none => none
      | some (t, rest) =>
        match skipBlank rest with
        | ',' :: rest => pairs fuel depth ((path, t) :: acc) rest
        | '\x7d' :: rest => some (.table ((path, t) :: acc).reverse, rest)
        | _ => none
    | _ => none

end

/-! ### Statements -/

/-- A header between brackets, and the text after its line. -/
def header (make : List String → Statement) (closing cs : List Char) :
    Option (Statement × List Char) := do
  let (path, rest) ← keys cs
  if closing.isPrefixOf rest then
    return (make path, ← lineEnd (rest.drop closing.length))
  else none

/-- A value for keys, and the text after its line. -/
def assignment (cs : List Char) : Option (Statement × List Char) := do
  match ← keys cs with
  | (path, '=' :: rest) =>
    let (t, rest) ← value (2 * rest.length + 2) 0 (skipBlank rest)
    return (.assign path t, ← lineEnd rest)
  | _ => none

/-- The statement of a line, and the text after it. -/
def statement : List Char → Option (Statement × List Char)
  | '[' :: '[' :: rest => header .item [']', ']'] rest
  | '[' :: rest => header .table [']'] rest
  | cs => assignment cs

/-- The statements of the lines of a text.  Every call takes a line. -/
def statements (fuel : Nat) (acc : List Statement) (cs : List Char) : Option (List Statement) :=
  match fuel with
  | 0 => none
  | fuel + 1 =>
    match skipBlank cs with
    | [] => some acc.reverse
    | c :: rest =>
      if c = '#' ∨ c = '\n' ∨ c = '\r' then
        match lineEnd (c :: rest) with
        | none => none
        | some rest => statements fuel acc rest
      else
        match statement (c :: rest) with
        | none => none
        | some (s, rest) => statements fuel (s :: acc) rest

/-- The text after a mark of the byte order. -/
def skipMark : List Char → List Char
  | '\uFEFF' :: rest => rest
  | cs => cs

/-- The statements of a text. -/
def statements? (s : String) : Option (List Statement) :=
  let cs := skipMark s.toList
  statements (cs.length + 1) [] cs

end FlatNet.Toml
