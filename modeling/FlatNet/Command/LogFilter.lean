import FlatNet.Character.Blank
import FlatNet.Character.Letter
import FlatNet.Command.Pattern
import FlatNet.Command.Values
import FlatNet.Outcome

/-!
Filters of log lines.

A filter is a list of directives, each naming a level for lines of a target, or of spans with
given fields.  A directive is read without the blanks at its ends, and its places are counted in
bytes from there; but its parts are cut out of the text with the blanks, at the same places.  So
a blank in front of a level shifts the level, and one of several bytes may put a place inside a
character, where nothing can be cut.

* `LogFilter.isLevel`, `LogFilter.isField`: the parts of directives;
* `LogFilter.slice`: the text between two places;
* `LogFilter.State.next`: the reading of a directive;
* `LogFilter.check`: whether a text is a filter.
-/

namespace FlatNet.LogFilter

/-! ### Parts of directives -/

/-- The names of the levels. -/
def levelNames : List String := ["off", "error", "warn", "info", "debug", "trace"]

/-- Whether a text names a level: a name in either case, a number up to five, or nothing. -/
def isLevel (cs : List Char) : Bool :=
  match Command.size? (String.ofList cs) with
  | some n => n ≤ 5
  | none => cs.isEmpty || levelNames.contains (String.ofList (cs.map Char.toLower))

/-- Whether a text asks for a value: a number, or a pattern for the text of the value. -/
def isValue (cs : List Char) : Bool :=
  (Command.single? (String.ofList cs)).isSome || Pattern.isValid cs

/-- Whether a text names a field, and asks for its value or not.  What follows a second equals
sign does not count. -/
def isField (cs : List Char) : Bool :=
  match cs, cs.dropWhile (· ≠ '=') with
  | [], _ => false
  | _, _ :: rest => isValue (rest.takeWhile (· ≠ '='))
  | _, [] => true

/-! ### Places -/

/-- The text before a place and the text after it, unless the place is inside a character. -/
def split? : Nat → List Char → Option (List Char × List Char)
  | 0, cs => some ([], cs)
  | _ + 1, [] => none
  | n + 1, c :: rest =>
    if c.utf8Size ≤ n + 1 then (split? (n + 1 - c.utf8Size) rest).map fun p => (c :: p.1, p.2)
    else none

/-- The text from a place on. -/
def sliceFrom (text : List Char) (first : Nat) : Outcome Unit (List Char) := do
  return (← .orFault (split? first text)).2

/-- The text between two places. -/
def slice (text : List Char) (first last : Nat) : Outcome Unit (List Char) := do
  return (← .orFault (split? (last - first) (← sliceFrom text first))).1

/-! ### Directives -/

/-- What has been read of a directive. -/
inductive State where
  /-- Nothing. -/
  | start
  /-- A part of a level or a target. -/
  | name
  /-- A part of the name of a span that starts at a place. -/
  | span (first : Nat)
  /-- A part of a field that starts at a place. -/
  | field (first : Nat)
  /-- The fields of a span. -/
  | fields
  /-- The target and the span. -/
  | target
  /-- A part of a level that starts at a place. -/
  | level (first : Nat)
  deriving DecidableEq, Repr

/-- The characters that a directive may start with, apart from the bracket of a span. -/
def isStart (c : Char) : Bool := ['-', ':', '_'].contains c || isLetterOrNumber c

/-- Read the character at a place. -/
def State.next (text : List Char) (place : Nat) (c : Char) : State → Outcome Unit State
  | start =>
    if c = '[' then .value (span (place + 1)) else if isStart c then .value name else .error ()
  | name => do
    if c = '=' ∨ c = '[' then
      let _ ← slice text 0 place
      return if c = '=' then level (place + 1) else span (place + 1)
    else return name
  | span first => do
    if c = ']' ∨ c = '\x7b' then
      let _ ← slice text first place
      return if c = ']' then target else field (place + 1)
    else return span first
  | field first => do
    if c = '\x7d' then
      .require (isField (← slice text first place)) ()
      return fields
    else return field first
  | fields => if c = ']' then .value target else .error ()
  | target => if c = '=' then .value (level (place + 1)) else .error ()
  | level first => .value (level first)

/-- End a directive. -/
def State.finish (text : List Char) : State → Outcome Unit Unit
  | name => .value ()
  | target => .value ()
  | level first => do .require (isLevel (← sliceFrom text first)) ()
  | _ => .error ()

/-- Read the characters from a place on. -/
def State.run (text : List Char) (place : Nat) (s : State) : List Char → Outcome Unit Unit
  | [] => s.finish text
  | c :: rest => do State.run text (place + c.utf8Size) (← s.next text place c) rest

/-- A text without blanks at its ends. -/
def trim (cs : List Char) : List Char :=
  ((cs.dropWhile isWhite).reverse.dropWhile isWhite).reverse

/-- Check a directive. -/
def checkDirective (text : List Char) : Outcome Unit Unit := State.run text 0 .start (trim text)

/-! ### Filters -/

/-- The parts of a text between commas. -/
def parts : List Char → List (List Char)
  | [] => [[]]
  | c :: rest =>
    if c = ',' then [] :: parts rest
    else
      match parts rest with
      | [] => [[c]]
      | part :: others => (c :: part) :: others

/-- Check directives, the first one first. -/
def checkAll : List (List Char) → Outcome Unit Unit
  | [] => .value ()
  | text :: others => do
    checkDirective text
    checkAll others

/-- Check a filter; empty directives are passed over. -/
def check (s : String) : Outcome Unit Unit :=
  checkAll ((parts s.toList).filter fun part => !part.isEmpty)

end FlatNet.LogFilter
