import FlatNet.Character.Blank
import FlatNet.Character.Letter
import FlatNet.Digit

/-!
Regular expressions.

A pattern is only checked here, not matched.  It has to be well-formed, with its parts not nested
too deeply; it may ask for kinds and cases of ASCII characters only, and it must not match a part
of a character.  What a pattern asks for depends on flags that it changes itself, so they are
kept while it is read.

* `Pattern.Flags`: the flags that matter, and how a pattern changes them;
* `Pattern.Atom`: what stands for one character or position;
* `Pattern.stepSet`: the reading of a set of characters in brackets;
* `Pattern.step`: the reading of anything else;
* `Pattern.isValid`: whether a text is a pattern.
-/

namespace FlatNet.Pattern

/-! ### Flags -/

/-- What the flags say about the text after them. -/
structure Flags where
  /-- Whether both cases of a letter match. -/
  caseless : Bool
  /-- Whether characters match, and not single bytes. -/
  wide : Bool
  /-- Whether white space and comments are passed over. -/
  spaced : Bool
  deriving DecidableEq, Repr

namespace Flags

/-- The flags at the start of a pattern. -/
def standard : Flags := ⟨false, true, false⟩

/-- The letters of flags. -/
def letters : List Char := ['i', 'm', 's', 'U', 'u', 'R', 'x']

/-- What a list of flags says about a letter: those after a dash are switched off. -/
def change? (list : List Char) (letter : Char) : Option Bool :=
  if (list.takeWhile (· ≠ '-')).contains letter then some true
  else if list.contains letter then some false
  else none

/-- The flags after a list of changes. -/
def change (f : Flags) (list : List Char) : Flags where
  caseless := (change? list 'i').getD f.caseless
  wide := (change? list 'u').getD f.wide
  spaced := (change? list 'x').getD f.spaced

/-- Whether a list changes flags: none twice, with at most one dash, which is not the last. -/
def isChange (list : List Char) : Bool :=
  list.all (fun c => letters.contains c || c = '-') && list.eraseDups = list
    && list.getLast? ≠ some '-'

/-- Pass over white space, and over comments to the ends of their lines. -/
def skipSpace (inComment : Bool) : List Char → List Char
  | [] => []
  | c :: rest =>
    if inComment then skipSpace (c ≠ '\n') rest
    else if isWhite c then skipSpace false rest
    else if c = '#' then skipSpace true rest
    else c :: rest

/-- Pass over what the flags say is passed over. -/
def skip (f : Flags) (cs : List Char) : List Char := if f.spaced then skipSpace false cs else cs

/-- The character that decides whether a dash in front of it makes a range.  A comment counts
by its first character. -/
def peek? (f : Flags) (cs : List Char) : Option Char :=
  if f.spaced then
    match cs.dropWhile isWhite with
    | '#' :: rest => (rest.dropWhile isWhite).head?
    | rest => rest.head?
  else cs.head?

end Flags

/-! ### Atoms -/

/-- A character of a pattern. -/
structure Literal where
  /-- The character. -/
  char : Char
  /-- Whether it is written as a byte. -/
  isByte : Bool
  deriving DecidableEq, Repr

/-- What stands for one character or position. -/
inductive Atom where
  /-- A character. -/
  | literal (l : Literal)
  /-- Any character. -/
  | any
  /-- An end of the text or of a line. -/
  | edge
  /-- An end of a word, or a place that is none. -/
  | wordEdge
  /-- A digit, a space or a part of a word, or anything else. -/
  | kind (negated : Bool)
  deriving DecidableEq, Repr

/-- The character that stands for itself. -/
def Atom.verbatim (c : Char) : Atom := .literal ⟨c, false⟩

/-- Whether the flags allow an atom.  Where characters match, their kinds and cases reach beyond
ASCII and are not known; where bytes match, one that is no character must not. -/
def Atom.isAllowed (f : Flags) : Atom → Bool
  | literal l => if f.wide then !f.caseless else !l.isByte || l.char.toNat < 0x80
  | any => f.wide
  | edge => true
  | wordEdge => !f.wide
  | kind negated => !f.wide && !negated

/-- Whether the flags allow a character in a set. -/
def Literal.isAllowedInSet (f : Flags) (l : Literal) : Bool :=
  if f.wide then !f.caseless else l.char.toNat < 0x80

/-- Whether the flags allow an atom in a set, which only has characters and kinds of them. -/
def Atom.isAllowedInSet (f : Flags) : Atom → Bool
  | literal l => l.isAllowedInSet f
  | kind negated => !f.wide && !negated
  | _ => false

/-- Digits of a number in base sixteen. -/
def hexDigits (f : Flags) : Nat → List Char → Option (List Nat × List Char)
  | 0, cs => some ([], cs)
  | n + 1, cs =>
    match f.skip cs with
    | [] => none
    | c :: rest => do
      let d ← Digit.hex? c
      let (ds, rest) ← hexDigits f n rest
      return (d :: ds, rest)

/-- A character that is written by its number. -/
def numbered (f : Flags) (digits : Nat) (cs : List Char) : Option (Atom × List Char) := do
  let (ds, rest) ← hexDigits f digits cs
  let n := Digit.number 16 ds
  if n.isValidChar then return (.literal ⟨Char.ofNat n, digits = 2⟩, rest) else none

/-- The control character of a letter. -/
def control? (letter : Char) : Option Char :=
  [('a', '\x07'), ('f', '\x0c'), ('n', '\n'), ('r', '\r'), ('t', '\t'), ('v', '\x0b')].lookup letter

/-- The atom after a backslash. -/
def escaped (f : Flags) : List Char → Option (Atom × List Char)
  | [] => none
  | c :: rest =>
    if c = 'x' then numbered f 2 rest
    else if c = 'u' then numbered f 4 rest
    else if c = 'U' then numbered f 8 rest
    else if ['d', 's', 'w'].contains c then some (.kind false, rest)
    else if ['D', 'S', 'W'].contains c then some (.kind true, rest)
    else if ['A', 'z'].contains c then some (.edge, rest)
    else if ['b', 'B', '<', '>'].contains c then some (.wordEdge, rest)
    else
      match control? c with
      | some control => some (.verbatim control, rest)
      | none => if c.toNat < 0x80 ∧ !c.isAlphanum then some (.verbatim c, rest) else none

/-! ### Depths -/

/-- The depth of parts that stand together.  A part alone is no deeper for it. -/
def joint : List Nat → Nat
  | [] => 0
  | [depth] => depth
  | depths => depths.foldl max 0 + 1

/-- The largest depth. -/
def depthLimit : Nat := 250

/-! ### Sets -/

/-- A set of characters that is open. -/
structure OpenSet where
  /-- The depth of what stands before an operation, if there is one. -/
  left : Option Nat
  /-- The depths of the items after it. -/
  items : List Nat
  /-- Whether dashes, and a closing bracket before any item, still stand for themselves. -/
  atStart : Bool
  deriving DecidableEq, Repr

namespace OpenSet

/-- Add an item. -/
def add (s : OpenSet) (depth : Nat) : OpenSet := { s with items := depth :: s.items }

/-- The depth of what the set holds. -/
def depth (s : OpenSet) : Nat :=
  match s.left with
  | none => joint s.items
  | some left => max left (joint s.items) + 1

/-- Let an operation follow. -/
def operate (s : OpenSet) : OpenSet := ⟨some s.depth, [], false⟩

end OpenSet

/-- The start of a set, after its bracket. -/
def openSet (f : Flags) (cs : List Char) : Option (OpenSet × List Char) :=
  match f.skip cs with
  | '^' :: rest => if f.wide then some (⟨none, [], true⟩, rest) else none
  | rest => some (⟨none, [], true⟩, rest)

/-- The names of the properties of ASCII characters. -/
def propertyNames : List String :=
  ["alnum", "alpha", "ascii", "blank", "cntrl", "digit", "graph", "lower", "print", "punct",
    "space", "upper", "word", "xdigit"]

/-- Whether a property of ASCII characters, given by its name between colons in brackets, is
negated; without the first bracket. -/
def property? : List Char → Option (Bool × List Char)
  | ':' :: rest =>
    let negated := rest.head? = some '^'
    let rest := if negated then rest.tail else rest
    match rest.dropWhile (· ≠ ':') with
    | ':' :: ']' :: others =>
      if propertyNames.contains (String.ofList (rest.takeWhile (· ≠ ':'))) then
        some (negated, others)
      else none
    | _ => none
  | _ => none

/-- Whether the flags allow a property of ASCII characters. -/
def isAllowedProperty (f : Flags) (negated : Bool) : Bool :=
  if f.wide then !f.caseless else !negated

/-- A character or a kind of characters in a set. -/
def setAtom (f : Flags) : List Char → Option (Atom × List Char)
  | [] => none
  | '\\' :: rest => escaped f rest
  | c :: rest => some (.verbatim c, rest)

/-- A range between two atoms, which must be characters in ascending order. -/
def isRange (f : Flags) : Atom → Atom → Bool
  | .literal first, .literal last =>
    first.isAllowedInSet f && last.isAllowedInSet f && first.char ≤ last.char
  | _, _ => false

/-- The text after an item of a set that is no set: an atom, or a range of characters. -/
def setItem (f : Flags) (cs : List Char) : Option (List Char) := do
  let (first, rest) ← setAtom f cs
  let single := if first.isAllowedInSet f then some rest else none
  match f.skip rest with
  | '-' :: others =>
    if f.peek? others = some ']' ∨ f.peek? others = some '-' then single
    else
      let (last, rest) ← setAtom f (f.skip others)
      if isRange f first last then some rest else none
  | _ => single

/-- The sets that are open, the innermost one first, after one more item of the innermost, or
the depth of the whole set. -/
abbrev SetReading := Nat ⊕ List OpenSet

/-- Go on with a set after its start. -/
def stepSetBody (f : Flags) (s : OpenSet) (outer : List OpenSet) (cs : List Char) :
    Option (SetReading × List Char) :=
  match cs with
  | ']' :: rest =>
    let depth := s.depth + 1
    match outer with
    | [] => some (.inl depth, rest)
    | o :: others => some (.inr (o.add depth :: others), rest)
  | '[' :: rest =>
    match property? rest with
    | some (negated, rest) =>
      if isAllowedProperty f negated then some (.inr (s.add 0 :: outer), rest) else none
    | none => (openSet f rest).map fun p => (.inr (p.1 :: s :: outer), p.2)
  | '&' :: '&' :: rest => some (.inr (s.operate :: outer), rest)
  | '-' :: '-' :: rest => some (.inr (s.operate :: outer), rest)
  | '~' :: '~' :: rest => some (.inr (s.operate :: outer), rest)
  | _ => (setItem f cs).map fun rest => (.inr (s.add 0 :: outer), rest)

/-- Go on with a set. -/
def stepSet (f : Flags) (s : OpenSet) (outer : List OpenSet) (cs : List Char) :
    Option (SetReading × List Char) :=
  let body := { s with atStart := false }
  match s.atStart, cs with
  | true, '-' :: rest =>
    if (Atom.verbatim '-').isAllowedInSet f then some (.inr (s.add 0 :: outer), rest) else none
  | true, ']' :: rest =>
    if s.items ≠ [] then stepSetBody f body outer cs
    else if (Atom.verbatim ']').isAllowedInSet f then some (.inr (body.add 0 :: outer), rest)
    else none
  | _, _ => stepSetBody f body outer cs

/-! ### Groups -/

/-- A part of a pattern. -/
structure Part where
  /-- Its depth. -/
  depth : Nat
  /-- Whether it may be repeated: a change of flags may not. -/
  repeats : Bool
  deriving DecidableEq, Repr

/-- A group that is open. -/
structure OpenGroup where
  /-- The depths of the branches that are complete. -/
  branches : List Nat
  /-- The parts of the last branch, the last one first. -/
  parts : List Part
  /-- The flags that hold again after the group. -/
  outside : Flags
  deriving DecidableEq, Repr

namespace OpenGroup

/-- A group without contents. -/
def start (outside : Flags) : OpenGroup := ⟨[], [], outside⟩

/-- Add a part. -/
def add (g : OpenGroup) (part : Part) : OpenGroup := { g with parts := part :: g.parts }

/-- Begin another branch. -/
def branch (g : OpenGroup) : OpenGroup :=
  { g with branches := joint (g.parts.map Part.depth) :: g.branches, parts := [] }

/-- The depth of what the group holds. -/
def depth (g : OpenGroup) : Nat := joint g.branch.branches

end OpenGroup

/-- What a parenthesis begins. -/
inductive Opening where
  /-- A group, read under flags. -/
  | group (f : Flags)
  /-- A group with a name. -/
  | named (name : List Char)
  /-- A change of flags up to the end of the group that it stands in. -/
  | change (f : Flags)
  deriving DecidableEq, Repr

/-- Whether a text is the name of a group. -/
def isGroupName : List Char → Bool
  | [] => false
  | c :: rest =>
    (c = '_' || isLetter c)
      && rest.all fun c => ['_', '.', '[', ']'].contains c || isLetterOrNumber c

/-- The name of a group, up to a bracket. -/
def groupName (cs : List Char) : Option (Opening × List Char) :=
  let name := cs.takeWhile (· ≠ '>')
  match cs.dropWhile (· ≠ '>') with
  | _ :: rest => if isGroupName name then some (.named name, rest) else none
  | [] => none

/-- Flags up to a colon, which begins a group, or up to a parenthesis. -/
def flagChange (f : Flags) (cs : List Char) : Option (Opening × List Char) :=
  let isEnd (c : Char) : Bool := c = ':' || c = ')'
  let list := cs.takeWhile (!isEnd ·)
  if Flags.isChange list then
    match cs.dropWhile (!isEnd ·) with
    | ':' :: rest => some (.group (f.change list), rest)
    | ')' :: rest => if list = [] then none else some (.change (f.change list), rest)
    | _ => none
  else none

/-- What a parenthesis begins.  A look at what is around a match is not possible. -/
def opening (f : Flags) (cs : List Char) : Option (Opening × List Char) :=
  match f.skip cs with
  | '?' :: '=' :: _ => none
  | '?' :: '!' :: _ => none
  | '?' :: '<' :: '=' :: _ => none
  | '?' :: '<' :: '!' :: _ => none
  | '?' :: 'P' :: '<' :: rest => groupName rest
  | '?' :: '<' :: rest => groupName rest
  | '?' :: rest => flagChange f rest
  | rest => some (.group f, rest)

/-! ### Patterns -/

/-- What has been read of a pattern. -/
structure Reading where
  /-- The flags that hold. -/
  flags : Flags
  /-- The sets that are open, the innermost one first. -/
  sets : List OpenSet
  /-- The group that is open, which may be the pattern itself. -/
  group : OpenGroup
  /-- The groups around it, the innermost one first. -/
  outer : List OpenGroup
  /-- The names of groups. -/
  names : List (List Char)

namespace Reading

/-- Nothing read. -/
def start : Reading := ⟨.standard, [], .start .standard, [], []⟩

/-- Add a part to the open group. -/
def add (r : Reading) (depth : Nat) : Reading := { r with group := r.group.add ⟨depth, true⟩ }

/-- Open a group. -/
def openGroup (r : Reading) (f : Flags) : Reading :=
  { r with flags := f, group := .start r.flags, outer := r.group :: r.outer }

/-- Begin what a parenthesis begins; no two groups have one name. -/
def begin (r : Reading) : Opening → Option Reading
  | .group f => some (r.openGroup f)
  | .named name =>
    if r.names.contains name then none
    else some { r.openGroup r.flags with names := name :: r.names }
  | .change f => some { r with flags := f, group := r.group.add ⟨0, false⟩ }

/-- Close the open group, which must not be the pattern itself. -/
def close (r : Reading) : Option Reading :=
  match r.outer with
  | [] => none
  | o :: others =>
    some { r with
      flags := r.group.outside, group := o.add ⟨r.group.depth + 1, true⟩, outer := others }

/-- Repeat the last part. -/
def repeatLast (r : Reading) : Option Reading :=
  match r.group.parts with
  | [] => none
  | part :: others =>
    if part.repeats then
      some { r with group := { r.group with parts := ⟨part.depth + 1, true⟩ :: others } }
    else none

/-- Add an atom. -/
def addAtom (r : Reading) (a : Atom) : Option Reading :=
  if a.isAllowed r.flags then some (r.add 0) else none

end Reading

/-- Read on outside of sets.  Repetitions are not counted, so a brace has to be escaped. -/
def stepOutside (r : Reading) (c : Char) (rest : List Char) : Option (Reading × List Char) :=
  if c = '(' then do
    let (o, rest) ← opening r.flags rest
    return (← r.begin o, rest)
  else if c = ')' then r.close.map (·, rest)
  else if c = '|' then some ({ r with group := r.group.branch }, rest)
  else if c = '[' then (openSet r.flags rest).map fun p => ({ r with sets := [p.1] }, p.2)
  else if ['?', '*', '+'].contains c then
    r.repeatLast.map (·, if rest.head? = some '?' then rest.tail else rest)
  else if c = '\x7b' then none
  else if c = '\\' then do
    let (a, rest) ← escaped r.flags rest
    return (← r.addAtom a, rest)
  else if c = '.' then (r.addAtom .any).map (·, rest)
  else if c = '^' ∨ c = '$' then (r.addAtom .edge).map (·, rest)
  else (r.addAtom (.verbatim c)).map (·, rest)

/-- Read on. -/
def step (r : Reading) (c : Char) (rest : List Char) : Option (Reading × List Char) :=
  match r.sets with
  | [] => stepOutside r c rest
  | s :: outer => do
    match ← stepSet r.flags s outer (c :: rest) with
    | (.inl depth, rest) => return ({ r with sets := [] }.add depth, rest)
    | (.inr sets, rest) => return ({ r with sets := sets }, rest)

/-- The depth of a pattern.  Every call takes a character or ends. -/
def depthFrom (fuel : Nat) (r : Reading) (cs : List Char) : Option Nat :=
  match fuel, r.flags.skip cs with
  | _, [] => if r.sets.isEmpty && r.outer.isEmpty then some r.group.depth else none
  | 0, _ => none
  | fuel + 1, c :: rest => do
    let (r, rest) ← step r c rest
    depthFrom fuel r rest

/-- Whether a text is a pattern. -/
def isValid (cs : List Char) : Bool :=
  match depthFrom cs.length .start cs with
  | some depth => depth ≤ depthLimit
  | none => false

end FlatNet.Pattern
