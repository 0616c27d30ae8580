import FlatNet.Digit

/-!
The grammar of JSON text.

Text is first read into a syntax tree that keeps what the grammar keeps: members in order
with repeated keys, numerals by their digits, strings by their escapes.  What a tree means,
and whether it means anything, is decided by its reader; a part that nobody reads may hold
numerals out of range and unpaired surrogates.

* `Json.Numeral`, `Json.Piece`, `Json.Tree`: the tree;
* `Json.Tree.parse?`: the tree of a text.
-/

namespace FlatNet.Json

/-- A numeral by its digits. -/
structure Numeral where
  /-- Whether a minus sign stands in front. -/
  negative : Bool
  /-- The digits before the point. -/
  whole : List Nat
  /-- The digits after the point, if there is one. -/
  fraction : Option (List Nat)
  /-- Whether the exponent is negative, and its digits, if there is one. -/
  exponent : Option (Bool × List Nat)
  deriving Repr

/-- A piece of a string. -/
inductive Piece where
  /-- A character, written as itself or by a letter escape. -/
  | char (c : Char)
  /-- A 16-bit unit, written by its number. -/
  | unit (n : Nat)
  deriving Repr

/-- A syntax tree. -/
inductive Tree where
  /-- The null literal. -/
  | null
  /-- A truth literal. -/
  | bool (b : Bool)
  /-- A numeral. -/
  | number (n : Numeral)
  /-- A string. -/
  | string (pieces : List Piece)
  /-- An array. -/
  | array (items : List Tree)
  /-- An object, its members as written. -/
  | object (members : List (List Piece × Tree))
  deriving Repr, Inhabited

namespace Tree

/-! ### Lexical parts -/

/-- White space between tokens. -/
def isBlank (c : Char) : Bool := c = ' ' || c = '\n' || c = '\t' || c = '\r'

/-- The text after white space. -/
def skipBlank (cs : List Char) : List Char := cs.dropWhile isBlank

/-- The leading digits, and the text after them. -/
def digits (cs : List Char) : List Nat × List Char :=
  ((cs.takeWhile Char.isDigit).map Digit.value, cs.dropWhile Char.isDigit)

/-- The 16-bit number of four hexadecimal digits. -/
def hexUnit (a b c d : Char) : Option Nat := do
  some (((← Digit.hex? a) * 16 + (← Digit.hex? b)) * 256 + (← Digit.hex? c) * 16 + (← Digit.hex? d))

/-- The character of a letter escape. -/
def letterEscape (c : Char) : Option Char :=
  match c with
  | '"' => some '"'
  | '\\' => some '\\'
  | '/' => some '/'
  | 'b' => some '\x08'
  | 'f' => some '\x0c'
  | 'n' => some '\n'
  | 'r' => some '\r'
  | 't' => some '\t'
  | _ => none

/-- The rest of a string after its opening quote; `acc` holds the pieces so far, the last
one first.  Control characters must be escaped. -/
def stringRest (acc : List Piece) : List Char → Option (List Piece × List Char)
  | [] => none
  | '"' :: rest => some (acc.reverse, rest)
  | '\\' :: 'u' :: a :: b :: c :: d :: rest =>
    match hexUnit a b c d with
    | some n => stringRest (.unit n :: acc) rest
    | none => none
  | '\\' :: e :: rest =>
    match letterEscape e with
    | some c => stringRest (.char c :: acc) rest
    | none => none
  | c :: rest => if c.toNat < 0x20 then none else stringRest (.char c :: acc) rest

/-- The digits of a whole part: a zero stands alone. -/
def wholePart (cs : List Char) : Option (List Nat × List Char) :=
  match digits cs with
  | ([], _) => none
  | (0 :: _ :: _, _) => none
  | found => some found

/-- The fraction of a numeral, if a point follows. -/
def fractionPart : List Char → Option (Option (List Nat) × List Char)
  | '.' :: rest =>
    match digits rest with
    | ([], _) => none
    | (ds, rest) => some (some ds, rest)
  | cs => some (none, cs)

/-- The digits of an exponent. -/
def exponentDigits (negative : Bool) (cs : List Char) :
    Option (Option (Bool × List Nat) × List Char) :=
  match digits cs with
  | ([], _) => none
  | (ds, rest) => some (some (negative, ds), rest)

/-- The exponent of a numeral, if its mark follows. -/
def exponentPart (cs : List Char) : Option (Option (Bool × List Nat) × List Char) :=
  match cs with
  | c :: rest =>
    if c = 'e' ∨ c = 'E' then
      match rest with
      | '+' :: rest => exponentDigits false rest
      | '-' :: rest => exponentDigits true rest
      | rest => exponentDigits false rest
    else some (none, cs)
  | [] => some (none, [])

/-- A numeral. -/
def numeral (cs : List Char) : Option (Numeral × List Char) := do
  let (negative, cs) :=
    match cs with
    | '-' :: rest => (true, rest)
    | _ => (false, cs)
  let (whole, cs) ← wholePart cs
  let (fraction, cs) ← fractionPart cs
  let (exponent, cs) ← exponentPart cs
  some (⟨negative, whole, fraction, exponent⟩, cs)

/-- A literal that must stand at the start of the text. -/
def literal (word : List Char) (t : Tree) (cs : List Char) : Option (Tree × List Char) :=
  if word.isPrefixOf cs then some (t, cs.drop word.length) else none

/-! ### Values -/

mutual

/-- A value at the start of the text.  Every call takes a character or ends, so twice the
length of the text is fuel enough. -/
def value (fuel : Nat) (cs : List Char) : Option (Tree × List Char) :=
  match fuel with
  | 0 => none
  | fuel + 1 =>
    match skipBlank cs with
    | '"' :: rest => (stringRest [] rest).map fun p => (.string p.1, p.2)
    | '[' :: rest =>
      match skipBlank rest with
      | ']' :: rest => some (.array [], rest)
      | rest => items fuel [] rest
    | '\x7b' :: rest =>
      match skipBlank rest with
      | '\x7d' :: rest => some (.object [], rest)
      | rest => members fuel [] rest
    | 'n' :: rest => literal ['u', 'l', 'l'] .null rest
    | 't' :: rest => literal ['r', 'u', 'e'] (.bool true) rest
    | 'f' :: rest => literal ['a', 'l', 's', 'e'] (.bool false) rest
    | cs => (numeral cs).map fun p => (.number p.1, p.2)

/-- The items of an array from the next one on. -/
def items (fuel : Nat) (acc : List Tree) (cs : List Char) : Option (Tree × List Char) :=
  match fuel with
  | 0 => none
  | fuel + 1 =>
    match value fuel cs with
    | none => none
    | some (t, rest) =>
      match skipBlank rest with
      | ',' :: rest => items fuel (t :: acc) rest
      | ']' :: rest => some (.array (t :: acc).reverse, rest)
      | _ => none

/-- The members of an object from the next one on. -/
def members (fuel : Nat) (acc : List (List Piece × Tree)) (cs : List Char) :
    Option (Tree × List Char) :=
  match fuel with
  | 0 => none
  | fuel + 1 =>
    match skipBlank cs with
    | '"' :: rest =>
      match stringRest [] rest with
      | none => none
      | some (key, rest) =>
        match skipBlank rest with
        | ':' :: rest =>
          match value fuel rest with
          | none => none
          | some (t, rest) =>
            match skipBlank rest with
            | ',' :: rest => members fuel ((key, t) :: acc) rest
            | '\x7d' :: rest => some (.object ((key, t) :: acc).reverse, rest)
            | _ => none
        | _ => none
    | _ => none

end

/-- The tree of a text that holds one value and white space around it. -/
def parse? (s : String) : Option Tree :=
  let cs := s.toList
  match value (2 * cs.length + 2) cs with
  | some (t, rest) => if (skipBlank rest).isEmpty then some t else none
  | none => none

end Tree

end FlatNet.Json
