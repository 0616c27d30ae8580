import FlatNet.Digit

/-!
Blanks, strings and keys of TOML text.

Readers take their part from the front of the characters and leave the rest; they answer
`none` where the text breaks the grammar.

* `Toml.lineEnd`, `Toml.skipBreaks`: what may stand at the end of a line, and between the
  items of an array;
* `Toml.string`: the four kinds of strings;
* `Toml.keyPath`: keys joined by dots.
-/

namespace FlatNet.Toml

/-! ### Blanks -/

/-- White space within a line. -/
def isBlank (c : Char) : Bool := c = ' ' || c = '\t'

/-- The text after white space within a line. -/
def skipBlank (cs : List Char) : List Char := cs.dropWhile isBlank

/-- The characters of a comment: all but controls, the tab apart. -/
def isCommentChar (c : Char) : Bool := c = '\t' || 0x20 ≤ c.toNat && c.toNat ≠ 0x7F

/-- The text after a line break, if one stands in front. -/
def newline : List Char → Option (List Char)
  | '\n' :: rest => some rest
  | '\r' :: '\n' :: rest => some rest
  | _ => none

/-- The text after the end of a line: blanks, a comment, and a line break or the end. -/
def lineEnd (cs : List Char) : Option (List Char) :=
  let rest :=
    match skipBlank cs with
    | '#' :: rest => rest.dropWhile isCommentChar
    | rest => rest
  match rest with
  | [] => some []
  | rest => newline rest

/-- The text after blanks, comments and line breaks; a comment must end in a line break. -/
def skipBreaks (inComment : Bool) : List Char → Option (List Char)
  | [] => if inComment then none else some []
  | '\r' :: '\n' :: rest => skipBreaks false rest
  | '\n' :: rest => skipBreaks false rest
  | c :: rest =>
    if inComment then
      if isCommentChar c then skipBreaks true rest else none
    else if c = '#' then skipBreaks true rest
    else if isBlank c then skipBreaks false rest
    else some (c :: rest)

/-! ### Strings -/

/-- The characters that stand for themselves between double quotes. -/
def isBasicChar (c : Char) : Bool := isCommentChar c && c ≠ '"' && c ≠ '\\'

/-- The characters that stand for themselves between single quotes. -/
def isLiteralChar (c : Char) : Bool := isCommentChar c && c ≠ '\''

/-- The character of a letter escape. -/
def letterEscape (c : Char) : Option Char :=
  match c with
  | 'b' => some '\x08'
  | 'f' => some '\x0c'
  | 'n' => some '\n'
  | 'r' => some '\r'
  | 't' => some '\t'
  | '\\' => some '\\'
  | '"' => some '"'
  | _ => none

/-- The character of a number, which must not be a surrogate. -/
def charOf (n : Nat) : Option Char :=
  if n < 0xD800 ∨ 0xE000 ≤ n ∧ n < 0x110000 then some (Char.ofNat n) else none

/-- The character of hexadecimal digits. -/
def hexEscape (ds : List Char) : Option Char := do
  charOf (Digit.number 16 (← ds.mapM Digit.hex?))

/-- The character of an escape after its backslash. -/
def escape : List Char → Option (Char × List Char)
  | 'u' :: a :: b :: c :: d :: rest => (hexEscape [a, b, c, d]).map fun x => (x, rest)
  | 'U' :: a :: b :: c :: d :: e :: f :: g :: h :: rest =>
    (hexEscape [a, b, c, d, e, f, g, h]).map fun x => (x, rest)
  | c :: rest => (letterEscape c).map fun x => (x, rest)
  | [] => none

/-- An escape takes characters. -/
theorem length_escape {cs : List Char} {c : Char} {rest : List Char}
    (h : escape cs = some (c, rest)) : rest.length < cs.length := by
  unfold escape at h
  split at h <;> simp only [Option.map_eq_some_iff, Prod.mk.injEq, reduceCtorEq] at h
  all_goals
    obtain ⟨_, _, _, rfl⟩ := h
    simp only [List.length_cons]
    omega

/-- The text that characters make up, the last one first. -/
def textOf (acc : List Char) : String := String.ofList acc.reverse

/-- The rest of a string after its opening double quote. -/
def basicRest (acc : List Char) (cs : List Char) : Option (String × List Char) :=
  match cs with
  | [] => none
  | '"' :: rest => some (textOf acc, rest)
  | '\\' :: rest =>
    match _taken : escape rest with
    | some (c, others) => basicRest (c :: acc) others
    | none => none
  | c :: rest => if isBasicChar c then basicRest (c :: acc) rest else none
termination_by cs.length
decreasing_by
  · have := length_escape _taken
    simp only [List.length_cons]
    omega
  · simp

/-- The rest of a string after its opening single quote. -/
def literalRest (acc : List Char) : List Char → Option (String × List Char)
  | [] => none
  | c :: rest =>
    if c = '\'' then some (textOf acc, rest)
    else if isLiteralChar c then literalRest (c :: acc) rest
    else none

/-- Up to two more quotes before the text after a closing run of three, as part of the
string. -/
def closingQuotes (quote : Char) (acc : List Char) : List Char → String × List Char
  | c :: d :: rest =>
    if c = quote then
      if d = quote then (textOf (d :: c :: acc), rest) else (textOf (c :: acc), d :: rest)
    else (textOf acc, c :: d :: rest)
  | [c] => if c = quote then (textOf (c :: acc), []) else (textOf acc, [c])
  | [] => (textOf acc, [])

/-- The rest of a string of several lines after its opening run of double quotes.  After a
backslash at the end of a line, blanks and line breaks are left out. -/
def basicLines (skipping : Bool) (acc : List Char) (cs : List Char) :
    Option (String × List Char) :=
  match cs with
  | [] => none
  | '"' :: '"' :: '"' :: rest => some (closingQuotes '"' acc rest)
  | '\\' :: rest =>
    if (newline (skipBlank rest)).isSome then basicLines true acc rest
    else
      match _taken : escape rest with
      | some (c, others) => basicLines false (c :: acc) others
      | none => none
  | '\r' :: '\n' :: rest => basicLines skipping (if skipping then acc else '\n' :: acc) rest
  | c :: rest =>
    if skipping && (isBlank c || c = '\n') then basicLines true acc rest
    else if isBasicChar c || c = '"' || c = '\n' then basicLines false (c :: acc) rest
    else none
termination_by cs.length
decreasing_by
  · simp
  · have := length_escape _taken
    simp only [List.length_cons]
    omega
  · simp only [List.length_cons]
    omega
  · simp
  · simp

/-- The rest of a string of several lines after its opening run of single quotes. -/
def literalLines (acc : List Char) : List Char → Option (String × List Char)
  | [] => none
  | '\'' :: '\'' :: '\'' :: rest => some (closingQuotes '\'' acc rest)
  | '\r' :: '\n' :: rest => literalLines ('\n' :: acc) rest
  | c :: rest => if isCommentChar c || c = '\n' then literalLines (c :: acc) rest else none

/-- The text after a line break that directly follows an opening run of quotes. -/
def skipFirstBreak (cs : List Char) : List Char := (newline cs).getD cs

/-- A string. -/
def string : List Char → Option (String × List Char)
  | '"' :: '"' :: '"' :: rest => basicLines false [] (skipFirstBreak rest)
  | '\'' :: '\'' :: '\'' :: rest => literalLines [] (skipFirstBreak rest)
  | '"' :: rest => basicRest [] rest
  | '\'' :: rest => literalRest [] rest
  | _ => none

/-! ### Keys -/

/-- The characters of a bare key. -/
def isBareChar (c : Char) : Bool := c.isAlphanum || c = '-' || c = '_'

/-- A key: bare, or a string of one line. -/
def simpleKey : List Char → Option (String × List Char)
  | '"' :: rest => basicRest [] rest
  | '\'' :: rest => literalRest [] rest
  | cs =>
    match cs.takeWhile isBareChar with
    | [] => none
    | key => some (String.ofList key, cs.dropWhile isBareChar)

/-- Nesting is refused from this depth on. -/
def depthLimit : Nat := 80

/-- Keys joined by dots, with blanks around them. -/
def keyPath (acc : List String) (fuel : Nat) (cs : List Char) :
    Option (List String × List Char) :=
  match fuel with
  | 0 => none
  | fuel + 1 =>
    match simpleKey (skipBlank cs) with
    | none => none
    | some (key, rest) =>
      match skipBlank rest with
      | '.' :: rest => keyPath (key :: acc) fuel rest
      | rest => some ((key :: acc).reverse, rest)

/-- Keys joined by dots, fewer than the limit. -/
def keys (cs : List Char) : Option (List String × List Char) :=
  keyPath [] (depthLimit - 1) cs

end FlatNet.Toml
