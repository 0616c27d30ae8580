import FlatNet.Decimal
import FlatNet.Table

/-!
JSON values and their compact text.

Objects keep their members ascending by key, integers are those of 64 bits (signed or
unsigned), and every other number is a 64-bit floating-point word.

* `Json`: the values;
* `Json.quote`: the text of a string, `Json.text`: the text of a value;
* `Json.member?`, `Json.natural?`: reading parts of a value.
-/

namespace FlatNet

/-- A JSON value. -/
inductive Json where
  /-- The null value. -/
  | null
  /-- A truth value. -/
  | bool (b : Bool)
  /-- An integer of 64 bits. -/
  | int (n : Int)
  /-- Any other number. -/
  | float (x : Binary64)
  /-- A string. -/
  | str (s : String)
  /-- An array. -/
  | arr (items : List Json)
  /-- An object, its members ascending by key. -/
  | obj (members : List (String × Json))
  deriving Inhabited, Repr

namespace Json

/-! ### Text -/

/-- Two lower-case hexadecimal digits. -/
def hexPair (n : Nat) : String :=
  String.ofList [Nat.digitChar (n / 16 % 16), Nat.digitChar (n % 16)]

/-- A character inside a quoted string: quotes, backslashes and control characters are
escaped, the common ones by a letter. -/
def escape (c : Char) : String :=
  match c with
  | '"' => "\\\""
  | '\\' => "\\\\"
  | '\x08' => "\\b"
  | '\x0c' => "\\f"
  | '\n' => "\\n"
  | '\r' => "\\r"
  | '\t' => "\\t"
  | c => if c.toNat < 0x20 then "\\u00" ++ hexPair c.toNat else c.toString

/-- The text of a string. -/
def quote (s : String) : String :=
  s.toList.foldl (fun acc c => acc ++ escape c) "\"" ++ "\""

/-- Texts between brackets, separated by commas. -/
def bracketed (items : List String) : String := "[" ++ ",".intercalate items ++ "]"

/-- Named texts between braces, in the order given. -/
def braced (members : List (String × String)) : String :=
  "\x7b" ++ ",".intercalate (members.map fun p => quote p.1 ++ ":" ++ p.2) ++ "\x7d"

/-- The text of a 64-bit number; what is not finite has none and is null. -/
def floatText (x : Binary64) : String :=
  match x.reading with
  | .finite _ => x.text .json64
  | _ => "null"

/-- The text of a 32-bit number; what is not finite has none and is null. -/
def float32Text (x : Binary32) : String :=
  if x.finite then x.text .json32 else "null"

mutual

/-- The compact text of a value. -/
def text : Json → String
  | null => "null"
  | bool b => if b then "true" else "false"
  | int n => toString n
  | float x => floatText x
  | str s => quote s
  | arr items => bracketed (texts items)
  | obj members => braced (memberTexts members)

/-- The compact texts of values. -/
def texts : List Json → List String
  | [] => []
  | j :: rest => text j :: texts rest

/-- The compact texts of members. -/
def memberTexts : List (String × Json) → List (String × String)
  | [] => []
  | (k, j) :: rest => (k, text j) :: memberTexts rest

end

/-! ### Parts -/

/-- The member of an object. -/
def member? (j : Json) (key : String) : Option Json :=
  match j with
  | obj members => members.lookup key
  | _ => none

/-- A value that is a non-negative integer. -/
def natural? : Json → Option Nat
  | int n => if 0 ≤ n then some n.toNat else none
  | _ => none

/-- An object of members in any order, a later one replacing an earlier one. -/
def object (members : List (String × Json)) : Json := obj (Table.ofList members).entries

end Json

end FlatNet
