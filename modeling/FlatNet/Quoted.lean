import FlatNet.Character.Hidden

/-!
Text in quotes, for descriptions.

A described text stands between double quotes.  Quotes, backslashes and common control
characters are escaped by a letter, and every other character that would not show by its
code.

* `Quoted.describe`: a text in quotes.
-/

namespace FlatNet.Quoted

/-- The lower-case hexadecimal digits of a number. -/
def hexText (n : Nat) : String := String.ofList (Nat.toDigits 16 n)

/-- A character between quotes. -/
def describeChar (c : Char) : String :=
  match c with
  | '"' => "\\\""
  | '\\' => "\\\\"
  | '\x00' => "\\0"
  | '\t' => "\\t"
  | '\r' => "\\r"
  | '\n' => "\\n"
  | c => if isHidden c then "\\u\x7b" ++ hexText c.toNat ++ "\x7d" else c.toString

/-- A text in quotes. -/
def describe (s : String) : String :=
  s.toList.foldl (fun acc c => acc ++ describeChar c) "\"" ++ "\""

/-- A text in quotes that may be missing. -/
def describe? : Option String → String
  | some s => "Some(" ++ describe s ++ ")"
  | none => "None"

end FlatNet.Quoted
