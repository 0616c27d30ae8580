import FlatNet.Digit
import FlatNet.Files.Path
import FlatNet.Flat.Quantize
import FlatNet.Size

/-!
Values of options.

* `Command.size?`, `Command.single?`, `Command.flag?`, `Command.path?`: the values of texts;
* `Command.ValueKind`, `ValueKind.accepts`: the kinds of values, and the texts of each.
-/

namespace FlatNet.Command

/-- A size of 64 bits: digits, with a plus sign or not. -/
def size? (s : String) : Option Nat :=
  let ds :=
    match s.toList with
    | '+' :: rest => rest
    | cs => cs
  let n := Digit.number 10 (ds.map Digit.value)
  if ds ≠ [] ∧ ds.all Char.isDigit ∧ n < Size.bound then some n else none

/-- A truth value. -/
def flag? (s : String) : Option Bool :=
  if s = "true" then some true else if s = "false" then some false else none

/-- A path, which must not be empty. -/
def path? (s : String) : Option Path := if s.isEmpty then none else some ⟨s⟩

/-! ### Floating-point numbers -/

/-- A sign, and the text after it. -/
def signOf : List Char → Bool × List Char
  | '-' :: rest => (true, rest)
  | '+' :: rest => (false, rest)
  | cs => (false, cs)

/-- The leading digits, and the text after them. -/
def digitsOf (cs : List Char) : List Nat × List Char :=
  ((cs.takeWhile Char.isDigit).map Digit.value, cs.dropWhile Char.isDigit)

/-- The digits after a point, if there is one. -/
def placesOf : List Char → List Nat × List Char
  | '.' :: rest => digitsOf rest
  | cs => ([], cs)

/-- The exponent that makes up the rest of a text; zero if there is no mark of one. -/
def exponentOf : List Char → Option Int
  | [] => some 0
  | c :: rest =>
    if c = 'e' ∨ c = 'E' then
      let (negative, rest) := signOf rest
      match digitsOf rest with
      | ([], _) => none
      | (ds, []) =>
        let n : Int := Digit.number 10 ds
        some (if negative then -n else n)
      | _ => none
    else none

/-- The bit pattern of a number without its sign. -/
def singleBits? (cs : List Char) : Option Nat := do
  let infinity := Binary.Format.single.infinity
  let word := String.ofList (cs.map Char.toLower)
  if word = "inf" ∨ word = "infinity" then return infinity
  else if word = "nan" then return infinity + 0x400000
  else
    let (whole, rest) := digitsOf cs
    let (places, rest) := placesOf rest
    let exponent ← exponentOf rest
    let significand := Digit.number 10 (whole ++ places)
    if whole = [] ∧ places = [] then none
    else return Binary.Format.single.ofDecimal significand (exponent - places.length)

/-- A floating-point number of 32 bits: decimal, an infinity or a NaN. -/
def single? (s : String) : Option Binary32 := do
  let (negative, cs) := signOf s.toList
  let bits ← singleBits? cs
  return ⟨UInt32.ofNat (if negative then 0x80000000 + bits else bits)⟩

/-! ### Kinds -/

/-- The kinds of values. -/
inductive ValueKind where
  /-- Any text. -/
  | text
  /-- A path. -/
  | path
  /-- A size. -/
  | size
  /-- A truth value. -/
  | flag
  /-- A floating-point number. -/
  | single
  /-- A choice of parameters to quantize. -/
  | quantize
  deriving DecidableEq, Repr

/-- Whether a text is a value of a kind. -/
def ValueKind.accepts : ValueKind → String → Bool
  | text, _ => true
  | path, s => (path? s).isSome
  | size, s => (size? s).isSome
  | flag, s => (flag? s).isSome
  | single, s => (single? s).isSome
  | quantize, s => (Quantize.ofName? s).isSome

end FlatNet.Command
