import FlatNet.Toml.Text

/-!
Numbers, dates and times of TOML text.

Digits may be grouped by single underscores between them.  Integers have 64 bits and a sign;
numbers too large for a double are refused unless they are negative.

* `Toml.Numeral`: numbers;
* `Toml.numeral`: an integer or a floating-point number;
* `Toml.moment`: a date, a time, or both.
-/

namespace FlatNet.Toml

/-- A number. -/
inductive Numeral where
  /-- An integer. -/
  | integer (n : Int)
  /-- A floating-point number. -/
  | float (x : Binary64)
  deriving DecidableEq, Repr

/-! ### Digits -/

/-- Digits after the first one, single underscores between them left out. -/
def groupedRest (isDigit : Char → Bool) : List Char → List Char × List Char
  | [] => ([], [])
  | [c] => if isDigit c then ([c], []) else ([], [c])
  | c :: d :: rest =>
    if isDigit c then
      let (ds, others) := groupedRest isDigit (d :: rest)
      (c :: ds, others)
    else if c = '_' ∧ isDigit d then
      let (ds, others) := groupedRest isDigit rest
      (d :: ds, others)
    else ([], c :: d :: rest)

/-- Digits, single underscores between them left out. -/
def grouped (isDigit : Char → Bool) : List Char → Option (List Char × List Char)
  | c :: rest =>
    if isDigit c then
      let (ds, others) := groupedRest isDigit rest
      some (c :: ds, others)
    else none
  | [] => none

/-- A sign, negative or not, if one stands in front. -/
def sign : List Char → Bool × List Char
  | '-' :: rest => (true, rest)
  | '+' :: rest => (false, rest)
  | cs => (false, cs)

/-- The digits of a decimal integer: a zero stands alone. -/
def wholeDigits : List Char → Option (List Char × List Char)
  | '0' :: rest => some (['0'], rest)
  | cs => grouped Char.isDigit cs

/-- The number of decimal digits. -/
def decimal (ds : List Char) : Nat := Digit.number 10 (ds.map Digit.value)

/-! ### Integers -/

/-- The integers of 64 bits. -/
def integerOf (n : Int) : Option Numeral :=
  if -0x8000000000000000 ≤ n ∧ n < 0x8000000000000000 then some (.integer n) else none

/-- An integer in a base given by its mark. -/
def basedInteger (base : Nat) (cs : List Char) : Option (Numeral × List Char) := do
  let isDigit (c : Char) : Bool := (Digit.hex? c).any (· < base)
  let (ds, rest) ← grouped isDigit cs
  let n ← integerOf (Digit.number base (ds.filterMap Digit.hex?))
  return (n, rest)

/-- An integer. -/
def integer : List Char → Option (Numeral × List Char)
  | '0' :: 'x' :: rest => basedInteger 16 rest
  | '0' :: 'o' :: rest => basedInteger 8 rest
  | '0' :: 'b' :: rest => basedInteger 2 rest
  | cs => do
    let (negative, cs) := sign cs
    let (ds, rest) ← wholeDigits cs
    let n : Int := decimal ds
    return (← integerOf (if negative then -n else n), rest)

/-! ### Floating-point numbers -/

/-- The digits of a fraction, none if there is no point. -/
def fraction : List Char → Option (List Char × List Char)
  | '.' :: rest => grouped Char.isDigit rest
  | cs => some ([], cs)

/-- An exponent, zero if there is no mark of one. -/
def exponent : List Char → Option (Int × List Char)
  | c :: rest =>
    if c = 'e' ∨ c = 'E' then do
      let (negative, rest) := sign rest
      let (ds, rest) ← grouped Char.isDigit rest
      let n : Int := decimal ds
      return (if negative then -n else n, rest)
    else some (0, c :: rest)
  | [] => some (0, [])

/-- A word with a sign. -/
def signed (negative : Bool) (bits : Nat) : Binary64 :=
  ⟨UInt64.ofNat (if negative then 0x8000000000000000 + bits else bits)⟩

/-- An infinity or a NaN. -/
def special (negative : Bool) : List Char → Option (Numeral × List Char)
  | 'i' :: 'n' :: 'f' :: rest => some (.float (signed negative Binary.Format.double.infinity), rest)
  | 'n' :: 'a' :: 'n' :: rest =>
    some (.float (signed negative (Binary.Format.double.infinity + 0x8000000000000)), rest)
  | _ => none

/-- A floating-point number with a fraction or an exponent. -/
def finite (negative : Bool) (cs : List Char) : Option (Numeral × List Char) := do
  let (whole, afterWhole) ← wholeDigits cs
  let (places, afterPlaces) ← fraction afterWhole
  let (power, rest) ← exponent afterPlaces
  if rest.length = afterWhole.length then none
  else
    let bits := Binary.Format.double.ofDecimal (decimal (whole ++ places)) (power - places.length)
    if bits = Binary.Format.double.infinity ∧ !negative then none
    else return (.float (signed negative bits), rest)

/-- A floating-point number. -/
def float (cs : List Char) : Option (Numeral × List Char) :=
  let (negative, rest) := sign cs
  match special negative rest with
  | some found => some found
  | none => finite negative rest

/-- A number. -/
def numeral (cs : List Char) : Option (Numeral × List Char) :=
  match float cs with
  | some found => some found
  | none => integer cs

/-! ### Dates and times -/

/-- A number of exactly so many digits within limits. -/
def digitsBetween (width low high : Nat) (cs : List Char) : Option (Nat × List Char) :=
  let ds := (cs.take width).takeWhile Char.isDigit
  let n := decimal ds
  if ds.length = width ∧ low ≤ n ∧ n ≤ high then some (n, cs.drop width) else none

/-- The text after a character. -/
def after (c : Char) : List Char → Option (List Char)
  | d :: rest => if c = d then some rest else none
  | [] => none

/-- Whether a year has a leap day. -/
def isLeapYear (year : Nat) : Bool := year % 4 = 0 && (year % 100 ≠ 0 || year % 400 = 0)

/-- The number of days of a month. -/
def daysIn (year month : Nat) : Nat :=
  if month = 2 then (if isLeapYear year then 29 else 28)
  else if month = 4 ∨ month = 6 ∨ month = 9 ∨ month = 11 then 30
  else 31

/-- The text after a date. -/
def date (cs : List Char) : Option (List Char) := do
  let (year, rest) ← digitsBetween 4 0 9999 cs
  let (month, rest) ← digitsBetween 2 1 12 (← after '-' rest)
  let (_, rest) ← digitsBetween 2 1 (daysIn year month) (← after '-' rest)
  return rest

/-- The text after hours and minutes. -/
def hourMinute (cs : List Char) : Option (List Char) := do
  let (_, rest) ← digitsBetween 2 0 23 cs
  let (_, rest) ← digitsBetween 2 0 59 (← after ':' rest)
  return rest

/-- The text after a time of day; a minute may have a leap second. -/
def time (cs : List Char) : Option (List Char) := do
  let (_, rest) ← digitsBetween 2 0 60 (← after ':' (← hourMinute cs))
  match rest with
  | '.' :: places =>
    if (places.takeWhile Char.isDigit).isEmpty then return rest
    else return places.dropWhile Char.isDigit
  | rest => return rest

/-- The text after a time zone, if there is one. -/
def zone (cs : List Char) : List Char :=
  match cs with
  | c :: rest =>
    if c = 'Z' ∨ c = 'z' then rest
    else if c = '+' ∨ c = '-' then (hourMinute rest).getD cs
    else cs
  | [] => []

/-- The text after the time of a date, if there is one. -/
def timeOfDate (cs : List Char) : List Char :=
  match cs with
  | c :: rest =>
    if c = 'T' ∨ c = 't' ∨ c = ' ' then ((time rest).map zone).getD cs else cs
  | [] => []

/-- The text after a date with or without a time, or after a time. -/
def moment (cs : List Char) : Option (List Char) :=
  match date cs with
  | some rest => some (timeOfDate rest)
  | none => time cs

end FlatNet.Toml
