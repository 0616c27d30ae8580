import FlatNet.Binary

/-!
Decimal text of binary floating-point numbers.

A number prints with the fewest significant digits that read back to it; among those, the
digits nearest to it.  Where the digits end up around the point is decided by a layout, one
value per text format.

* `Decimal.shortest`: the digits and the place of the point;
* `Decimal.Layout`, `Decimal.Layout.write`: how a format sets them;
* `Decimal.layouts`: the layouts in use, `Layout.debug`, `Layout.plain`,
  `Layout.scientific`, `Layout.json32`, `Layout.json64`.
-/

namespace FlatNet

open Binary.Format (Magnitude Reading)

/-- Significant digits, and how many of them stand before the point (negative: zeros follow
the point first). -/
structure Decimal where
  /-- The digits, the first of them not zero unless the number is. -/
  digits : List Nat
  /-- The place of the point, counted from before the first digit. -/
  point : Int
  deriving Repr

namespace Decimal

/-- The decimal digits of a number. -/
def digitsOf (n : Nat) : List Nat := (Nat.toDigits 10 n).map fun c => c.toNat - '0'.toNat

/-! ### Shortest digits -/

/-- The numbers that round to a magnitude, as a fraction interval in which `centre`,
`lower` and `upper` share the denominator `den`. -/
structure Interval where
  /-- Four times the magnitude, over `den`. -/
  centre : Nat
  /-- The lower end. -/
  lower : Nat
  /-- The upper end. -/
  upper : Nat
  /-- The common denominator. -/
  den : Nat
  /-- Whether the ends belong to it: they do when the mantissa is even. -/
  closed : Bool

/-- The interval of a magnitude of a format.  Below a power of two the neighbour is only
half as far away, except among the smallest numbers. -/
def Interval.of (f : Binary.Format) (m : Magnitude) : Interval :=
  let below := if m.mantissa = 1 <<< f.fractionBits ∧ f.minExponent < m.exponent then 1 else 2
  let up := if 0 ≤ m.exponent then 1 <<< m.exponent.toNat else 1
  let den := if 0 ≤ m.exponent then 4 else 4 <<< (-m.exponent).toNat
  { centre := 4 * m.mantissa * up
    lower := (4 * m.mantissa - below) * up
    upper := (4 * m.mantissa + 2) * up
    den
    closed := m.mantissa % 2 = 0 }

/-- Whether `n * 10 ^ k` lies in the interval. -/
def Interval.contains (i : Interval) (n : Nat) (k : Int) : Bool :=
  let x := if 0 ≤ k then n * Nat.pow 10 k.toNat * i.den else n * i.den
  let scale := if 0 ≤ k then 1 else Nat.pow 10 (-k).toNat
  if i.closed then i.lower * scale ≤ x && x ≤ i.upper * scale
  else i.lower * scale < x && x < i.upper * scale

/-- The number of digits before the point of `num / den`, for `num / den` not zero: the
least `e` with `num / den < 10 ^ e`. -/
def magnitudeOf (num den : Nat) : Int :=
  if den ≤ num then ((digitsOf (num / den)).length : Int)
  else
    -- 1 ≤ den / num: count the zeros after the point
    let zeros := (digitsOf ((den - 1) / num)).length - 1
    if Nat.pow 10 (zeros + 1) * num < den then -(zeros + 1 : Int) else -(zeros : Int)

/-- What happens to a number halfway between two candidates. -/
inductive Tie where
  /-- The candidate with the even last digit is taken. -/
  | even
  /-- The larger candidate is taken. -/
  | up
  deriving Repr, DecidableEq

/-- Whether the larger of the candidates `floor` and `floor + 1` is taken. -/
def Tie.takesUpper (t : Tie) (floor : Nat) : Bool :=
  match t with
  | .even => floor % 2 = 1
  | .up => true

/-- Try the grid with `n` digits: of the two grid points around the centre, the nearer one
in the interval. -/
def tryGrid (tie : Tie) (i : Interval) (point : Int) (n : Nat) : Option Decimal :=
  let k := point - n
  let (num, den) :=
    if 0 ≤ k then (i.centre, i.den * Nat.pow 10 k.toNat) else (i.centre * Nat.pow 10 (-k).toNat, i.den)
  let floor := num / den
  let pick (c : Nat) : Decimal :=
    let ds := digitsOf c
    ⟨ds, k + ds.length⟩
  let lowFits := 0 < floor && i.contains floor k
  let highFits := i.contains (floor + 1) k
  if lowFits && highFits then
    let twice := 2 * (num % den)
    if den < twice ∨ (twice = den ∧ tie.takesUpper floor) then some (pick (floor + 1))
    else some (pick floor)
  else if lowFits then some (pick floor)
  else if highFits then some (pick (floor + 1))
  else none

/-- The first grid of at most `n + start` digits with a point in the interval. -/
def searchGrids (tie : Tie) (i : Interval) (point : Int) (start : Nat) : Nat → Decimal
  | 0 => ⟨[0], 1⟩
  | n + 1 =>
    match tryGrid tie i point start with
    | some d => d
    | none => searchGrids tie i point (start + 1) n

/-- Remove the zeros at the end of the digits. -/
def trimZeros (digits : List Nat) : List Nat :=
  (digits.reverse.dropWhile (· = 0)).reverse

/-- The fewest digits that read back to a magnitude. -/
def shortest (tie : Tie) (f : Binary.Format) (m : Magnitude) : Decimal :=
  if m.mantissa = 0 then ⟨[0], 1⟩
  else
    let i := Interval.of f m
    let d := searchGrids tie i (magnitudeOf i.centre i.den) 1 18
    ⟨trimZeros d.digits, d.point⟩

/-! ### Layouts -/

/-- How a text format sets a decimal. -/
structure Layout where
  /-- The point places that are written positionally, first and last; `none` for all. -/
  positional : Option (Int × Int)
  /-- Whether a whole number ends in `.0`. -/
  keepPoint : Bool
  /-- Whether a positive exponent has a plus sign. -/
  plus : Bool
  /-- The choice between two equally near texts. -/
  tie : Tie

/-- Zeros. -/
def zeros (n : Nat) : String := String.ofList (List.replicate n '0')

/-- Digits as text. -/
def textOf (digits : List Nat) : String := String.ofList (digits.map Nat.digitChar)

/-- A decimal without exponent. -/
def positionalText (keepPoint : Bool) (d : Decimal) : String :=
  let n := d.digits.length
  if d.point ≤ 0 then "0." ++ zeros (-d.point).toNat ++ textOf d.digits
  else if (n : Int) ≤ d.point then
    textOf d.digits ++ zeros (d.point.toNat - n) ++ (if keepPoint then ".0" else "")
  else
    textOf (d.digits.take d.point.toNat) ++ "." ++ textOf (d.digits.drop d.point.toNat)

/-- A decimal with one digit before the point and an exponent. -/
def scientificText (plus : Bool) (d : Decimal) : String :=
  let exponent := d.point - 1
  let sign := if exponent < 0 then "-" else if plus then "+" else ""
  let fraction := if d.digits.length ≤ 1 then "" else "." ++ textOf (d.digits.drop 1)
  textOf (d.digits.take 1) ++ fraction ++ "e" ++ sign ++ toString exponent.natAbs

/-- Set a decimal. -/
def Layout.write (l : Layout) (d : Decimal) : String :=
  match l.positional with
  | none => positionalText l.keepPoint d
  | some (first, last) =>
    if first ≤ d.point ∧ d.point ≤ last then positionalText l.keepPoint d
    else scientificText l.plus d

namespace Layout

/-- Descriptions of values: positional from one ten-thousandth up to sixteen digits. -/
def debug : Layout := ⟨some (-3, 16), true, false, .up⟩

/-- Plain text: always positional, a whole number without point. -/
def plain : Layout := ⟨none, false, false, .up⟩

/-- Always with an exponent. -/
def scientific : Layout := ⟨some (1, 0), false, false, .up⟩

/-- JSON text of a 32-bit number. -/
def json32 : Layout := ⟨some (-5, 13), true, true, .even⟩

/-- JSON text of a 64-bit number. -/
def json64 : Layout := ⟨some (-4, 16), true, true, .even⟩

end Layout

/-- The text of what a bit pattern stands for. -/
def write (l : Layout) (f : Binary.Format) (negative : Bool) : Reading → String
  | .finite m => (if negative then "-" else "") ++ l.write (shortest l.tie f m)
  | .infinite => if negative then "-inf" else "inf"
  | .notANumber => "NaN"

end Decimal

/-- The text of a 32-bit word in a layout. -/
def Binary32.text (x : Binary32) (l : Decimal.Layout) : String :=
  Decimal.write l .single x.negative x.reading

/-- The text of a 64-bit word in a layout. -/
def Binary64.text (x : Binary64) (l : Decimal.Layout) : String :=
  Decimal.write l .double x.negative x.reading

end FlatNet
