import FlatNet.Json.Basic
import FlatNet.Json.Grammar
import FlatNet.Size

/-!
The meaning of JSON syntax trees.

A tree is read at a remaining depth: an array or object uses up one level, and the last
level is not to be entered.  Readers answer `none` for a tree that is not of their kind.

* `Json.Numeral.number?`: the number of a numeral;
* `Json.Tree.value?`: any value, `Json.parse?`: any value of a text;
* `Json.Tree.text?`, `size?`, `flag?`, `single?`, `list?`, `record?`: values of one kind;
* `Json.Tree.Members`: the members of a record, no known name given twice.
-/

namespace FlatNet.Json

/-- The levels of nesting that a text may enter, one more than are used. -/
def depthLimit : Nat := 128

/-! ### Numbers -/

/-- Take digits as long as the number they form fits 64 bits: the number, how many digits
were taken, and the others. -/
def takeDigits (n : Nat) : List Nat → Nat × Nat × List Nat
  | [] => (n, 0, [])
  | d :: rest =>
    if n * 10 + d < Size.bound then
      let (n, taken, others) := takeDigits (n * 10 + d) rest
      (n, taken + 1, others)
    else (n, 0, d :: rest)

/-- Scale by a power of ten in 64-bit arithmetic: one multiplication or division by a power
up to 308, after as many divisions by the largest one as needed.  An infinite result is
refused. -/
def scaleByTen (x : Float) (exponent : Int) : Nat → Option Float
  | 0 => some x
  | fuel + 1 =>
    if exponent.natAbs ≤ 308 then
      let power := Float.ofScientific 1 false exponent.natAbs
      if 0 ≤ exponent then
        let y := x * power
        if y.isInf then none else some y
      else some (x / power)
    else if x == 0 then some x
    else if 0 ≤ exponent then none
    else scaleByTen (x / Float.ofScientific 1 false 308) (exponent + 308) fuel

/-- A number: an integer of 64 bits, or a floating-point word. -/
inductive Number where
  /-- An integer. -/
  | int (n : Int)
  /-- Any other number. -/
  | float (x : Float)

/-- The largest exponent that is looked at in full. -/
def exponentBound : Nat := 0x80000000

/-- The number of a numeral.  Digits beyond 64 bits are dropped, those before the point
still counting as places; an exponent too large to hold makes a zero, or is refused where
the number would be infinite. -/
def Numeral.number? (n : Numeral) : Option Number :=
  let (mantissa, _, dropped) := takeDigits 0 n.whole
  let signed (x : Float) : Float := if n.negative then -x else x
  match n.fraction, n.exponent with
  | none, none =>
    if dropped.isEmpty then
      if n.negative then
        if 0 < mantissa ∧ mantissa ≤ 0x8000000000000000 then some (.int (-mantissa))
        else some (.float (-mantissa.toUInt64.toFloat))
      else some (.int mantissa)
    else (scaleByTen mantissa.toUInt64.toFloat dropped.length 8).map fun x => .float (signed x)
  | fraction, exponent =>
    let (mantissa, places, _) := takeDigits mantissa (fraction.getD [])
    let start : Int := dropped.length - places
    match exponent with
    | none => (scaleByTen mantissa.toUInt64.toFloat start 8).map fun x => .float (signed x)
    | some (negative, ds) =>
      let e := ds.foldl (fun acc d => min (acc * 10 + d) exponentBound) 0
      if e = exponentBound then
        if mantissa ≠ 0 ∧ !negative then none else some (.float (signed 0))
      else
        let e : Int := if negative then start - e else start + e
        (scaleByTen mantissa.toUInt64.toFloat e 8).map fun x => .float (signed x)

/-! ### Strings -/

/-- The characters of pieces: a pair of surrogates is one character, a lone one none. -/
def chars? : List Piece → Option (List Char)
  | [] => some []
  | .char c :: rest => (chars? rest).map (c :: ·)
  | .unit hi :: rest =>
    if 0xD800 ≤ hi ∧ hi < 0xDC00 then
      match rest with
      | .unit lo :: rest =>
        if 0xDC00 ≤ lo ∧ lo < 0xE000 then
          (chars? rest).map (Char.ofNat (0x10000 + (hi - 0xD800) * 0x400 + (lo - 0xDC00)) :: ·)
        else none
      | _ => none
    else if 0xDC00 ≤ hi ∧ hi < 0xE000 then none
    else (chars? rest).map (Char.ofNat hi :: ·)

/-- The string of pieces. -/
def string? (pieces : List Piece) : Option String := (chars? pieces).map String.ofList

/-! ### Values -/

namespace Tree

mutual

/-- Any value. -/
def value? (depth : Nat) : Tree → Option Json
  | .null => some .null
  | .bool b => some (.bool b)
  | .number n =>
    match n.number? with
    | some (.int i) => some (.int i)
    | some (.float x) => some (.float (.ofFloat x))
    | none => none
  | .string pieces => (string? pieces).map .str
  | .array items => if depth ≤ 1 then none else (values? (depth - 1) items).map .arr
  | .object members => if depth ≤ 1 then none else (members? (depth - 1) members).map .object

/-- Any values. -/
def values? (depth : Nat) : List Tree → Option (List Json)
  | [] => some []
  | t :: rest =>
    match value? depth t, values? depth rest with
    | some j, some js => some (j :: js)
    | _, _ => none

/-- Members of any value, as written. -/
def members? (depth : Nat) : List (List Piece × Tree) → Option (List (String × Json))
  | [] => some []
  | (key, t) :: rest =>
    match string? key, value? depth t, members? depth rest with
    | some k, some j, some js => some ((k, j) :: js)
    | _, _, _ => none

end

/-- A string. -/
def text? : Tree → Option String
  | .string pieces => string? pieces
  | _ => none

/-- A size: an integer numeral in range. -/
def size? : Tree → Option Nat
  | .number n =>
    match n.number? with
    | some (.int i) => if 0 ≤ i then some i.toNat else none
    | _ => none
  | _ => none

/-- A truth value. -/
def flag? : Tree → Option Bool
  | .bool b => some b
  | _ => none

/-- A 32-bit number: an integer rounds once, any other number rounds from 64 bits. -/
def single? : Tree → Option Binary32
  | .number n =>
    match n.number? with
    | some (.int i) =>
      if 0 ≤ i then some (.ofFloat i.toNat.toUInt64.toFloat32)
      else some (.ofFloat (-i.natAbs.toUInt64.toFloat32))
    | some (.float x) => some (.ofFloat x.toFloat32)
    | none => none
  | _ => none

/-- An array, its items read one level down. -/
def list? {α : Type} (depth : Nat) (item : Nat → Tree → Option α) : Tree → Option (List α)
  | .array items => if depth ≤ 1 then none else items.mapM (item (depth - 1))
  | _ => none

/-- An array of two sizes. -/
def sizePair? (depth : Nat) (t : Tree) : Option (Nat × Nat) :=
  match t.list? depth fun _ => size? with
  | some [a, b] => some (a, b)
  | _ => none

/-- Named trees, in the order written. -/
abbrev Members := List (String × Tree)

/-- The members of an object, to be read one level down. -/
def record? (depth : Nat) : Tree → Option Members
  | .object members =>
    if depth ≤ 1 then none else members.mapM fun p => (string? p.1).map fun k => (k, p.2)
  | _ => none

namespace Members

/-- The member of a known name: `none` if it is given twice. -/
def find? (ms : Members) (name : String) : Option (Option Tree) :=
  match ms.filter (·.1 = name) with
  | [] => some none
  | [p] => some (some p.2)
  | _ => none

/-- A member that must be there. -/
def required? {α : Type} (ms : Members) (name : String) (read : Tree → Option α) : Option α :=
  match ms.find? name with
  | some (some t) => read t
  | _ => none

/-- A member that may be missing. -/
def optional? {α : Type} (ms : Members) (name : String) (read : Tree → Option α)
    (default : α) : Option α :=
  match ms.find? name with
  | some (some t) => read t
  | some none => some default
  | none => none

end Members

/-- A word of a closed list: a string, or an object with the word as its only key and null
as its value.  A buffered tree may also have an empty object as the value. -/
def word? (buffered : Bool) (depth : Nat) : Tree → Option String
  | .string pieces => string? pieces
  | .object [(key, .null)] => if depth ≤ 1 then none else string? key
  | .object [(key, .object [])] => if buffered ∧ 2 < depth then string? key else none
  | _ => none

end Tree

/-- The value of a text. -/
def parse? (s : String) : Option Json := (Tree.parse? s).bind (Tree.value? depthLimit)

end FlatNet.Json
