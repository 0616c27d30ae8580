import FlatNet.Bytes
import FlatNet.Digit

/-!
Byte strings in hexadecimal.

* `Bytes.hexText`: two lower-case digits a byte;
* `Bytes.ofHex?`: the bytes of such a text, in either case.
-/

namespace FlatNet.Bytes

/-- Two lower-case hexadecimal digits a byte. -/
def hexText (bs : Bytes) : String :=
  bs.foldl (fun acc b =>
    (acc.push (Nat.digitChar (b.toNat / 16))).push (Nat.digitChar (b.toNat % 16))) ""

/-- The bytes of pairs of digits after those in `acc`; a digit left over is refused. -/
def ofHexDigits? (acc : Array UInt8) : List Char → Option (Array UInt8)
  | [] => some acc
  | [_] => none
  | a :: b :: rest =>
    match Digit.hex? a, Digit.hex? b with
    | some x, some y => ofHexDigits? (acc.push (UInt8.ofNat (x * 16 + y))) rest
    | _, _ => none

/-- The bytes of a hexadecimal text. -/
def ofHex? (s : String) : Option Bytes := (ofHexDigits? #[] s.toList).map (·.toList)

end FlatNet.Bytes
