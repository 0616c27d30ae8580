import FlatNet.Archive.Basic
import FlatNet.Json.Basic

/-!
Writing tensor archives.

Arrays are stored by descending rank of their type, then by name.  The header is padded by
spaces to a multiple of eight bytes.

* `Archive.stored`: the arrays in the order of the data;
* `Archive.headerText`: the header of an archive;
* `Archive.encode`: the byte string of an archive.
-/

namespace FlatNet.Archive

/-- Whether an array is stored before another. -/
def storedBefore (a b : String × Entry) : Bool :=
  b.2.type.rank < a.2.type.rank || (a.2.type.rank = b.2.type.rank && a.1 ≤ b.1)

/-- The arrays in the order of the data. -/
def stored (entries : Table Entry) : List (String × Entry) := entries.entries.mergeSort storedBefore

/-- The description of an array whose bytes start at `start`. -/
def extentText (e : Entry) (start : Nat) : String :=
  Json.braced [
    ("dtype", Json.quote e.type.name),
    ("shape", Json.bracketed (e.shape.map toString)),
    ("data_offsets", Json.bracketed [toString start, toString (start + e.bytes.length)])]

/-- The descriptions of arrays stored one after the other from `start` on. -/
def extentTexts (start : Nat) : List (String × Entry) → List (String × String)
  | [] => []
  | (name, e) :: rest => (name, extentText e start) :: extentTexts (start + e.bytes.length) rest

/-- The header of an archive with the given texts. -/
def headerText (info : List (String × String)) (entries : List (String × Entry)) : String :=
  Json.braced ((infoKey, Json.braced (info.map fun p => (p.1, Json.quote p.2)))
    :: extentTexts 0 entries)

/-- The spaces that fill up eight bytes. -/
def padding (n : Nat) : Bytes := List.replicate ((8 - n % 8) % 8) 32

/-- The byte string of an archive with the given texts. -/
def encode (info : List (String × String)) (entries : Table Entry) : Bytes :=
  let ordered := stored entries
  let header := Bytes.ofText (headerText info ordered)
  let padded := header ++ padding header.length
  littleEndian 8 padded.length ++ padded ++ ordered.flatMap fun p => p.2.bytes

end FlatNet.Archive
