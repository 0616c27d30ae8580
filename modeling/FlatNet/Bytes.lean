import FlatNet.Binary

/-!
Byte strings.

Numbers are stored with the least significant byte first, text as UTF-8.

* `Bytes`: byte strings;
* `littleEndian`, `ofLittleEndian`: a number in a fixed count of bytes, and back;
* `Bytes.words`: the 32-bit words of a byte string;
* `Bytes.ofText`, `Bytes.text?`: text and its bytes;
* `Bytes.slice?`: a part that must lie inside.
-/

namespace FlatNet

/-- A byte string. -/
abbrev Bytes := List UInt8

/-- The low `width` bytes of a number. -/
def littleEndian : Nat → Nat → Bytes
  | 0, _ => []
  | width + 1, n => UInt8.ofNat (n % 256) :: littleEndian width (n / 256)

/-- The number that bytes stand for. -/
def ofLittleEndian : Bytes → Nat
  | [] => 0
  | b :: rest => b.toNat + 256 * ofLittleEndian rest

@[simp] theorem length_littleEndian (width n : Nat) : (littleEndian width n).length = width := by
  induction width generalizing n with
  | zero => rfl
  | succ width ih => simp [littleEndian, ih]

/-- Reading back gives the number as far as the bytes hold it. -/
theorem ofLittleEndian_littleEndian (width n : Nat) :
    ofLittleEndian (littleEndian width n) = n % Nat.pow 256 width := by
  induction width generalizing n with
  | zero => simp [littleEndian, ofLittleEndian, Nat.mod_one]
  | succ width ih =>
    have low : n % 256 % 2 ^ 8 = n % 256 := Nat.mod_mod n 256
    have step : Nat.pow 256 (width + 1) = 256 * Nat.pow 256 width := Nat.mul_comm _ _
    simp only [littleEndian, ofLittleEndian, ih, UInt8.toNat_ofNat', low]
    rw [step, Nat.mod_mul]

namespace Bytes

/-- The bytes of a 32-bit word. -/
def ofWord (w : UInt32) : Bytes := littleEndian 4 w.toNat

/-- The 32-bit words after those in `acc`. -/
def wordsAfter (acc : Array UInt32) : Bytes → Array UInt32
  | a :: b :: c :: d :: rest => wordsAfter (acc.push (UInt32.ofNat (ofLittleEndian [a, b, c, d]))) rest
  | _ => acc

/-- The 32-bit words; bytes left over at the end are dropped. -/
def words (bs : Bytes) : List UInt32 := (wordsAfter #[] bs).toList

theorem wordsAfter_append (acc more : Array UInt32) (bs : Bytes) :
    wordsAfter (acc ++ more) bs = acc ++ wordsAfter more bs := by
  fun_induction wordsAfter more bs with
  | case1 more a b c d rest ih =>
    rw [wordsAfter, ← ih, Array.append_push]
  | case2 more bs h => exact wordsAfter.eq_2 _ _ h

/-- Four bytes make the first word. -/
theorem words_cons (a b c d : UInt8) (rest : Bytes) :
    words (a :: b :: c :: d :: rest) = UInt32.ofNat (ofLittleEndian [a, b, c, d]) :: words rest := by
  have split := wordsAfter_append #[UInt32.ofNat (ofLittleEndian [a, b, c, d])] #[] rest
  rw [Array.append_empty] at split
  rw [words, wordsAfter, List.push_toArray, List.nil_append, split]
  simp [words]

/-- The UTF-8 bytes of a text. -/
def ofText (s : String) : Bytes := s.toUTF8.data.toList

/-- The text of bytes that are UTF-8. -/
def text? (bs : Bytes) : Option String := String.fromUTF8? ⟨bs.toArray⟩

/-- The bytes of floating-point words, one after the other. -/
def ofSingles (xs : List Binary32) : Bytes := xs.flatMap fun x => ofWord x.bits

/-- The bytes from `start` up to `stop`, if the string holds them. -/
def slice? (bs : Bytes) (start stop : Nat) : Option Bytes :=
  if start ≤ stop ∧ stop ≤ bs.length then some ((bs.drop start).take (stop - start)) else none

/-- Bytes that read as text are the bytes of that text. -/
theorem text?_ofText (s : String) : text? (ofText s) = some s := by
  unfold text? ofText String.fromUTF8?
  rw [Array.toArray_toList]
  split
  · rfl
  · rename_i h
    exact absurd s.isValidUTF8 h

end Bytes

end FlatNet
