import FlatNet.Bytes
import Mathlib.Tactic

/-!
Parts of byte strings.

* `Bytes.slice?_append`: a part between two others is found at its place;
* `Bytes.slice?_eq_some_iff`: a part is cut out of a string;
* `Bytes.words_ofWord_append`, `Bytes.words_flatMap_ofWord`: words read back;
* `Bytes.length_words`: four bytes make a word;
* `Bytes.ofSingles_words`: bytes that make up words are the bytes of these words;
* `Bytes.words_drop`, `Bytes.ofSingles_drop`: parts of words one after the other;
* `Bytes.element`: the bytes of an element;
* `Bytes.ofText_append`: texts one after the other;
* `Bytes.ofText_of_text?`: a text is made of the bytes it was read from.
-/

namespace FlatNet.Bytes

/-- The part between two others starts where the first one ends. -/
lemma slice?_append (before part rest : Bytes) :
    slice? (before ++ part ++ rest) before.length (before.length + part.length) = some part := by
  have room : before.length + part.length ≤ (before ++ part ++ rest).length := by simp
  rw [slice?, if_pos ⟨Nat.le_add_right _ _, room⟩, List.append_assoc, List.drop_left,
    Nat.add_sub_cancel_left, List.take_left]

lemma slice?_eq_some_iff {bs part : Bytes} {start stop : Nat} :
    slice? bs start stop = some part ↔
      (start ≤ stop ∧ stop ≤ bs.length) ∧ (bs.drop start).take (stop - start) = part := by
  rw [slice?, Option.ite_none_right_eq_some]
  simp

/-! ### Words -/

lemma words_of_short {bs : Bytes} (h : bs.length < 4) : words bs = [] := by
  match bs, h with
  | [], _ => rfl
  | [_], _ => rfl
  | [_, _], _ => rfl
  | [_, _, _], _ => rfl

/-- Every four bytes make a word, and bytes left over make none. -/
lemma length_words (bs : Bytes) : (words bs).length = bs.length / 4 := by
  match bs with
  | a :: b :: c :: d :: rest =>
    rw [words_cons, List.length_cons, length_words rest]
    simp only [List.length_cons]
    omega
  | [] | [_] | [_, _] | [_, _, _] => simp [words_of_short]

/-- The bytes of a word in front make the first word. -/
lemma words_ofWord_append (w : UInt32) (rest : Bytes) :
    words (ofWord w ++ rest) = w :: words rest := by
  have back : ofLittleEndian (ofWord w) = w.toNat := by
    rw [ofWord, ofLittleEndian_littleEndian]
    exact Nat.mod_eq_of_lt w.toNat_lt
  have four : ∃ a b c d, ofWord w = [a, b, c, d] := ⟨_, _, _, _, rfl⟩
  obtain ⟨a, b, c, d, four⟩ := four
  rw [four] at back ⊢
  rw [List.cons_append, List.cons_append, List.cons_append, List.cons_append, List.nil_append,
    words_cons, back, UInt32.ofNat_toNat]

/-- Words stored one after the other read back. -/
lemma words_flatMap_ofWord (ws : List UInt32) : words (ws.flatMap ofWord) = ws := by
  induction ws with
  | nil => rfl
  | cons w ws ih => rw [List.flatMap_cons, words_ofWord_append, ih]

lemma words_ofSingles (xs : List Binary32) : (words (ofSingles xs)).map Binary32.mk = xs := by
  have stored : ofSingles xs = (xs.map Binary32.bits).flatMap ofWord := by
    rw [ofSingles, List.flatMap_map]
  rw [stored, words_flatMap_ofWord, List.map_map]
  exact List.map_id xs

@[simp] lemma length_ofWord (w : UInt32) : (ofWord w).length = 4 := length_littleEndian 4 w.toNat

@[simp] lemma length_ofSingles (xs : List Binary32) : (ofSingles xs).length = 4 * xs.length := by
  induction xs with
  | nil => rfl
  | cons x xs ih =>
    rw [ofSingles, List.flatMap_cons, List.length_append, length_ofWord, List.length_cons]
    rw [ofSingles] at ih
    omega

lemma ofLittleEndian_lt (bs : Bytes) : ofLittleEndian bs < 256 ^ bs.length := by
  induction bs with
  | nil => exact Nat.one_pos
  | cons b bs ih =>
    have low := b.toNat_lt
    rw [ofLittleEndian, List.length_cons, Nat.pow_succ]
    omega

/-- Bytes are those of the number that they stand for. -/
lemma littleEndian_ofLittleEndian (bs : Bytes) :
    littleEndian bs.length (ofLittleEndian bs) = bs := by
  induction bs with
  | nil => rfl
  | cons b bs ih =>
    have low := b.toNat_lt
    rw [ofLittleEndian, List.length_cons, littleEndian, Nat.add_mul_mod_self_left,
      Nat.mod_eq_of_lt low, UInt8.ofNat_toNat, Nat.add_mul_div_left _ _ (by decide),
      Nat.div_eq_of_lt low, Nat.zero_add, ih]

/-- Four bytes are those of their word. -/
lemma ofWord_ofLittleEndian {bs : Bytes} (four : bs.length = 4) :
    ofWord (UInt32.ofNat (ofLittleEndian bs)) = bs := by
  have small := ofLittleEndian_lt bs
  have back := littleEndian_ofLittleEndian bs
  rw [four] at small back
  rw [ofWord, UInt32.toNat_ofNat_of_lt' small, back]

/-- Bytes that make up words are the bytes of these words. -/
lemma ofSingles_words {n : Nat} {bs : Bytes} (h : bs.length = 4 * n) :
    ofSingles ((words bs).map Binary32.mk) = bs := by
  induction n generalizing bs with
  | zero =>
    rw [List.eq_nil_of_length_eq_zero h]
    rfl
  | succ n ih =>
    match bs, h with
    | a :: b :: c :: d :: rest, h =>
      have length : rest.length = 4 * n := by
        simp only [List.length_cons] at h
        omega
      have later := ih length
      rw [ofSingles] at later
      rw [words_cons, ofSingles, List.map_cons, List.flatMap_cons, later,
        ofWord_ofLittleEndian rfl]
      rfl

/-! ### Parts of words -/

lemma ofSingles_cons (x : Binary32) (xs : List Binary32) (n : Nat) :
    ofSingles (x :: xs) = ofWord x.bits ++ ofSingles xs ∧
      4 * (n + 1) = (ofWord x.bits).length + 4 * n := by
  rw [length_ofWord]
  exact ⟨List.flatMap_cons .., by omega⟩

lemma ofSingles_drop (xs : List Binary32) (n : Nat) :
    (ofSingles xs).drop (4 * n) = ofSingles (xs.drop n) := by
  induction n generalizing xs with
  | zero => rfl
  | succ n ih =>
    cases xs with
    | nil => simp [ofSingles]
    | cons x xs =>
      obtain ⟨split, skip⟩ := ofSingles_cons x xs n
      rw [split, skip, List.drop_length_add_append, ih, List.drop_succ_cons]

lemma ofSingles_take (xs : List Binary32) (n : Nat) :
    (ofSingles xs).take (4 * n) = ofSingles (xs.take n) := by
  induction n generalizing xs with
  | zero => simp [ofSingles]
  | succ n ih =>
    cases xs with
    | nil => simp [ofSingles]
    | cons x xs =>
      obtain ⟨split, skip⟩ := ofSingles_cons x xs n
      rw [split, skip, List.take_length_add_append, ih, List.take_succ_cons]
      rfl

/-- The four bytes of an element. -/
def element (bs : Bytes) (n : Nat) : Bytes := (bs.drop (4 * n)).take 4

/-- An element of words one after the other is that of a word. -/
lemma element_ofSingles (xs : List Binary32) (n : Nat) :
    element (ofSingles xs) n = (xs[n]?.map fun x => ofWord x.bits).getD [] := by
  induction xs generalizing n with
  | nil => simp [element, ofSingles]
  | cons x xs ih =>
    have split : ofSingles (x :: xs) = ofWord x.bits ++ ofSingles xs := List.flatMap_cons ..
    rw [element, split]
    cases n with
    | zero => exact List.take_left' (length_ofWord x.bits)
    | succ n =>
      have skip : 4 * (n + 1) = (ofWord x.bits).length + 4 * n := by
        rw [length_ofWord]
        omega
      rw [skip, List.drop_length_add_append]
      exact ih n

/-! ### Texts -/

/-- The bytes of two texts, one after the other. -/
lemma ofText_append (s t : String) : ofText (s ++ t) = ofText s ++ ofText t := by
  simp [ofText]

/-- Bytes that read as a text are those of the text. -/
lemma ofText_of_text? {bs : Bytes} {s : String} (h : text? bs = some s) : ofText s = bs := by
  unfold text? String.fromUTF8? at h
  split at h
  · obtain rfl := Option.some.inj h
    rfl
  · cases h

/-- A space is one byte. -/
lemma ofText_spaces (n : Nat) :
    ofText (String.ofList (List.replicate n ' ')) = List.replicate n 32 := by
  induction n with
  | zero => rfl
  | succ n ih =>
    have next : String.ofList (List.replicate (n + 1) ' ')
        = String.ofList [' '] ++ String.ofList (List.replicate n ' ') := by
      rw [← String.ofList_append]
      rfl
    rw [next, ofText_append, ih]
    rfl

/-- The bytes of a text are those of its characters. -/
lemma length_ofText (s : String) : (ofText s).length = (s.toList.map Char.utf8Size).sum := by
  have single : ∀ c : Char, (ofText (String.ofList [c])).length = c.utf8Size := by
    intro c
    simp [ofText, List.utf8Encode_singleton]
  have all : ∀ cs : List Char, (ofText (String.ofList cs)).length = (cs.map Char.utf8Size).sum := by
    intro cs
    induction cs with
    | nil => rfl
    | cons c cs ih =>
      have next : String.ofList (c :: cs) = String.ofList [c] ++ String.ofList cs := by
        rw [← String.ofList_append]
        rfl
      rw [next, ofText_append, List.length_append, single, ih, List.map_cons, List.sum_cons]
  rw [← all, String.ofList_toList]

end FlatNet.Bytes
