import FlatNet.Json.Reader
import Mathlib.Data.List.Forall2
import Mathlib.Tactic

/-!
Reading JSON text that was written here.

A text that is written by quoting, by decimal digits or between brackets and braces reads as
one known tree, whatever stands behind it.

* `Json.stringRest_escape`: an escaped character reads as one piece, and `Json.string?_pieces`
  gives a string back from its pieces;
* `Json.Numeral.number?_ofNat`: the digits of a size are a number;
* `Json.Tree.Reads`: a text that reads as a tree in front of anything that ends a numeral, with
  one rule for each way of writing: `reads_quote`, `reads_toString`, `reads_bracketed`,
  `reads_record`;
* `Json.Tree.parse?_append_spaces`: such a text with spaces behind it.
-/

namespace FlatNet.Json

open Json.Tree

/-! ### Strings -/

/-- The control characters that are escaped by a letter. -/
def lettered : List Char := ['\x08', '\x0c', '\n', '\r', '\t']

/-- The piece that a character is written as: control characters without a letter go by their
number. -/
def Piece.ofChar (c : Char) : Piece :=
  if c.toNat < 0x20 ∧ c ∉ lettered then .unit c.toNat else .char c

/-- The pieces of a string. -/
def pieces (s : String) : List Piece := s.toList.map Piece.ofChar

lemma hex?_digitChar {n : Nat} (small : n < 16) : Digit.hex? (Nat.digitChar n) = some n := by
  have all : ∀ k : Fin 16, Digit.hex? (Nat.digitChar k) = some k.val := by decide
  exact all ⟨n, small⟩

/-- The number of a control character reads back. -/
lemma hexUnit_hexPair {n : Nat} (small : n < 256) :
    hexUnit '0' '0' (Nat.digitChar (n / 16 % 16)) (Nat.digitChar (n % 16)) = some n := by
  have zero : Digit.hex? '0' = some 0 := by decide
  have high := hex?_digitChar (Nat.mod_lt (n / 16) (show 0 < 16 by decide))
  have low := hex?_digitChar (Nat.mod_lt n (show 0 < 16 by decide))
  simp only [hexUnit, zero, high, low, Option.bind_eq_bind, Option.bind_some, Option.some.injEq]
  omega

/-- An escaped character reads as one piece. -/
lemma stringRest_escape (acc : List Piece) (c : Char) (rest : List Char) :
    stringRest acc ((escape c).toList ++ rest) = stringRest (Piece.ofChar c :: acc) rest := by
  unfold escape Piece.ofChar
  split
  · rfl
  · rfl
  · rfl
  · rfl
  · rfl
  · rfl
  · rfl
  · rename_i quote backslash back feed line ret tab
    -- the seven letters are behind us
    have unlettered : c ∉ lettered := by
      simp only [lettered, List.mem_cons, List.not_mem_nil, or_false, not_or]
      exact ⟨back, feed, line, ret, tab⟩
    split
    · rename_i control
      have read := hexUnit_hexPair (n := c.toNat) (by omega)
      rw [if_pos ⟨control, unlettered⟩]
      simp only [hexPair, String.toList_append, String.toList_ofList, List.cons_append,
        List.nil_append, show ("\\u00" : String).toList = ['\\', 'u', '0', '0'] from rfl]
      rw [stringRest, read]
    · rename_i plain
      rw [if_neg fun both => plain both.1, Char.toString, String.toList_singleton,
        List.cons_append, List.nil_append, stringRest, if_neg plain]
      · exact quote
      · exact fun _ _ _ _ _ same _ => backslash same
      · exact fun _ _ same _ => backslash same

/-- What is written between quotes reads as its pieces. -/
lemma stringRest_chars (acc : List Piece) (cs rest : List Char) :
    stringRest acc ((cs.flatMap fun c => (escape c).toList) ++ '"' :: rest)
      = some (acc.reverse ++ cs.map Piece.ofChar, rest) := by
  induction cs generalizing acc with
  | nil => rw [List.flatMap_nil, List.nil_append, stringRest, List.map_nil, List.append_nil]
  | cons c cs ih =>
    rw [List.flatMap_cons, List.append_assoc, stringRest_escape, ih, List.reverse_cons,
      List.append_assoc, List.map_cons, List.singleton_append]

lemma toList_quote (s : String) :
    (quote s).toList = '"' :: ((s.toList.flatMap fun c => (escape c).toList) ++ ['"']) := by
  have folded : ∀ (cs : List Char) (start : String),
      (cs.foldl (fun acc c => acc ++ escape c) start).toList
        = start.toList ++ cs.flatMap fun c => (escape c).toList := by
    intro cs
    induction cs with
    | nil => exact fun start => (List.append_nil _).symm
    | cons c cs ih =>
      intro start
      rw [List.foldl_cons, ih, String.toList_append, List.append_assoc, List.flatMap_cons]
  rw [quote, String.toList_append, folded, show ("\"" : String).toList = ['"'] from rfl]
  rfl

/-- A piece gives its character back. -/
lemma chars?_cons_ofChar (c : Char) (rest : List Piece) :
    chars? (Piece.ofChar c :: rest) = (chars? rest).map (c :: ·) := by
  unfold Piece.ofChar
  split
  · rename_i control
    have low : ¬ 0xD800 ≤ c.toNat := by omega
    have notLow : ¬ (0xDC00 ≤ c.toNat ∧ c.toNat < 0xE000) := by omega
    rw [chars?.eq_def]
    dsimp only
    rw [if_neg fun both => low both.1, if_neg notLow, Char.ofNat_toNat]
  · rw [chars?]

/-- A string comes back from its pieces. -/
@[simp] lemma string?_pieces (s : String) : string? (pieces s) = some s := by
  have all : ∀ cs : List Char, chars? (cs.map Piece.ofChar) = some cs := by
    intro cs
    induction cs with
    | nil => rfl
    | cons c cs ih => rw [List.map_cons, chars?_cons_ofChar, ih, Option.map_some]
  rw [string?, pieces, all, Option.map_some, String.ofList_toList]

/-! ### Numbers -/

/-- Digits below the bound are all taken. -/
lemma takeDigits_eq (n : Nat) (ds : List Nat)
    (small : ds.foldl (fun acc d => acc * 10 + d) n < Size.bound) :
    takeDigits n ds = (ds.foldl (fun acc d => acc * 10 + d) n, ds.length, []) := by
  -- no value on the way exceeds the final one
  have grows : ∀ (ds : List Nat) (n : Nat), n ≤ ds.foldl (fun acc d => acc * 10 + d) n := by
    intro ds
    induction ds with
    | nil => exact le_refl
    | cons d ds ih =>
      intro n
      have later := ih (n * 10 + d)
      rw [List.foldl_cons]
      omega
  induction ds generalizing n with
  | nil => rfl
  | cons d ds ih =>
    rw [List.foldl_cons] at small ⊢
    have first : n * 10 + d < Size.bound := lt_of_le_of_lt (grows ds _) small
    rw [takeDigits, if_pos first, ih _ small, List.length_cons]

/-- The digits of a number form it. -/
lemma foldl_value_toDigits (n : Nat) :
    ((Nat.toDigits 10 n).map Digit.value).foldl (fun acc d => acc * 10 + d) 0 = n := by
  rw [List.foldl_map]
  calc (Nat.toDigits 10 n).foldl (fun acc c => acc * 10 + Digit.value c) 0
      = Nat.ofDigitChars 10 (Nat.toDigits 10 n) 0 := by
        rw [Nat.ofDigitChars_eq_foldl]
        congr 1
        funext acc c
        rw [Nat.mul_comm]
        rfl
    _ = n := Nat.ofDigitChars_ten_toDigits

/-- The numeral of a number. -/
def Numeral.ofNat (n : Nat) : Numeral := ⟨false, (Nat.toDigits 10 n).map Digit.value, none, none⟩

/-- The numeral of a size has its number. -/
lemma Numeral.number?_ofNat {n : Nat} (small : n < Size.bound) :
    (ofNat n).number? = some (.int n) := by
  have formed := foldl_value_toDigits n
  have taken := takeDigits_eq 0 ((Nat.toDigits 10 n).map Digit.value) (by rw [formed]; exact small)
  rw [formed] at taken
  simp only [number?, ofNat, taken]
  rfl

/-- What may stand behind a numeral without going on with it. -/
def Ended (rest : List Char) : Prop :=
  ∀ c ∈ rest.head?, c.isDigit = false ∧ c ≠ '.' ∧ c ≠ 'e' ∧ c ≠ 'E'

lemma Ended.comma (rest : List Char) : Ended (',' :: rest) := by
  rintro _ ⟨⟩
  decide

lemma Ended.bracket (rest : List Char) : Ended (']' :: rest) := by
  rintro _ ⟨⟩
  decide

lemma Ended.brace (rest : List Char) : Ended ('\x7d' :: rest) := by
  rintro _ ⟨⟩
  decide

/-- Only the number zero is written with a zero in front. -/
lemma toDigits_head_ne_zero {n : Nat} (pos : 0 < n) :
    ∃ d ds, (Nat.toDigits 10 n).map Digit.value = d :: ds ∧ d ≠ 0 := by
  induction n using Nat.strong_induction_on with
  | _ n ih =>
    by_cases small : n < 10
    · have all : ∀ k : Fin 10, Digit.value (Nat.digitChar k) = k.val := by decide
      refine ⟨n, [], ?_, by omega⟩
      rw [Nat.toDigits_of_lt_base small, List.map_singleton, all ⟨n, small⟩]
    · obtain ⟨d, ds, written, nonzero⟩ := ih (n / 10) (by omega) (by omega)
      refine ⟨d, ds ++ [Digit.value (Nat.digitChar (n % 10))], ?_, nonzero⟩
      rw [Nat.toDigits_of_base_le (by decide) (by omega), List.map_append, written]
      rfl

/-- The digits of a number are a whole part. -/
lemma wholePart_toDigits (n : Nat) {rest : List Char} (ended : Ended rest) :
    wholePart (Nat.toDigits 10 n ++ rest)
      = some ((Nat.toDigits 10 n).map Digit.value, rest) := by
  have isDigit : ∀ c ∈ Nat.toDigits 10 n, c.isDigit = true := fun c hc =>
    Nat.isDigit_of_mem_toDigits (by decide) (by decide) hc
  have stops : rest.takeWhile Char.isDigit = [] ∧ rest.dropWhile Char.isDigit = rest := by
    cases rest with
    | nil => exact ⟨rfl, rfl⟩
    | cons c rest =>
      have other := (ended c rfl).1
      rw [List.takeWhile_cons_of_neg (by simp [other]), List.dropWhile_cons_of_neg (by simp [other])]
      exact ⟨rfl, rfl⟩
  have read : digits (Nat.toDigits 10 n ++ rest) = ((Nat.toDigits 10 n).map Digit.value, rest) := by
    rw [digits, List.takeWhile_append_of_pos isDigit, List.dropWhile_append_of_pos isDigit,
      stops.1, stops.2, List.append_nil]
  rw [wholePart, read]
  -- a leading zero is read only if it stands alone
  rcases Nat.eq_zero_or_pos n with rfl | pos
  · rfl
  · obtain ⟨d, ds, written, nonzero⟩ := toDigits_head_ne_zero pos
    rw [written]
    split
    · rename_i same
      cases same
    · rename_i same
      cases same
      exact absurd rfl nonzero
    · rfl

/-- The digits of a number are its numeral. -/
lemma numeral_toDigits (n : Nat) {rest : List Char} (ended : Ended rest) :
    numeral (Nat.toDigits 10 n ++ rest) = some (Numeral.ofNat n, rest) := by
  -- no sign, no fraction and no exponent, so only the digits are read
  have unsigned : ∀ cs, Nat.toDigits 10 n ++ rest ≠ '-' :: cs := by
    intro cs same
    cases written : Nat.toDigits 10 n with
    | nil => exact Nat.toDigits_ne_nil written
    | cons c ds =>
      have isDigit := Nat.isDigit_of_mem_toDigits (b := 10) (n := n) (by decide) (by decide)
        (written ▸ List.mem_cons_self .. : c ∈ Nat.toDigits 10 n)
      rw [written, List.cons_append, List.cons.injEq] at same
      rw [same.1] at isDigit
      exact absurd isDigit (by decide)
  have fraction : fractionPart rest = some (none, rest) := by
    cases rest with
    | nil => rfl
    | cons c rest =>
      rw [fractionPart]
      rintro _ ⟨⟩
      exact (ended '.' rfl).2.1 rfl
  have exponent : exponentPart rest = some (none, rest) := by
    cases rest with
    | nil => rfl
    | cons c rest =>
      obtain ⟨-, -, lower, upper⟩ := ended c rfl
      unfold exponentPart
      dsimp only
      rw [if_neg (not_or.2 ⟨lower, upper⟩)]
  unfold numeral
  split
  rename_i sign
  split at sign
  · rename_i same
    exact absurd same (unsigned _)
  · cases sign
    simp only [wholePart_toDigits n ended, fraction, exponent, Option.bind_eq_bind,
      Option.bind_some, Numeral.ofNat]

/-! ### Values -/

namespace Tree

/-- A text that reads as a tree whatever stands behind it, as long as that ends a numeral.  It
starts with a character of its own, so it is not taken for the end of an array. -/
structure Reads (s : String) (t : Tree) : Prop where
  /-- The first character. -/
  head : ∃ c cs, s.toList = c :: cs ∧ isBlank c = false ∧ c ≠ ']'
  /-- What is read. -/
  read : ∀ fuel rest, 2 * s.toList.length ≤ fuel → Ended rest →
    Tree.value fuel (s.toList ++ rest) = some (t, rest)

lemma skipBlank_cons {c : Char} (plain : isBlank c = false) (cs : List Char) :
    skipBlank (c :: cs) = c :: cs :=
  List.dropWhile_cons_of_neg (by rw [plain]; exact Bool.false_ne_true)

/-- The tree of a string. -/
def ofText (s : String) : Tree := .string (pieces s)

/-- The tree of named trees. -/
def record (ms : Members) : Tree := .object (ms.map fun p => (pieces p.1, p.2))

/-- The tree of a size. -/
def ofNat (n : Nat) : Tree := .number (.ofNat n)

@[simp] lemma text?_ofText (s : String) : (ofText s).text? = some s := string?_pieces s

lemma size?_ofNat {n : Nat} (small : n < Size.bound) : (ofNat n).size? = some n := by
  simp [ofNat, size?, Numeral.number?_ofNat small]

/-! #### Single steps -/

lemma value_quote (fuel : Nat) (rest : List Char) :
    value (fuel + 1) ('"' :: rest) = (stringRest [] rest).map fun p => (.string p.1, p.2) := by
  rw [value, skipBlank_cons (by decide)]
  rfl

/-- Reading goes on with the items of an array that has some. -/
lemma value_bracket (fuel : Nat) {c : Char} (cs : List Char) (plain : isBlank c = false)
    (open? : c ≠ ']') : value (fuel + 1) ('[' :: c :: cs) = items fuel [] (c :: cs) := by
  rw [value, skipBlank_cons (by decide)]
  split
  case h_2 same =>
    cases same
    rw [skipBlank_cons plain]
    split
    · rename_i same
      exact absurd (List.cons.inj same).1 open?
    · rfl
  case h_7 other _ _ _ _ => exact absurd rfl (other _)
  all_goals
    rename_i same
    exact absurd (List.cons.inj same).1 (by decide)

lemma items_comma {fuel : Nat} (acc : List Tree) {cs rest : List Char} {t : Tree}
    (h : value fuel cs = some (t, ',' :: rest)) :
    items (fuel + 1) acc cs = items fuel (t :: acc) rest := by
  rw [items, h]
  rfl

lemma items_close {fuel : Nat} (acc : List Tree) {cs rest : List Char} {t : Tree}
    (h : value fuel cs = some (t, ']' :: rest)) :
    items (fuel + 1) acc cs = some (.array (t :: acc).reverse, rest) := by
  rw [items, h]
  rfl

/-- Reading goes on with the members of an object that has some. -/
lemma value_brace (fuel : Nat) (rest : List Char) :
    value (fuel + 1) ('\x7b' :: '"' :: rest) = members fuel [] ('"' :: rest) := by
  rw [value, skipBlank_cons (by decide)]
  rfl

/-- What follows the value of a member decides whether there is another one. -/
lemma members_step {fuel : Nat} {acc : List (List Piece × Tree)} {key : String} {c : Char}
    {cs rest : List Char} {t : Tree} {r : Option (Tree × List Char)}
    (h : value fuel cs = some (t, c :: rest))
    (after : c = ',' ∧ r = members fuel ((pieces key, t) :: acc) rest ∨
      c = '\x7d' ∧ r = some (.object ((pieces key, t) :: acc).reverse, rest)) :
    members (fuel + 1) acc ((quote key).toList ++ ':' :: cs) = r := by
  rw [toList_quote, List.cons_append, List.append_assoc, List.singleton_append, members,
    skipBlank_cons (by decide)]
  split
  · rename_i same
    cases same
    rw [stringRest_chars]
    dsimp only
    rw [skipBlank_cons (by decide)]
    split
    · rename_i same
      cases same
      rw [h]
      obtain ⟨rfl, rfl⟩ | ⟨rfl, rfl⟩ := after <;> rfl
    · rename_i other
      exact absurd rfl (other _)
  · rename_i other
    exact absurd rfl (other _)

/-! #### Ways of writing -/

/-- A quoted string reads as its pieces. -/
lemma reads_quote (s : String) : Reads (quote s) (ofText s) where
  head := ⟨_, _, toList_quote s, by decide, by decide⟩
  read := by
    intro fuel rest enough _
    rw [toList_quote] at enough ⊢
    cases fuel with
    | zero => simp at enough
    | succ fuel =>
      rw [List.cons_append, List.append_assoc, List.singleton_append, value_quote,
        stringRest_chars]
      rfl

/-- A number reads as its digits. -/
lemma reads_toString (n : Nat) : Reads (toString n) (ofNat n) := by
  have written : (toString n).toList = Nat.toDigits 10 n := Nat.toList_repr
  obtain ⟨c, ds, split⟩ := List.exists_cons_of_ne_nil (Nat.toDigits_ne_nil (n := n) (b := 10))
  have digit : c.isDigit = true := Nat.isDigit_of_mem_toDigits (b := 10) (n := n) (by decide)
    (by decide) (split ▸ List.mem_cons_self ..)
  -- a digit opens none of the other forms of a value
  have other : ∀ d : Char, d.isDigit = false → c ≠ d := by
    rintro d no rfl
    rw [digit] at no
    cases no
  have plain : isBlank c = false := by
    simp only [isBlank, Bool.or_eq_false_iff, decide_eq_false_iff_not]
    exact ⟨⟨⟨other _ (by decide), other _ (by decide)⟩, other _ (by decide)⟩, other _ (by decide)⟩
  constructor
  · exact ⟨c, ds, written.trans split, plain, other _ (by decide)⟩
  · intro fuel rest enough ended
    have whole := numeral_toDigits n ended
    rw [written, split] at *
    cases fuel with
    | zero => simp at enough
    | succ fuel =>
      rw [List.cons_append] at whole ⊢
      rw [value, skipBlank_cons plain]
      split
      case h_7 =>
        rw [whole]
        rfl
      all_goals
        rename_i same
        exact absurd (List.cons.inj same).1 (other _ (by decide))

/-- The three words read as themselves. -/
lemma reads_null : Reads "null" .null where
  head := ⟨'n', ['u', 'l', 'l'], rfl, by decide, by decide⟩
  read := by
    rintro (_ | fuel) rest enough _
    · exact absurd enough (by decide)
    · rfl

lemma reads_bool (b : Bool) : Reads (if b then "true" else "false") (.bool b) := by
  cases b with
  | false =>
    refine ⟨⟨'f', ['a', 'l', 's', 'e'], rfl, by decide, by decide⟩, ?_⟩
    rintro (_ | fuel) rest enough _
    · exact absurd enough (by decide)
    · rfl
  | true =>
    refine ⟨⟨'t', ['r', 'u', 'e'], rfl, by decide, by decide⟩, ?_⟩
    rintro (_ | fuel) rest enough _
    · exact absurd enough (by decide)
    · rfl

/-- Joined texts start as the first one does. -/
lemma intercalate_cons_head (c : Char) (cs : List Char) (rest : List (List Char)) :
    ∃ tail, [','].intercalate ((c :: cs) :: rest) = c :: tail := by
  cases rest with
  | nil => exact ⟨cs, List.intercalate_singleton⟩
  | cons next rest =>
    exact ⟨cs ++ [','] ++ [','].intercalate (next :: rest), List.intercalate_cons_cons⟩

/-- Texts with commas between them are read one after the other.  An item is shorter than what
is left by at least its comma, so the fuel for what is left is enough for it. -/
lemma items_intercalate {ss : List String} {ts : List Tree} (h : List.Forall₂ Reads ss ts)
    (some? : ss ≠ []) (fuel : Nat) (acc : List Tree) (rest : List Char)
    (enough : 2 * ([','].intercalate (ss.map String.toList)).length + 1 ≤ fuel) :
    items fuel acc ([','].intercalate (ss.map String.toList) ++ ']' :: rest)
      = some (.array (acc.reverse ++ ts), rest) := by
  induction h generalizing fuel acc with
  | nil => exact absurd rfl some?
  | @cons s t ss ts first later ih =>
    obtain ⟨fuel, rfl⟩ := Nat.exists_eq_add_of_lt (lt_of_lt_of_le (Nat.succ_pos _) enough)
    rw [Nat.zero_add] at enough ⊢
    cases later with
    | nil =>
      rw [List.map_singleton, List.intercalate_singleton] at enough ⊢
      rw [items_close acc (first.read fuel _ (by omega) (Ended.bracket rest)), List.reverse_cons]
    | @cons s' t' ss ts second later =>
      rw [List.map_cons, List.map_cons, List.intercalate_cons_cons, ← List.map_cons] at enough ⊢
      simp only [List.length_append, List.length_cons, List.length_nil] at enough
      rw [List.append_assoc, List.append_assoc, List.singleton_append,
        items_comma acc (first.read fuel _ (by omega) (Ended.comma _)),
        ih (List.cons_ne_nil _ _) fuel (t :: acc) (by omega), List.reverse_cons,
        List.append_assoc, List.singleton_append]

lemma toList_bracketed (ss : List String) :
    (bracketed ss).toList = '[' :: ([','].intercalate (ss.map String.toList) ++ [']']) := by
  rw [bracketed, String.toList_append, String.toList_append, String.toList_intercalate]
  rfl

/-- Texts between brackets read as an array. -/
lemma reads_bracketed {ss : List String} {ts : List Tree} (h : List.Forall₂ Reads ss ts) :
    Reads (bracketed ss) (.array ts) where
  head := ⟨_, _, toList_bracketed ss, by decide, by decide⟩
  read := by
    intro fuel rest enough _
    rw [toList_bracketed] at enough ⊢
    simp only [List.length_cons, List.length_append, List.length_nil] at enough
    obtain ⟨fuel, rfl⟩ := Nat.exists_eq_add_of_lt (lt_of_lt_of_le (Nat.succ_pos _) enough)
    rw [Nat.zero_add] at enough ⊢
    rw [List.cons_append, List.append_assoc, List.singleton_append]
    cases h with
    | nil =>
      rw [value, skipBlank_cons (by decide)]
      rfl
    | @cons s t ss ts first later =>
      have whole := items_intercalate (.cons first later) (List.cons_ne_nil s ss) fuel [] rest
        (by omega)
      obtain ⟨c, cs, start, plain, open?⟩ := first.head
      obtain ⟨tail, split⟩ : ∃ tail,
          [','].intercalate ((s :: ss).map String.toList) = c :: tail := by
        rw [List.map_cons, start]
        exact intercalate_cons_head c cs _
      rw [split, List.cons_append] at whole ⊢
      rw [value_bracket _ _ plain open?, whole]
      rfl

/-- Sizes between brackets read as an array of sizes. -/
lemma reads_sizes (ns : List Nat) :
    Reads (bracketed (ns.map toString)) (.array (ns.map ofNat)) := by
  refine reads_bracketed (List.forall₂_map_left_iff.2 (List.forall₂_map_right_iff.2 ?_))
  exact List.forall₂_same.2 fun n _ => reads_toString n

/-- A member as it is written. -/
def memberText (p : String × String) : String := quote p.1 ++ ":" ++ p.2

/-- A member that is read: its key, and its value. -/
def ReadsMember (p : String × String) (q : List Piece × Tree) : Prop :=
  q.1 = pieces p.1 ∧ Reads p.2 q.2

lemma toList_memberText (p : String × String) :
    (memberText p).toList = (quote p.1).toList ++ ':' :: p.2.toList := by
  rw [memberText, String.toList_append, String.toList_append, List.append_assoc]
  rfl

/-- Members with commas between them are read one after the other. -/
lemma members_intercalate {ms : List (String × String)} {qs : List (List Piece × Tree)}
    (h : List.Forall₂ ReadsMember ms qs) (some? : ms ≠ []) (fuel : Nat)
    (acc : List (List Piece × Tree)) (rest : List Char)
    (enough : 2 * ([','].intercalate (ms.map fun p => (memberText p).toList)).length + 1 ≤ fuel) :
    members fuel acc ([','].intercalate (ms.map fun p => (memberText p).toList) ++ '\x7d' :: rest)
      = some (.object (acc.reverse ++ qs), rest) := by
  -- over the members; the last is followed by a brace, all others by a comma
  induction h generalizing fuel acc with
  | nil => exact absurd rfl some?
  | @cons p q ms qs first later ih =>
    obtain ⟨key, t⟩ := q
    obtain ⟨rfl, first⟩ : key = pieces p.1 ∧ Reads p.2 t := first
    obtain ⟨fuel, rfl⟩ := Nat.exists_eq_add_of_lt (lt_of_lt_of_le (Nat.succ_pos _) enough)
    rw [Nat.zero_add] at enough ⊢
    cases later with
    | nil =>
      rw [List.map_singleton, List.intercalate_singleton, toList_memberText] at enough ⊢
      simp only [List.length_append, List.length_cons] at enough
      rw [List.append_assoc, List.cons_append]
      refine members_step (first.read fuel _ (by omega) (Ended.brace rest)) (.inr ⟨rfl, ?_⟩)
      rw [List.reverse_cons]
    | @cons p' q' ms qs second later =>
      rw [List.map_cons, List.map_cons, List.intercalate_cons_cons,
        ← List.map_cons (f := fun p => (memberText p).toList), toList_memberText] at enough ⊢
      simp only [List.length_append, List.length_cons, List.length_nil] at enough
      simp only [List.append_assoc, List.cons_append, List.nil_append]
      refine members_step (first.read fuel _ (by omega) (Ended.comma _)) (.inl ⟨rfl, ?_⟩)
      rw [ih (List.cons_ne_nil _ _) fuel _ (by omega), List.reverse_cons, List.append_assoc,
        List.singleton_append]

lemma toList_braced (ms : List (String × String)) :
    (braced ms).toList
      = '\x7b' :: ([','].intercalate (ms.map fun p => (memberText p).toList) ++ ['\x7d']) := by
  rw [braced, String.toList_append, String.toList_append, String.toList_intercalate, List.map_map]
  rfl

/-- Named texts between braces read as an object. -/
lemma reads_braced {ms : List (String × String)} {qs : List (List Piece × Tree)}
    (h : List.Forall₂ ReadsMember ms qs) : Reads (braced ms) (.object qs) where
  head := ⟨_, _, toList_braced ms, by decide, by decide⟩
  read := by
    intro fuel rest enough _
    rw [toList_braced] at enough ⊢
    simp only [List.length_cons, List.length_append, List.length_nil] at enough
    obtain ⟨fuel, rfl⟩ := Nat.exists_eq_add_of_lt (lt_of_lt_of_le (Nat.succ_pos _) enough)
    rw [Nat.zero_add] at enough ⊢
    rw [List.cons_append, List.append_assoc, List.singleton_append]
    cases h with
    | nil =>
      rw [value, skipBlank_cons (by decide)]
      rfl
    | @cons p q ms qs first later =>
      have whole := members_intercalate (.cons first later) (List.cons_ne_nil p ms) fuel [] rest
        (by omega)
      obtain ⟨tail, split⟩ : ∃ tail,
          [','].intercalate ((p :: ms).map fun p => (memberText p).toList) = '"' :: tail := by
        rw [List.map_cons, toList_memberText, toList_quote, List.cons_append]
        exact intercalate_cons_head ..
      rw [split, List.cons_append] at whole ⊢
      rw [value_brace, whole]
      rfl

/-- Named texts between braces read as a record of the same names. -/
lemma reads_record {ms : List (String × String)} {ts : Members}
    (h : List.Forall₂ (fun p q => p.1 = q.1 ∧ Reads p.2 q.2) ms ts) :
    Reads (braced ms) (record ts) := by
  refine reads_braced (List.forall₂_map_right_iff.2 (h.imp fun p q hpq => ?_))
  exact ⟨congrArg pieces hpq.1.symm, hpq.2⟩

/-- A text that reads as a tree is that tree, also with spaces behind it. -/
theorem parse?_append_spaces {s : String} {t : Tree} (h : Reads s t) (spaces : Nat) :
    parse? (s ++ String.ofList (List.replicate spaces ' ')) = some t := by
  have blank : skipBlank (List.replicate spaces ' ') = [] := by
    simp [skipBlank, isBlank]
  have ended : Ended (List.replicate spaces ' ') := by
    cases spaces with
    | zero => exact fun _ hc => absurd hc (by simp)
    | succ spaces =>
      rintro _ ⟨⟩
      decide
  have read := h.read (2 * (s.toList ++ List.replicate spaces ' ').length + 2)
    (List.replicate spaces ' ') (by rw [List.length_append]; omega) ended
  simp only [parse?, String.toList_append, String.toList_ofList, read, blank, List.isEmpty_nil,
    if_true]

/-- A text that reads as a tree is that tree. -/
lemma parse?_of_reads {s : String} {t : Tree} (h : Reads s t) : parse? s = some t := by
  have spaces := parse?_append_spaces h 0
  rwa [show String.ofList (List.replicate 0 ' ') = "" from rfl, String.append_empty] at spaces

/-! ### Parts of what is read -/

/-- The members of a record. -/
lemma record?_record {depth : Nat} (ms : Members) (deep : 1 < depth) :
    (record ms).record? depth = some ms := by
  have all : ∀ ms : Members,
      (ms.map fun p => (pieces p.1, p.2)).mapM
        (fun p => (string? p.1).map fun k => (k, p.2)) = some ms := by
    intro ms
    induction ms with
    | nil => rfl
    | cons p ms ih =>
      rw [List.map_cons, List.mapM_cons, ih, string?_pieces]
      rfl
  rw [record, record?, if_neg (by omega), all]

/-- The items of an array that is written item by item. -/
lemma list?_array {α β : Type} {depth : Nat} (deep : 1 < depth) (item : Nat → Tree → Option α)
    (tree : β → Tree) (value : β → α) {xs : List β}
    (h : ∀ x ∈ xs, item (depth - 1) (tree x) = some (value x)) :
    (Tree.array (xs.map tree)).list? depth item = some (xs.map value) := by
  rw [list?, if_neg (by omega)]
  induction xs with
  | nil => rfl
  | cons x xs ih =>
    rw [List.forall_mem_cons] at h
    rw [List.map_cons, List.mapM_cons, h.1, ih h.2]
    rfl

/-- The sizes of an array of sizes. -/
lemma sizes?_array {depth : Nat} (deep : 1 < depth) (ns : List Nat)
    (small : ∀ n ∈ ns, n < Size.bound) :
    (Tree.array (ns.map ofNat)).list? depth (fun _ => size?) = some ns := by
  have read := list?_array deep (fun _ => size?) ofNat id fun n hn => size?_ofNat (small n hn)
  rwa [List.map_id] at read

/-- An array of values has a value. -/
lemma values?_isSome {depth : Nat} {ts : List Tree} (h : ∀ t ∈ ts, (value? depth t).isSome) :
    (values? depth ts).isSome := by
  induction ts with
  | nil => rfl
  | cons t ts ih =>
    rw [List.forall_mem_cons] at h
    obtain ⟨j, first⟩ := Option.isSome_iff_exists.1 h.1
    obtain ⟨js, later⟩ := Option.isSome_iff_exists.1 (ih h.2)
    rw [values?, first, later]
    rfl

/-- An array of sizes has a value. -/
lemma value?_sizes {depth : Nat} (deep : 1 < depth) {ns : List Nat}
    (small : ∀ n ∈ ns, n < Size.bound) : ((Tree.array (ns.map ofNat)).value? depth).isSome := by
  have each : ∀ t ∈ ns.map ofNat, (value? (depth - 1) t).isSome := by
    intro t ht
    obtain ⟨n, hn, rfl⟩ := List.mem_map.1 ht
    rw [ofNat, value?, Numeral.number?_ofNat (small n hn)]
    rfl
  obtain ⟨js, read⟩ := Option.isSome_iff_exists.1 (values?_isSome each)
  rw [value?, if_neg (by omega), read]
  rfl

lemma value?_ofText (depth : Nat) (s : String) : value? depth (ofText s) = some (.str s) := by
  rw [ofText, value?, string?_pieces]
  rfl

/-- A record of values has a value. -/
lemma value?_record {depth : Nat} {ms : Members} (deep : 1 < depth)
    (h : ∀ p ∈ ms, (value? (depth - 1) p.2).isSome) : ((record ms).value? depth).isSome := by
  have all : ∃ js, members? (depth - 1) (ms.map fun p => (pieces p.1, p.2)) = some js := by
    induction ms with
    | nil => exact ⟨[], rfl⟩
    | cons p ms ih =>
      rw [List.forall_mem_cons] at h
      obtain ⟨j, first⟩ := Option.isSome_iff_exists.1 h.1
      obtain ⟨js, later⟩ := ih h.2
      refine ⟨(p.1, j) :: js, ?_⟩
      rw [List.map_cons, members?, string?_pieces, first, later]
  obtain ⟨js, read⟩ := all
  rw [record, value?, if_neg (by omega), read]
  rfl

/-- A member is found if no other one has its name. -/
lemma Members.find?_of_unique (before after : Members) {name : String} {t : Tree}
    (first : ∀ p ∈ before, p.1 ≠ name) (last : ∀ p ∈ after, p.1 ≠ name) :
    find? (before ++ (name, t) :: after) name = some (some t) := by
  have none₁ : before.filter (·.1 = name) = [] :=
    List.filter_eq_nil_iff.2 fun p hp => by simpa using first p hp
  have none₂ : after.filter (·.1 = name) = [] :=
    List.filter_eq_nil_iff.2 fun p hp => by simpa using last p hp
  rw [find?, List.filter_append, none₁, List.filter_cons_of_pos (by simp), none₂]
  rfl

end Tree

end FlatNet.Json
