import FlatNet.Proofs.Archive.RoundTrip

/-!
Archives with their texts in another order.

The texts of an archive are kept in a table without an order, and are written as they come.  The
header has the same length in every order, and a reader finds the texts by their names, so the
same is made of all of these archives.

* `Json.Tree.length_ofText_braced`: the bytes of an object, counted by its members;
* `Archive.length_headerBytes_of_perm`: the length of the header;
* `Archive.decode_of_long`: headers that are too long;
* `Archive.decode_encode_of_perm`: archives with the same texts are read alike.
-/

namespace FlatNet

/-- Lists with another one between them, by the weights of their members. -/
lemma sum_map_intercalate {α : Type} (weight : α → Nat) (sep : List α) (xss : List (List α)) :
    ((sep.intercalate xss).map weight).sum
      = (xss.map fun xs => (xs.map weight).sum).sum + (xss.length - 1) * (sep.map weight).sum := by
  induction xss with
  | nil => simp
  | cons xs rest ih =>
    cases rest with
    | nil => simp
    | cons ys rest =>
      rw [List.intercalate_cons_cons, List.map_append, List.map_append, List.sum_append,
        List.sum_append, ih]
      simp only [List.map_cons, List.sum_cons, List.length_cons, Nat.add_sub_cancel, Nat.add_mul]
      omega

namespace Json.Tree

/-- The bytes of a member are those of its key, of a colon and of its text. -/
lemma length_ofText_memberText (p : String × String) :
    (Bytes.ofText (memberText p)).length
      = (Bytes.ofText (quote p.1)).length + 1 + (Bytes.ofText p.2).length := by
  rw [memberText, Bytes.ofText_append, Bytes.ofText_append, List.length_append,
    List.length_append]
  rfl

/-- The bytes of named texts between braces are those of the members and of the marks. -/
lemma length_ofText_braced (ms : List (String × String)) :
    (Bytes.ofText (braced ms)).length
      = (ms.map fun p => (Bytes.ofText (memberText p)).length).sum + (ms.length - 1) + 2 := by
  have marks : '\x7b'.utf8Size = 1 ∧ ','.utf8Size = 1 ∧ '\x7d'.utf8Size = 1 := by decide
  simp only [Bytes.length_ofText, toList_braced, List.map_cons, List.map_append, List.sum_cons,
    List.sum_append, sum_map_intercalate, List.map_map, List.length_map, Function.comp_def,
    List.map_nil, List.sum_nil, marks]
  omega

end Json.Tree

namespace Archive

variable {info info' : List (String × String)} {entries : Table Entry}

/-- The header is as long in every order of the texts. -/
lemma length_headerBytes_of_perm (same : info.Perm info') (entries : Table Entry) :
    (headerBytes info entries).length = (headerBytes info' entries).length := by
  have texts : (Bytes.ofText (Json.braced (info.map fun p => (p.1, Json.quote p.2)))).length
      = (Bytes.ofText (Json.braced (info'.map fun p => (p.1, Json.quote p.2)))).length := by
    have named := same.map fun p => (p.1, Json.quote p.2)
    rw [Json.Tree.length_ofText_braced, Json.Tree.length_ofText_braced, named.length_eq,
      (named.map fun p => (Bytes.ofText (Json.Tree.memberText p)).length).sum_eq]
  have header : (Bytes.ofText (headerText info (stored entries))).length
      = (Bytes.ofText (headerText info' (stored entries))).length := by
    simp only [headerText, Json.Tree.length_ofText_braced, List.map_cons, List.sum_cons,
      Json.Tree.length_ofText_memberText, texts, List.length_cons]
  simp only [headerBytes, List.length_append, padding, header]

lemma length_encode_of_perm (same : info.Perm info') (entries : Table Entry) :
    (encode info entries).length = (encode info' entries).length := by
  rw [length_encode, length_encode, length_headerBytes_of_perm same]

/-- An archive whose header is too long is refused. -/
lemma decode_of_long (long : maxHeader < (headerBytes info entries).length)
    (size : (encode info entries).length < Size.bound) :
    decode (encode info entries) = .error .tooLarge := by
  have whole := length_encode info entries
  have front : (encode info entries).take lengthWidth
      = littleEndian 8 (headerBytes info entries).length := by
    rw [encode_eq]
    exact List.take_left' (length_littleEndian ..)
  -- the length is not cut off, since the whole file has a size
  have length : ofLittleEndian (littleEndian 8 (headerBytes info entries).length)
      = (headerBytes info entries).length := by
    rw [ofLittleEndian_littleEndian]
    refine Nat.mod_eq_of_lt (lt_trans ?_ size)
    omega
  have room : lengthWidth ≤ (encode info entries).length := by
    rw [whole, lengthWidth]
    omega
  have refused : Archive.split (encode info entries) = .error .tooLarge := by
    rw [Archive.split, front, length, decide_eq_true room]
    dsimp only
    rw [decide_eq_false (not_le.2 long)]
    rfl
  rw [decode, refused, Outcome.error_bind]

/-- Archives of the same arrays with the same texts are read alike, or all refused for the length
of the header, whatever the order of the texts. -/
theorem decode_encode_of_perm (same : info.Perm info') (distinct : (info.map (·.1)).Nodup)
    (names : infoKey ∉ entries.keys)
    (shapes : ∀ p ∈ entries.entries, ∀ d ∈ p.2.shape, d < Size.bound)
    (checked : ∀ p ∈ entries.entries, p.2.check = .value ())
    (size : (encode info entries).length < Size.bound) :
    decode (encode info entries) = decode (encode info' entries) := by
  have header := length_headerBytes_of_perm same entries
  have size' := size
  rw [length_encode_of_perm same] at size'
  by_cases long : maxHeader < (headerBytes info entries).length
  · rw [decode_of_long long size, decode_of_long (header ▸ long) size']
  · rw [not_lt] at long
    have table : Table.ofList info = Table.ofList info' := by
      have distinct' := (same.map (·.1)).nodup_iff.1 distinct
      exact Table.ofList_of_perm (same.trans (Table.perm_ofList distinct').symm)
    rw [decode_of_fits ⟨names, shapes, checked, long, size⟩,
      decode_of_fits ⟨names, shapes, checked, header ▸ long, size'⟩, table]

end Archive

end FlatNet
