import FlatNet.Archive.Reader
import FlatNet.Archive.Writer
import FlatNet.Proofs.Bytes
import FlatNet.Proofs.Json.Text
import FlatNet.Proofs.Size
import FlatNet.Proofs.Table

/-!
Archives read back.

The header of an archive describes arrays that lie one after the other.  A reader finds them in
a table, by name, and sorts them by their places; arrays without bytes may come in another order
than they were written in, but the places come in the same order.

* `Archive.Extent.Sized`, `Archive.Extent.InRange`: a place that has the size of its array, and
  one that a header can hold;
* `Archive.Chain`: places that lie one after the other;
* `Archive.Header.parse?_headerText`: the header of a written archive;
* `Archive.stored_eq_of_perm`: the order of the data;
* `Archive.decode_of_fits`: a written archive is read back.
-/

namespace FlatNet.Archive

open Json (Tree)

/-! ### Places -/

/-- The places of arrays stored one after the other from `start` on. -/
def layout (start : Nat) : List (String × Entry) → List (String × Extent)
  | [] => []
  | (name, e) :: rest =>
    (name, ⟨e.type, e.shape, start, start + e.bytes.length⟩)
      :: layout (start + e.bytes.length) rest

/-- The data of arrays stored one after the other. -/
def dataOf (entries : List (String × Entry)) : Bytes := entries.flatMap fun p => p.2.bytes

/-- A place of a layout is that of an array. -/
lemma exists_of_mem_layout {start : Nat} {entries : List (String × Entry)} {p : String × Extent}
    (h : p ∈ layout start entries) :
    ∃ q ∈ entries, ∃ first, p = (q.1, ⟨q.2.type, q.2.shape, first, first + q.2.bytes.length⟩) := by
  induction entries generalizing start with
  | nil => exact absurd h List.not_mem_nil
  | cons q rest ih =>
    rcases List.mem_cons.1 h with rfl | later
    · exact ⟨q, List.mem_cons_self .., start, rfl⟩
    · obtain ⟨q', hq', found⟩ := ih later
      exact ⟨q', List.mem_cons_of_mem q hq', found⟩

lemma map_fst_layout (start : Nat) (entries : List (String × Entry)) :
    (layout start entries).map (·.1) = entries.map (·.1) := by
  induction entries generalizing start with
  | nil => rfl
  | cons p rest ih => rw [layout, List.map_cons, List.map_cons, ih]

namespace Extent

/-- A place has the size of its array. -/
def Sized (e : Extent) : Prop :=
  ∃ count, Size.product? 1 e.shape = some count ∧ count * e.type.bits < Size.bound ∧
    count * e.type.bits % 8 = 0 ∧ e.start ≤ e.stop ∧ e.stop - e.start = count * e.type.bits / 8

/-- A place that a header can hold: every number is a size. -/
structure InRange (e : Extent) : Prop where
  /-- The dimensions are sizes. -/
  shape : ∀ d ∈ e.shape, d < Size.bound
  /-- The start is a size. -/
  start : e.start < Size.bound
  /-- The end is a size. -/
  stop : e.stop < Size.bound

/-- The start and the end of an array. -/
def place (e : Extent) : Nat × Nat := (e.start, e.stop)

/-- An array that starts where it must, with the size of its shape, passes. -/
lemma check_of_sized {p : String × Extent} (sized : p.2.Sized) :
    check p.2.start p = .value p.2.stop := by
  obtain ⟨count, counted, small, whole, le, size⟩ := sized
  have bits : Size.mul? count p.2.type.bits = some (count * p.2.type.bits) := by
    rw [Size.mul?, if_pos small]
  simp only [check, counted, bits, whole, size, le, decide_true, Bool.and_self,
    Outcome.require_true, Outcome.orError_some, Outcome.value_bind, Outcome.pure_eq]

end Extent

/-- Places that lie one after the other, from `start` to `stop`. -/
def Chain (start : Nat) : List (Nat × Nat) → Nat → Prop
  | [], stop => start = stop
  | p :: rest, stop => p.1 = start ∧ p.1 ≤ p.2 ∧ Chain p.2 rest stop

/-- Whether a place comes before another. -/
def PlaceLE (p q : Nat × Nat) : Prop := p.1 < q.1 ∨ p.1 = q.1 ∧ p.2 ≤ q.2

namespace Chain

variable {start stop : Nat} {places : List (Nat × Nat)}

lemma le (h : Chain start places stop) : start ≤ stop := by
  induction places generalizing start with
  | nil => exact le_of_eq h
  | cons p rest ih =>
    obtain ⟨rfl, le, rest⟩ := h
    exact le_trans le (ih rest)

/-- Every place lies between the ends. -/
lemma bounds (h : Chain start places stop) :
    ∀ p ∈ places, start ≤ p.1 ∧ p.1 ≤ p.2 ∧ p.2 ≤ stop := by
  induction places generalizing start with
  | nil => exact List.forall_mem_nil _
  | cons p rest ih =>
    obtain ⟨rfl, le, rest⟩ := h
    refine List.forall_mem_cons.2 ⟨⟨le_refl _, le, rest.le⟩, fun q hq => ?_⟩
    have later := ih rest q hq
    omega

/-- Places that lie one after the other are in order. -/
lemma pairwise (h : Chain start places stop) : places.Pairwise PlaceLE := by
  induction places generalizing start with
  | nil => exact .nil
  | cons p rest ih =>
    obtain ⟨rfl, le, rest⟩ := h
    refine List.pairwise_cons.2 ⟨fun q hq => ?_, ih rest⟩
    have later := rest.bounds q hq
    unfold PlaceLE
    omega

end Chain

lemma chain_layout (start : Nat) (entries : List (String × Entry)) :
    Chain start ((layout start entries).map (·.2.place)) (start + (dataOf entries).length) := by
  induction entries generalizing start with
  | nil => rfl
  | cons p rest ih =>
    rw [layout, List.map_cons, dataOf, List.flatMap_cons, List.length_append, ← Nat.add_assoc]
    exact ⟨rfl, Nat.le_add_right _ _, ih _⟩

/-- Arrays that lie one after the other pass. -/
lemma foldlM_check {xs : List (String × Extent)} {start stop : Nat}
    (sized : ∀ p ∈ xs, p.2.Sized) (chain : Chain start (xs.map (·.2.place)) stop) :
    xs.foldlM Extent.check start = .value stop := by
  induction xs generalizing start with
  | nil => exact congrArg Outcome.value chain
  | cons p rest ih =>
    rw [List.forall_mem_cons] at sized
    obtain ⟨rfl, -, chain⟩ := chain
    rw [List.foldlM_cons]
    exact (congrArg (· >>= _) (Extent.check_of_sized sized.1)).trans (ih sized.2 chain)

/-- The places of a header come in the order of the data, however it lists its arrays. -/
lemma map_place_inOrder {h : Header} {xs : List (String × Extent)}
    (same : h.extents.entries.Perm xs) (sorted : (xs.map (·.2.place)).Pairwise PlaceLE) :
    h.inOrder.map (·.2.place) = xs.map (·.2.place) := by
  have permuted : (h.inOrder.map (·.2.place)).Perm (xs.map (·.2.place)) :=
    ((List.mergeSort_perm _ _).trans same).map _
  have ordered : (h.inOrder.map (·.2.place)).Pairwise PlaceLE := by
    have pairwise : h.inOrder.Pairwise fun a b => a.2.before b.2 = true := List.pairwise_mergeSort
      (by simp only [Extent.before, Bool.or_eq_true, Bool.and_eq_true, decide_eq_true_eq]; omega)
      (by simp only [Extent.before, Bool.or_eq_true, Bool.and_eq_true, decide_eq_true_eq]; omega)
      h.extents.entries
    refine List.pairwise_map.2 (pairwise.imp ?_)
    intro a b below
    simpa [Extent.before, PlaceLE, Extent.place] using below
  refine permuted.eq_of_pairwise ?_ ordered sorted
  rintro ⟨a, b⟩ ⟨c, d⟩ - - ab ba
  unfold PlaceLE at ab ba
  rw [Prod.mk.injEq]
  omega

/-! ### Headers -/

namespace Extent

/-- The members of the tree of a place. -/
def members (e : Extent) : Tree.Members := [
  ("dtype", .ofText e.type.name),
  ("shape", .array (e.shape.map Tree.ofNat)),
  ("data_offsets", .array ([e.start, e.stop].map Tree.ofNat))]

/-- The tree of a place. -/
def tree (e : Extent) : Tree := .record e.members

/-- The description of an array reads as the tree of its place. -/
lemma reads_extentText (e : Entry) (start : Nat) :
    Tree.Reads (extentText e start) (tree ⟨e.type, e.shape, start, start + e.bytes.length⟩) := by
  refine Tree.reads_record
    (.cons ⟨rfl, Tree.reads_quote _⟩ (.cons ⟨rfl, ?_⟩ (.cons ⟨rfl, ?_⟩ .nil)))
  · exact Tree.reads_sizes _
  · exact Tree.reads_sizes [start, start + e.bytes.length]

lemma ofName?_name (t : ElementType) : ElementType.ofName? t.name = some t := by
  cases t <;> decide

/-- A place is that of its tree. -/
lemma ofTree?_tree {depth : Nat} (deep : 2 < depth) {e : Extent} (h : e.InRange) :
    ofTree? depth e.tree = some e := by
  have inner : 1 < depth - 1 := by omega
  have record := Tree.record?_record e.members (show 1 < depth by omega)
  have shape := Tree.sizes?_array inner _ h.shape
  have ends : ∀ n ∈ [e.start, e.stop], n < Size.bound :=
    List.forall_mem_cons.2 ⟨h.start, List.forall_mem_singleton.2 h.stop⟩
  have place : (Tree.array ([e.start, e.stop].map Tree.ofNat)).sizePair? (depth - 1)
      = some (e.start, e.stop) := by
    rw [Tree.sizePair?, Tree.sizes?_array inner _ ends]
  have type : ((Tree.ofText e.type.name).word? true (depth - 1)).bind ElementType.ofName?
      = some e.type := by
    rw [Tree.ofText, Tree.word?, Json.string?_pieces, Option.bind_some, ofName?_name]
  -- each of the three members is found behind those before it
  have found₁ : e.members.find? "dtype" = some (some (.ofText e.type.name)) :=
    Tree.Members.find?_of_unique [] (e.members.drop 1) (by simp) (by simp [members])
  have found₂ : e.members.find? "shape" = some (some (.array (e.shape.map Tree.ofNat))) :=
    Tree.Members.find?_of_unique (e.members.take 1) (e.members.drop 2) (by simp [members])
      (by simp [members])
  have found₃ : e.members.find? "data_offsets"
      = some (some (.array ([e.start, e.stop].map Tree.ofNat))) :=
    Tree.Members.find?_of_unique (e.members.take 2) [] (by simp [members]) (by simp)
  unfold ofTree?
  split
  · rename_i same
    cases same
  · rw [tree, record]
    simp only [Tree.Members.required?, found₁, found₂, found₃, type, shape, place,
      Option.bind_eq_bind, Option.bind_some, Option.pure_def]

/-- The tree of a place has a value. -/
lemma value?_tree {depth : Nat} (deep : 2 < depth) {e : Extent} (h : e.InRange) :
    (e.tree.value? depth).isSome := by
  have inner : 1 < depth - 1 := by omega
  have ends : ∀ n ∈ [e.start, e.stop], n < Size.bound :=
    List.forall_mem_cons.2 ⟨h.start, List.forall_mem_singleton.2 h.stop⟩
  refine Tree.value?_record (by omega) ?_
  have type : (Tree.value? (depth - 1) (.ofText e.type.name)).isSome := by
    rw [Tree.value?_ofText]
    rfl
  exact List.forall_mem_cons.2 ⟨type, List.forall_mem_cons.2 ⟨Tree.value?_sizes inner h.shape,
    List.forall_mem_singleton.2 (Tree.value?_sizes inner ends)⟩⟩

end Extent

namespace Header

/-- The tree of texts. -/
def infoTree (info : List (String × String)) : Tree :=
  .record (info.map fun p => (p.1, Tree.ofText p.2))

/-- The members of the tree of a header. -/
def members (info : List (String × String)) (extents : List (String × Extent)) : Tree.Members :=
  (infoKey, infoTree info) :: extents.map fun p => (p.1, p.2.tree)

/-- The tree of a header. -/
def tree (info : List (String × String)) (extents : List (String × Extent)) : Tree :=
  .record (members info extents)

/-- The text of a header reads as its tree. -/
lemma reads_headerText (info : List (String × String)) (entries : List (String × Entry)) :
    Tree.Reads (headerText info entries) (tree info (layout 0 entries)) := by
  have texts : Tree.Reads (Json.braced (info.map fun p => (p.1, Json.quote p.2)))
      (infoTree info) := by
    refine Tree.reads_record ?_
    rw [List.forall₂_map_left_iff, List.forall₂_map_right_iff]
    exact List.forall₂_same.2 fun p _ => ⟨rfl, Tree.reads_quote p.2⟩
  have arrays : ∀ (entries : List (String × Entry)) (start : Nat),
      List.Forall₂ (fun p q => p.1 = q.1 ∧ Tree.Reads p.2 q.2) (extentTexts start entries)
        ((layout start entries).map fun p => (p.1, p.2.tree)) := by
    intro entries
    induction entries with
    | nil => exact fun _ => .nil
    | cons p rest ih => exact fun start => .cons ⟨rfl, Extent.reads_extentText p.2 start⟩ (ih _)
  exact Tree.reads_record (.cons ⟨rfl, texts⟩ (arrays entries 0))

/-- The texts of their tree. -/
lemma info?_infoTree {depth : Nat} (deep : 1 < depth) (info : List (String × String)) :
    info? depth (infoTree info) = some (some (Table.ofList info)) := by
  have all : ∀ info : List (String × String),
      (info.map fun p => (p.1, Tree.ofText p.2)).mapM
        (fun p => p.2.text?.map fun s => (p.1, s)) = some info := by
    intro info
    induction info with
    | nil => rfl
    | cons p info ih =>
      rw [List.map_cons, List.mapM_cons, ih, Tree.text?_ofText]
      rfl
  rw [info?, infoTree, Tree.record?_record _ deep]
  · simp only [Option.bind_eq_bind, Option.bind_some, all, Option.pure_def]
  · exact Tree.noConfusion

/-- A header is that of its tree. -/
lemma ofTree?_tree {depth : Nat} (deep : 3 < depth) {info : List (String × String)}
    {extents : List (String × Extent)} (names : ∀ p ∈ extents, p.1 ≠ infoKey)
    (inRange : ∀ p ∈ extents, p.2.InRange) :
    ofTree? depth (tree info extents) = some ⟨some (Table.ofList info), Table.ofList extents⟩ := by
  have names' : ∀ q ∈ extents.map fun p => (p.1, p.2.tree), q.1 ≠ infoKey :=
    List.forall_mem_map.2 names
  have found : (members info extents).find? infoKey = some (some _) :=
    Tree.Members.find?_of_unique [] _ (List.forall_mem_nil _) names'
  -- no entry has the key of the notes, so that these are found and left out of the extents
  have kept : (members info extents).filter (·.1 ≠ infoKey)
      = extents.map fun p => (p.1, p.2.tree) := by
    rw [members, List.filter_cons_of_neg (by simp)]
    exact List.filter_eq_self.2 fun q hq => by simpa using names' q hq
  have arrays : (extents.map fun p => (p.1, p.2.tree)).mapM (fun p : String × Tree =>
      if (p.2.value? (depth - 1)).isNone then none
      else (Extent.ofTree? (depth - 1) p.2).map fun e => (p.1, e)) = some extents := by
    clear names names' found kept
    induction extents with
    | nil => rfl
    | cons p extents ih =>
      rw [List.forall_mem_cons] at inRange
      have some? := Extent.value?_tree (show 2 < depth - 1 by omega) inRange.1
      rw [List.map_cons, List.mapM_cons, ih inRange.2,
        Extent.ofTree?_tree (show 2 < depth - 1 by omega) inRange.1,
        if_neg (by rw [Option.isNone_eq_false_iff.2 some?]; exact Bool.false_ne_true)]
      rfl
  rw [ofTree?, tree, Tree.record?_record _ (by omega)]
  simp only [Option.bind_eq_bind, Option.bind_some, Tree.Members.optional?, found, kept, arrays,
    info?_infoTree (show 1 < depth - 1 by omega), Option.pure_def]

/-- The header of a written archive, with spaces behind it. -/
theorem parse?_headerText {info : List (String × String)} {entries : List (String × Entry)}
    (names : ∀ p ∈ entries, p.1 ≠ infoKey) (inRange : ∀ p ∈ layout 0 entries, p.2.InRange)
    (spaces : Nat) :
    parse? (headerText info entries ++ String.ofList (List.replicate spaces ' '))
      = some ⟨some (Table.ofList info), Table.ofList (layout 0 entries)⟩ := by
  have names' : ∀ p ∈ layout 0 entries, p.1 ≠ infoKey := by
    have keys : ∀ key ∈ (layout 0 entries).map (·.1), key ≠ infoKey := by
      rw [map_fst_layout]
      exact List.forall_mem_map.2 names
    exact fun p hp => keys p.1 (List.mem_map_of_mem hp)
  rw [parse?, Tree.parse?_append_spaces (reads_headerText info entries), Option.bind_some]
  exact ofTree?_tree (by decide) names' inRange

end Header

/-! ### Archives -/

/-- The padded header of an archive. -/
def headerBytes (info : List (String × String)) (entries : Table Entry) : Bytes :=
  let header := Bytes.ofText (headerText info (stored entries))
  header ++ padding header.length

/-- An archive that can be written and read back: every array passes the check of its size and
has a name of its own kind, and header and file stay below their limits. -/
structure Fits (info : List (String × String)) (entries : Table Entry) : Prop where
  /-- No array has the name of the texts. -/
  names : infoKey ∉ entries.keys
  /-- The dimensions are sizes. -/
  shapes : ∀ p ∈ entries.entries, ∀ d ∈ p.2.shape, d < Size.bound
  /-- The arrays have the sizes of their shapes. -/
  checked : ∀ p ∈ entries.entries, p.2.check = .value ()
  /-- The header is not too long. -/
  header : (headerBytes info entries).length ≤ maxHeader
  /-- The length of the file is a size. -/
  size : (encode info entries).length < Size.bound

lemma encode_eq (info : List (String × String)) (entries : Table Entry) :
    encode info entries = littleEndian 8 (headerBytes info entries).length
      ++ (headerBytes info entries ++ dataOf (stored entries)) := List.append_assoc ..

/-- The length of an archive. -/
lemma length_encode (info : List (String × String)) (entries : Table Entry) :
    (encode info entries).length
      = 8 + (headerBytes info entries).length + (dataOf entries.entries).length := by
  have data : (dataOf (stored entries)).length = (dataOf entries.entries).length :=
    ((List.mergeSort_perm _ _).flatMap_right _).length_eq
  rw [encode_eq, List.length_append, List.length_append, length_littleEndian, data, Nat.add_assoc]

/-- The place of a checked array has its size. -/
lemma sized_of_check {e : Entry} (checked : e.check = .value ()) (start : Nat) :
    Extent.Sized ⟨e.type, e.shape, start, start + e.bytes.length⟩ := by
  simp only [Entry.check, Outcome.bind_eq_value_iff, Size.product_eq_value_iff,
    Size.mul_eq_value_iff, Outcome.require_eq_value_iff, decide_eq_true_eq] at checked
  obtain ⟨count, counted, _, ⟨small, rfl⟩, _, whole, size⟩ := checked
  refine ⟨count, counted, small, whole, Nat.le_add_right _ _, ?_⟩
  rw [size, Nat.add_sub_cancel_left]

/-- The arrays of a layout are found in the data. -/
lemma map_slice_layout (before : Bytes) (entries : List (String × Entry)) :
    (layout before.length entries).map (fun p => (p.1, (⟨p.2.type, p.2.shape,
      ((before ++ dataOf entries).drop p.2.start).take (p.2.stop - p.2.start)⟩ : Entry)))
      = entries := by
  induction entries generalizing before with
  | nil => rfl
  | cons p rest ih =>
    have later := ih (before ++ p.2.bytes)
    rw [List.length_append, List.append_assoc] at later
    have whole : dataOf (p :: rest) = p.2.bytes ++ dataOf rest := List.flatMap_cons
    rw [layout, List.map_cons, whole, later, List.drop_left, Nat.add_sub_cancel_left,
      List.take_left]

variable {info : List (String × String)} {entries : Table Entry}

/-- The order of the data is the one by rank and name. -/
lemma stored_eq_of_perm {l : List (String × Entry)} (same : l.Perm entries.entries)
    (ordered : l.Pairwise fun a b => storedBefore a b = true) : stored entries = l := by
  have before_iff : ∀ a b : String × Entry, storedBefore a b = true ↔
      b.2.type.rank < a.2.type.rank ∨ a.2.type.rank = b.2.type.rank ∧ a.1 ≤ b.1 := by
    simp [storedBefore]
  have sorted : (stored entries).Pairwise fun a b => storedBefore a b = true := by
    refine List.pairwise_mergeSort (fun a b c ab bc => ?_) (fun a b => ?_) _
    · rw [before_iff] at ab bc ⊢
      rcases ab with ab | ⟨ab, le₁⟩ <;> rcases bc with bc | ⟨bc, le₂⟩
      · exact .inl (by omega)
      · exact .inl (by omega)
      · exact .inl (by omega)
      · exact .inr ⟨by omega, String.le_trans le₁ le₂⟩
    · rw [Bool.or_eq_true, before_iff, before_iff]
      rcases Nat.lt_trichotomy a.2.type.rank b.2.type.rank with lt | eq | gt
      · exact .inr (.inl lt)
      · exact (String.le_total a.1 b.1).imp (fun le => .inr ⟨eq, le⟩) fun le => .inr ⟨eq.symm, le⟩
      · exact .inl (.inl gt)
  refine ((List.mergeSort_perm _ _).trans same.symm).eq_of_pairwise ?_ sorted ordered
  -- arrays that stand before each other have one name, so they are the same
  intro a b ha hb ab ba
  rw [before_iff] at ab ba
  have name : a.1 = b.1 := by
    rcases ab with above | ⟨same, ab⟩
    · omega
    · rcases ba with above | ⟨-, ba⟩
      · omega
      · exact String.le_antisymm ab ba
  exact List.inj_on_of_nodup_map entries.nodup_keys ((List.mergeSort_perm _ _).mem_iff.1 ha)
    (same.mem_iff.1 hb) name

namespace Fits

lemma mem_of_mem_stored {p : String × Entry} (h : p ∈ stored entries) : p ∈ entries.entries :=
  (List.mergeSort_perm _ _).mem_iff.1 h

/-- Every place of a written archive has the size of its array. -/
lemma sized (h : Fits info entries) : ∀ p ∈ layout 0 (stored entries), p.2.Sized := by
  intro p hp
  obtain ⟨q, hq, first, rfl⟩ := exists_of_mem_layout hp
  exact sized_of_check (h.checked q (mem_of_mem_stored hq)) first

/-- The data end before the file does. -/
lemma length_data (h : Fits info entries) :
    8 + (headerBytes info entries).length + (dataOf (stored entries)).length < Size.bound := by
  have size := h.size
  rw [encode_eq, List.length_append, List.length_append, length_littleEndian] at size
  omega

/-- Every place of a written archive can be held by a header. -/
lemma inRange (h : Fits info entries) : ∀ p ∈ layout 0 (stored entries), p.2.InRange := by
  intro p hp
  have ends := (chain_layout 0 (stored entries)).bounds p.2.place (List.mem_map_of_mem hp)
  have size := h.length_data
  have shape : ∀ d ∈ p.2.shape, d < Size.bound := by
    obtain ⟨q, hq, first, rfl⟩ := exists_of_mem_layout hp
    exact h.shapes q (mem_of_mem_stored hq)
  dsimp only [Extent.place] at ends
  exact ⟨shape, by omega, by omega⟩

/-- The header of a written archive. -/
lemma parse? (h : Fits info entries) :
    ∃ text, Bytes.text? (headerBytes info entries) = some text ∧ Header.parse? text
      = some ⟨some (Table.ofList info), Table.ofList (layout 0 (stored entries))⟩ := by
  obtain ⟨spaces, padded⟩ : ∃ spaces, headerBytes info entries = Bytes.ofText
      (headerText info (stored entries) ++ String.ofList (List.replicate spaces ' ')) := by
    refine ⟨(8 - (Bytes.ofText (headerText info (stored entries))).length % 8) % 8, ?_⟩
    rw [Bytes.ofText_append, Bytes.ofText_spaces]
    rfl
  have names : ∀ p ∈ stored entries, p.1 ≠ infoKey := by
    intro p hp same
    exact h.names (same ▸ List.mem_map_of_mem (mem_of_mem_stored hp))
  exact ⟨_, by rw [padded, Bytes.text?_ofText], Header.parse?_headerText names h.inRange spaces⟩

/-- The arrays of a written archive fill its data. -/
lemma dataLength (h : Fits info entries) :
    Header.dataLength ⟨some (Table.ofList info), Table.ofList (layout 0 (stored entries))⟩
      = .value (dataOf (stored entries)).length := by
  have distinct : ((layout 0 (stored entries)).map (·.1)).Nodup := by
    rw [map_fst_layout]
    exact ((List.mergeSort_perm _ _).map _).nodup_iff.2 entries.nodup_keys
  have same := Table.perm_ofList distinct
  have chain := chain_layout 0 (stored entries)
  rw [Nat.zero_add] at chain
  refine foldlM_check (fun p hp => h.sized p ?_) ?_
  · exact same.mem_iff.1 ((List.mergeSort_perm _ _).mem_iff.1 hp)
  · rw [map_place_inOrder same chain.pairwise]
    exact chain

/-- A written archive is a header and its data. -/
lemma split (h : Fits info entries) :
    Archive.split (encode info entries) = .value
      (⟨some (Table.ofList info), Table.ofList (layout 0 (stored entries))⟩,
        dataOf (stored entries)) := by
  obtain ⟨text, read, parsed⟩ := h.parse?
  have header := h.header
  have size := h.length_data
  have length : ofLittleEndian (littleEndian 8 (headerBytes info entries).length)
      = (headerBytes info entries).length := by
    rw [ofLittleEndian_littleEndian]
    exact Nat.mod_eq_of_lt (lt_of_le_of_lt header (by decide))
  have front : (encode info entries).take lengthWidth
      = littleEndian 8 (headerBytes info entries).length := by
    rw [encode_eq]
    exact List.take_left' (length_littleEndian ..)
  have rest : (encode info entries).drop lengthWidth
      = headerBytes info entries ++ dataOf (stored entries) := by
    rw [encode_eq]
    exact List.drop_left' (length_littleEndian ..)
  have whole : (encode info entries).length
      = (dataOf (stored entries)).length + lengthWidth + (headerBytes info entries).length := by
    rw [encode_eq, List.length_append, List.length_append, length_littleEndian, lengthWidth]
    omega
  have room : lengthWidth ≤ (encode info entries).length := by omega
  have inside : (headerBytes info entries).length
      ≤ (headerBytes info entries ++ dataOf (stored entries)).length := by
    rw [List.length_append]
    omega
  -- the end of the data is computed with checks, which the length of the whole passes
  have sum : (Size.add (dataOf (stored entries)).length lengthWidth : Outcome ReadFault Nat)
      = .value ((dataOf (stored entries)).length + lengthWidth) :=
    Size.add_eq_value_iff.2 ⟨by rw [lengthWidth]; omega, rfl⟩
  have total : (Size.add ((dataOf (stored entries)).length + lengthWidth)
      (headerBytes info entries).length : Outcome ReadFault Nat)
      = .value (encode info entries).length :=
    Size.add_eq_value_iff.2 ⟨by rw [lengthWidth]; omega, whole.symm⟩
  simp only [Archive.split, front, rest, length, List.take_left, List.drop_left, read, parsed,
    h.dataLength, sum, total, room, inside, header, decide_true, Outcome.require_true,
    Outcome.orError_some, Outcome.value_bind, Outcome.pure_eq]

end Fits

/-- A written archive is read back: its texts as a table, and the same arrays. -/
theorem decode_of_fits (h : Fits info entries) :
    decode (encode info entries) = .value ⟨some (Table.ofList info), entries⟩ := by
  have slices := map_slice_layout [] (stored entries)
  rw [List.nil_append] at slices
  have arrays : (Table.ofList (layout 0 (stored entries))).map (fun _ e => (⟨e.type, e.shape,
      ((dataOf (stored entries)).drop e.start).take (e.stop - e.start)⟩ : Entry)) = entries := by
    rw [Table.map_ofList]
    exact (congrArg Table.ofList slices).trans (Table.ofList_of_perm (List.mergeSort_perm _ _))
  rw [decode, h.split, Outcome.value_bind]
  exact congrArg (fun found => Outcome.value (Archive.mk (some (Table.ofList info)) found)) arrays

end FlatNet.Archive
