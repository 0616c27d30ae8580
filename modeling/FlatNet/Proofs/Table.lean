import FlatNet.Table
import Mathlib.Data.List.Perm.Basic
import Mathlib.Data.List.Sort
import Mathlib.Tactic

/-!
Tables and the lists they are made of.

A table is determined by its entries in any order, so one that is built from a list of
entries with distinct keys is the table that holds those entries.

* `lookup_cons_of_ne`: an entry of another key is passed over;
* `Table.get?_insert_self`, `Table.get?_insert_of_ne`: what a key has after an insertion;
* `Table.ofList_of_perm`: entries in any order make their table;
* `Table.map_ofList`, `Table.filter_insert`, `Table.filter_foldl_insert`: changes of a table
  and insertions.
-/

namespace FlatNet

variable {α β γ : Type}

/-- An entry of another key is passed over. -/
lemma lookup_cons_of_ne [BEq γ] [LawfulBEq γ] {key k : γ} (other : key ≠ k) (b : α)
    (rest : List (γ × α)) : ((k, b) :: rest).lookup key = rest.lookup key := by
  rw [List.lookup_cons, beq_eq_false_iff_ne.2 other]

/-! ### Sorted insertion -/

lemma lookup_insertSorted_self (key : String) (a : α) (entries : List (String × α)) :
    (insertSorted key a entries).lookup key = some a := by
  induction entries with
  | nil => exact List.lookup_cons_self
  | cons head rest ih =>
    obtain ⟨k, b⟩ := head
    unfold insertSorted
    split
    · exact List.lookup_cons_self
    · split
      · exact List.lookup_cons_self
      · rename_i other
        rw [lookup_cons_of_ne (Ne.symm other), ih]

lemma lookup_insertSorted_of_ne {key other : String} (ne : other ≠ key) (a : α)
    (entries : List (String × α)) :
    (insertSorted key a entries).lookup other = entries.lookup other := by
  induction entries with
  | nil => exact lookup_cons_of_ne ne a []
  | cons head rest ih =>
    obtain ⟨k, b⟩ := head
    unfold insertSorted
    split
    · exact lookup_cons_of_ne ne a _
    · split
      · rename_i same
        rw [lookup_cons_of_ne ne, lookup_cons_of_ne (same ▸ ne)]
      · rw [List.lookup_cons, List.lookup_cons, ih]

/-- Without an old entry of the key, insertion adds one entry. -/
lemma perm_insertSorted {key : String} (a : α) {entries : List (String × α)}
    (fresh : ∀ p ∈ entries, p.1 ≠ key) :
    (insertSorted key a entries).Perm ((key, a) :: entries) := by
  induction entries with
  | nil => exact .refl _
  | cons head rest ih =>
    obtain ⟨k, b⟩ := head
    have other : k ≠ key := fresh (k, b) (List.mem_cons_self ..)
    unfold insertSorted
    rw [if_neg other]
    split
    · exact .refl _
    · exact ((ih fun p hp => fresh p (List.mem_cons_of_mem _ hp)).cons (k, b)).trans (.swap ..)

lemma map_insertSorted (f : String → α → β) (key : String) (a : α)
    (entries : List (String × α)) :
    (insertSorted key a entries).map (fun p => (p.1, f p.1 p.2))
      = insertSorted key (f key a) (entries.map fun p => (p.1, f p.1 p.2)) := by
  induction entries with
  | nil => rfl
  | cons head rest ih =>
    obtain ⟨k, b⟩ := head
    rw [List.map_cons]
    unfold insertSorted
    split
    · rfl
    · split
      · rfl
      · rw [List.map_cons, ih]

/-- A key that a test leaves out may be inserted or not. -/
lemma filter_insertSorted {keep : String → Bool} {key : String} (out : keep key = false) (a : α)
    (entries : List (String × α)) :
    (insertSorted key a entries).filter (fun p => keep p.1) = entries.filter fun p => keep p.1 := by
  have left : ∀ (b : α) (l : List (String × α)),
      ((key, b) :: l).filter (fun p => keep p.1) = l.filter fun p => keep p.1 := fun b l =>
    List.filter_cons_of_neg (by rw [out]; exact Bool.false_ne_true)
  induction entries with
  | nil => exact left a []
  | cons head rest ih =>
    obtain ⟨k, b⟩ := head
    unfold insertSorted
    split
    · exact left a _
    · split
      · rename_i same
        rw [same, left, left]
      · rw [List.filter_cons, List.filter_cons, ih]

/-! ### Tables -/

namespace Table

@[simp] lemma get?_insert_self (t : Table α) (key : String) (a : α) :
    (t.insert key a).get? key = some a := lookup_insertSorted_self key a t.entries

lemma get?_insert_of_ne (t : Table α) {key other : String} (ne : other ≠ key) (a : α) :
    (t.insert key a).get? other = t.get? other := lookup_insertSorted_of_ne ne a t.entries

/-- What a key has is an entry. -/
lemma mem_entries_of_get? {t : Table α} {key : String} {a : α} (h : t.get? key = some a) :
    (key, a) ∈ t.entries := by
  obtain ⟨before, after, split, -⟩ := List.lookup_eq_some_iff.1 h
  rw [split]
  exact List.mem_append_right _ (List.mem_cons_self ..)

/-- Tables with the same entries in any order are equal. -/
lemma ext_of_perm {s t : Table α} (h : s.entries.Perm t.entries) : s = t := by
  refine Table.ext (h.eq_of_pairwise ?_ s.sorted t.sorted)
  intro p q _ _ below above
  exact absurd (String.lt_trans below above) (String.lt_irrefl _)

/-- No key of a table occurs twice. -/
lemma nodup_keys (t : Table α) : (t.entries.map (·.1)).Nodup := by
  refine List.pairwise_map.2 (t.sorted.imp ?_)
  intro p q below same
  exact absurd (same ▸ below) (String.lt_irrefl _)

@[simp] lemma keys_map (t : Table α) (f : String → α → β) : (t.map f).keys = t.keys := List.map_map

/-- A key of a table is that of an entry. -/
lemma mem_keys_iff {t : Table α} {key : String} : key ∈ t.keys ↔ ∃ p ∈ t.entries, p.1 = key :=
  List.mem_map

/-- Inserting entries with new and distinct keys adds just these entries. -/
lemma perm_foldl_insert {l : List (String × α)} {t : Table α}
    (distinct : (l.map (·.1)).Nodup) (fresh : ∀ p ∈ l, ∀ q ∈ t.entries, q.1 ≠ p.1) :
    (l.foldl (fun t p => t.insert p.1 p.2) t).entries.Perm (l ++ t.entries) := by
  induction l generalizing t with
  | nil => exact .refl _
  | cons p rest ih =>
    rw [List.map_cons, List.nodup_cons] at distinct
    have added : (t.insert p.1 p.2).entries.Perm (p :: t.entries) :=
      perm_insertSorted p.2 (fresh p (List.mem_cons_self ..))
    have later : ∀ q ∈ rest, ∀ r ∈ (t.insert p.1 p.2).entries, r.1 ≠ q.1 := by
      intro q hq r hr
      rcases List.mem_cons.1 (added.mem_iff.1 hr) with rfl | old
      · exact fun same => distinct.1 (List.mem_map.2 ⟨q, hq, same.symm⟩)
      · exact fresh q (List.mem_cons_of_mem _ hq) r old
    rw [List.foldl_cons]
    exact (ih distinct.2 later).trans ((added.append_left rest).trans List.perm_middle)

/-- The table of entries with distinct keys has just these entries. -/
lemma perm_ofList {l : List (String × α)} (distinct : (l.map (·.1)).Nodup) :
    (ofList l).entries.Perm l := by
  have built : (ofList l).entries.Perm (l ++ []) :=
    perm_foldl_insert distinct fun p _ q hq => absurd hq List.not_mem_nil
  rwa [List.append_nil] at built

/-- The entries of a table in any order make that table. -/
theorem ofList_of_perm {l : List (String × α)} {t : Table α} (h : l.Perm t.entries) :
    ofList l = t :=
  ext_of_perm ((perm_ofList ((h.map (·.1)).nodup_iff.2 t.nodup_keys)).trans h)

/-- A table is made of its entries. -/
@[simp] lemma ofList_entries (t : Table α) : ofList t.entries = t := ofList_of_perm (.refl _)

lemma map_insert (f : String → α → β) (t : Table α) (key : String) (a : α) :
    (t.insert key a).map f = (t.map f).insert key (f key a) :=
  Table.ext (map_insertSorted f key a t.entries)

/-- Changing the values of entries changes those of their table. -/
lemma map_ofList (f : String → α → β) (l : List (String × α)) :
    (ofList l).map f = ofList (l.map fun p => (p.1, f p.1 p.2)) := by
  have general : ∀ t : Table α,
      (l.foldl (fun t p => t.insert p.1 p.2) t).map f
        = (l.map fun p => (p.1, f p.1 p.2)).foldl (fun t p => t.insert p.1 p.2) (t.map f) := by
    induction l with
    | nil => exact fun _ => rfl
    | cons p rest ih =>
      intro t
      rw [List.foldl_cons, List.map_cons, List.foldl_cons, ih, map_insert]
  exact general empty

lemma filter_insert {keep : String → Bool} {key : String} (out : keep key = false) (a : α)
    (t : Table α) :
    (t.insert key a).filter (fun k _ => keep k) = t.filter fun k _ => keep k :=
  Table.ext (filter_insertSorted out a t.entries)

/-- Keys that a test leaves out may be inserted or not. -/
lemma filter_foldl_insert {keep : String → Bool} {rename : String → String}
    (out : ∀ k, keep (rename k) = false) (l : List (String × α)) (t : Table α) :
    (l.foldl (fun t p => t.insert (rename p.1) p.2) t).filter (fun k _ => keep k)
      = t.filter fun k _ => keep k := by
  induction l generalizing t with
  | nil => rfl
  | cons p rest ih => rw [List.foldl_cons, ih, filter_insert (out _)]

/-- A key of a table after insertions is an old one or one of those that were inserted. -/
lemma mem_keys_foldl_insert {f : String → String} {l : List (String × α)} {t : Table α}
    {key : String} (h : key ∈ (l.foldl (fun t p => t.insert (f p.1) p.2) t).keys) :
    key ∈ t.keys ∨ ∃ p ∈ l, key = f p.1 := by
  induction l generalizing t with
  | nil => exact .inl h
  | cons p rest ih =>
    rcases ih h with h | ⟨q, hq, same⟩
    · obtain ⟨entry, there, rfl⟩ := List.mem_map.1 h
      rcases fst_mem_insertSorted there with same | old
      · exact .inr ⟨p, List.mem_cons_self .., same⟩
      · exact .inl (List.mem_map_of_mem old)
    · exact .inr ⟨q, List.mem_cons_of_mem p hq, same⟩

/-- A test that every key passes leaves a table as it is, and only such a test does. -/
lemma filter_eq_self_iff {keep : String → Bool} {t : Table α} :
    t.filter (fun k _ => keep k) = t ↔ ∀ key ∈ t.keys, keep key = true := by
  constructor
  · intro same key hkey
    obtain ⟨p, hp, rfl⟩ := List.mem_map.1 hkey
    rw [← same] at hp
    exact (List.mem_filter.1 hp).2
  · intro all
    exact Table.ext (List.filter_eq_self.2 fun p hp => all p.1 (List.mem_map_of_mem hp))

end Table

end FlatNet
