/-!
Tables keyed by text, in key order.

A table keeps its entries strictly ascending by key, so two tables with the same entries are
equal and iteration has one order.  Keys compare by code points, which is also the order of
their UTF-8 bytes.

* `Table`: the entries and their order;
* `Table.insert`, `Table.erase`, `Table.get?`: the operations;
* `Table.ofList`: later entries replace earlier ones of the same key.
-/

namespace FlatNet

universe u

/-- Replace the entry of `key`, or put it at its place. -/
def insertSorted {α : Type u} (key : String) (a : α) : List (String × α) → List (String × α)
  | [] => [(key, a)]
  | (k, b) :: rest =>
    if key < k then (key, a) :: (k, b) :: rest
    else if k = key then (key, a) :: rest
    else (k, b) :: insertSorted key a rest

/-- A key of an extended list is the new key or an old one. -/
theorem fst_mem_insertSorted {α : Type u} {key : String} {a : α} {entries : List (String × α)}
    {p : String × α} (h : p ∈ insertSorted key a entries) : p.1 = key ∨ p ∈ entries := by
  induction entries with
  | nil => simp_all [insertSorted]
  | cons head rest ih =>
    obtain ⟨k, b⟩ := head
    unfold insertSorted at h
    split at h
    · simp only [List.mem_cons] at h ⊢
      rcases h with h | h
      · exact .inl (by rw [h])
      · exact .inr h
    · split at h
      · simp only [List.mem_cons] at h ⊢
        rcases h with h | h
        · exact .inl (by rw [h])
        · exact .inr (.inr h)
      · simp only [List.mem_cons] at h ⊢
        rcases h with h | h
        · exact .inr (.inl h)
        · exact (ih h).imp id .inr

/-- Putting an entry at its place keeps the keys ascending. -/
theorem pairwise_insertSorted {α : Type u} (key : String) (a : α) {entries : List (String × α)}
    (sorted : entries.Pairwise (·.1 < ·.1)) : (insertSorted key a entries).Pairwise (·.1 < ·.1) := by
  induction entries with
  | nil => simp [insertSorted]
  | cons head rest ih =>
    obtain ⟨k, b⟩ := head
    have first : ∀ p ∈ rest, k < p.1 := fun p hp => List.rel_of_pairwise_cons sorted hp
    have tail := List.Pairwise.of_cons sorted
    unfold insertSorted
    split
    · rename_i below
      refine List.pairwise_cons.2 ⟨fun p hp => ?_, sorted⟩
      rcases List.mem_cons.1 hp with rfl | hp
      · exact below
      · exact String.lt_trans below (first p hp)
    · split
      · rename_i same
        subst same
        exact List.pairwise_cons.2 ⟨fun p hp => first p hp, tail⟩
      · rename_i notBelow other
        refine List.pairwise_cons.2 ⟨fun p hp => ?_, ih tail⟩
        rcases fst_mem_insertSorted hp with same | hp
        · rw [same]
          exact Std.lt_of_le_of_ne (Std.not_lt.1 notBelow) other
        · exact first p hp

/-- Entries in strictly ascending key order. -/
structure Table (α : Type u) where
  /-- The entries. -/
  entries : List (String × α)
  /-- Their keys ascend, so no key occurs twice. -/
  sorted : entries.Pairwise (·.1 < ·.1)

namespace Table

variable {α β : Type u}

/-- The table without entries. -/
def empty : Table α := ⟨[], .nil⟩

instance : Inhabited (Table α) := ⟨empty⟩

instance [DecidableEq α] : DecidableEq (Table α) := fun s t =>
  if h : s.entries = t.entries then
    .isTrue (by cases s; cases t; cases h; rfl)
  else .isFalse fun e => h (by rw [e])

/-- The value of a key. -/
def get? (t : Table α) (key : String) : Option α := t.entries.lookup key

/-- Set the value of a key. -/
def insert (t : Table α) (key : String) (a : α) : Table α :=
  ⟨insertSorted key a t.entries, pairwise_insertSorted key a t.sorted⟩

/-- The entries that satisfy a test. -/
def filter (t : Table α) (keep : String → α → Bool) : Table α :=
  ⟨t.entries.filter fun p => keep p.1 p.2, t.sorted.filter _⟩

/-- Remove a key. -/
def erase (t : Table α) (key : String) : Table α := t.filter fun k _ => k != key

/-- Change every value. -/
def map (t : Table α) (f : String → α → β) : Table β :=
  ⟨t.entries.map fun p => (p.1, f p.1 p.2), by
    rw [List.pairwise_map]; exact t.sorted⟩

/-- The keys, ascending. -/
def keys (t : Table α) : List String := t.entries.map (·.1)

/-- The table of a list of entries, a later one replacing an earlier one of the same key. -/
def ofList (entries : List (String × α)) : Table α :=
  entries.foldl (fun t p => t.insert p.1 p.2) empty

/-- Two tables with the same entries are equal. -/
@[ext] theorem ext {s t : Table α} (h : s.entries = t.entries) : s = t := by
  cases s; cases t; cases h; rfl

end Table

end FlatNet
