import FlatNet.Proofs.Archive.RoundTrip

/-!
What is known of archives that were read.

The reader of an archive checks the places of its arrays one after the other.  If they pass, each
has the size of its shape and they lie one after the other, so the arrays that are cut out pass
the check of a writer, and together they are no longer than the file.

* `Extent.sized_of_check`, `chain_of_foldlM_check`: arrays whose places pass;
* `Sound`: what is known of an archive of some bytes;
* `sound_of_decode`: every archive that is read is sound.
-/

namespace FlatNet.Archive

open Outcome

/-! ### Places that pass -/

namespace Extent

/-- A place that passes starts where it must and has the size of its array. -/
lemma sized_of_check {start stop : Nat} {p : String × Extent} (h : check start p = .value stop) :
    p.2.start = start ∧ p.2.stop = stop ∧ p.2.Sized := by
  simp only [check, bind_eq_value_iff, require_eq_value_iff, orError_eq_value_iff,
    Size.mul?_eq_some_iff, Bool.and_eq_true, decide_eq_true_eq, pure_eq, value.injEq] at h
  obtain ⟨_, ⟨first, le⟩, count, counted, _, ⟨small, rfl⟩, _, whole, _, size, last⟩ := h
  exact ⟨first, last, count, counted, small, whole, le, size⟩

lemma Sized.le {e : Extent} (h : e.Sized) : e.start ≤ e.stop := by
  obtain ⟨_, -, -, -, le, -⟩ := h
  exact le

end Extent

/-- Places that pass have the sizes of their arrays and lie one after the other. -/
lemma chain_of_foldlM_check {xs : List (String × Extent)} {start stop : Nat}
    (h : xs.foldlM Extent.check start = .value stop) :
    (∀ p ∈ xs, p.2.Sized) ∧ Chain start (xs.map (·.2.place)) stop := by
  induction xs generalizing start with
  | nil =>
    cases h
    exact ⟨List.forall_mem_nil _, rfl⟩
  | cons p rest ih =>
    rw [List.foldlM_cons, bind_eq_value_iff] at h
    obtain ⟨middle, first, h⟩ := h
    obtain ⟨rfl, rfl, sized⟩ := Extent.sized_of_check first
    obtain ⟨all, chain⟩ := ih h
    exact ⟨List.forall_mem_cons.2 ⟨sized, all⟩, rfl, sized.le, chain⟩

/-- Places that lie one after the other cover what lies between the ends. -/
lemma Chain.sum {places : List (Nat × Nat)} {start stop : Nat} (h : Chain start places stop) :
    start + (places.map fun p => p.2 - p.1).sum = stop := by
  induction places generalizing start with
  | nil => exact h
  | cons p rest ih =>
    obtain ⟨rfl, le, rest⟩ := h
    have later := ih rest
    rw [List.map_cons, List.sum_cons]
    omega

/-! ### Headers -/

/-- An entry of a traversal comes from an entry that was gone through. -/
lemma exists_of_mem_mapM {α β : Type} {f : α → Option β} {xs : List α} {ys : List β}
    (h : xs.mapM f = some ys) {y : β} (hy : y ∈ ys) : ∃ x ∈ xs, f x = some y := by
  induction xs generalizing ys with
  | nil =>
    cases h
    exact absurd hy List.not_mem_nil
  | cons x xs ih =>
    simp only [List.mapM_cons, Option.bind_eq_bind, Option.bind_eq_some_iff, Option.pure_def,
      Option.some.injEq] at h
    obtain ⟨z, first, zs, rest, rfl⟩ := h
    rcases List.mem_cons.1 hy with rfl | later
    · exact ⟨x, List.mem_cons_self .., first⟩
    · obtain ⟨x', hx', found⟩ := ih rest later
      exact ⟨x', List.mem_cons_of_mem x hx', found⟩

/-- The table of texts is no array of a header. -/
lemma infoKey_not_mem_extents {s : String} {h : Header} (parsed : Header.parse? s = some h) :
    infoKey ∉ h.extents.keys := by
  intro there
  simp only [Header.parse?, Header.ofTree?, Option.bind_eq_bind, Option.bind_eq_some_iff,
    Option.pure_def, Option.some.injEq] at parsed
  obtain ⟨t, -, ms, -, info, -, extents, read, rfl⟩ := parsed
  rcases Table.mem_keys_foldl_insert (f := id) there with old | ⟨p, hp, same⟩
  · exact absurd old List.not_mem_nil
  · obtain ⟨q, hq, found⟩ := exists_of_mem_mapM read hp
    have other : q.1 ≠ infoKey := by simpa using (List.mem_filter.1 hq).2
    split at found
    · cases found
    · obtain ⟨e, -, rfl⟩ := Option.map_eq_some_iff.1 found
      exact other same.symm

/-- A file that is split is a header and data that its arrays fill. -/
lemma exists_of_split {bs data : Bytes} {h : Header} (split : Archive.split bs = .value (h, data)) :
    (∃ s, Header.parse? s = some h) ∧ h.dataLength = .value data.length ∧
      data.length ≤ bs.length := by
  simp only [Archive.split, bind_eq_value_iff, require_eq_value_iff, orError_eq_value_iff,
    decide_eq_true_eq, Size.add_eq_value_iff, pure_eq, value.injEq, Prod.mk.injEq] at split
  obtain ⟨_, room, _, -, _, inside, s, -, _, parsed, length, filled, _, ⟨-, rfl⟩, _, ⟨-, rfl⟩, _,
    whole, rfl, rfl⟩ := split
  have rest : ((bs.drop lengthWidth).drop (ofLittleEndian (bs.take lengthWidth))).length
      = length := by
    rw [List.length_drop, List.length_drop]
    omega
  refine ⟨⟨s, parsed⟩, by rw [rest, filled], ?_⟩
  omega

/-! ### Archives -/

/-- The array of a place in the data. -/
def Extent.cut (data : Bytes) (e : Extent) : Entry :=
  ⟨e.type, e.shape, (data.drop e.start).take (e.stop - e.start)⟩

/-- An array that is cut out at a place inside the data passes the check of a writer. -/
lemma check_cut {data : Bytes} {e : Extent} (sized : e.Sized) (inside : e.stop ≤ data.length) :
    (e.cut data).check = .value () ∧ (e.cut data).bytes.length = e.stop - e.start := by
  obtain ⟨count, counted, small, whole, le, size⟩ := sized
  have length : (e.cut data).bytes.length = e.stop - e.start := by
    rw [Extent.cut, List.length_take, List.length_drop]
    omega
  refine ⟨?_, length⟩
  simp only [Entry.check, bind_eq_value_iff, Size.product_eq_value_iff, Size.mul_eq_value_iff,
    require_eq_value_iff, decide_eq_true_eq]
  exact ⟨count, counted, _, ⟨small, rfl⟩, (), whole, by rw [length, size]; rfl⟩

/-- What is known of an archive that was read from bytes. -/
structure Sound (a : Archive) (bs : Bytes) : Prop where
  /-- No array has the name of the texts. -/
  names : infoKey ∉ a.entries.keys
  /-- The arrays have the sizes of their shapes. -/
  checked : ∀ q ∈ a.entries.entries, q.2.check = .value ()
  /-- The arrays are together no longer than the bytes. -/
  size : (dataOf a.entries.entries).length ≤ bs.length

/-- An archive that is read is sound. -/
theorem sound_of_decode {bs : Bytes} {a : Archive} (h : decode bs = .value a) : Sound a bs := by
  rw [decode, bind_eq_value_iff] at h
  obtain ⟨⟨header, data⟩, split, h⟩ := h
  cases h
  obtain ⟨⟨s, parsed⟩, filled, short⟩ := exists_of_split split
  obtain ⟨sized, chain⟩ := chain_of_foldlM_check filled
  have same : header.inOrder.Perm header.extents.entries := List.mergeSort_perm _ _
  have cut : ∀ p ∈ header.extents.entries, (p.2.cut data).check = .value () ∧
      (p.2.cut data).bytes.length = p.2.stop - p.2.start := by
    intro p hp
    have hp := same.mem_iff.2 hp
    exact check_cut (sized p hp) (chain.bounds p.2.place (List.mem_map_of_mem hp)).2.2
  refine ⟨fun there => infoKey_not_mem_extents parsed (Table.keys_map .. ▸ there), ?_, ?_⟩
  · exact List.forall_mem_map.2 fun p hp => (cut p hp).1
  -- the extents follow on each other from the start of the data to its end
  · have lengths : (header.extents.map fun _ => Extent.cut data).entries.map (·.2.bytes.length)
        = header.extents.entries.map fun p => p.2.stop - p.2.start := by
      rw [Table.map, List.map_map]
      exact List.map_congr_left fun p hp => (cut p hp).2
    have covered : (header.extents.entries.map fun p => p.2.stop - p.2.start).sum
        = data.length := by
      rw [← (same.map _).sum_eq, ← chain.sum, Nat.zero_add, List.map_map]
      rfl
    rw [dataOf, List.length_flatMap]
    exact le_of_eq_of_le ((congrArg List.sum lengths).trans covered) short

end FlatNet.Archive
