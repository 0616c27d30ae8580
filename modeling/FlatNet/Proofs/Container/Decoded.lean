import FlatNet.Proofs.Archive.Decoded
import FlatNet.Proofs.Container.Codec
import FlatNet.Proofs.Tensor.Basic

/-!
What is known of containers that were read.

The tensors of a container that was read are arrays of its archive, each of the size of its
shape.  Archives count the elements of an array by their product and tensors count at least one,
so a tensor that was read has no empty dimension.  This makes its dimensions sizes, and the
container can be written again.

* `Tensor.count_of_check`, `Tensor.lt_bound_of_check`: the elements and the dimensions of a tensor
  whose array passes;
* `Container.decode_eq_value_iff`, `Container.ofArchive_eq_ok_iff`: when a container is read;
* `Container.ReadFrom`: what is known of a container of some bytes;
* `Container.readFrom_of_decode`: every container that is read.
-/

namespace FlatNet

open Outcome

/-! ### Tensors -/

/-- A partial product of which no factor is larger, unless it is zero. -/
lemma Size.le_of_product? {dims : List Nat} {n d : Nat} (h : product? 1 dims = some n)
    (pos : 0 < n) (hd : d ∈ dims) : d ≤ n := by
  rw [← foldl_mul_of_product? h, ← List.prod_eq_foldl] at pos ⊢
  exact Nat.le_of_dvd pos (List.dvd_prod hd)

/-- The width of an element in an archive. -/
lemma DType.bits_elementType (t : DType) : t.elementType.bits = t.width * 8 := by
  cases t <;> rfl

/-- The element type of a tensor type that was found for it. -/
lemma DType.elementType_of_ofElementType? {type : ElementType} {t : DType}
    (h : ofElementType? type = some t) : t.elementType = type := by
  cases type <;> cases h <;> rfl

/-- A well-sized tensor whose array passes the check of a writer counts its elements as the archive
does, and there are some. -/
lemma Tensor.count_of_check {t : Tensor} (sized : t.WellSized)
    (checked : (Container.entry t).check = .value ()) :
    ∃ count, Size.product? 1 t.shape = some count ∧ 0 < count ∧
      t.bytes.length = count * t.dtype.width ∧ 8 * t.bytes.length < Size.bound := by
  simp only [Archive.Entry.check, bind_eq_value_iff, Size.product_eq_value_iff,
    Size.mul_eq_value_iff, require_eq_value_iff, decide_eq_true_eq] at checked
  obtain ⟨count, counted, _, ⟨small, rfl⟩, _, -, size⟩ := checked
  dsimp only [Container.entry] at counted small size
  simp only [WellSized, Shape.byteCount?, Shape.count?, counted, Option.map_some, Option.bind_some,
    Size.mul?_eq_some_iff] at sized
  obtain ⟨-, sized⟩ := sized
  have wide := t.dtype.one_le_width
  rw [DType.bits_elementType, ← Nat.mul_assoc] at size small
  rw [Nat.mul_div_cancel _ (by decide)] at size
  -- a tensor has at least one element, so the archive may not count none
  have pos : 0 < count := by
    by_contra none
    rw [Nat.eq_zero_of_not_pos none, Nat.zero_mul] at size
    rw [← size, Nat.eq_zero_of_not_pos none, Nat.max_eq_right (by decide)] at sized
    omega
  exact ⟨count, counted, pos, size.symm, by omega⟩

/-- The dimensions of a well-sized tensor whose array passes the check of a writer are sizes. -/
lemma Tensor.lt_bound_of_check {t : Tensor} (sized : t.WellSized)
    (checked : (Container.entry t).check = .value ()) : ∀ d ∈ t.shape, d < Size.bound := by
  intro d hd
  obtain ⟨count, counted, pos, length, small⟩ := count_of_check sized checked
  have le : d ≤ count := Size.le_of_product? counted pos hd
  have grows : count ≤ count * t.dtype.width := Nat.le_mul_of_pos_right _ t.dtype.one_le_width
  omega

namespace Container

/-! ### Containers -/

/-- The tensor of an array is well sized, and its array is that one. -/
lemma entry_of_readTensor {name : String} {e : Archive.Entry} {t : Tensor}
    (h : readTensor name e = .ok t) : entry t = e ∧ t.WellSized := by
  unfold readTensor at h
  split at h
  · cases h
  · rename_i dtype found
    split at h
    · rename_i made
      cases h
      obtain ⟨rfl, sized⟩ := Tensor.ofBytes_eq_ok_iff.1 made
      exact ⟨by rw [entry, DType.elementType_of_ofElementType? found], sized⟩
    · cases h

/-- The tensors of a list of arrays. -/
lemma map_entry_of_mapM {arrays : List (String × Archive.Entry)} {tensors : List (String × Tensor)}
    (h : arrays.mapM (fun p => do return (p.1, ← readTensor p.1 p.2)) = .ok tensors) :
    (tensors.map fun p => (p.1, entry p.2)) = arrays ∧ ∀ p ∈ tensors, p.2.WellSized := by
  induction arrays generalizing tensors with
  | nil =>
    cases h
    exact ⟨rfl, List.forall_mem_nil _⟩
  | cons q arrays ih =>
    rw [List.mapM_cons] at h
    obtain ⟨p, first, h⟩ := except_bind_eq_ok_iff.1 h
    obtain ⟨t, read, same⟩ := except_bind_eq_ok_iff.1 first
    cases same
    obtain ⟨rest, later, same⟩ := except_bind_eq_ok_iff.1 h
    cases same
    obtain ⟨array, sized⟩ := entry_of_readTensor read
    obtain ⟨arrays, all⟩ := ih later
    exact ⟨by rw [List.map_cons, arrays, array], List.forall_mem_cons.2 ⟨sized, all⟩⟩

/-- The tensors that are read are those of the arrays that the reader keeps. -/
lemma entries_of_readTensors {withTraining : Bool} {arrays : Table Archive.Entry}
    {tensors : Table Tensor} (h : readTensors withTraining arrays = .ok tensors) :
    (tensors.map fun _ => entry) = arrays.filter (fun name _ => withTraining || !isSlot name) ∧
      ∀ p ∈ tensors.entries, p.2.WellSized := by
  obtain ⟨list, read, same⟩ := except_bind_eq_ok_iff.1 h
  cases same
  obtain ⟨listed, sized⟩ := map_entry_of_mapM read
  have distinct : (list.map (·.1)).Nodup := by
    have keys : (list.map fun p => (p.1, entry p.2)).map (·.1) = list.map (·.1) := List.map_map
    rw [← keys, listed]
    exact Table.nodup_keys _
  refine ⟨?_, fun p hp => sized p ((Table.perm_ofList distinct).mem_iff.1 hp)⟩
  rw [Table.map_ofList, listed, Table.ofList_entries]

/-- What is known of a container that was read from bytes, with or without training state. -/
structure ReadFrom (c : Container) (withTraining : Bool) (bs : Bytes) : Prop where
  /-- No tensor has the name of the texts of an archive. -/
  names : Archive.infoKey ∉ c.tensors.keys
  /-- Without training state, no tensor has the name of a slot. -/
  plain : ∀ key ∈ c.tensors.keys, (withTraining || !isSlot key) = true
  /-- Every tensor has the size of its shape. -/
  sized : ∀ p ∈ c.tensors.entries, p.2.WellSized
  /-- The arrays of the tensors pass the check of a writer. -/
  checked : ∀ q ∈ c.entries.entries, q.2.check = .value ()
  /-- The tensors are together no longer than the bytes. -/
  size : (Archive.dataOf c.entries.entries).length ≤ bs.length

/-- The encoding of a container that is read is not the flat one. -/
lemma ne_flat_of_readEncoding {info : Table String} {encoding : Encoding}
    (h : readEncoding info = .ok encoding) : encoding ≠ .flat := by
  unfold readEncoding at h
  split at h
  · cases h
  · split at h <;> cases h <;> exact Encoding.noConfusion

/-- A container that is read from an archive has the encoding, the graph, the training
configuration and the tensors of it. -/
lemma ofArchive_eq_ok_iff {withTraining : Bool} {a : Archive} {c : Container} :
    ofArchive withTraining a = .ok c ↔ ∃ info, a.info = some info ∧
      readEncoding info = .ok c.encoding ∧ checkVersion info = .ok () ∧
      readGraph info = .ok c.architecture ∧ readTraining withTraining info = .ok c.training ∧
      readTensors withTraining a.entries = .ok c.tensors := by
  unfold ofArchive
  cases a.info with
  | none => simp
  | some info =>
    simp only [except_bind_eq_ok_iff, Option.some.injEq, exists_eq_left']
    constructor
    · rintro ⟨_, encoding, _, version, _, graph, _, training, _, tensors, ⟨⟩⟩
      exact ⟨encoding, version, graph, training, tensors⟩
    · rintro ⟨encoding, version, graph, training, tensors⟩
      exact ⟨_, encoding, _, version, _, graph, _, training, _, tensors, rfl⟩

/-- A byte string is read as a container exactly if it is no flat model and its archive is read as
that container. -/
lemma decode_eq_value_iff {withTraining : Bool} {bs : Bytes} {c : Container} :
    decode withTraining bs = .value c ↔ flatMagic.isPrefixOf bs = false ∧
      ∃ a, Archive.decode bs = .value a ∧ ofArchive withTraining a = .ok c := by
  simp only [decode, bind_eq_value_iff, mapError_eq_value_iff, ofExcept_eq_value_iff,
    require_eq_value_iff, Bool.not_eq_true', exists_and_left, exists_const]

/-- What is known of a container that is read. -/
theorem readFrom_of_decode {withTraining : Bool} {bs : Bytes} {c : Container}
    (h : decode withTraining bs = .value c) : c.ReadFrom withTraining bs := by
  obtain ⟨-, archive, read, made⟩ := decode_eq_value_iff.1 h
  obtain ⟨names, checked, size⟩ := Archive.sound_of_decode read
  obtain ⟨info, -, -, -, -, -, found⟩ := ofArchive_eq_ok_iff.1 made
  obtain ⟨arrays, sized⟩ := entries_of_readTensors found
  have among : ∀ q ∈ c.entries.entries,
      q ∈ archive.entries.entries ∧ (withTraining || !isSlot q.1) = true := by
    intro q hq
    rw [entries, arrays] at hq
    exact List.mem_filter.1 hq
  have named : ∀ key ∈ c.tensors.keys,
      key ∈ archive.entries.keys ∧ (withTraining || !isSlot key) = true := by
    intro key hkey
    rw [← Table.keys_map c.tensors fun _ => entry] at hkey
    obtain ⟨q, hq, rfl⟩ := Table.mem_keys_iff.1 hkey
    exact ⟨List.mem_map_of_mem (among q hq).1, (among q hq).2⟩
  refine ⟨fun there => names (named _ there).1, fun key hkey => (named key hkey).2, sized,
    fun q hq => checked q (among q hq).1, ?_⟩
  -- some tensors may have been left out, so the data are a part of those in the file
  have kept : c.entries.entries.Sublist archive.entries.entries := by
    rw [entries, arrays]
    exact List.filter_sublist
  exact le_trans (kept.flatMap _).length_le size

end Container

end FlatNet
