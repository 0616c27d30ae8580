import FlatNet.Proofs.Container.Regular

/-!
The two ways of counting the elements of a tensor.

A tensor holds at least one element, also with an empty dimension; an array of an archive holds as
many as its dimensions say.  So a tensor with an empty dimension is refused by the writer of an
archive, and an array with one by the reader of a container.  There is no other difference, but
that the archive counts the bits.

* `Tensor.regular_iff_of_wellSized`, `Tensor.wellSized_iff_of_check`: what one way of counting asks
  of a tensor that passes the other;
* `Container.exists_encode_iff`, `Container.exists_readTensors_iff`: when tensors are written, and
  arrays are read;
* `Container.Proper`, `Container.exists_decode_iff`: when archives are read as containers;
* `Container.sizes_agree_iff`: both.
-/

namespace FlatNet

open Outcome

/-! ### Tensors -/

namespace Tensor

variable {t : Tensor}

/-- A well-sized tensor is regular if no dimension is empty and its bits can be counted. -/
lemma regular_iff_of_wellSized (sized : t.WellSized) :
    t.Regular ↔ 0 ∉ t.shape ∧ 8 * t.bytes.length < Size.bound :=
  ⟨fun h => ⟨h.full, h.bits⟩, fun ⟨full, bits⟩ => ⟨full, ((wellSized_iff full).1 sized).2, bits⟩⟩

/-- A tensor whose array passes the check of a writer is well sized if no dimension is empty. -/
lemma wellSized_iff_of_check (checked : (Container.entry t).check = .value ()) :
    t.WellSized ↔ 0 ∉ t.shape := by
  refine ⟨fun sized => (regular_iff.2 ⟨sized, checked⟩).full, fun full => ?_⟩
  simp only [Archive.Entry.check, bind_eq_value_iff, Size.product_eq_value_iff,
    Size.mul_eq_value_iff, require_eq_value_iff, decide_eq_true_eq] at checked
  obtain ⟨count, counted, _, ⟨small, rfl⟩, _, -, size⟩ := checked
  dsimp only [Container.entry] at counted small size
  have volume : t.shape.volume = count := Size.foldl_mul_of_product? counted
  rw [DType.bits_elementType, ← Nat.mul_assoc] at size small
  rw [Nat.mul_div_cancel _ (by decide)] at size
  exact (wellSized_iff full).2 ⟨by omega, volume ▸ size.symm⟩

end Tensor

namespace Container

variable {c : Container} {withTraining : Bool}

/-! ### Writing -/

/-- A container of well-sized tensors is written exactly if they are regular. -/
lemma exists_encode_iff (sized : ∀ p ∈ c.tensors.entries, p.2.WellSized) :
    (∃ bytes, c.encode = .value bytes) ↔ ∀ p ∈ c.tensors.entries, p.2.Regular := by
  simp only [encode_eq_value_iff, exists_and_left, exists_eq', and_true]
  constructor
  · intro checked p hp
    exact Tensor.regular_iff.2 ⟨sized p hp, checked _ (mem_entries_iff.2 ⟨p, hp, rfl⟩)⟩
  · intro regular q hq
    obtain ⟨p, hp, rfl⟩ := mem_entries_iff.1 hq
    exact (regular p hp).check

/-! ### Reading -/

/-- An array of a type of tensors is read as a tensor exactly if that is well sized. -/
lemma exists_readTensor_iff (name : String) {e : Archive.Entry} {dtype : DType}
    (known : DType.ofElementType? e.type = some dtype) :
    (∃ t, readTensor name e = .ok t) ↔ (⟨dtype, e.shape, e.bytes⟩ : Tensor).WellSized := by
  constructor
  · rintro ⟨t, read⟩
    obtain ⟨rfl, sized⟩ := entry_of_readTensor read
    rw [entry, DType.ofElementType?_elementType] at known
    cases known
    exact sized
  · intro sized
    refine ⟨⟨dtype, e.shape, e.bytes⟩, ?_⟩
    rw [readTensor, known]
    dsimp only
    rw [Tensor.ofBytes_eq_ok_iff.2 ⟨rfl, sized⟩]

/-- Arrays of archives are read as tensors exactly if no dimension is empty. -/
lemma exists_readTensors_iff {arrays : Table Archive.Entry}
    (checked : ∀ p ∈ arrays.entries, p.2.check = .value ())
    (known : ∀ p ∈ arrays.entries, (DType.ofElementType? p.2.type).isSome) :
    (∃ tensors, readTensors withTraining arrays = .ok tensors) ↔
      ∀ p ∈ arrays.entries, (withTraining || !isSlot p.1) = true → 0 ∉ p.2.shape := by
  have pointwise : ∀ p ∈ arrays.entries, (∃ q, (do return (p.1, ← readTensor p.1 p.2) :
      Except DecodeFault (String × Tensor)) = .ok q) ↔ 0 ∉ p.2.shape := by
    intro p hp
    obtain ⟨dtype, found⟩ := Option.isSome_iff_exists.1 (known p hp)
    have array : (entry ⟨dtype, p.2.shape, p.2.bytes⟩).check = .value () := by
      rw [entry, DType.elementType_of_ofElementType? found]
      exact checked p hp
    rw [← Tensor.wellSized_iff_of_check array, ← exists_readTensor_iff p.1 found]
    simp only [except_bind_eq_ok_iff]
    constructor
    · rintro ⟨_, t, read, -⟩
      exact ⟨t, read⟩
    · rintro ⟨t, read⟩
      exact ⟨_, t, read, rfl⟩
  -- the tensors are read one by one, those of the training state only if they are asked for
  have kept : (∃ tensors, readTensors withTraining arrays = .ok tensors) ↔ ∃ list,
      (arrays.filter fun name _ => withTraining || !isSlot name).entries.mapM
        (fun p => do return (p.1, ← readTensor p.1 p.2)) = .ok list := by
    simp only [readTensors, except_bind_eq_ok_iff]
    constructor
    · rintro ⟨_, list, read, -⟩
      exact ⟨list, read⟩
    · rintro ⟨list, read⟩
      exact ⟨_, list, read, rfl⟩
  rw [kept, exists_mapM_eq_ok_iff]
  constructor
  · intro read p hp keep
    exact (pointwise p hp).1 (read p (List.mem_filter.2 ⟨hp, keep⟩))
  · intro full p hp
    obtain ⟨hp, keep⟩ := List.mem_filter.1 hp
    exact (pointwise p hp).2 (full p hp keep)

/-! ### Containers -/

/-- The texts of an archive are those of a container. -/
def Proper (withTraining : Bool) (a : Archive) : Prop :=
  ∃ info, a.info = some info ∧ (∃ encoding, readEncoding info = .ok encoding) ∧
    checkVersion info = .ok () ∧ (∃ graph, readGraph info = .ok graph) ∧
    ∃ training, readTraining withTraining info = .ok training

/-- The texts of a container that can be read are those of one. -/
lemma Legible.proper (h : c.Legible) (notFlat : c.encoding ≠ .flat) :
    Proper withTraining ⟨some (Table.ofList c.info), c.entries⟩ :=
  ⟨_, rfl, ⟨_, readEncoding_info notFlat⟩, checkVersion_info, ⟨_, readGraph_info h.architecture⟩,
    _, readTraining_info fun _ => h.training⟩

/-- The arrays of a container have types of tensors. -/
lemma isSome_type_of_mem_entries {q : String × Archive.Entry} (hq : q ∈ c.entries.entries) :
    (DType.ofElementType? q.2.type).isSome := by
  obtain ⟨p, -, rfl⟩ := mem_entries_iff.1 hq
  rw [entry, DType.ofElementType?_elementType]
  rfl

/-- An archive with the texts of a container and arrays of the types of tensors is read as a
container exactly if no array that is kept has an empty dimension. -/
lemma exists_decode_iff {bs : Bytes} {a : Archive} (archive : Archive.decode bs = .value a)
    (proper : Proper withTraining a)
    (known : ∀ p ∈ a.entries.entries, (DType.ofElementType? p.2.type).isSome) :
    (∃ c, decode withTraining bs = .value c) ↔
      ∀ p ∈ a.entries.entries, (withTraining || !isSlot p.1) = true → 0 ∉ p.2.shape := by
  rw [← exists_readTensors_iff (Archive.sound_of_decode archive).checked known]
  constructor
  · rintro ⟨c, read⟩
    obtain ⟨-, a', archive', made⟩ := decode_eq_value_iff.1 read
    obtain rfl := Outcome.value.inj (archive.symm.trans archive')
    obtain ⟨info, -, -, -, -, -, tensors⟩ := ofArchive_eq_ok_iff.1 made
    exact ⟨_, tensors⟩
  · rintro ⟨tensors, read⟩
    obtain ⟨info, texts, ⟨encoding, h₁⟩, h₂, ⟨graph, h₃⟩, training, h₄⟩ := proper
    refine ⟨⟨encoding, graph, training, tensors⟩, decode_eq_value_iff.2 ?_⟩
    exact ⟨not_isPrefixOf_of_decode archive, a, archive,
      ofArchive_eq_ok_iff.2 ⟨info, texts, h₁, h₂, h₃, h₄, read⟩⟩

/-- The tensors of a container that is read are the arrays that are kept. -/
lemma entries_of_decode {bs : Bytes} {a : Archive} {c : Container}
    (archive : Archive.decode bs = .value a) (read : decode withTraining bs = .value c) :
    c.entries = a.entries.filter fun name _ => withTraining || !isSlot name := by
  obtain ⟨-, a', archive', made⟩ := decode_eq_value_iff.1 read
  obtain rfl := Outcome.value.inj (archive.symm.trans archive')
  obtain ⟨info, -, -, -, -, -, tensors⟩ := ofArchive_eq_ok_iff.1 made
  exact (entries_of_readTensors tensors).1

/-- The two ways of counting agree on tensors without empty dimensions, and only on these: such
tensors are written, if their bits can be counted, and the arrays of them are read. -/
theorem sizes_agree_iff :
    (∀ c : Container,
      (∀ p ∈ c.tensors.entries, Tensor.ofBytes p.2.dtype p.2.shape p.2.bytes = .ok p.2) →
      ((∃ bytes, c.encode = .value bytes) ↔
        ∀ p ∈ c.tensors.entries, 0 ∉ p.2.shape ∧ 8 * p.2.bytes.length < Size.bound)) ∧
    ∀ withTraining bs a, Archive.decode bs = .value a → Proper withTraining a →
      (∀ p ∈ a.entries.entries, (DType.ofElementType? p.2.type).isSome) →
      ((∃ c, decode withTraining bs = .value c) ↔
        ∀ p ∈ a.entries.entries, (withTraining || !isSlot p.1) = true → 0 ∉ p.2.shape) ∧
      ∀ c, decode withTraining bs = .value c →
        c.entries = a.entries.filter fun name _ => withTraining || !isSlot name := by
  constructor
  · intro c accepted
    -- a tensor that could be made has the size of its shape, zero sides counted as one
    have sized : ∀ p ∈ c.tensors.entries, p.2.WellSized := fun p hp =>
      (Tensor.ofBytes_eq_ok_iff.1 (accepted p hp)).2
    rw [exists_encode_iff sized]
    exact forall₂_congr fun p hp => Tensor.regular_iff_of_wellSized (sized p hp)
  · intro withTraining bs a archive proper known
    exact ⟨exists_decode_iff archive proper known, fun c => entries_of_decode archive⟩

/-- A container of tensors without empty dimensions is written, and what is read has the same arrays. -/
theorem sizes_agree_iff_mixed :
    ∃ bytes, mixed.encode = .value bytes ∧ ∃ c, decode true bytes = .value c ∧
      c.entries = mixed.entries.filter fun name _ => true || !isSlot name := by
  obtain ⟨writing, reading⟩ := sizes_agree_iff
  have regular := regular_mixed.tensors
  obtain ⟨bytes, written⟩ := (writing mixed fun p hp =>
    Tensor.ofBytes_eq_ok_iff.2 ⟨rfl, (regular p hp).wellSized⟩).2 fun p hp =>
      ⟨(regular p hp).full, (regular p hp).bits⟩
  obtain ⟨fits, rfl⟩ := fits_of_encode storable_mixed regular_mixed.names written
  obtain ⟨accepted, kept⟩ := reading true _ _ (Archive.decode_of_fits fits)
    (legible_mixed.proper regular_mixed.notFlat) fun q => isSome_type_of_mem_entries
  obtain ⟨c, read⟩ := accepted.2 fun q hq _ => by
    obtain ⟨p, hp, rfl⟩ := mem_entries_iff.1 hq
    exact (regular p hp).full
  exact ⟨_, written, c, read, kept c read⟩

/-- A container of one tensor with an empty dimension. -/
def hollow (bytes : Bytes) : Container :=
  { mixed with training := none, tensors := .ofList [("in/kernel", ⟨.f32, [0], bytes⟩)] }

lemma storable_hollow : (hollow []).Storable := by
  have stored : Archive.stored (hollow []).entries = [("in/kernel", ⟨.f32, [0], []⟩)] :=
    Archive.stored_eq_of_perm (.refl _) (List.pairwise_singleton _ _)
  refine storable_of_le (n := 4096) (by decide +kernel) ?_ (by decide +kernel) (by decide)
  rw [stored]
  simp only [hollow, mixed, Bytes.length_ofText, Archive.headerText, Json.Tree.toList_braced,
    Json.Tree.toList_bracketed, Json.Tree.toList_memberText, Json.toList_quote, List.map_cons,
    List.map_append, List.map_nil, info, Option.toList_none, Architecture.text, Layer.text,
    LayerKind.text, LayerKind.config, namesText, sizesText]
  decide +kernel

/-- A tensor with an empty dimension is accepted and not written, and an array with one is in an
archive that is read, and not accepted as a tensor. -/
theorem sizes_differ_hollow :
    (Tensor.ofBytes .f32 [0] [0, 0, 0, 0] = .ok ⟨.f32, [0], [0, 0, 0, 0]⟩ ∧
      ∀ bytes, (hollow [0, 0, 0, 0]).encode ≠ .value bytes) ∧
    ∃ bytes a, Archive.decode bytes = .value a ∧ Proper true a ∧
      (∀ p ∈ a.entries.entries, (DType.ofElementType? p.2.type).isSome) ∧
      ∀ c, decode true bytes ≠ .value c := by
  refine ⟨⟨rfl, fun bytes written => ?_⟩, ?_⟩
  · have checked := (encode_eq_value_iff.1 written).1
    revert checked
    decide +kernel
  · have written : (hollow []).encode = .value _ := encode_eq_value_iff.2 ⟨by decide +kernel, rfl⟩
    obtain ⟨fits, -⟩ := fits_of_encode storable_hollow (by decide +kernel) written
    have archive := Archive.decode_of_fits fits
    have proper : Proper true ⟨some (Table.ofList (hollow []).info), (hollow []).entries⟩ :=
      Legible.proper ⟨legible_mixed.architecture, nofun⟩ (by decide)
    refine ⟨_, _, archive, proper, fun q => isSome_type_of_mem_entries, fun c read => ?_⟩
    have full := (exists_decode_iff archive proper fun q => isSome_type_of_mem_entries).1 ⟨c, read⟩
    revert full
    decide +kernel

end Container

end FlatNet
