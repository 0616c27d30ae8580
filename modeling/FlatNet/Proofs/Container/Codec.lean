import FlatNet.Container.Codec
import FlatNet.Proofs.Archive.RoundTrip
import FlatNet.Proofs.Outcome

/-!
Containers read back.

A container that is written is read back with its encoding and its graph, and with the tensors
that the reader keeps.  Without training state these are the ones whose names do not start with
the mark of slots.

* `Container.Storable`: the numbers of a container are ones that the machine holds, and its
  header is not too long;
* `Container.isSlot_weightKey_iff`: the layers whose parameters have the names of slots;
* `Container.decode_of_encode`: what a reader makes of a written container.
-/

namespace FlatNet

lemma Encoding.ofName?_name (e : Encoding) : Encoding.ofName? e.name = some e := by
  cases e <;> decide

namespace Container

open Outcome

variable {c : Container}

/-! ### Names of slots -/

/-- The word that names of slots start with, up to the slash. -/
def slotWord : String := "optimizer"

/-- A name that makes slots of the parameters of its layer: the reserved word itself, or
anything below it. -/
def Reserved (layer : String) : Prop := layer = slotWord ∨ isSlot layer = true

instance (layer : String) : Decidable (Reserved layer) := inferInstanceAs (Decidable (_ ∨ _))

/-- A word that has no slash is in front of a slash only at its own end. -/
lemma isPrefixOf_append_slash {w n rest : List Char} (h : '/' ∉ w) :
    (w ++ ['/']).isPrefixOf (n ++ '/' :: rest) = true ↔
      n = w ∨ (w ++ ['/']).isPrefixOf n = true := by
  -- along both texts; the slash ends the first of them, and is not in it
  induction w generalizing n with
  | nil =>
    cases n with
    | nil => simp
    | cons d n => simp
  | cons c w ih =>
    rw [List.mem_cons, not_or] at h
    cases n with
    | nil => simp [List.isPrefixOf, Ne.symm h.1]
    | cons d n =>
      have later := ih (n := n) h.2
      simp only [List.cons_append, List.isPrefixOf, Bool.and_eq_true, beq_iff_eq, later,
        List.cons.injEq]
      constructor
      · rintro ⟨rfl, rfl | h⟩
        · exact .inl ⟨rfl, rfl⟩
        · exact .inr ⟨rfl, h⟩
      · rintro (⟨rfl, rfl⟩ | ⟨rfl, h⟩)
        · exact ⟨rfl, .inl rfl⟩
        · exact ⟨rfl, .inr h⟩

/-- The parameters of a layer have names of slots exactly if the name of the layer is
reserved. -/
lemma isSlot_weightKey_iff (layer param : String) :
    isSlot (Model.weightKey layer param) = true ↔ Reserved layer := by
  have mark : slotMark.toList = slotWord.toList ++ ['/'] := rfl
  have key : (Model.weightKey layer param).toList = layer.toList ++ '/' :: param.toList := by
    rw [Model.weightKey, String.toList_append, String.toList_append, List.append_assoc]
    rfl
  rw [isSlot, mark, key, isPrefixOf_append_slash (by decide), Reserved, isSlot, mark,
    String.toList_inj]

/-- The key of a parameter is not that of the texts of an archive. -/
lemma weightKey_ne_infoKey (layer param : String) :
    Model.weightKey layer param ≠ Archive.infoKey := by
  intro same
  have slash : '/' ∈ (Model.weightKey layer param).toList := by
    rw [Model.weightKey, String.toList_append, String.toList_append]
    simp
  rw [same] at slash
  exact absurd slash (by decide)

/-- The name of a slot is one. -/
lemma isSlot_slotMark (name : String) : isSlot (slotMark ++ name) = true := by
  rw [isSlot, String.toList_append, List.isPrefixOf_iff_prefix]
  exact List.prefix_append _ _

/-! ### Round trip -/

/-- A container whose dimensions and whose length are sizes, and whose header is not too long. -/
structure Storable (c : Container) : Prop where
  /-- The dimensions are sizes. -/
  shapes : ∀ p ∈ c.tensors.entries, ∀ d ∈ p.2.shape, d < Size.bound
  /-- The header is not too long. -/
  header : (Archive.headerBytes c.info c.entries).length ≤ Archive.maxHeader
  /-- The length is a size. -/
  size : (Archive.encode c.info c.entries).length < Size.bound

/-- A container with a short header text and few data is storable. -/
lemma storable_of_le {n : Nat} (shapes : ∀ p ∈ c.tensors.entries, ∀ d ∈ p.2.shape, d < Size.bound)
    (header : (Bytes.ofText (Archive.headerText c.info (Archive.stored c.entries))).length ≤ n)
    (data : (Archive.dataOf c.entries.entries).length ≤ n)
    (short : n + 7 ≤ Archive.maxHeader) : c.Storable := by
  have padded : (Archive.headerBytes c.info c.entries).length ≤ n + 7 := by
    rw [Archive.headerBytes, List.length_append, Archive.padding, List.length_replicate]
    omega
  refine ⟨shapes, by omega, ?_⟩
  rw [Archive.length_encode, Size.bound]
  rw [Archive.maxHeader] at short
  omega

lemma mem_entries_iff {q : String × Archive.Entry} :
    q ∈ c.entries.entries ↔ ∃ p ∈ c.tensors.entries, (p.1, entry p.2) = q := List.mem_map

/-- A container is written exactly if each of its arrays passes the check of its size. -/
lemma encodeWith_eq_value_iff {texts : List (String × String)} {bytes : Bytes} :
    c.encodeWith texts = .value bytes ↔
      (∀ q ∈ c.entries.entries, q.2.check = .value ()) ∧
        Archive.encode texts c.entries = bytes := by
  simp only [encodeWith, bind_eq_value_iff, forM_eq_value_iff, mapError_eq_value_iff, pure_eq,
    Outcome.value.injEq, exists_and_left, exists_const]

lemma encode_eq_value_iff {bytes : Bytes} :
    c.encode = .value bytes ↔
      (∀ q ∈ c.entries.entries, q.2.check = .value ()) ∧
        Archive.encode c.info c.entries = bytes := encodeWith_eq_value_iff

/-- A written container is an archive that is read back. -/
lemma fits_of_encode (storable : c.Storable) (names : Archive.infoKey ∉ c.tensors.keys)
    {bytes : Bytes} (written : c.encode = .value bytes) :
    Archive.Fits c.info c.entries ∧ bytes = Archive.encode c.info c.entries := by
  obtain ⟨checked, rfl⟩ := encode_eq_value_iff.1 written
  have keys : c.entries.keys = c.tensors.keys := Table.keys_map ..
  refine ⟨⟨keys ▸ names, fun q hq => ?_, checked, storable.header, storable.size⟩, rfl⟩
  obtain ⟨p, hp, rfl⟩ := mem_entries_iff.1 hq
  exact storable.shapes p hp

/-- An archive that is read does not start like a flat model: the length of its header would be
too large. -/
lemma not_isPrefixOf_of_decode {bs : Bytes} {a : Archive} (h : Archive.decode bs = .value a) :
    flatMagic.isPrefixOf bs = false := by
  simp only [Archive.decode, Archive.split, bind_eq_value_iff, require_eq_value_iff,
    decide_eq_true_eq] at h
  obtain ⟨_, ⟨_, room, _, small, -⟩, -⟩ := h
  rw [Bool.eq_false_iff, ne_eq, List.isPrefixOf_iff_prefix]
  rintro ⟨rest, rfl⟩
  rw [Archive.lengthWidth] at small
  have front : (flatMagic ++ rest).take 8 = flatMagic ++ rest.take 4 := rfl
  rw [front] at small
  simp only [flatMagic, List.cons_append, List.nil_append, ofLittleEndian, Archive.maxHeader]
    at small
  have bytes : (0x4c : UInt8).toNat = 76 ∧ (0x50 : UInt8).toNat = 80 ∧
      (0x46 : UInt8).toNat = 70 ∧ (0x42 : UInt8).toNat = 66 := by decide
  omega

/-- Whether a written archive starts like a flat model is up to the length of its header. -/
lemma isPrefixOf_encode (texts : List (String × String)) (entries : Table Archive.Entry) :
    flatMagic.isPrefixOf (Archive.encode texts entries)
      = flatMagic.isPrefixOf (littleEndian 8 (Archive.headerBytes texts entries).length) := by
  have short : flatMagic.length
      ≤ (littleEndian 8 (Archive.headerBytes texts entries).length).length := by
    rw [length_littleEndian]
    decide
  rw [Bool.eq_iff_iff, List.isPrefixOf_iff_prefix, List.isPrefixOf_iff_prefix, Archive.encode_eq]
  exact ⟨fun h => List.prefix_of_prefix_length_le h (List.prefix_append ..) short,
    fun h => h.trans (List.prefix_append ..)⟩

/-- The texts of a container have different names. -/
lemma nodup_info (c : Container) : (c.info.map (·.1)).Nodup := by
  unfold info
  cases c.training with
  | none => exact (by decide : [encodingKey, versionKey, graphKey].Nodup)
  | some j => exact (by decide : [encodingKey, versionKey, graphKey, trainingKey].Nodup)

/-- The texts of a container by their names. -/
lemma get?_info :
    (Table.ofList c.info).get? encodingKey = some c.encoding.name ∧
      (Table.ofList c.info).get? versionKey = some version ∧
      (Table.ofList c.info).get? graphKey = some c.architecture.text ∧
      (Table.ofList c.info).get? trainingKey = c.training.map Json.text := by
  -- four keys, none of which hides another
  have distinct : encodingKey ≠ versionKey ∧ encodingKey ≠ graphKey ∧ encodingKey ≠ trainingKey ∧
      versionKey ≠ graphKey ∧ versionKey ≠ trainingKey ∧ graphKey ≠ trainingKey := by decide
  obtain ⟨ev, eg, et, vg, vt, gt⟩ := distinct
  rw [Table.ofList, info]
  cases c.training with
  | none =>
    simp only [Option.toList_none, List.map_nil, List.append_nil, List.foldl_cons, List.foldl_nil,
      Option.map_none]
    refine ⟨?_, ?_, Table.get?_insert_self .., ?_⟩
    · rw [Table.get?_insert_of_ne _ eg, Table.get?_insert_of_ne _ ev, Table.get?_insert_self]
    · rw [Table.get?_insert_of_ne _ vg, Table.get?_insert_self]
    · rw [Table.get?_insert_of_ne _ gt.symm, Table.get?_insert_of_ne _ vt.symm,
        Table.get?_insert_of_ne _ et.symm]
      rfl
  | some j =>
    simp only [Option.toList_some, List.map_cons, List.map_nil, List.cons_append, List.nil_append,
      List.foldl_cons, List.foldl_nil, Option.map_some]
    refine ⟨?_, ?_, ?_, Table.get?_insert_self ..⟩
    · rw [Table.get?_insert_of_ne _ et, Table.get?_insert_of_ne _ eg, Table.get?_insert_of_ne _ ev,
        Table.get?_insert_self]
    · rw [Table.get?_insert_of_ne _ vt, Table.get?_insert_of_ne _ vg, Table.get?_insert_self]
    · rw [Table.get?_insert_of_ne _ gt, Table.get?_insert_self]

/-- The encoding of a container reads back. -/
lemma readEncoding_info (notFlat : c.encoding ≠ .flat) :
    readEncoding (Table.ofList c.info) = .ok c.encoding := by
  rw [readEncoding, get?_info.1]
  dsimp only
  rw [Encoding.ofName?_name]
  cases encoding : c.encoding with
  | checkpoint => rfl
  | intermediate => rfl
  | flat => exact absurd encoding notFlat

lemma checkVersion_info : checkVersion (Table.ofList c.info) = .ok () := by
  rw [checkVersion, get?_info.2.1]
  rfl

/-- The graph reads back if its text does. -/
lemma readGraph_info (text : Architecture.parse? c.architecture.text = some c.architecture) :
    readGraph (Table.ofList c.info) = .ok c.architecture := by
  rw [readGraph, get?_info.2.2.1]
  dsimp only
  rw [text]

/-- A well-sized tensor is read back from its array. -/
lemma readTensor_entry (name : String) {t : Tensor} (sized : t.WellSized) :
    readTensor name (entry t) = .ok t := by
  rw [readTensor, entry, DType.ofElementType?_elementType]
  dsimp only
  rw [Tensor.ofBytes_eq_ok_iff.2 ⟨rfl, sized⟩]

/-- The tensors that a reader keeps are read back. -/
lemma readTensors_entries {withTraining : Bool}
    (sized : ∀ p ∈ c.tensors.entries, (withTraining || !isSlot p.1) = true → p.2.WellSized) :
    readTensors withTraining c.entries
      = .ok (c.tensors.filter fun name _ => withTraining || !isSlot name) := by
  have kept : (c.entries.filter fun name _ => withTraining || !isSlot name).entries
      = (c.tensors.filter fun name _ => withTraining || !isSlot name).entries.map
        fun p => (p.1, entry p.2) := List.filter_map
  have sized' : ∀ p ∈ (c.tensors.filter fun name _ => withTraining || !isSlot name).entries,
      p.2.WellSized := by
    intro p hp
    obtain ⟨hp, keep⟩ := List.mem_filter.1 hp
    exact sized p hp keep
  have all : ∀ l : List (String × Tensor), (∀ p ∈ l, p.2.WellSized) →
      (l.map fun p => (p.1, entry p.2)).mapM (fun p => do
        return (p.1, ← readTensor p.1 p.2)) = (.ok l : Except DecodeFault _) := by
    intro l
    induction l with
    | nil => exact fun _ => rfl
    | cons p l ih =>
      intro sized
      rw [List.forall_mem_cons] at sized
      rw [List.map_cons, List.mapM_cons, ih sized.2, readTensor_entry p.1 sized.1]
      rfl
  rw [readTensors, kept, all _ sized']
  exact congrArg Except.ok (Table.ofList_entries _)

/-- The training configuration reads back if it is wanted and its text does. -/
lemma readTraining_info {withTraining : Bool}
    (training : withTraining = true → ∀ j ∈ c.training, Json.parse? j.text = some j) :
    readTraining withTraining (Table.ofList c.info)
      = .ok (if withTraining then c.training else none) := by
  rw [readTraining, get?_info.2.2.2]
  cases found : c.training with
  | none => simp
  | some j =>
    rw [Option.map_some]
    dsimp only
    cases withTraining with
    | false => rfl
    | true =>
      rw [if_pos rfl, training rfl j found]
      rfl

/-- What a reader makes of a written container: everything, with the tensors that it keeps. -/
theorem decode_of_encode {withTraining : Bool} (storable : c.Storable)
    (names : Archive.infoKey ∉ c.tensors.keys) (notFlat : c.encoding ≠ .flat)
    (text : Architecture.parse? c.architecture.text = some c.architecture)
    (training : withTraining = true → ∀ j ∈ c.training, Json.parse? j.text = some j)
    (sized : ∀ p ∈ c.tensors.entries, (withTraining || !isSlot p.1) = true → p.2.WellSized)
    {bytes : Bytes} (written : c.encode = .value bytes) :
    decode withTraining bytes = .value ⟨c.encoding, c.architecture,
      if withTraining then c.training else none,
      c.tensors.filter fun name _ => withTraining || !isSlot name⟩ := by
  obtain ⟨fits, rfl⟩ := fits_of_encode storable names written
  -- each part of the container is read back from its own entry
  have read : ofArchive withTraining ⟨some (Table.ofList c.info), c.entries⟩ = .ok ⟨c.encoding,
      c.architecture, if withTraining then c.training else none,
      c.tensors.filter fun name _ => withTraining || !isSlot name⟩ := by
    simp only [ofArchive, readEncoding_info notFlat, checkVersion_info, readGraph_info text,
      readTraining_info training, readTensors_entries sized]
    rfl
  have archive := Archive.decode_of_fits fits
  rw [decode, not_isPrefixOf_of_decode archive, Bool.not_false, require_true, value_bind,
    archive, mapError_value, value_bind, read, ofExcept_ok, mapError_value]

end Container

end FlatNet
