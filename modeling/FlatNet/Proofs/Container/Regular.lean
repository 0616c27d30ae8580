import FlatNet.Proofs.Archive.Reordered
import FlatNet.Proofs.Container.Decoded
import FlatNet.Proofs.Graph.Text

/-!
Regular containers are written and read again.

A tensor takes an empty dimension for a single element and an archive takes it for none.  Away
from empty dimensions the two ways of counting agree, so a tensor that passes both rules is one
without empty dimensions that holds just the bytes of its elements.

* `Tensor.Regular`, `Tensor.regular_iff`: the tensors that pass both rules;
* `Container.Regular`: containers of such tensors;
* `Container.regular_of_decode`: every container that is read is regular;
* `Container.Regular.encode`, `Container.Regular.decode_written`: every regular container is
  written, and read as it was;
* `Container.Regular.decode_eq_of_written`: the order of the texts does not matter to a reader;
* `Container.reads_back_of_regular`: both together.
-/

namespace FlatNet

open Outcome

/-! ### Tensors -/

namespace Tensor

variable {t : Tensor}

/-- A tensor without empty dimensions that holds the bytes of its elements, their bits being few
enough to be counted.  Fewer than `2 ^ 61` bytes are, and no memory holds more. -/
structure Regular (t : Tensor) : Prop where
  /-- No dimension is empty. -/
  full : 0 ∉ t.shape
  /-- There are as many bytes as the elements take. -/
  length : t.bytes.length = t.shape.volume * t.dtype.width
  /-- The number of bits is a size. -/
  bits : 8 * t.bytes.length < Size.bound

lemma Regular.wellSized (h : t.Regular) : t.WellSized :=
  (wellSized_iff h.full).2 ⟨lt_of_le_of_lt (Nat.le_mul_of_pos_left _ (by decide)) h.bits, h.length⟩

/-- The array of a regular tensor passes the check of a writer. -/
lemma Regular.check (h : t.Regular) : (Container.entry t).check = .value () := by
  have small : t.shape.volume ≤ t.shape.volume * t.dtype.width :=
    Nat.le_mul_of_pos_right _ t.dtype.one_le_width
  have length := h.length
  have bits := h.bits
  have counted : Size.product? 1 t.shape = some t.shape.volume :=
    (Size.product?_eq_some_iff h.full (by decide)).2 ⟨show t.shape.volume < _ by omega, rfl⟩
  simp only [Archive.Entry.check, bind_eq_value_iff, Size.product_eq_value_iff,
    Size.mul_eq_value_iff, require_eq_value_iff, decide_eq_true_eq]
  refine ⟨_, counted, _, ⟨?_, rfl⟩, (), ?_, ?_⟩
  all_goals
    dsimp only [Container.entry]
    rw [DType.bits_elementType, ← Nat.mul_assoc, ← length]
    omega

/-- A tensor is regular exactly if it is well sized and its array passes the check of a writer. -/
lemma regular_iff : t.Regular ↔ t.WellSized ∧ (Container.entry t).check = .value () := by
  refine ⟨fun h => ⟨h.wellSized, h.check⟩, ?_⟩
  rintro ⟨sized, checked⟩
  obtain ⟨count, counted, pos, length, bits⟩ := count_of_check sized checked
  have volume : t.shape.volume = count := Size.foldl_mul_of_product? counted
  refine ⟨fun empty => ?_, volume ▸ length, bits⟩
  rw [← volume, Shape.volume, ← List.prod_eq_foldl, List.prod_eq_zero empty] at pos
  exact absurd pos (lt_irrefl 0)

end Tensor

namespace Container

variable {c : Container}

/-! ### Containers -/

/-- A container of regular tensors that an archive can hold. -/
structure Regular (c : Container) : Prop where
  /-- The encoding is one of a container. -/
  notFlat : c.encoding ≠ .flat
  /-- No tensor has the name of the texts of an archive. -/
  names : Archive.infoKey ∉ c.tensors.keys
  /-- The tensors are regular. -/
  tensors : ∀ p ∈ c.tensors.entries, p.2.Regular

/-- A container whose graph and training configuration read back from their own texts. -/
structure Legible (c : Container) : Prop where
  /-- The graph reads back. -/
  architecture : Architecture.parse? c.architecture.text = some c.architecture
  /-- The training configuration reads back. -/
  training : ∀ j ∈ c.training, Json.parse? j.text = some j

/-- Every container that is read is regular. -/
lemma regular_of_decode {withTraining : Bool} {bs : Bytes}
    (h : decode withTraining bs = .value c) : c.Regular := by
  have known := readFrom_of_decode h
  obtain ⟨-, archive, -, made⟩ := decode_eq_value_iff.1 h
  obtain ⟨info, -, encoding, -⟩ := ofArchive_eq_ok_iff.1 made
  refine ⟨ne_flat_of_readEncoding encoding, known.names, fun p hp => ?_⟩
  exact Tensor.regular_iff.2 ⟨known.sized p hp, known.checked _ (mem_entries_iff.2 ⟨p, hp, rfl⟩)⟩

namespace Regular

/-- The arrays of a regular container pass the check of a writer. -/
lemma checked (h : c.Regular) : ∀ q ∈ c.entries.entries, q.2.check = .value () := by
  intro q hq
  obtain ⟨p, hp, rfl⟩ := mem_entries_iff.1 hq
  exact (h.tensors p hp).check

/-- A regular container is written. -/
lemma encode (h : c.Regular) : c.encode = .value (Archive.encode c.info c.entries) :=
  encode_eq_value_iff.2 ⟨h.checked, rfl⟩

/-- A regular container whose header is not too long can be read from what is written. -/
lemma storable (h : c.Regular)
    (header : (Archive.headerBytes c.info c.entries).length ≤ Archive.maxHeader)
    (size : (Archive.encode c.info c.entries).length < Size.bound) : c.Storable :=
  ⟨fun p hp => Tensor.lt_bound_of_check (h.tensors p hp).wellSized (h.tensors p hp).check, header,
    size⟩

/-- A regular container is read alike from all byte strings that it may be written as. -/
lemma decode_eq_of_written (h : c.Regular) {bytes bytes' : Bytes} (first : c.Written bytes)
    (second : c.Written bytes') (size : bytes.length < Size.bound) (withTraining : Bool) :
    decode withTraining bytes = decode withTraining bytes' := by
  obtain ⟨texts, same, encoded⟩ := first
  obtain ⟨texts', same', encoded'⟩ := second
  obtain ⟨checked, rfl⟩ := encodeWith_eq_value_iff.1 encoded
  obtain ⟨-, rfl⟩ := encodeWith_eq_value_iff.1 encoded'
  -- the two forms have the same texts, in two orders
  have both := same.trans same'.symm
  have distinct := (same.map (·.1)).nodup_iff.2 c.nodup_info
  have names : Archive.infoKey ∉ c.entries.keys := by
    rw [entries, Table.keys_map]
    exact h.names
  have shapes : ∀ q ∈ c.entries.entries, ∀ d ∈ q.2.shape, d < Size.bound := by
    intro q hq
    obtain ⟨p, hp, rfl⟩ := mem_entries_iff.1 hq
    exact Tensor.lt_bound_of_check (h.tensors p hp).wellSized (h.tensors p hp).check
  rw [decode, decode, isPrefixOf_encode, isPrefixOf_encode, Archive.length_headerBytes_of_perm both,
    Archive.decode_encode_of_perm both distinct names shapes checked size]

/-- A regular container is read as it was written, with training state. -/
lemma decode_written (h : c.Regular) (storable : c.Storable) (legible : c.Legible) :
    decode true (Archive.encode c.info c.entries) = .value c := by
  rw [decode_of_encode storable h.names h.notFlat legible.architecture
    (fun _ => legible.training) (fun p hp _ => (h.tensors p hp).wellSized) h.encode]
  have all : c.tensors.filter (fun name _ => true || !isSlot name) = c.tensors :=
    Table.filter_eq_self_iff.2 fun _ _ => rfl
  rw [all]
  rfl

end Regular

/-- A container is written, and if the header is not too long and the file fits into the memory,
what is written is read as the same container. -/
def ReadsBack (c : Container) : Prop :=
  ∃ bytes, c.encode = .value bytes ∧
    ((Archive.headerBytes c.info c.entries).length ≤ Archive.maxHeader →
      bytes.length < Size.bound → c.Legible → decode true bytes = .value c)

/-- Every container that is read is regular, and every regular container is written and read as it
was.  So what is read once, with training state, is read again from what is written. -/
theorem reads_back_of_regular :
    (∀ withTraining bs c, decode withTraining bs = .value c → c.Regular) ∧
    (∀ c : Container, c.Regular → c.ReadsBack) ∧
    ∀ bs c, decode true bs = .value c → c.ReadsBack := by
  have again : ∀ c : Container, c.Regular → c.ReadsBack := fun c regular =>
    ⟨_, regular.encode, fun header size legible =>
      regular.decode_written (regular.storable header size) legible⟩
  exact ⟨fun _ _ _ => regular_of_decode, again, fun _ c read => again c (regular_of_decode read)⟩

/-- A training configuration. -/
def plainDescent : Json := .obj [("optimizer", .str "SGD")]

lemma parse?_text_plainDescent : Json.parse? plainDescent.text = some plainDescent := by
  have read : Json.Tree.Reads plainDescent.text (.record [("optimizer", .ofText "SGD")]) :=
    Json.Tree.reads_record (.cons ⟨rfl, Json.Tree.reads_quote _⟩ .nil)
  rw [Json.parse?, Json.Tree.parse?_of_reads read]
  rfl

/-- A checkpoint with tensors of several types, not in the order in which they are stored. -/
def mixed : Container where
  encoding := .checkpoint
  architecture := {
    name := "net"
    layers := [⟨"in", .input ⟨1, 1, 1⟩, []⟩]
    inputs := ["in"]
    outputs := ["in"] }
  training := some plainDescent
  tensors := .ofList [
    ("in/bias", ⟨.u8, [2], [1, 2]⟩),
    ("in/kernel", ⟨.f32, [1, 2], Bytes.ofSingles [⟨0x3f800000⟩, ⟨0x7fc00000⟩]⟩),
    ("optimizer/step", ⟨.i32, [], [7, 0, 0, 0]⟩)]

/-- The arrays of the checkpoint in the order of the data. -/
def mixedStored : List (String × Archive.Entry) := [
  ("in/kernel", ⟨.f32, [1, 2], Bytes.ofSingles [⟨0x3f800000⟩, ⟨0x7fc00000⟩]⟩),
  ("optimizer/step", ⟨.i32, [], [7, 0, 0, 0]⟩),
  ("in/bias", ⟨.u8, [2], [1, 2]⟩)]

lemma stored_mixed : Archive.stored mixed.entries = mixedStored :=
  Archive.stored_eq_of_perm (by decide +kernel) (by decide +kernel)

lemma regular_mixed : mixed.Regular := by
  refine ⟨by decide, by decide +kernel, fun p hp => ?_⟩
  refine Tensor.regular_iff.2 ?_
  revert p
  decide +kernel

lemma storable_mixed : mixed.Storable := by
  refine storable_of_le (n := 4096) (by decide +kernel) ?_ (by decide +kernel) (by decide)
  rw [stored_mixed]
  -- the characters are counted before they are put together
  simp only [mixed, mixedStored, Bytes.length_ofText, Archive.headerText, Json.Tree.toList_braced,
    Json.Tree.toList_bracketed, Json.Tree.toList_memberText, Json.toList_quote, List.map_cons,
    List.map_append, List.map_nil, info, Option.toList_some, Architecture.text, Layer.text,
    LayerKind.text, LayerKind.config, namesText, sizesText]
  decide +kernel

lemma legible_mixed : mixed.Legible where
  architecture := Architecture.parse?_text fun l hl => by
    obtain rfl := List.mem_singleton.1 hl
    exact ⟨by decide, by decide, by decide⟩
  training := by
    rintro _ ⟨⟩
    exact parse?_text_plainDescent

/-- A container whose tensors are not in the order in which they are stored is written and read back. -/
theorem reads_back_of_regular_mixed :
    Archive.stored mixed.entries ≠ mixed.entries.entries ∧ mixed.Regular ∧
      ∃ bytes, mixed.encode = .value bytes ∧ decode true bytes = .value mixed := by
  obtain ⟨bytes, written, read⟩ := reads_back_of_regular.2.1 mixed regular_mixed
  obtain ⟨-, rfl⟩ := encode_eq_value_iff.1 written
  refine ⟨?_, regular_mixed, _, written,
    read storable_mixed.header storable_mixed.size legible_mixed⟩
  rw [stored_mixed]
  decide +kernel

end Container

end FlatNet
