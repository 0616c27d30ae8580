import FlatNet.Proofs.Bytes
import FlatNet.Proofs.Flat.Reading

/-!
A stored flat model reads back as the model.

The tables are read part by part.  Every buffer is then found at its place in the data
section: the section behind a prefix of the right length is the zeros before the next buffer,
the buffer, and the section behind these.

* `FlatModel.Fits`: the counts of a model fit the stored form;
* `reads_tables`: the tables of a model are read from everything before the data section;
* `slice?_dataAt`: the buffers lie at their places;
* `FlatModel.Storable`: models whose stored form keeps all of them;
* `FlatModel.decode_encode`: reading undoes storing.
-/

namespace FlatNet

open Reader

/-! ### Models that fit -/

/-- The counts in a model fit. -/
@[mk_iff] structure FlatModel.Fits (m : FlatModel) : Prop where
  /-- The length of the description. -/
  description : FitsCount (Bytes.ofText m.description).length
  /-- The number of notes. -/
  metadata : FitsCount m.metadata.length
  /-- The notes. -/
  notes : ∀ note ∈ m.metadata, NoteFits note
  /-- The number of codes. -/
  codes : FitsCount m.codes.length
  /-- The number of tensors. -/
  tensors : FitsCount m.tensors.length
  /-- The tensors. -/
  entries : ∀ t ∈ m.tensors, t.Fits
  /-- The number of operators. -/
  operators : FitsCount m.operators.length
  /-- The operators. -/
  instructions : ∀ op ∈ m.operators, op.Fits
  /-- The number of inputs. -/
  inputs : FitsCount m.inputs.length
  /-- The number of outputs. -/
  outputs : FitsCount m.outputs.length
  /-- The number of buffers. -/
  buffers : FitsCount m.buffers.length

namespace FlatModel

instance (m : FlatModel) : Decidable m.Fits := decidable_of_iff' _ (fits_iff m)

/-- The places and lengths of the buffers. -/
def spans (m : FlatModel) : List (Nat × Nat) := m.placed.map fun p => (p.1, p.2.length)

/-- A model without its buffers. -/
def tables (m : FlatModel) : FlatModel := { m with buffers := [] }

end FlatModel

/-! ### Tables -/

lemma encodeTable_map {α β : Type} (encode : β → Bytes) (f : α → β) (xs : List α) :
    encodeTable encode (xs.map f) = encodeTable (fun a => encode (f a)) xs := by
  simp [encodeTable, List.flatMap_map]

lemma reads_magic : Reads readMagic flatMagic () := by
  intro rest
  have start : flatMagic.isPrefixOf (flatMagic ++ rest) = true :=
    List.isPrefixOf_iff_prefix.2 (List.prefix_append _ _)
  simp only [StateT.run, readMagic, start, if_true, List.drop_left]

lemma reads_version :
    Reads readVersion (Bytes.ofWord FlatModel.formatVersion) FlatModel.formatVersion :=
  (reads_word .version FlatModel.formatVersion).map id

@[simp] lemma length_offsets (used : Nat) (buffers : List Bytes) :
    (offsets used buffers).length = buffers.length := by
  induction buffers generalizing used with
  | nil => rfl
  | cons b rest ih => simp [offsets, ih]

namespace FlatModel

@[simp] lemma length_placed (m : FlatModel) : m.placed.length = m.buffers.length := by
  simp [placed]

lemma map_snd_placed (m : FlatModel) : m.placed.map (·.2) = m.buffers :=
  List.map_snd_zip (by simp)

lemma encodeTable_placed (m : FlatModel) :
    encodeTable encodeSpan m.placed = encodeTable encodeExtent m.spans := by
  rw [spans, encodeTable_map]
  rfl

/-- Everything before the data section is read as the tables and the places of the buffers. -/
lemma reads_tables {m : FlatModel} (version : m.version = formatVersion) (fits : m.Fits)
    (small : ∀ span ∈ m.spans, span.1 < Size.bound ∧ span.2 < Size.bound) :
    Reads readTables m.head (m.tables, m.spans) := by
  have buffers : FitsCount m.spans.length := by
    rw [spans, List.length_map, length_placed]
    exact fits.buffers
  simp only [head, encodeTable_placed, version, List.append_assoc]
  rw [tables, version]
  -- the parts in the order in which they are stored
  refine reads_magic.bind ?_
  refine reads_version.bind ?_
  refine (reads_text _ fits.description).bind ?_
  refine (Reads.table _ fits.metadata (fun note h => reads_note (fits.notes note h))
    (fun note _ => length_encodeNote_ge note)).bind ?_
  refine (Reads.table _ fits.codes (fun code _ => reads_code code)
    (fun code _ => by simp [Bytes.ofWord])).bind ?_
  refine (Reads.table _ fits.tensors (fun t h => reads_tensor (fits.entries t h))
    (fun t _ => length_encodeTensor_ge t)).bind ?_
  refine (Reads.table _ fits.operators (fun op h => reads_operator (fits.instructions op h))
    (fun op _ => length_encodeOperator_ge op)).bind ?_
  refine (reads_indices _ fits.inputs).bind ?_
  refine (reads_indices _ fits.outputs).bind ?_
  exact (Reads.table _ buffers (fun span h => reads_span (small span h).1 (small span h).2)
    (fun span _ => (length_encodeExtent span).ge)).map _

end FlatModel

/-! ### The data section -/

lemma le_align (n : Nat) : n ≤ align n := by
  unfold align bufferAlignment
  omega

/-- Every buffer lies at its place behind a prefix that ends where the section goes on. -/
lemma slice?_dataAt (start : Nat) (buffers : List Bytes) (before : Bytes) (used : Nat)
    (length : before.length = start + used) :
    ∀ p ∈ (offsets used buffers).zip buffers,
      (before ++ dataAt start (start + used) ((offsets used buffers).zip buffers)).slice?
        (start + p.1) (start + p.1 + p.2.length) = some p.2 := by
  induction buffers generalizing before used with
  | nil => simp [offsets]
  | cons b rest ih =>
    have padded := le_align used
    -- the prefix of the buffers after `b` ends with `b`
    have zeroed : (before ++ zeros (start + align used - (start + used))).length
        = start + align used := by
      rw [List.length_append, length, zeros, List.length_replicate]
      omega
    have behind : (before ++ zeros (start + align used - (start + used)) ++ b).length
        = start + (align used + b.length) := by
      rw [List.length_append, zeroed, Nat.add_assoc]
    intro p hp
    rw [offsets, List.zip_cons_cons, dataAt, List.append_assoc, ← List.append_assoc before,
      ← List.append_assoc (before ++ _)]
    rcases List.mem_cons.1 hp with rfl | hp
    · have found := Bytes.slice?_append (before ++ zeros (start + align used - (start + used))) b
        (dataAt start (start + align used + b.length)
          ((offsets (align used + b.length) rest).zip rest))
      rwa [zeroed] at found
    · rw [Nat.add_assoc start (align used)]
      exact ih _ _ behind p hp

namespace FlatModel

/-- A stored model holds every buffer at its place. -/
lemma slice?_encode (m : FlatModel) {p : Nat × Bytes} (h : p ∈ m.placed) :
    m.encode.slice? (align m.head.length + p.1) (align m.head.length + p.1 + p.2.length)
      = some p.2 := by
  have padded := le_align m.head.length
  have length : (m.head ++ zeros (align m.head.length - m.head.length)).length
      = align m.head.length + 0 := by
    rw [List.length_append, zeros, List.length_replicate]
    omega
  exact slice?_dataAt _ m.buffers _ 0 length p h

/-- A buffer is found if the whole stored model has a size. -/
lemma buffer?_encode {m : FlatModel} (size : m.encode.length < Size.bound) {p : Nat × Bytes}
    (h : p ∈ m.placed) :
    buffer? m.encode (align m.head.length) (p.1, p.2.length) = some p.2 := by
  have found := m.slice?_encode h
  have inside := (Bytes.slice?_eq_some_iff.1 found).1.2
  have first : Size.add? p.1 (align m.head.length) = some (align m.head.length + p.1) := by
    rw [Size.add?, if_pos (by omega), Nat.add_comm]
  have last : Size.add? (align m.head.length + p.1) p.2.length
      = some (align m.head.length + p.1 + p.2.length) := by
    rw [Size.add?, if_pos (by omega)]
  simp only [buffer?, first, last, Option.bind_eq_bind, Option.bind_some, found]

/-- The numbers of the table of buffers are sizes if the whole stored model has one. -/
lemma spans_small {m : FlatModel} (size : m.encode.length < Size.bound) :
    ∀ span ∈ m.spans, span.1 < Size.bound ∧ span.2 < Size.bound := by
  intro span h
  obtain ⟨p, hp, rfl⟩ := List.mem_map.1 h
  have inside := (Bytes.slice?_eq_some_iff.1 (m.slice?_encode hp)).1.2
  constructor <;> dsimp only <;> omega

end FlatModel

/-- A traversal with counted entries, each step of which does not depend on the count. -/
lemma forall₂_zipIdx {α β γ : Type} {R : β × Nat → γ → Prop} {f : α → β} {g : α → γ}
    {xs : List α} (h : ∀ x ∈ xs, ∀ i, R (f x, i) (g x)) (start : Nat) :
    List.Forall₂ R ((xs.map f).zipIdx start) (xs.map g) := by
  induction xs generalizing start with
  | nil => exact List.Forall₂.nil
  | cons x xs ih =>
    rw [List.map_cons, List.map_cons, List.zipIdx_cons]
    refine List.Forall₂.cons (h x (List.mem_cons_self ..) start) ?_
    exact ih (fun y hy => h y (List.mem_cons_of_mem x hy)) (start + 1)

namespace FlatModel

lemma readBuffers_encode {m : FlatModel} (size : m.encode.length < Size.bound) :
    readBuffers m.encode (align m.head.length) m.spans = .value m.buffers := by
  rw [readBuffers, Outcome.mapM_eq_value_iff, spans, ← m.map_snd_placed]
  refine forall₂_zipIdx (fun p hp i => ?_) 0
  rw [Outcome.orError_eq_value_iff]
  exact buffer?_encode size hp

lemma head_le_encode (m : FlatModel) : align m.head.length ≤ m.encode.length := by
  have padded := le_align m.head.length
  simp only [encode, List.length_append, zeros, List.length_replicate]
  omega

/-- The data section starts at the first place for a buffer. -/
lemma dataStart_eq {used : Nat} (small : align used < Size.bound) :
    dataStart used = .value (align used) := by
  rw [dataStart, Size.divCeil, if_neg (by decide), Outcome.value_bind, Size.mul,
    Size.checked_eq_value_iff]
  exact ⟨small, rfl⟩

/-! ### Models -/

/-- A model whose stored form has a size and keeps all of it. -/
structure Storable (m : FlatModel) : Prop where
  /-- It has the version of the format. -/
  version : m.version = formatVersion
  /-- Its counts fit. -/
  fits : m.Fits
  /-- Its stored form has a size. -/
  size : m.encode.length < Size.bound
  /-- Every place in it is there. -/
  places : m.checkIndices = .ok ()

/-- The tables are read from the front of the stored form, the buffers from behind it. -/
lemma Storable.decode_eq_value {m : FlatModel} (h : m.Storable) : decode m.encode = .value m := by
  have start : align m.head.length < Size.bound := lt_of_le_of_lt m.head_le_encode h.size
  obtain ⟨data, split⟩ : ∃ data, m.encode = m.head ++ data :=
    ⟨_, List.append_assoc ..⟩
  have read : readTables.run m.encode = .value ((m.tables, m.spans), data) := by
    rw [split]
    exact reads_tables h.version h.fits (spans_small h.size) data
  have used : (Size.sub m.encode.length data.length : Outcome FormatError Nat)
      = .value m.head.length := by
    rw [split, Size.sub, List.length_append, if_pos (Nat.le_add_left _ _), Nat.add_sub_cancel_right]
  have whole : { m.tables with buffers := m.buffers } = m := rfl
  rw [decode, read, Outcome.value_bind]
  dsimp only
  rw [used, Outcome.value_bind, dataStart_eq start, Outcome.value_bind,
    readBuffers_encode h.size, Outcome.value_bind, whole, h.places]
  rfl

/-- Reading a stored model gives back the model, in every part. -/
theorem decode_encode (m : FlatModel) (version : m.version = formatVersion) (fits : m.Fits)
    (size : m.encode.length < Size.bound) (places : m.checkIndices = .ok ()) :
    decode m.encode = .value m :=
  Storable.decode_eq_value ⟨version, fits, size, places⟩

/-- A model with an entry in every table: the positive part of a batch of pixels, and a
quantized constant that nothing reads. -/
def positivePart : FlatModel where
  version := formatVersion
  description := "positive part"
  metadata := [("producer", "hand")]
  codes := [.relu]
  tensors := [
    ⟨"x", .f32, [1, 1, 1, 2], 0, none⟩,
    ⟨"spare", .i8, [3], 1, some ⟨⟨1⟩, 0⟩⟩,
    ⟨"y", .f32, [1, 1, 1, 2], 0, none⟩]
  operators := [⟨0, [0], [2], .none⟩]
  inputs := [0]
  outputs := [2]
  buffers := [[], [1, 2, 3]]

/-- A model with an entry in every table is read back. -/
theorem decode_encode_positivePart : decode positivePart.encode = .value positivePart :=
  decode_encode positivePart rfl (by decide +kernel) (by decide +kernel) rfl

end FlatModel

end FlatNet
