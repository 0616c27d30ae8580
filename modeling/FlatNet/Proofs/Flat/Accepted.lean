import FlatNet.Proofs.Flat.Cursor
import FlatNet.Proofs.Flat.RoundTrip

/-!
Flat models read from any bytes.

Whatever the bytes hold, reading ends in a model or is refused: the cursor of the reader stays
inside them, and so do the buffers, which are cut out one by one behind the tables.  Buffers
that were read may overlap, stand in any order or be named by no tensor; storing the model
again puts them side by side, and this second form reads back as the same model.

* `FlatModel.PlacesExist`: every place that a model names is in its table, with
  `checkIndices_eq_ok_iff` for the check of it;
* `sound_tables`: the counts in tables that were read fit;
* `FlatModel.ReadFrom`: what is known of a model that was read from bytes;
* `FlatModel.decode_sound`: reading gives such a model or refuses.
-/

namespace FlatNet

open Reader

/-! ### Places -/

/-- A place in a table of `n` entries. -/
def InTable (n : Nat) (index : Int32) : Prop := 0 ≤ index.toInt ∧ index.toInt.toNat < n

namespace FlatModel

/-- Every place that a model names is in its table; inputs of operators may be left out. -/
structure PlacesExist (m : FlatModel) : Prop where
  /-- The buffers of tensors. -/
  buffers : ∀ t ∈ m.tensors, t.buffer.toNat < m.buffers.length
  /-- The codes of operators. -/
  codes : ∀ op ∈ m.operators, op.opcode.toNat < m.codes.length
  /-- The inputs of operators. -/
  operands : ∀ op ∈ m.operators, ∀ index ∈ op.inputs, 0 ≤ index → InTable m.tensors.length index
  /-- The outputs of operators. -/
  results : ∀ op ∈ m.operators, ∀ index ∈ op.outputs, InTable m.tensors.length index
  /-- The inputs and outputs of the model. -/
  ends : ∀ index ∈ m.inputs ++ m.outputs, InTable m.tensors.length index

lemma exists_getElem?_iff {α : Type} {xs : List α} {n : Nat} :
    (∃ a, xs[n]? = some a) ↔ n < xs.length := by
  simp only [← Option.isSome_iff_exists, isSome_getElem?]

lemma exists_entry?_iff {α : Type} {xs : List α} {index : Int} :
    (∃ a, entry? xs index = some a) ↔ 0 ≤ index ∧ index.toNat < xs.length := by
  rw [ entry?]
  by_cases sign : 0 ≤ index
  · rw [if_pos sign, exists_getElem?_iff]
    exact (and_iff_right sign).symm
  · simp [sign]

variable {m : FlatModel}

lemma checkBuffer_eq_ok_iff {t : FlatTensor} :
    m.checkBuffer t = .ok () ↔ t.buffer.toNat < m.buffers.length := by
  unfold checkBuffer
  split <;> simp_all

lemma checkTensor_eq_ok_iff {index : Int32} :
    m.checkTensor index = .ok () ↔ InTable m.tensors.length index := by
  rw [InTable, ← exists_entry?_iff, checkTensor, tensor]
  cases entry? m.tensors index.toInt <;> simp [bind, Except.bind, pure, Except.pure]

lemma exists_opcode_iff {op : FlatOperator} :
    (∃ code, m.opcode op = .ok code) ↔ op.opcode.toNat < m.codes.length := by
  rw [← exists_getElem?_iff, opcode]
  cases m.codes[op.opcode.toNat]? <;> simp

lemma checkOperator_eq_ok_iff {op : FlatOperator} :
    m.checkOperator op = .ok () ↔ op.opcode.toNat < m.codes.length ∧
      (∀ index ∈ op.inputs, 0 ≤ index → InTable m.tensors.length index) ∧
      ∀ index ∈ op.outputs, InTable m.tensors.length index := by
  have operand : ∀ index : Int32, (if 0 ≤ index then m.checkTensor index else .ok ()) = .ok () ↔
      (0 ≤ index → InTable m.tensors.length index) := by
    intro index
    rw [← checkTensor_eq_ok_iff]
    split <;> simp_all
  simp only [checkOperator, except_bind_eq_ok_iff, forM_eq_ok_iff, operand, checkTensor_eq_ok_iff,
    ← exists_opcode_iff, exists_and_right, exists_const]

/-- The check of every place passes exactly when each of them exists. -/
theorem checkIndices_eq_ok_iff : m.checkIndices = .ok () ↔ m.PlacesExist := by
  simp only [checkIndices, except_bind_eq_ok_iff, forM_eq_ok_iff, checkBuffer_eq_ok_iff,
    checkOperator_eq_ok_iff, checkTensor_eq_ok_iff, exists_const]
  constructor
  · rintro ⟨buffers, operators, inputs, outputs⟩
    exact ⟨buffers, fun op h => (operators op h).1, fun op h => (operators op h).2.1,
      fun op h => (operators op h).2.2, List.forall_mem_append.2 ⟨inputs, outputs⟩⟩
  · rintro ⟨buffers, codes, operands, results, ends⟩
    obtain ⟨inputs, outputs⟩ := List.forall_mem_append.1 ends
    exact ⟨buffers, fun op h => ⟨codes op h, operands op h, results op h⟩, inputs, outputs⟩

end FlatModel

/-! ### Tables -/

lemma sound_magic : Sound readMagic fun _ => True := ⟨⟨_, .magic⟩, fun _ _ _ _ => trivial⟩

lemma sound_version : Sound readVersion fun version => version = FlatModel.formatVersion := by
  refine (sound_word _).bind fun version => ?_
  split
  · rename_i current
    exact .pure fun _ => current
  · exact .fail

/-- The counts in tables that were read fit, and no buffer is read among them. -/
lemma sound_tables : Sound readTables fun (tables, spans) =>
    tables.version = FlatModel.formatVersion ∧ tables.buffers = [] ∧ tables.Fits ∧
      FitsCount spans.length := by
  refine sound_magic.bind fun _ => sound_version.bind fun version => ?_
  refine (sound_text _).bind fun description => (sound_note.table _ 8).bind fun metadata => ?_
  refine (sound_code.table _ 4).bind fun codes => (sound_tensor.table _ 14).bind fun tensors => ?_
  refine (sound_operator.table _ 13).bind fun operators => (sound_indices _).bind fun inputs => ?_
  refine (sound_indices _).bind fun outputs => (sound_span.table _ 16).map ?_
  rintro spans ⟨buffers, -⟩ outputs inputs ⟨operators, instructions⟩ ⟨tensors, entries⟩
    ⟨codes, -⟩ ⟨metadata, notes⟩ description version -
  exact ⟨version, rfl, ⟨description, metadata, notes, codes, tensors, entries, operators,
    instructions, inputs, outputs, Nat.two_pow_pos 32⟩, buffers⟩

/-! ### Buffers -/

/-- A buffer is a part of the bytes behind the start of the data section. -/
lemma slice?_of_buffer? {bs b : Bytes} {start : Nat} {span : Nat × Nat}
    (h : buffer? bs start span = some b) :
    ∃ first, start ≤ first ∧ bs.slice? first (first + b.length) = some b := by
  simp only [buffer?, Option.bind_eq_bind, Option.bind_eq_some_iff, Size.add?,
    Option.ite_none_right_eq_some, Option.some.injEq] at h
  obtain ⟨_, ⟨-, rfl⟩, _, ⟨-, rfl⟩, found⟩ := h
  obtain ⟨⟨-, inside⟩, part⟩ := Bytes.slice?_eq_some_iff.1 found
  have length : b.length = span.2 := by
    rw [← part, List.length_take, List.length_drop]
    omega
  exact ⟨span.1 + start, Nat.le_add_left _ _, length ▸ found⟩

lemma slices_of_readBuffers {bs : Bytes} {start : Nat} {spans : List (Nat × Nat)}
    {buffers : List Bytes} (h : readBuffers bs start spans = .value buffers) :
    buffers.length = spans.length ∧
      ∀ b ∈ buffers, ∃ first, start ≤ first ∧ bs.slice? first (first + b.length) = some b := by
  rw [readBuffers, Outcome.mapM_eq_value_iff] at h
  constructor
  · rw [← h.length_eq, List.length_zipIdx]
  · intro b hb
    obtain ⟨span, -, found⟩ := exists_mem_of_forall₂ h.flip hb
    exact slice?_of_buffer? (Outcome.orError_eq_value_iff.1 found)

/-! ### Models -/

namespace FlatModel

/-- What is known of a model that was read from bytes. -/
structure ReadFrom (m : FlatModel) (bs : Bytes) : Prop where
  /-- It has the version of the format. -/
  version : m.version = formatVersion
  /-- Its dimensions are numbers of four bytes. -/
  dims : ∀ t ∈ m.tensors, ∀ n ∈ t.shape, n < 0x100000000
  /-- Every place in it is there. -/
  places : m.PlacesExist
  /-- Its tables take the first bytes, and its buffers are parts of the bytes from the next
  multiple of the alignment on. -/
  slices : ∃ used ≤ bs.length,
    (∃ spans, readTables.run bs = .value ((m.tables, spans), bs.drop used)) ∧
    ∀ b ∈ m.buffers, ∃ first, align used ≤ first ∧ bs.slice? first (first + b.length) = some b
  /-- It reads back from its own stored form, if that has a size. -/
  again : m.encode.length < Size.bound → decode m.encode = .value m

/-- The counts in a model that is read fit. -/
lemma fits_of_decode {bs : Bytes} {m : FlatModel} (h : decode bs = .value m) : m.Fits := by
  simp only [decode, Outcome.bind_eq_value_iff, Outcome.pure_eq, Outcome.value.injEq] at h
  obtain ⟨⟨⟨tables, spans⟩, rest⟩, read, -, -, start, -, buffers, cut, -, -, rfl⟩ := h
  obtain ⟨-, -, fits, counted⟩ := sound_tables.gives bs _ _ read
  exact { fits with buffers := by rwa [FitsCount, (slices_of_readBuffers cut).1] }

/-- Reading ends in a model or is refused, whatever the bytes hold.  The cursor of the reader
stays inside them, and the model is sound. -/
theorem decode_sound (bs : Bytes) (size : bs.length < 0x8000000000000000) :
    (∃ scan, Scans readTables scan ∧ Agree bs 0 (readTables.run bs) (scan.run ⟨bs, 0⟩)) ∧
      ((∃ m, decode bs = .value m ∧ m.ReadFrom bs) ∨ ∃ e, decode bs = .error e) := by
  obtain ⟨scan, scans⟩ := sound_tables.scans
  have agree := scans.spec size (Nat.zero_le bs.length)
  rw [List.drop_zero] at agree
  refine ⟨⟨scan, scans, agree⟩, ?_⟩
  rcases agree with ⟨e, refused, -⟩ | ⟨⟨tables, spans⟩, used, ⟨-, inside⟩, read, -⟩
  · exact .inr ⟨e, by rw [decode, refused, Outcome.error_bind]⟩
  obtain ⟨version, empty, fits, counted⟩ := sound_tables.gives bs _ _ read
  have position : (Size.sub bs.length (bs.drop used).length : Outcome FormatError Nat)
      = .value used := by
    rw [Size.sub, List.length_drop, if_pos (Nat.sub_le _ _), Nat.sub_sub_self inside]
  have start : dataStart used = .value (align used) := by
    refine dataStart_eq ?_
    unfold align bufferAlignment Size.bound
    omega
  simp only [decode, read, Outcome.value_bind, position, start]
  cases cut : readBuffers bs (align used) spans with
  | error e => exact .inr ⟨e, rfl⟩
  | fault => exact absurd cut (Outcome.mapM_ne_fault fun _ _ => Outcome.orError_ne_fault)
  | value buffers =>
    rw [Outcome.value_bind]
    cases checked : { tables with buffers := buffers }.checkIndices with
    | error e => exact .inr ⟨e, rfl⟩
    | ok u =>
      obtain ⟨length, slices⟩ := slices_of_readBuffers cut
      -- no count depends on the buffers but their number, which is that of the places read
      have fits' : { tables with buffers := buffers }.Fits :=
        { fits with buffers := by rwa [FitsCount, length] }
      have front : { tables with buffers := buffers }.tables = tables := by
        rw [FlatModel.tables, ← empty]
      refine .inl ⟨{ tables with buffers := buffers }, rfl, version, ?_, ?_, ?_, ?_⟩
      · exact fun t ht n hn => (fits.entries t ht).dims n hn
      · exact checkIndices_eq_ok_iff.1 checked
      · exact ⟨used, inside, ⟨spans, by rw [front]; exact read⟩, slices⟩
      · exact fun size => Storable.decode_eq_value ⟨version, fits', size, checked⟩

/-- Bytes of two buffers that overlap, which no model is stored as. -/
def overlapping : Bytes :=
  flatMagic ++ Bytes.ofWord formatVersion ++ zeros 28 ++ encodeTable encodeExtent [(0, 2), (1, 2)]
    ++ zeros 8 ++ [1, 2, 3]

/-- Bytes that no model is stored as are accepted, and both buffers are slices of them. -/
theorem decode_sound_overlapping : overlapping.length < 0x8000000000000000 ∧
    ∃ m, decode overlapping = .value m ∧ m.ReadFrom overlapping ∧ m.buffers = [[1, 2], [2, 3]] := by
  have size : overlapping.length < 0x8000000000000000 := by decide
  have found : (decode overlapping).holds (fun m => m.buffers = [[1, 2], [2, 3]]) = true := by
    decide +kernel
  obtain ⟨m, accepted, buffers⟩ := Outcome.exists_of_holds found
  refine ⟨size, m, accepted, ?_, of_decide_eq_true buffers⟩
  rcases (decode_sound overlapping size).2 with ⟨m', accepted', sound⟩ | ⟨e, refused⟩
  · obtain rfl := Outcome.value.inj (accepted.symm.trans accepted')
    exact sound
  · exact nomatch accepted.symm.trans refused

end FlatModel

end FlatNet
