import FlatNet.Proofs.Flat.Truncation

/-!
The data section of a stored flat model.

Three loops make it: one gives every buffer its place, one writes the table of places and lengths,
and one appends the buffers, each behind as many zeros as its place is ahead of what is written.
The last two know of the first only its places.  They agree because each keeps one invariant: so
many bytes are written as the start of the section and the bytes used in it together, and every
later buffer has its place behind them.

* `placeBuffers`, `appendBuffers`, `writeBuffers`: the loops on a machine, where every sum, product
  and difference of sizes must be a size;
* `DataSection`: a data section that is laid out as its table announces;
* `FlatModel.dataSection_encode`: the loops break off nowhere, and write such a data section.
-/

namespace FlatNet

open Reader

/-! ### The loops -/

/-- The places of buffers behind `used` bytes of the data section. -/
def placeBuffers (used : Nat) : List Bytes → Outcome FormatError (List Nat)
  | [] => .value []
  | b :: rest => do
    let offset ← dataStart used
    let later ← placeBuffers (← Size.add offset b.length) rest
    return offset :: later

/-- Append buffers to what is written, each at its place in a data section that starts at
`start`. -/
def appendBuffers (start : Nat) (written : Bytes) : List (Nat × Bytes) → Outcome FormatError Bytes
  | [] => .value written
  | (offset, b) :: rest => do
    let gap ← Size.sub (← Size.add start offset) written.length
    appendBuffers start (written ++ zeros gap ++ b) rest

/-- The table of buffers and the data section, written behind all other tables. -/
def writeBuffers (tables : Bytes) (buffers : List Bytes) : Outcome FormatError Bytes := do
  let placed := (← placeBuffers 0 buffers).zip buffers
  let head := tables ++ encodeTable FlatModel.encodeSpan placed
  let start ← dataStart head.length
  let gap ← Size.sub start head.length
  appendBuffers start (head ++ zeros gap) placed

/-! ### Layouts -/

/-- A data section that starts at `start`, with the buffers at their places.  The entries of its
table, of sixteen bytes each, stand from `table` on. -/
structure DataSection (file : Bytes) (table start : Nat) (placed : List (Nat × Bytes)) : Prop where
  /-- The section starts at a multiple of the alignment. -/
  aligned : bufferAlignment ∣ start
  /-- It starts behind the table. -/
  behind : table + 16 * placed.length ≤ start
  /-- The table announces the place and the length of every buffer. -/
  announced : ∀ i p, placed[i]? = some p → readSpan.run (file.drop (table + 16 * i))
    = .value ((p.1, p.2.length), file.drop (table + 16 * (i + 1)))
  /-- The places are multiples of the alignment. -/
  places : ∀ p ∈ placed, bufferAlignment ∣ p.1
  /-- Every buffer takes the bytes from its place on. -/
  found : ∀ p ∈ placed, file.slice? (start + p.1) (start + p.1 + p.2.length) = some p.2
  /-- Every buffer ends before the next ones begin. -/
  apart : placed.Pairwise fun p q => p.1 + p.2.length ≤ q.1
  /-- All bytes between the table and the end that no buffer takes are zero. -/
  zeroed : ∀ k, table + 16 * placed.length ≤ k → k < file.length →
    (∀ p ∈ placed, ¬(start + p.1 ≤ k ∧ k < start + p.1 + p.2.length)) → file[k]? = some 0
  /-- The bytes end with the last buffer, or where the section starts if there is none. -/
  ends : file.length = start + placed.getLast?.elim 0 fun p => p.1 + p.2.length

/-! ### Places -/

lemma alignment_dvd_align (n : Nat) : bufferAlignment ∣ align n := Nat.dvd_mul_left ..

/-- Places are multiples of the alignment behind the bytes that are used. -/
lemma offsets_aligned {used : Nat} {buffers : List Bytes} :
    ∀ offset ∈ offsets used buffers, used ≤ offset ∧ bufferAlignment ∣ offset := by
  induction buffers generalizing used with
  | nil => exact nofun
  | cons b rest ih =>
    have padded := le_align used
    refine List.forall_mem_cons.2 ⟨⟨padded, alignment_dvd_align used⟩, fun offset later => ?_⟩
    obtain ⟨beyond, aligned⟩ := ih offset later
    exact ⟨by omega, aligned⟩

/-- Every buffer ends before the places of the next ones. -/
lemma offsets_apart (used : Nat) (buffers : List Bytes) :
    ((offsets used buffers).zip buffers).Pairwise fun p q => p.1 + p.2.length ≤ q.1 := by
  induction buffers generalizing used with
  | nil => exact .nil
  | cons b rest ih =>
    refine .cons (fun q later => ?_) (ih _)
    exact (offsets_aligned q.1 (List.of_mem_zip later).1).1

/-- The places are sizes if the buffers end at sizes. -/
lemma placeBuffers_eq {used : Nat} {buffers : List Bytes}
    (sizes : ∀ p ∈ (offsets used buffers).zip buffers, p.1 + p.2.length < Size.bound) :
    placeBuffers used buffers = .value (offsets used buffers) := by
  induction buffers generalizing used with
  | nil => rfl
  | cons b rest ih =>
    obtain ⟨size, later⟩ := List.forall_mem_cons.1 sizes
    have place : dataStart used = .value (align used) :=
      FlatModel.dataStart_eq (lt_of_le_of_lt (Nat.le_add_right _ _) size)
    have next : (Size.add (align used) b.length : Outcome FormatError Nat)
        = .value (align used + b.length) := Size.checked_eq_value_iff.2 ⟨size, rfl⟩
    rw [placeBuffers, place, Outcome.value_bind, next, Outcome.value_bind, ih later]
    rfl

/-! ### Bytes -/

/-- Behind so many bytes as the start of the section and the bytes used in it, no place is
passed. -/
lemma appendBuffers_eq {start : Nat} (used : Nat) {buffers : List Bytes} {written : Bytes}
    (length : written.length = start + used)
    (sizes : ∀ p ∈ (offsets used buffers).zip buffers, start + p.1 < Size.bound) :
    appendBuffers start written ((offsets used buffers).zip buffers)
      = .value (written ++ dataAt start (start + used) ((offsets used buffers).zip buffers)) := by
  -- what has been written so far ends where the next gap starts
  induction buffers generalizing used written with
  | nil => simp [offsets, appendBuffers, dataAt]
  | cons b rest ih =>
    obtain ⟨size, later⟩ := List.forall_mem_cons.1 sizes
    have padded := le_align used
    have place : (Size.add start (align used) : Outcome FormatError Nat)
        = .value (start + align used) := Size.checked_eq_value_iff.2 ⟨size, rfl⟩
    have gap : (Size.sub (start + align used) written.length : Outcome FormatError Nat)
        = .value (start + align used - (start + used)) := by
      rw [Size.sub, length, if_pos (by omega)]
    have behind : (written ++ zeros (start + align used - (start + used)) ++ b).length
        = start + (align used + b.length) := by
      simp only [List.length_append, length, zeros, List.length_replicate]
      omega
    rw [offsets, List.zip_cons_cons, appendBuffers, place, Outcome.value_bind, gap,
      Outcome.value_bind, ih _ behind later, dataAt, List.append_assoc, List.append_assoc,
      ← List.append_assoc (zeros _), Nat.add_assoc start (align used)]

/-- A byte of the section that no buffer takes is zero. -/
lemma dataAt_zeroed {start : Nat} (used : Nat) {k : Nat} {buffers : List Bytes}
    (inside : k < (dataAt start (start + used) ((offsets used buffers).zip buffers)).length)
    (outside : ∀ p ∈ (offsets used buffers).zip buffers,
      ¬(p.1 ≤ used + k ∧ used + k < p.1 + p.2.length)) :
    (dataAt start (start + used) ((offsets used buffers).zip buffers))[k]? = some 0 := by
  -- over the buffers that are left, with the place of the byte counted from the end of those before
  induction buffers generalizing used k with
  | nil => cases inside
  | cons b rest ih =>
    obtain ⟨own, later⟩ := List.forall_mem_cons.1 outside
    have padded := le_align used
    have gap : (zeros (start + align used - (start + used))).length = align used - used := by
      rw [zeros, List.length_replicate]
      omega
    have front : (zeros (start + align used - (start + used)) ++ b).length
        = align used - used + b.length := by
      rw [List.length_append, gap]
    rw [offsets, List.zip_cons_cons, dataAt, Nat.add_assoc start] at inside ⊢
    rw [List.length_append, front] at inside
    by_cases before : k < align used - used + b.length
    · -- the byte is before the buffer, since it is not in it
      have early : k < align used - used := by
        by_contra late
        exact own ⟨by dsimp only; omega, by dsimp only; omega⟩
      rw [List.append_assoc, List.getElem?_append_left (by rwa [gap]), zeros,
        List.getElem?_replicate, if_pos (by omega)]
    · have same : align used + b.length + (k - (align used - used + b.length)) = used + k := by
        omega
      rw [List.getElem?_append_right (by omega), front]
      exact ih _ (by omega) (by rwa [same])

/-! ### Entries of the table -/

lemma length_flatMap_encodeSpan (placed : List (Nat × Bytes)) :
    (placed.flatMap FlatModel.encodeSpan).length = 16 * placed.length := by
  induction placed with
  | nil => rfl
  | cons p rest ih =>
    rw [List.flatMap_cons, List.length_append, ih, FlatModel.encodeSpan, List.length_append,
      length_littleEndian, length_littleEndian, List.length_cons]
    omega

/-- The bytes from an entry on hold this entry and the next ones. -/
lemma drop_flatMap_encodeSpan {placed : List (Nat × Bytes)} {i : Nat} (inside : i ≤ placed.length)
    (more : Bytes) : (placed.flatMap FlatModel.encodeSpan ++ more).drop (16 * i)
      = (placed.drop i).flatMap FlatModel.encodeSpan ++ more := by
  have length : ((placed.take i).flatMap FlatModel.encodeSpan).length = 16 * i := by
    rw [length_flatMap_encodeSpan, List.length_take, Nat.min_eq_left inside]
  calc (placed.flatMap FlatModel.encodeSpan ++ more).drop (16 * i)
      = ((placed.take i ++ placed.drop i).flatMap FlatModel.encodeSpan ++ more).drop (16 * i) := by
        rw [List.take_append_drop]
    _ = (placed.drop i).flatMap FlatModel.encodeSpan ++ more := by
        rw [List.flatMap_append, List.append_assoc, List.drop_left' length]

/-- An entry of the table is read as it was written, whatever stands before and behind. -/
lemma readSpan_drop {before more : Bytes} {placed : List (Nat × Bytes)} {i : Nat}
    {p : Nat × Bytes} (entry : placed[i]? = some p) (offset : p.1 < Size.bound)
    (length : p.2.length < Size.bound) :
    readSpan.run ((before ++ (placed.flatMap FlatModel.encodeSpan ++ more)).drop
        (before.length + 16 * i))
      = .value ((p.1, p.2.length), (before ++ (placed.flatMap FlatModel.encodeSpan ++ more)).drop
        (before.length + 16 * (i + 1))) := by
  obtain ⟨inside, rfl⟩ := List.getElem?_eq_some_iff.1 entry
  rw [List.drop_length_add_append, List.drop_length_add_append,
    drop_flatMap_encodeSpan inside.le, drop_flatMap_encodeSpan inside,
    List.drop_eq_getElem_cons inside, List.flatMap_cons, List.append_assoc]
  have read : Reads readSpan (encodeExtent (placed[i].1, placed[i].2.length))
      (placed[i].1, placed[i].2.length) := reads_span offset length
  exact read _

namespace FlatModel

/-! ### Stored models -/

variable {m : FlatModel} {tables : Bytes}

/-- Every buffer ends within the stored model. -/
lemma placed_le_encode {p : Nat × Bytes} (hp : p ∈ m.placed) :
    align m.head.length + p.1 + p.2.length ≤ m.encode.length :=
  (Bytes.slice?_eq_some_iff.1 (m.slice?_encode hp)).1.2

lemma length_head_zeros (m : FlatModel) :
    (m.head ++ zeros (align m.head.length - m.head.length)).length = align m.head.length := by
  have padded := le_align m.head.length
  rw [List.length_append, zeros, List.length_replicate]
  omega

/-- The loops write the stored model, if it has a size. -/
lemma writeBuffers_eq (table : m.head = tables ++ encodeTable encodeSpan m.placed)
    (size : m.encode.length < Size.bound) : writeBuffers tables m.buffers = .value m.encode := by
  have places : placeBuffers 0 m.buffers = .value (offsets 0 m.buffers) :=
    placeBuffers_eq fun p hp => by
      have inside := placed_le_encode hp
      omega
  have start : dataStart m.head.length = .value (align m.head.length) :=
    dataStart_eq (lt_of_le_of_lt m.head_le_encode size)
  have gap : (Size.sub (align m.head.length) m.head.length : Outcome FormatError Nat)
      = .value (align m.head.length - m.head.length) := by
    rw [Size.sub, if_pos (le_align _)]
  have data : appendBuffers (align m.head.length)
      (m.head ++ zeros (align m.head.length - m.head.length)) m.placed = .value m.encode :=
    appendBuffers_eq 0 m.length_head_zeros fun p hp => by
      have inside := placed_le_encode hp
      omega
  rw [writeBuffers, places, Outcome.value_bind]
  dsimp only
  rw [← placed, ← table, start, Outcome.value_bind, gap, Outcome.value_bind, data]

/-- The stored model is laid out as its table announces, if it has a size. -/
lemma dataSection (table : m.head = tables ++ encodeTable encodeSpan m.placed)
    (size : m.encode.length < Size.bound) :
    DataSection m.encode (tables.length + 4) (align m.head.length) m.placed := by
  have padded := le_align m.head.length
  have count : (tables ++ encodeCount m.placed.length).length = tables.length + 4 := by
    rw [List.length_append, encodeCount, length_littleEndian]
  have length : m.head.length = tables.length + 4 + 16 * m.placed.length := by
    rw [table, encodeTable, ← List.append_assoc, List.length_append, count,
      length_flatMap_encodeSpan]
  obtain ⟨more, split⟩ : ∃ more, m.encode = (tables ++ encodeCount m.placed.length)
      ++ (m.placed.flatMap encodeSpan ++ more) := by
    refine ⟨zeros (align m.head.length - m.head.length)
      ++ dataAt (align m.head.length) (align m.head.length) m.placed, ?_⟩
    rw [encode, table, encodeTable]
    simp only [List.append_assoc]
  refine ⟨alignment_dvd_align _, by omega, fun i p entry => ?_, fun p hp => ?_,
    fun p hp => m.slice?_encode hp, offsets_apart 0 m.buffers, fun k behind inside outside => ?_,
    m.length_encode⟩
  · have inside := placed_le_encode (List.mem_of_getElem? entry)
    rw [split, ← count]
    exact readSpan_drop entry (by omega) (by omega)
  · exact (offsets_aligned p.1 (List.of_mem_zip hp).1).2
  · rw [← length] at behind
    -- before the section there are the zeros that move it to its start
    by_cases early : k < align m.head.length
    · rw [encode, List.getElem?_append_left (by rw [m.length_head_zeros]; omega),
        List.getElem?_append_right behind, zeros, List.getElem?_replicate, if_pos (by omega)]
    · have section' : k - align m.head.length
          < (dataAt (align m.head.length) (align m.head.length) m.placed).length := by
        rw [encode, List.length_append, m.length_head_zeros] at inside
        omega
      rw [encode, List.getElem?_append_right (by rw [m.length_head_zeros]; omega),
        m.length_head_zeros]
      exact dataAt_zeroed 0 section' fun p hp taken => outside p hp (by omega)

/-- The data section of a stored model is laid out as its table of buffers announces, and the loops
that write it break off nowhere if the stored model has a size. -/
theorem dataSection_encode (m : FlatModel) (size : m.encode.length < Size.bound) :
    m.placed.map (·.2) = m.buffers ∧ ∃ tables start,
      m.head = tables ++ encodeTable encodeSpan m.placed ∧
      writeBuffers tables m.buffers = .value m.encode ∧
      DataSection m.encode (tables.length + 4) start m.placed :=
  ⟨m.map_snd_placed, _, _, rfl, writeBuffers_eq rfl size, dataSection rfl size⟩

/-- A model with an empty buffer, and with zeros between two others. -/
def spaced : FlatModel := { positivePart with buffers := [[1], [], [2, 3]] }

/-- An empty buffer stands where the next one does, and the buffers in between start at multiples of
sixteen. -/
theorem dataSection_encode_spaced : ∃ tables start,
    writeBuffers tables [[1], [], [2, 3]] = .value spaced.encode ∧
      DataSection spaced.encode (tables.length + 4) start [(0, [1]), (16, []), (16, [2, 3])] ∧
      spaced.encode.length = start + 18 := by
  have size : spaced.encode.length < Size.bound := by decide +kernel
  obtain ⟨-, tables, start, -, written, layout⟩ := dataSection_encode spaced size
  exact ⟨tables, start, written, layout, layout.ends⟩

end FlatModel

end FlatNet
