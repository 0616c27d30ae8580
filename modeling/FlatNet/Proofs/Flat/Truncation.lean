import FlatNet.Proofs.Flat.Accepted

/-!
Stored flat models that end too early.

A reader that is made of steps of a cursor cannot tell a byte string from a longer one that starts
with it, except by reaching the end: what it gives it gives of the longer one as well, with more
left over, and what it refuses for another reason than the end it refuses there as well.  So the
tables of a stored model are not read from a part of their bytes.  Behind them lie the buffers,
and the last of these ends where the stored model ends.

* `Reader.FromEnd`: errors that the end of the bytes causes;
* `Reader.Extends`, `Reader.Scans.extends`: readers on bytes that go on;
* `Reader.refuses_take`: readers on bytes that end early;
* `FlatModel.length_encode`: the last buffer ends with the stored model;
* `FlatModel.decode_take_encode`: a stored model that ends too early is refused, for a reason that
  follows from where it ends.
-/

namespace FlatNet

namespace Reader

variable {α β : Type}

/-! ### Reading on -/

/-- The error of bytes that end too early: within a part, or within the first four bytes. -/
def FromEnd (e : FormatError) : Prop := e = .badMagic ∨ ∃ part, e = .truncated part

/-- A reader behaves on longer bytes as it does on these, unless it refuses these for their
end. -/
def Extends (r : Reader α) : Prop :=
  ∀ bs more : Bytes,
    (∃ a rest, r.run bs = .value (a, rest) ∧ r.run (bs ++ more) = .value (a, rest ++ more)) ∨
      ∃ e, r.run bs = .error e ∧ (FromEnd e ∨ r.run (bs ++ more) = .error e)

lemma extends_take (part : FlatPart) (n : Nat) : Extends (take part n) := by
  intro bs more
  by_cases enough : n ≤ bs.length
  · have front : (bs ++ more).take n = bs.take n := List.take_append_of_le_length enough
    have back : (bs ++ more).drop n = bs.drop n ++ more := List.drop_append_of_le_length enough
    have longer : n ≤ (bs ++ more).length := by simp; omega
    simp only [StateT.run, take, holds_eq, enough, longer, decide_true, if_true, front, back]
    exact .inl ⟨_, _, rfl, rfl⟩
  · simp only [StateT.run, take, holds_eq, enough, decide_false, Bool.false_eq_true, if_false]
    exact .inr ⟨_, rfl, .inl (.inr ⟨part, rfl⟩)⟩

/-- Room for a number of entries is still there in longer bytes. -/
lemma extends_room (part : FlatPart) (least n : Nat) :
    Extends fun bs : Bytes =>
      if holds (n * least) bs then .value (n, bs) else .error (.truncated part) := by
  intro bs more
  by_cases enough : n * least ≤ bs.length
  · have longer : n * least ≤ (bs ++ more).length := by simp; omega
    simp only [StateT.run, holds_eq, enough, longer, decide_true, if_true]
    exact .inl ⟨_, _, rfl, rfl⟩
  · simp only [StateT.run, holds_eq, enough, decide_false, Bool.false_eq_true, if_false]
    exact .inr ⟨_, rfl, .inl (.inr ⟨part, rfl⟩)⟩

lemma extends_magic : Extends readMagic := by
  intro bs more
  by_cases start : flatMagic <+: bs
  · have longer := start.trans (List.prefix_append bs more)
    have back : (bs ++ more).drop flatMagic.length = bs.drop flatMagic.length ++ more :=
      List.drop_append_of_le_length start.length_le
    simp only [StateT.run, readMagic, List.isPrefixOf_iff_prefix.2 start,
      List.isPrefixOf_iff_prefix.2 longer, if_true, back]
    exact .inl ⟨_, _, rfl, rfl⟩
  · have refused : flatMagic.isPrefixOf bs = false := by
      rwa [← Bool.not_eq_true, List.isPrefixOf_iff_prefix]
    simp only [StateT.run, readMagic, refused, Bool.false_eq_true, if_false]
    exact .inr ⟨_, rfl, .inl (.inl rfl)⟩

lemma Extends.bind {r : Reader α} {f : α → Reader β} (hr : Extends r) (hf : ∀ a, Extends (f a)) :
    Extends (r >>= f) := by
  intro bs more
  rw [StateT.run_bind, StateT.run_bind]
  rcases hr bs more with ⟨a, rest, read, longer⟩ | ⟨e, refused, reason⟩
  · rw [read, longer]
    exact hf a rest more
  · rw [refused]
    refine .inr ⟨e, rfl, reason.imp id fun longer => ?_⟩
    rw [longer]
    rfl

/-- Every reader that is made of steps of a cursor reads on. -/
theorem Scans.extends {r : Reader α} {s : Scan α} (scans : Scans r s) : Extends r := by
  induction scans with
  | pure a => exact fun bs more => .inl ⟨a, bs, rfl, rfl⟩
  | fail e => exact fun bs more => .inr ⟨e, rfl, .inr rfl⟩
  | take part n => exact extends_take part n
  | room part least n => exact extends_room part least n
  | magic => exact extends_magic
  | bind _ _ ihr ihf => exact ihr.bind ihf

/-- Bytes that a reader takes all together it refuses in part, for their end. -/
lemma refuses_take {r : Reader α} {s : Scan α} (scans : Scans r s) {bs : Bytes} {a : α}
    (reads : Reads r bs a) {n : Nat} (cut : n < bs.length) :
    ∃ e, r.run (bs.take n) = .error e ∧ FromEnd e := by
  have whole : r.run (bs.take n ++ bs.drop n) = .value (a, []) := by
    rw [List.take_append_drop, ← List.append_nil bs]
    exact reads []
  rcases scans.extends (bs.take n) (bs.drop n) with ⟨a', rest, -, read⟩ | ⟨e, refused, reason⟩
  · -- what is cut off would be left over
    have none := (Prod.ext_iff.1 (Outcome.value.inj (read.symm.trans whole))).2
    have left := congrArg List.length none
    simp only [List.length_append, List.length_drop, List.length_nil] at left
    omega
  · refine ⟨e, refused, reason.resolve_right fun refused' => ?_⟩
    rw [whole] at refused'
    cases refused'

end Reader

open Reader

/-! ### The end of the data section -/

/-- The data section ends with the last buffer. -/
lemma length_dataAt (start used : Nat) (buffers : List Bytes) :
    start + used + (dataAt start (start + used) ((offsets used buffers).zip buffers)).length
      = start + ((offsets used buffers).zip buffers).getLast?.elim used
          fun p => p.1 + p.2.length := by
  induction buffers generalizing used with
  | nil => simp [offsets, dataAt]
  | cons b rest ih =>
    have padded := le_align used
    have behind := ih (align used + b.length)
    rw [← Nat.add_assoc] at behind
    simp only [offsets, List.zip_cons_cons, dataAt, List.getLast?_cons, Option.elim_some,
      List.length_append, zeros, List.length_replicate]
    cases last : ((offsets (align used + b.length) rest).zip rest).getLast? <;>
      simp only [last, Option.elim_none, Option.elim_some, Option.getD_none,
        Option.getD_some] at behind ⊢ <;> omega

namespace FlatModel

/-- A stored model ends with its last buffer, or where the data section starts if there is
none. -/
lemma length_encode (m : FlatModel) :
    m.encode.length = align m.head.length + m.placed.getLast?.elim 0 fun p => p.1 + p.2.length := by
  have padded := le_align m.head.length
  rw [placed, ← length_dataAt, encode, placed]
  simp only [List.length_append, zeros, List.length_replicate, Nat.add_zero]
  omega

/-- The last buffer ends where the stored model ends. -/
lemma exists_last (m : FlatModel) (some : m.buffers ≠ []) :
    ∃ p ∈ m.placed, m.encode.length = align m.head.length + p.1 + p.2.length := by
  have placed : m.placed ≠ [] := by rwa [← List.length_pos_iff, length_placed, List.length_pos_iff]
  refine ⟨m.placed.getLast placed, List.getLast_mem placed, ?_⟩
  rw [length_encode, List.getLast?_eq_some_getLast placed, Option.elim_some, Nat.add_assoc]

/-- Buffers are found one by one, or the first that is not found is refused. -/
lemma readBuffers_ends (bs : Bytes) (start : Nat) (spans : List (Nat × Nat)) :
    (readBuffers bs start spans).Ends
      (List.Forall₂ (fun p b => buffer? bs start p.1 = some b) spans.zipIdx)
      (fun e => ∃ i < spans.length, e = .bufferOutOfBounds i) := by
  refine .mapM fun p hp => ?_
  have counted : p.2 < spans.length := by
    have bound := (List.mem_zipIdx hp).2.1
    omega
  cases found : buffer? bs start p.1 with
  | none => exact ⟨p.2, counted, rfl⟩
  | some b => exact rfl

/-- Buffers that do not all lie in the bytes are refused. -/
lemma readBuffers_outOfBounds {bs : Bytes} {start : Nat} {spans : List (Nat × Nat)}
    {span : Nat × Nat} (among : span ∈ spans) (outside : bs.length < start + span.1 + span.2) :
    ∃ i < spans.length, readBuffers bs start spans = .error (.bufferOutOfBounds i) := by
  have ends := readBuffers_ends bs start spans
  -- had all buffers been read, this span would be inside
  cases read : readBuffers bs start spans with
  | value buffers =>
    obtain ⟨i, hi, rfl⟩ := List.mem_iff_getElem.1 among
    have entry : (spans[i], i) ∈ spans.zipIdx := List.mem_zipIdx_iff_getElem?.2 (by simp [hi])
    obtain ⟨b, -, found⟩ := exists_mem_of_forall₂ (ends.of_value read) entry
    simp only [buffer?, Option.bind_eq_bind, Option.bind_eq_some_iff, Size.add?,
      Option.ite_none_right_eq_some, Option.some.injEq] at found
    obtain ⟨_, ⟨-, rfl⟩, _, ⟨-, rfl⟩, found⟩ := found
    have inside := (Bytes.slice?_eq_some_iff.1 found).1.2
    omega
  | error e =>
    obtain ⟨i, hi, rfl⟩ := ends.of_error read
    exact ⟨i, hi, rfl⟩
  | fault => exact absurd read (Outcome.mapM_ne_fault fun _ _ => Outcome.orError_ne_fault)

/-! ### Stored models -/

/-- A stored model with a buffer, of which only the first `n` bytes are left, is refused: as no
flat model if it ends within the first four bytes, for its end if it ends within the tables, and
for a buffer that goes beyond the end if it ends behind them. -/
theorem decode_take_encode (m : FlatModel) (version : m.version = formatVersion) (fits : m.Fits)
    (size : m.encode.length < Size.bound) (some : m.buffers ≠ []) {n : Nat}
    (cut : n < m.encode.length) :
    (n < flatMagic.length → decode (m.encode.take n) = .error .badMagic) ∧
      (n < m.head.length → ∃ e, decode (m.encode.take n) = .error e ∧ FromEnd e) ∧
      (m.head.length ≤ n → ∃ i < m.buffers.length,
        decode (m.encode.take n) = .error (.bufferOutOfBounds i)) := by
  have start : align m.head.length < Size.bound := lt_of_le_of_lt m.head_le_encode size
  obtain ⟨data, split⟩ : ∃ data, m.encode = m.head ++ data := ⟨_, List.append_assoc ..⟩
  have reads := reads_tables version fits (spans_small size)
  refine ⟨fun early => ?_, fun within => ?_, fun behind => ?_⟩
  -- not even the magic bytes are there
  · have refused : flatMagic.isPrefixOf (m.encode.take n) = false := by
      rw [← Bool.not_eq_true, List.isPrefixOf_iff_prefix]
      intro front
      have long := front.length_le
      rw [List.length_take] at long
      omega
    simp only [decode, readTables, readMagic, StateT.run, bind, StateT.bind, refused,
      Bool.false_eq_true, if_false, Outcome.bind]
  -- the reader of the tables takes bytes from the front only, so it misses some of them
  · obtain ⟨scan, scans⟩ := sound_tables.scans
    obtain ⟨e, refused, ended⟩ := refuses_take scans reads within
    refine ⟨e, ?_, ended⟩
    rw [split, List.take_append_of_le_length within.le, decode, refused, Outcome.error_bind]
  · -- the tables are read, and the last buffer is cut
    have front : m.encode.take n = m.head ++ data.take (n - m.head.length) := by
      rw [split, List.take_append, List.take_of_length_le behind]
    have used : (Size.sub (m.encode.take n).length (data.take (n - m.head.length)).length :
        Outcome FormatError Nat) = .value m.head.length := by
      rw [front, Size.sub, List.length_append, if_pos (Nat.le_add_left _ _),
        Nat.add_sub_cancel_right]
    obtain ⟨p, hp, last⟩ := m.exists_last some
    have among : (p.1, p.2.length) ∈ m.spans := List.mem_map_of_mem hp
    have outside : (m.encode.take n).length < align m.head.length + p.1 + p.2.length := by
      rw [List.length_take]
      omega
    obtain ⟨i, hi, refused⟩ := readBuffers_outOfBounds among outside
    rw [spans, List.length_map, length_placed] at hi
    refine ⟨i, hi, ?_⟩
    have read : readTables.run (m.encode.take n)
        = .value ((m.tables, m.spans), data.take (n - m.head.length)) := by
      rw [front]
      exact reads _
    rw [decode, read, Outcome.value_bind]
    dsimp only
    rw [used, Outcome.value_bind, dataStart_eq start, Outcome.value_bind, refused,
      Outcome.error_bind]

/-- A stored model that is cut in its tables ends too early; cut in its data, it lacks a buffer. -/
theorem decode_take_encode_positivePart :
    (∃ e, decode (positivePart.encode.take 60) = .error e ∧ FromEnd e) ∧
      ∃ i < 2, decode (positivePart.encode.take 242) = .error (.bufferOutOfBounds i) := by
  have size : positivePart.encode.length < Size.bound := by decide +kernel
  have truncated {n : Nat} (cut : n < positivePart.encode.length) :=
    decode_take_encode positivePart rfl (by decide +kernel) size (List.cons_ne_nil _ _) cut
  exact ⟨(truncated (by decide +kernel)).2.1 (by decide +kernel),
    (truncated (by decide +kernel)).2.2 (by decide +kernel)⟩

end FlatModel

end FlatNet
