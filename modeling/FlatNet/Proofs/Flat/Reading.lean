import FlatNet.Flat.Decode
import FlatNet.Proofs.Outcome

/-!
What readers take from the front of bytes.

A reader *reads* a value from some bytes if it takes exactly these bytes from the front of any
longer byte string and gives that value.  Reading composes along the concatenation of bytes,
so every encoder of a part is matched with its reader once, and the parts of a stored model
compose.

* `Reader.Reads`: reading, with `Reads.bind` and `Reads.table` for sequences and tables;
* `reads_number`, `reads_word`, `reads_text`, `reads_indices`: the readers of plain parts;
* `reads_options`, `reads_tensor`, `reads_operator`: the readers of entries.
-/

namespace FlatNet

namespace Reader

/-- The reader takes exactly the bytes from the front of any longer string and gives `a`. -/
def Reads {α : Type} (r : Reader α) (bs : Bytes) (a : α) : Prop :=
  ∀ rest, r.run (bs ++ rest) = .value (a, rest)

/-- A number that a count of four bytes holds. -/
def FitsCount (n : Nat) : Prop := n < 0x100000000

instance (n : Nat) : Decidable (FitsCount n) := inferInstanceAs (Decidable (_ < _))

variable {α β : Type}

/-! ### Sequences -/

lemma Reads.pure (a : α) : Reads (pure a) [] a := fun _ => rfl

/-- Two readers one after the other read the bytes of both. -/
lemma Reads.bind {r : Reader α} {f : α → Reader β} {bs cs : Bytes} {a : α} {b : β}
    (hr : Reads r bs a) (hf : Reads (f a) cs b) : Reads (r >>= f) (bs ++ cs) b := by
  intro rest
  rw [StateT.run_bind, List.append_assoc, hr, Outcome.value_bind]
  exact hf rest

/-- A reader of one byte, and another one behind it. -/
lemma Reads.cons {r : Reader α} {f : α → Reader β} {byte : UInt8} {cs : Bytes} {a : α} {b : β}
    (hr : Reads r [byte] a) (hf : Reads (f a) cs b) : Reads (r >>= f) (byte :: cs) b :=
  hr.bind hf

/-- A value made of what was read takes no bytes of its own. -/
lemma Reads.map {r : Reader α} {bs : Bytes} {a : α} (hr : Reads r bs a) (f : α → β) :
    Reads (r >>= fun a => Pure.pure (f a)) bs (f a) := by
  have h := hr.bind (f := fun a => Pure.pure (f a)) (Reads.pure (f a))
  rwa [List.append_nil] at h

lemma reads_orFail {e : FormatError} {o : Option α} {a : α} (h : o = some a) :
    Reads (orFail e o) [] a := by
  subst h
  exact Reads.pure a

/-! ### Plain parts -/

lemma reads_take (part : FlatPart) (bs : Bytes) : Reads (take part bs.length) bs bs := by
  intro rest
  simp [take, StateT.run]

lemma reads_number (part : FlatPart) (width : Nat) {n : Nat} (h : n < Nat.pow 256 width) :
    Reads (number part width) (littleEndian width n) n := by
  have taken := reads_take part (littleEndian width n)
  rw [length_littleEndian] at taken
  have back : ofLittleEndian (littleEndian width n) = n := by
    rw [ofLittleEndian_littleEndian, Nat.mod_eq_of_lt h]
  have numbered := taken.map ofLittleEndian
  rwa [back] at numbered

/-- A count reads as itself. -/
lemma reads_encodeCount (part : FlatPart) {n : Nat} (h : FitsCount n) :
    Reads (number part 4) (encodeCount n) n :=
  reads_number part 4 h

lemma reads_byte (part : FlatPart) (b : UInt8) : Reads (byte part) [b] b := by
  have read := (reads_number part 1 b.toNat_lt).map UInt8.ofNat
  have single : littleEndian 1 b.toNat = [b] := by
    simp [littleEndian, Nat.mod_eq_of_lt b.toNat_lt]
  rwa [single, UInt8.ofNat_toNat] at read

lemma reads_word (part : FlatPart) (w : UInt32) : Reads (word part) (Bytes.ofWord w) w := by
  have read := (reads_number part 4 w.toNat_lt).map UInt32.ofNat
  rwa [UInt32.ofNat_toNat] at read

lemma reads_index (part : FlatPart) (i : Int32) : Reads (index part) (encodeIndex i) i := by
  have read := (reads_word part i.toUInt32).map UInt32.toInt32
  rwa [Int32.toInt32_toUInt32] at read

lemma reads_single (part : FlatPart) (x : Binary32) :
    Reads (single part) (Bytes.ofWord x.bits) x :=
  (reads_word part x.bits).map Binary32.mk

lemma reads_flag (part : FlatPart) (b : Bool) : Reads (flag part) (encodeFlag b) b := by
  have read := (reads_byte part (if b then 1 else 0)).map fun n : UInt8 => decide (n ≠ 0)
  cases b <;> exact read

/-! ### Tables -/

/-- A count of entries is read if the bytes after it hold that many of the shortest ones. -/
lemma count_run (part : FlatPart) {least n : Nat} {rest : Bytes} (h : FitsCount n)
    (room : n * least ≤ rest.length) :
    (count part least).run (encodeCount n ++ rest) = .value (n, rest) := by
  rw [count, StateT.run_bind, reads_encodeCount part h, Outcome.value_bind]
  simp [StateT.run, room]

/-- Entries one after the other. -/
lemma reads_repeat {entry : Reader α} {encode : α → Bytes} {xs : List α}
    (h : ∀ x ∈ xs, Reads entry (encode x) x) :
    Reads («repeat» entry xs.length) (xs.flatMap encode) xs := by
  induction xs with
  | nil => exact Reads.pure []
  | cons x xs ih =>
    rw [List.flatMap_cons]
    refine (h x (List.mem_cons_self ..)).bind ?_
    exact (ih fun y hy => h y (List.mem_cons_of_mem x hy)).map (x :: ·)

/-- Entries that take at least `least` bytes each take as many together as their number asks. -/
lemma length_flatMap_ge {encode : α → Bytes} {least : Nat} {xs : List α}
    (h : ∀ x ∈ xs, least ≤ (encode x).length) :
    xs.length * least ≤ (xs.flatMap encode).length := by
  induction xs with
  | nil => simp
  | cons x xs ih =>
    have head := h x (List.mem_cons_self ..)
    have tail := ih fun y hy => h y (List.mem_cons_of_mem x hy)
    rw [List.flatMap_cons, List.length_append, List.length_cons, Nat.succ_mul]
    omega

/-- A table is read if each of its entries is and none is shorter than announced. -/
lemma Reads.table (part : FlatPart) {least : Nat} {entry : Reader α} {encode : α → Bytes}
    {xs : List α} (number : FitsCount xs.length) (h : ∀ x ∈ xs, Reads entry (encode x) x)
    (long : ∀ x ∈ xs, least ≤ (encode x).length) :
    Reads (table part least entry) (encodeTable encode xs) xs := by
  intro rest
  have room : xs.length * least ≤ (xs.flatMap encode ++ rest).length := by
    have := length_flatMap_ge long
    rw [List.length_append]
    omega
  rw [Reader.table, encodeTable, StateT.run_bind, List.append_assoc,
    count_run part number room, Outcome.value_bind]
  exact reads_repeat h rest

lemma reads_indices (part : FlatPart) {xs : List Int32} (h : FitsCount xs.length) :
    Reads (indices part) (encodeIndices xs) xs :=
  Reads.table part h (fun i _ => reads_index part i) (fun i _ => by simp [encodeIndex, Bytes.ofWord])

lemma reads_text (part : FlatPart) {s : String} (h : FitsCount (Bytes.ofText s).length) :
    Reads (text part) (encodeText s) s := by
  intro rest
  have room : (Bytes.ofText s).length * 1 ≤ (Bytes.ofText s ++ rest).length := by simp
  have taken := (reads_take part (Bytes.ofText s)).bind
    (f := fun bs => orFail (.invalidUtf8 part) (Bytes.text? bs))
    (reads_orFail (Bytes.text?_ofText s))
  rw [List.append_nil] at taken
  rw [text, encodeText, List.append_assoc, StateT.run_bind, count_run part h room,
    Outcome.value_bind]
  exact taken rest

end Reader

open Reader

/-! ### Entries -/

lemma reads_activation (a : FusedActivation) : Reads readActivation [a.tag] a :=
  (reads_byte .fusedActivation a.tag).bind (reads_orFail (FusedActivation.ofTag?_tag a))

lemma reads_padding (p : Padding) : Reads readPadding [p.tag] p :=
  (reads_byte .operatorOptions p.tag).bind (reads_orFail (Padding.ofTag?_tag p))

lemma reads_dtype (t : DType) : Reads readDType [t.tag] t :=
  (reads_byte .tensorDType t.tag).bind (reads_orFail (DType.ofTag?_tag t))

lemma reads_code (c : Opcode) : Reads readCode (Bytes.ofWord c.code) c := by
  have read := (reads_word .operatorCodes c.code).bind
    (f := fun n => orFail (.unknownOpcode n) (Opcode.ofCode? n))
    (reads_orFail (Opcode.ofCode?_code c))
  rwa [List.append_nil] at read

lemma reads_options (o : OperatorOptions) : Reads readOptions o.encode o := by
  cases o <;>
    simp only [OperatorOptions.encode, List.cons_append, List.nil_append, List.append_assoc]
  case none => exact (reads_byte _ 0).cons (Reads.pure _)
  case conv2d p sh sw a =>
    refine (reads_byte _ 1).cons ?_
    refine (reads_padding p).cons ?_
    refine (reads_word _ sh).bind ?_
    refine (reads_word _ sw).bind ?_
    exact (reads_activation a).map _
  case depthwiseConv2d p sh sw n a =>
    refine (reads_byte _ 2).cons ?_
    refine (reads_padding p).cons ?_
    refine (reads_word _ sh).bind ?_
    refine (reads_word _ sw).bind ?_
    refine (reads_word _ n).bind ?_
    exact (reads_activation a).map _
  case pool2d p sh sw fh fw a =>
    refine (reads_byte _ 3).cons ?_
    refine (reads_padding p).cons ?_
    refine (reads_word _ sh).bind ?_
    refine (reads_word _ sw).bind ?_
    refine (reads_word _ fh).bind ?_
    refine (reads_word _ fw).bind ?_
    exact (reads_activation a).map _
  case concatenation axis a =>
    refine (reads_byte _ 4).cons ?_
    refine (reads_index _ axis).bind ?_
    exact (reads_activation a).map _
  case add a => exact (reads_byte _ 5).cons ((reads_activation a).map _)
  case resizeBilinear align half =>
    refine (reads_byte _ 6).cons ?_
    refine (reads_flag _ align).bind ?_
    exact (reads_flag _ half).map _
  case batchNorm epsilon => exact (reads_byte _ 7).cons ((reads_single _ epsilon).map _)

lemma reads_quantization (q : Option Quantization) :
    Reads readQuantization (encodeQuantization q) q := by
  cases q with
  | none => exact (reads_flag .tensorQuantization false).cons (Reads.pure _)
  | some q =>
    simp only [encodeQuantization, List.cons_append, List.nil_append]
    refine (reads_flag .tensorQuantization true).cons ?_
    refine (reads_single _ q.scale).bind ?_
    exact (reads_index _ q.zeroPoint).map _

/-! ### Counts that fit

A stored model keeps the low four bytes of every count and dimension, so only a model whose
counts fit is read back. -/

/-- The counts in an entry of the table of tensors fit. -/
@[mk_iff] structure FlatTensor.Fits (t : FlatTensor) : Prop where
  /-- The length of its name. -/
  name : FitsCount (Bytes.ofText t.name).length
  /-- Its rank. -/
  rank : FitsCount t.shape.length
  /-- Its dimensions. -/
  dims : ∀ n ∈ t.shape, FitsCount n

/-- The counts in an operator fit. -/
@[mk_iff] structure FlatOperator.Fits (op : FlatOperator) : Prop where
  /-- The number of its inputs. -/
  inputs : FitsCount op.inputs.length
  /-- The number of its outputs. -/
  outputs : FitsCount op.outputs.length

/-- The counts in a note fit. -/
@[mk_iff] structure NoteFits (note : String × String) : Prop where
  /-- The length of its key. -/
  key : FitsCount (Bytes.ofText note.1).length
  /-- The length of its value. -/
  value : FitsCount (Bytes.ofText note.2).length

instance (t : FlatTensor) : Decidable t.Fits := decidable_of_iff' _ (FlatTensor.fits_iff t)

instance (op : FlatOperator) : Decidable op.Fits := decidable_of_iff' _ (FlatOperator.fits_iff op)

instance (note : String × String) : Decidable (NoteFits note) :=
  decidable_of_iff' _ (noteFits_iff note)

/-! ### Entries of tables -/

lemma reads_tensor {t : FlatTensor} (h : t.Fits) : Reads readTensor t.encode t := by
  simp only [FlatTensor.encode, List.append_assoc, List.cons_append, List.nil_append]
  refine (reads_text _ h.name).bind ?_
  refine (reads_dtype t.dtype).cons ?_
  refine (Reads.table _ h.rank (fun n hn => reads_encodeCount _ (h.dims n hn))
    (fun n _ => by simp [encodeCount])).bind ?_
  refine (reads_word _ t.buffer).bind ?_
  exact (reads_quantization t.quantization).map _

lemma reads_operator {op : FlatOperator} (h : op.Fits) : Reads readOperator op.encode op := by
  simp only [FlatOperator.encode, List.append_assoc]
  refine (reads_word _ op.opcode).bind ?_
  refine (reads_indices _ h.inputs).bind ?_
  refine (reads_indices _ h.outputs).bind ?_
  exact (reads_options op.options).map _

/-- The bytes of a note. -/
def encodeNote (note : String × String) : Bytes := encodeText note.1 ++ encodeText note.2

lemma reads_note {note : String × String} (h : NoteFits note) :
    Reads readNote (encodeNote note) note :=
  (reads_text _ h.key).bind ((reads_text _ h.value).map _)

/-- The bytes of a place and a length. -/
def encodeExtent (span : Nat × Nat) : Bytes := littleEndian 8 span.1 ++ littleEndian 8 span.2

lemma reads_span {span : Nat × Nat} (offset : span.1 < Size.bound) (length : span.2 < Size.bound) :
    Reads readSpan (encodeExtent span) span :=
  (reads_number _ 8 offset).bind ((reads_number _ 8 length).map _)

/-! ### The shortest entries -/

lemma length_encodeText_ge (s : String) : 4 ≤ (encodeText s).length := by
  simp only [encodeText, encodeCount, List.length_append, length_littleEndian]
  omega

lemma length_encodeTable_ge {α : Type} (entry : α → Bytes) (xs : List α) :
    4 ≤ (encodeTable entry xs).length := by
  simp only [encodeTable, encodeCount, List.length_append, length_littleEndian]
  omega

lemma length_encodeOptions_pos (o : OperatorOptions) : 1 ≤ o.encode.length := by
  cases o <;> simp [OperatorOptions.encode]

lemma length_encodeQuantization_pos (q : Option Quantization) :
    1 ≤ (encodeQuantization q).length := by
  cases q <;> simp [encodeQuantization]

lemma length_encodeNote_ge (note : String × String) : 8 ≤ (encodeNote note).length := by
  have key := length_encodeText_ge note.1
  have value := length_encodeText_ge note.2
  rw [encodeNote, List.length_append]
  omega

lemma length_encodeTensor_ge (t : FlatTensor) : 14 ≤ t.encode.length := by
  have name := length_encodeText_ge t.name
  have shape := length_encodeTable_ge encodeCount t.shape
  have quantization := length_encodeQuantization_pos t.quantization
  simp only [FlatTensor.encode, List.length_append, List.length_cons, List.length_nil,
    Bytes.ofWord, length_littleEndian]
  omega

lemma length_encodeOperator_ge (op : FlatOperator) : 13 ≤ op.encode.length := by
  have inputs := length_encodeTable_ge encodeIndex op.inputs
  have outputs := length_encodeTable_ge encodeIndex op.outputs
  have options := length_encodeOptions_pos op.options
  simp only [FlatOperator.encode, encodeIndices, List.length_append, Bytes.ofWord,
    length_littleEndian]
  omega

lemma length_encodeExtent (span : Nat × Nat) : (encodeExtent span).length = 16 := by
  simp [encodeExtent]

end FlatNet
