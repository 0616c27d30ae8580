import FlatNet.Flat.Decode
import FlatNet.Proofs.Bytes
import FlatNet.Proofs.Flat.Reading

/-!
Readers that move a cursor over bytes.

A reader gives back the rest of the bytes.  On a machine the rest is a position: how much is
left is a difference of sizes, the next position is a sum, and what was read is cut out between
the two.  Each of these may break off.  A reader is *scanned* if it is made of steps of both
kinds that belong together; its cursor then stays inside the bytes, whatever they hold, and no
step breaks off.

* `Cursor`, `Scan`: positions and readers that move them, with `Scan.take`, `Scan.room` and
  `Scan.magic`;
* `Reader.Scans`: a reader and its steps of a cursor, with `Scans.spec`: both read the same,
  and the cursor stays inside;
* `Reader.Sound`: a scanned reader with a property of what it gives, and the rules
  `Sound.bind` and `Sound.table`;
* `sound_tensor`, `sound_operator`, `sound_note`: the counts in entries that were read fit.
-/

namespace FlatNet

/-! ### Cursors -/

/-- A position in bytes. -/
structure Cursor where
  /-- All bytes. -/
  bytes : Bytes
  /-- How many of them have been read. -/
  position : Nat

/-- A reader that moves a cursor. -/
abbrev Scan (α : Type) := StateT Cursor (Outcome FormatError) α

/-- How many bytes are left. -/
def Cursor.left (c : Cursor) : Outcome FormatError Nat := Size.sub c.bytes.length c.position

namespace Scan

/-- The next bytes of a part, cut out between two positions. -/
def take (part : FlatPart) (n : Nat) : Scan Bytes := fun c => do
  let left ← c.left
  Outcome.require (n ≤ left) (.truncated part)
  let next ← Size.add c.position n
  let front ← Outcome.orFault (c.bytes.slice? c.position next)
  return (front, { c with position := next })

/-- Refuse a number of entries of at least `least` bytes each that the bytes left cannot hold;
a product out of range counts as the largest size. -/
def room (part : FlatPart) (least n : Nat) : Scan Nat := fun c => do
  let left ← c.left
  Outcome.require (min (n * least) (Size.bound - 1) ≤ left) (.truncated part)
  return (n, c)

/-- The start of every flat model. -/
def magic : Scan Unit := fun c => do
  let (front, next) ← ((take .version flatMagic.length).run c).mapError fun _ => .badMagic
  Outcome.require (front = flatMagic) .badMagic
  return ((), next)

/-- Refuse. -/
def fail {α : Type} (e : FormatError) : Scan α := fun _ => .error e

end Scan

namespace Reader

variable {α β : Type}

/-- A reader and its steps of a cursor, part by part. -/
inductive Scans : {α : Type} → Reader α → Scan α → Prop where
  | pure {α : Type} (a : α) : Scans (pure a) (pure a)
  | fail {α : Type} (e : FormatError) : Scans (fail e : Reader α) (Scan.fail e)
  | take (part : FlatPart) (n : Nat) : Scans (take part n) (Scan.take part n)
  | room (part : FlatPart) (least n : Nat) :
    Scans (fun bs => if holds (n * least) bs then .value (n, bs) else .error (.truncated part))
      (Scan.room part least n)
  | magic : Scans readMagic Scan.magic
  | bind {α β : Type} {r : Reader α} {s : Scan α} {f : α → Reader β} {g : α → Scan β}
    (first : Scans r s) (next : ∀ a, Scans (f a) (g a)) : Scans (r >>= f) (s >>= g)

/-- What a reader makes of the bytes behind a position: it refuses them as its steps of a
cursor do, or both give one value, and the cursor stands where the rest begins. -/
def Agree (bs : Bytes) (position : Nat) (x : Outcome FormatError (α × Bytes))
    (y : Outcome FormatError (α × Cursor)) : Prop :=
  (∃ e, x = .error e ∧ y = .error e) ∨
    ∃ a next, (position ≤ next ∧ next ≤ bs.length) ∧
      x = .value (a, bs.drop next) ∧ y = .value (a, ⟨bs, next⟩)

lemma agree_of_value {bs : Bytes} {position : Nat} (inside : position ≤ bs.length) (a : α) :
    Agree bs position (.value (a, bs.drop position)) (.value (a, ⟨bs, position⟩)) :=
  .inr ⟨a, position, ⟨le_refl _, inside⟩, rfl, rfl⟩

lemma agree_of_error {bs : Bytes} {position : Nat} (e : FormatError) :
    Agree bs position (.error e : Outcome FormatError (α × Bytes)) (.error e) :=
  .inl ⟨e, rfl, rfl⟩

section Steps

variable {bs : Bytes} {position : Nat}

lemma left_eq (inside : position ≤ bs.length) :
    (⟨bs, position⟩ : Cursor).left = .value (bs.drop position).length := by
  rw [Cursor.left, Size.sub, if_pos inside, List.length_drop]

/-- Positions inside the bytes stay sizes, so a cursor breaks off at none of its steps. -/
lemma run_scanTake (size : bs.length < 0x8000000000000000) (inside : position ≤ bs.length)
    (part : FlatPart) (n : Nat) :
    (Scan.take part n).run ⟨bs, position⟩ =
      if n ≤ (bs.drop position).length then
        .value ((bs.drop position).take n, ⟨bs, position + n⟩)
      else .error (.truncated part) := by
  simp only [StateT.run, Scan.take, left_eq inside, Outcome.value_bind]
  by_cases enough : n ≤ (bs.drop position).length
  · rw [List.length_drop] at enough
    have next : position + n ≤ bs.length := by omega
    have small : position + n < Size.bound := by
      unfold Size.bound
      omega
    have front : bs.slice? position (position + n) = some ((bs.drop position).take n) := by
      rw [Bytes.slice?_eq_some_iff, Nat.add_sub_cancel_left]
      exact ⟨⟨Nat.le_add_right _ _, next⟩, rfl⟩
    simp only [List.length_drop, enough, decide_true, if_true, Outcome.require_true, Size.add,
      Size.checked, small, Outcome.value_bind, front, Outcome.orFault_some]
    rfl
  · simp only [enough, decide_false, Outcome.require, Bool.false_eq_true, if_false,
      Outcome.error_bind]

lemma agree_take (size : bs.length < 0x8000000000000000) (inside : position ≤ bs.length)
    (part : FlatPart) (n : Nat) :
    Agree bs position ((take part n).run (bs.drop position))
      ((Scan.take part n).run ⟨bs, position⟩) := by
  rw [run_scanTake size inside]
  by_cases enough : n ≤ (bs.drop position).length
  · simp only [StateT.run, take, holds_eq, enough, decide_true, if_true, List.drop_drop]
    rw [List.length_drop] at enough
    exact .inr ⟨_, position + n, ⟨Nat.le_add_right _ _, by omega⟩, rfl, rfl⟩
  · simp only [StateT.run, take, holds_eq, enough, decide_false, Bool.false_eq_true, if_false]
    exact agree_of_error _

/-- A product that stops at the largest size is too large for the bytes left exactly when the
product is. -/
lemma agree_room (size : bs.length < 0x8000000000000000) (inside : position ≤ bs.length)
    (part : FlatPart) (least n : Nat) :
    Agree bs position
      (if holds (n * least) (bs.drop position) then .value (n, bs.drop position)
        else .error (.truncated part))
      ((Scan.room part least n).run ⟨bs, position⟩) := by
  have left := left_eq inside
  -- a count that is too large for a size is cut to the largest one, which no file holds either
  have same : min (n * least) (Size.bound - 1) ≤ (bs.drop position).length ↔
      n * least ≤ (bs.drop position).length := by
    have short : (bs.drop position).length < Size.bound - 1 := by
      rw [List.length_drop]
      unfold Size.bound at *
      omega
    omega
  simp only [holds_eq, StateT.run, Scan.room, left, Outcome.value_bind, same]
  by_cases enough : n * least ≤ (bs.drop position).length
  · simp only [enough, decide_true, if_true, Outcome.require_true, Outcome.value_bind]
    exact agree_of_value inside n
  · simp only [enough, decide_false, Outcome.require, Bool.false_eq_true, if_false,
      Outcome.error_bind]
    exact agree_of_error _

/-- The first four bytes are compared in one step or read first. -/
lemma agree_magic (size : bs.length < 0x8000000000000000) (inside : position ≤ bs.length) :
    Agree bs position (readMagic.run (bs.drop position)) (Scan.magic.run ⟨bs, position⟩) := by
  have first := run_scanTake size inside .version flatMagic.length
  simp only [StateT.run] at first
  simp only [StateT.run, Scan.magic, first, readMagic]
  by_cases start : flatMagic <+: bs.drop position
  · have enough := start.length_le
    have front := List.prefix_iff_eq_take.1 start
    simp only [List.isPrefixOf_iff_prefix.2 start, enough, if_true, Outcome.mapError_value,
      Outcome.value_bind, ← front, decide_true, Outcome.require_true, List.drop_drop]
    rw [List.length_drop] at enough
    exact .inr ⟨(), position + flatMagic.length, ⟨Nat.le_add_right _ _, by omega⟩, rfl, rfl⟩
  · have other : ¬(bs.drop position).take flatMagic.length = flatMagic := by
      intro front
      exact start (front ▸ List.take_prefix _ _)
    have refused : flatMagic.isPrefixOf (bs.drop position) = false := by
      rwa [← Bool.not_eq_true, List.isPrefixOf_iff_prefix]
    simp only [refused, Bool.false_eq_true, if_false]
    split <;> simp only [Outcome.mapError, Outcome.value_bind, Outcome.error_bind, other,
      decide_false, Outcome.require, Bool.false_eq_true, if_false] <;> exact agree_of_error _

end Steps

/-- A scanned reader gives what its steps of a cursor give; the cursor stays inside the bytes,
and no step leaves the range of sizes or cuts outside the bytes. -/
theorem Scans.spec {r : Reader α} {s : Scan α} (scans : Scans r s) {bs : Bytes}
    (size : bs.length < 0x8000000000000000) {position : Nat} (inside : position ≤ bs.length) :
    Agree bs position (r.run (bs.drop position)) (s.run ⟨bs, position⟩) := by
  -- along the steps of the reader; the position only grows, and never beyond the end
  induction scans generalizing position with
  | pure a => exact agree_of_value inside a
  | fail e => exact agree_of_error e
  | take part n => exact agree_take size inside part n
  | room part least n => exact agree_room size inside part least n
  | magic => exact agree_magic size inside
  | bind first next ihr ihf =>
    rw [StateT.run_bind, StateT.run_bind]
    rcases ihr inside with ⟨e, hr, hs⟩ | ⟨a, middle, ⟨later, inside'⟩, hr, hs⟩
    · rw [hr, hs, Outcome.error_bind, Outcome.error_bind]
      exact agree_of_error e
    · rw [hr, hs, Outcome.value_bind, Outcome.value_bind]
      rcases ihf a inside' with ⟨e, hf, hg⟩ | ⟨b, last, ⟨later', inside''⟩, hf, hg⟩
      · exact .inl ⟨e, hf, hg⟩
      · exact .inr ⟨b, last, ⟨le_trans later later', inside''⟩, hf, hg⟩

/-! ### Sound readers -/

/-- A reader made of steps of a cursor, everything it gives having a property. -/
structure Sound (r : Reader α) (Q : α → Prop) : Prop where
  /-- Its steps. -/
  scans : ∃ s, Scans r s
  /-- What it gives. -/
  gives : ∀ bs a rest, r.run bs = .value (a, rest) → Q a

namespace Sound

variable {P : α → Prop} {Q : β → Prop}

lemma pure {a : α} (h : P a) : Sound (pure a) P := by
  refine ⟨⟨_, .pure a⟩, ?_⟩
  rintro bs a rest ⟨⟩
  exact h

lemma fail {e : FormatError} : Sound (fail e : Reader α) P :=
  ⟨⟨_, .fail e⟩, fun _ _ _ h => nomatch h⟩

/-- What the second reader gives may depend on a property of what the first one gave. -/
lemma bind {r : Reader α} {f : α → Reader β} (hr : Sound r P)
    (hf : ∀ a, Sound (f a) fun b => P a → Q b) : Sound (r >>= f) Q := by
  constructor
  · obtain ⟨s, first⟩ := hr.scans
    choose g next using fun a => (hf a).scans
    exact ⟨_, first.bind next⟩
  · intro bs b rest h
    rw [StateT.run_bind, Outcome.bind_eq_value_iff] at h
    obtain ⟨⟨a, middle⟩, ha, hb⟩ := h
    exact (hf a).gives middle b rest hb (hr.gives bs a middle ha)

lemma mono {R : α → Prop} {r : Reader α} (hr : Sound r P) (h : ∀ a, P a → R a) : Sound r R :=
  ⟨hr.scans, fun bs a rest ha => h a (hr.gives bs a rest ha)⟩

/-- A value made of what was read. -/
lemma map {r : Reader α} {f : α → β} (hr : Sound r P) (h : ∀ a, P a → Q (f a)) :
    Sound (r >>= fun a => Pure.pure (f a)) Q :=
  hr.bind fun a => .pure (h a)

end Sound

lemma sound_orFail {e : FormatError} (o : Option α) : Sound (orFail e o) fun a => o = some a := by
  cases o with
  | none => exact .fail
  | some a => exact .pure rfl

/-! ### Plain parts -/

lemma sound_take (part : FlatPart) (n : Nat) : Sound (take part n) fun bs => bs.length = n := by
  refine ⟨⟨_, .take part n⟩, ?_⟩
  intro bs front rest h
  by_cases enough : n ≤ bs.length
  · simp only [StateT.run, take, holds_eq, enough, decide_true, if_true] at h
    cases h
    exact List.length_take_of_le enough
  · simp [StateT.run, take, enough] at h

/-- A number is smaller than its bytes allow. -/
lemma sound_number (part : FlatPart) (width : Nat) :
    Sound (number part width) fun n => n < 256 ^ width := by
  refine (sound_take part width).map fun bs length => ?_
  rw [← length]
  exact Bytes.ofLittleEndian_lt bs

lemma sound_byte (part : FlatPart) : Sound (byte part) fun _ => True :=
  (sound_number part 1).map fun _ _ => trivial

lemma sound_word (part : FlatPart) : Sound (word part) fun _ => True :=
  (sound_number part 4).map fun _ _ => trivial

lemma sound_index (part : FlatPart) : Sound (index part) fun _ => True :=
  (sound_word part).map fun _ _ => trivial

lemma sound_single (part : FlatPart) : Sound (single part) fun _ => True :=
  (sound_word part).map fun _ _ => trivial

lemma sound_flag (part : FlatPart) : Sound (flag part) fun _ => True :=
  (sound_byte part).map fun _ _ => trivial

/-! ### Tables -/

lemma sound_count (part : FlatPart) (least : Nat) : Sound (count part least) FitsCount := by
  refine (sound_number part 4).bind fun n => ?_
  refine ⟨⟨_, .room part least n⟩, ?_⟩
  intro bs m rest h fits
  simp only [StateT.run] at h
  split at h
  · cases h
    exact fits
  · cases h

variable {P : α → Prop} {entry : Reader α}

lemma sound_repeat (h : Sound entry P) (n : Nat) :
    Sound («repeat» entry n) fun as => as.length = n ∧ ∀ a ∈ as, P a := by
  induction n with
  | zero => exact .pure ⟨rfl, List.forall_mem_nil P⟩
  | succ n ih =>
    refine h.bind fun a => ih.map ?_
    rintro as ⟨length, all⟩ ha
    exact ⟨congrArg Nat.succ length, List.forall_mem_cons.2 ⟨ha, all⟩⟩

/-- The number of entries of a table fits a count. -/
lemma Sound.table (part : FlatPart) (least : Nat) (h : Sound entry P) :
    Sound (table part least entry) fun as => FitsCount as.length ∧ ∀ a ∈ as, P a := by
  refine (sound_count part least).bind fun n => (sound_repeat h n).mono ?_
  rintro as ⟨rfl, all⟩ fits
  exact ⟨fits, all⟩

lemma sound_indices (part : FlatPart) : Sound (indices part) fun is => FitsCount is.length :=
  ((sound_index part).table part 4).mono fun _ h => h.1

lemma sound_text (part : FlatPart) :
    Sound (text part) fun s => FitsCount (Bytes.ofText s).length := by
  refine (sound_count part 1).bind fun n => ?_
  refine (sound_take part n).bind fun bs => (sound_orFail _).mono ?_
  rintro s found length fits
  rw [Bytes.ofText_of_text? found, length]
  exact fits

end Reader

open Reader

/-! ### Entries -/

lemma sound_activation : Sound readActivation fun _ => True :=
  (sound_byte _).bind fun _ => (sound_orFail _).mono fun _ _ _ => trivial

lemma sound_padding : Sound readPadding fun _ => True :=
  (sound_byte _).bind fun _ => (sound_orFail _).mono fun _ _ _ => trivial

lemma sound_dtype : Sound readDType fun _ => True :=
  (sound_byte _).bind fun _ => (sound_orFail _).mono fun _ _ _ => trivial

lemma sound_code : Sound readCode fun _ => True :=
  (sound_word _).bind fun _ => (sound_orFail _).mono fun _ _ _ => trivial

lemma sound_options : Sound readOptions fun _ => True := by
  have word := sound_word .operatorOptions
  refine (sound_byte _).bind fun tag => ?_
  split
  · exact .pure fun _ => trivial
  · refine sound_padding.bind fun _ => word.bind fun _ => word.bind fun _ => ?_
    exact sound_activation.map fun _ _ _ _ _ _ => trivial
  · refine sound_padding.bind fun _ => word.bind fun _ => word.bind fun _ => word.bind fun _ => ?_
    exact sound_activation.map fun _ _ _ _ _ _ _ => trivial
  · refine sound_padding.bind fun _ => word.bind fun _ => word.bind fun _ => word.bind fun _ => ?_
    exact word.bind fun _ => sound_activation.map fun _ _ _ _ _ _ _ _ => trivial
  · exact (sound_index _).bind fun _ => sound_activation.map fun _ _ _ _ => trivial
  · exact sound_activation.map fun _ _ _ => trivial
  · exact (sound_flag _).bind fun _ => (sound_flag _).map fun _ _ _ _ => trivial
  · exact (sound_single _).map fun _ _ _ => trivial
  · exact .fail

lemma sound_quantization : Sound readQuantization fun _ => True := by
  refine (sound_flag _).bind fun present => ?_
  split
  · exact (sound_single _).bind fun _ => (sound_index _).map fun _ _ _ _ => trivial
  · exact .pure fun _ => trivial

/-- The dimensions of a tensor are numbers of four bytes. -/
lemma sound_tensor : Sound readTensor FlatTensor.Fits := by
  refine (sound_text _).bind fun name => sound_dtype.bind fun dtype => ?_
  refine ((sound_number _ 4).table _ 4).bind fun shape => ?_
  refine (sound_word _).bind fun buffer => sound_quantization.map ?_
  rintro quantization - - ⟨rank, dims⟩ - name
  exact ⟨name, rank, dims⟩

lemma sound_operator : Sound readOperator FlatOperator.Fits := by
  refine (sound_word _).bind fun opcode => (sound_indices _).bind fun inputs => ?_
  refine (sound_indices _).bind fun outputs => sound_options.map ?_
  rintro options - outputs inputs -
  exact ⟨inputs, outputs⟩

lemma sound_note : Sound readNote NoteFits := by
  refine (sound_text _).bind fun key => (sound_text _).map ?_
  rintro value hvalue hkey
  exact ⟨hkey, hvalue⟩

lemma sound_span : Sound readSpan fun _ => True :=
  (sound_number _ 8).bind fun _ => (sound_number _ 8).map fun _ _ _ => trivial

end FlatNet
