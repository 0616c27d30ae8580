import FlatNet.Proofs.Flat.Truncation

/-!
Stored flat models with more bytes behind them.

The reader compares counts and places of buffers with the length of all bytes, so more bytes at
the end loosen every such comparison.  They change nothing else: a reader that is made of steps of
a cursor uses the bytes that it used before and leaves more over, the data section starts where it
did, and a buffer that lay in the bytes is the same part of them.  A model that was read is
therefore read again, and what is refused for another reason than the end stays refused.

* `Outcome.Lasts`: endings that stay, and errors that may be mended;
* `FlatModel.readBuffers_lasts`: buffers in bytes that go on;
* `FlatModel.decode_append`: flat models in bytes that go on.
-/

namespace FlatNet

/-! ### Endings that stay -/

namespace Outcome

variable {ε α β γ : Type} {mends : ε → Prop}

/-- The second computation ends as the first one does, unless the first one is refused for a
reason that the second one may mend; nothing is said if the first one breaks off. -/
def Lasts (mends : ε → Prop) (x y : Outcome ε α) : Prop :=
  (∀ a, x = .value a → y = .value a) ∧ ∀ e, x = .error e → mends e ∨ y = .error e

namespace Lasts

lemma refl (x : Outcome ε α) : Lasts mends x x := ⟨fun _ h => h, fun _ h => .inr h⟩

lemma of_error {e : ε} {y : Outcome ε α} (h : mends e ∨ y = .error e) :
    Lasts mends (.error e) y := by
  refine ⟨nofun, ?_⟩
  rintro _ ⟨⟩
  exact h

/-- A sequence lasts if its parts do. -/
lemma bind {x y : Outcome ε α} {f g : α → Outcome ε β} (h : Lasts mends x y)
    (hfg : ∀ a, Lasts mends (f a) (g a)) : Lasts mends (x >>= f) (y >>= g) := by
  cases x with
  | value a =>
    rw [h.1 a rfl]
    exact hfg a
  | error e =>
    refine of_error ((h.2 e rfl).imp_right fun refused => ?_)
    rw [refused, error_bind]
  | fault => exact ⟨nofun, nofun⟩

/-- A traversal lasts if it does at every entry. -/
lemma mapM {f g : γ → Outcome ε α} {xs : List γ} (h : ∀ c, Lasts mends (f c) (g c)) :
    Lasts mends (xs.mapM f) (xs.mapM g) := by
  induction xs with
  | nil => exact refl _
  | cons c xs ih =>
    rw [List.mapM_cons, List.mapM_cons]
    exact (h c).bind fun a => ih.bind fun as => refl _

end Lasts

end Outcome

open Reader

/-- The errors that more bytes may mend: those of an end that comes too early, and a buffer that
goes beyond the end. -/
def FormatError.Mendable (e : FormatError) : Prop := FromEnd e ∨ ∃ i, e = .bufferOutOfBounds i

namespace FlatModel

/-! ### Buffers -/

/-- A buffer that lies in bytes lies at its place in longer bytes. -/
lemma buffer?_append {bs b : Bytes} {start : Nat} {span : Nat × Nat}
    (found : buffer? bs start span = some b) (more : Bytes) :
    buffer? (bs ++ more) start span = some b := by
  simp only [buffer?, Option.bind_eq_bind, Option.bind_eq_some_iff] at found ⊢
  obtain ⟨first, hfirst, last, hlast, found⟩ := found
  refine ⟨first, hfirst, last, hlast, ?_⟩
  obtain ⟨⟨order, inside⟩, part⟩ := Bytes.slice?_eq_some_iff.1 found
  rw [Bytes.slice?_eq_some_iff, List.length_append, List.drop_append_of_le_length (by omega),
    List.take_append_of_le_length (by rw [List.length_drop]; omega)]
  exact ⟨⟨order, by omega⟩, part⟩

lemma readBuffers_lasts (bs more : Bytes) (start : Nat) (spans : List (Nat × Nat)) :
    (readBuffers bs start spans).Lasts FormatError.Mendable
      (readBuffers (bs ++ more) start spans) := by
  refine .mapM fun p => ?_
  cases found : buffer? bs start p.1 with
  | some b => exact buffer?_append found more ▸ .refl _
  | none => exact .of_error (.inl (.inr ⟨p.2, rfl⟩))

/-! ### Models -/

/-- More bytes behind the last one never change what is read: a model that bytes read as is the
model of these bytes followed by any others.  What is refused is refused for the same reason,
unless the reason is that the bytes end too early. -/
theorem decode_append (bs more : Bytes) :
    (∀ m, decode bs = .value m → decode (bs ++ more) = .value m) ∧
      ∀ e, decode bs = .error e → e.Mendable ∨ decode (bs ++ more) = .error e := by
  change (decode bs).Lasts FormatError.Mendable (decode (bs ++ more))
  obtain ⟨scan, scans⟩ := sound_tables.scans
  rcases scans.extends bs more with ⟨⟨tables, spans⟩, rest, read, longer⟩ | ⟨e, refused, reason⟩
  · -- the tables take the same bytes, so the data section starts where it did
    have position : (Size.sub (bs ++ more).length (rest ++ more).length : Outcome FormatError Nat)
        = Size.sub bs.length rest.length := by
      simp only [Size.sub, List.length_append, Nat.add_le_add_iff_right, Nat.add_sub_add_right]
    simp only [decode, read, longer, Outcome.value_bind, position]
    refine (Outcome.Lasts.refl _).bind fun used => (Outcome.Lasts.refl _).bind fun start => ?_
    exact (readBuffers_lasts bs more start spans).bind fun buffers => .refl _
  · rw [decode, refused, Outcome.error_bind]
    refine .of_error (reason.imp .inl fun refused => ?_)
    rw [decode, refused, Outcome.error_bind]

/-- Two bytes more do not change the model that is read, nor does one more the refusal of a version. -/
theorem decode_append_overlapping :
    (∃ m, decode overlapping = .value m ∧ decode (overlapping ++ [4, 5]) = .value m ∧
        m.buffers = [[1, 2], [2, 3]]) ∧
      decode (flatMagic ++ Bytes.ofWord 2 ++ [0]) = .error (.unsupportedVersion 2) := by
  have found : (decode overlapping).holds (fun m => m.buffers = [[1, 2], [2, 3]]) = true := by
    decide +kernel
  obtain ⟨m, accepted, buffers⟩ := Outcome.exists_of_holds found
  have longer := (decode_append overlapping [4, 5]).1 m accepted
  refine ⟨⟨m, accepted, longer, of_decide_eq_true buffers⟩, ?_⟩
  have refused : decode (flatMagic ++ Bytes.ofWord 2) = .error (.unsupportedVersion 2) := rfl
  refine ((decode_append (flatMagic ++ Bytes.ofWord 2) [0]).2 _ refused).resolve_left ?_
  rintro ((⟨⟨⟩⟩ | ⟨_, ⟨⟩⟩) | ⟨_, ⟨⟩⟩)

end FlatModel

end FlatNet
