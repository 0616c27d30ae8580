import FlatNet.Outcome
import Mathlib.Data.List.Forall2
import Mathlib.Tactic

/-!
How checked computations end.

A computation that ends in a value is taken apart step by step: each conversion and each
traversal is a value exactly when its parts are.  A computation whose refusals matter as well
is bounded from both sides.

* `mapM_eq_value_iff`, `forM_eq_ok_iff`, `foldlM_append_eq_value_iff`: traversals end in a
  value exactly when every step does;
* `Outcome.Ends`: every value satisfies one property and every error another, with the rules
  `Ends.bind`, `Ends.mapM` and `Ends.foldlM` for sequences and traversals;
* `Outcome.SafeUnless`: the computation breaks off only in a known case, with the same rules;
* `Outcome.RefusesIff`: the computation is refused exactly in a known case, and never breaks off;
* `Outcome.Tracks`: one computation gives a value if another one does, and perhaps only then;
* `Outcome.Meets`: two computations have related values wherever both give one;
* `Outcome.Alike`: two computations end in related values or in the same failure.
-/

namespace FlatNet

/-! ### Related lists -/

/-- Every entry of the first of two related lists is related to an entry of the second. -/
lemma exists_mem_of_forall₂ {α β : Type} {R : α → β → Prop} {xs : List α} {ys : List β}
    (h : List.Forall₂ R xs ys) {x : α} (hx : x ∈ xs) : ∃ y ∈ ys, R x y := by
  induction h with
  | nil => exact nomatch hx
  | cons head _ ih =>
    rcases List.mem_cons.1 hx with rfl | later
    · exact ⟨_, List.mem_cons_self .., head⟩
    · obtain ⟨y, hy, hR⟩ := ih later
      exact ⟨y, List.mem_cons_of_mem _ hy, hR⟩

/-- A list is related to another one if each of its entries is related to something. -/
lemma exists_forall₂ {α β : Type} {R : α → β → Prop} {xs : List α} (h : ∀ x ∈ xs, ∃ y, R x y) :
    ∃ ys, List.Forall₂ R xs ys := by
  induction xs with
  | nil => exact ⟨[], .nil⟩
  | cons x xs ih =>
    obtain ⟨y, hR⟩ := h x (List.mem_cons_self ..)
    obtain ⟨ys, rest⟩ := ih fun x' hx => h x' (List.mem_cons_of_mem x hx)
    exact ⟨y :: ys, .cons hR rest⟩

namespace Outcome

variable {ε ε' : Type} {α β γ : Type}

/-! ### Values of conversions -/

@[simp] lemma mapError_eq_value_iff {f : ε → ε'} {x : Outcome ε α} {a : α} :
    x.mapError f = .value a ↔ x = .value a := by
  cases x <;> simp [mapError]

@[simp] lemma orError_eq_value_iff {e : ε} {o : Option α} {a : α} :
    orError e o = .value a ↔ o = some a := by
  cases o <;> simp [orError]

@[simp] lemma orFault_eq_value_iff {o : Option α} {a : α} :
    (orFault o : Outcome ε α) = .value a ↔ o = some a := by
  cases o <;> simp [orFault]

@[simp] lemma ofExcept_eq_value_iff {x : Except ε α} {a : α} :
    ofExcept x = .value a ↔ x = .ok a := by
  cases x <;> simp [ofExcept]

@[simp] lemma mapError_value {f : ε → ε'} (a : α) : (value a : Outcome ε α).mapError f = .value a :=
  rfl

@[simp] lemma orError_some {e : ε} (a : α) : orError e (some a) = .value a := rfl

@[simp] lemma orFault_some (a : α) : (orFault (some a) : Outcome ε α) = .value a := rfl

@[simp] lemma ofExcept_ok (a : α) : (ofExcept (.ok a) : Outcome ε α) = .value a := rfl

/-- A guard that holds changes nothing. -/
@[simp] lemma require_true (e : ε) : require true e = .value () := rfl

/-- Whether there is a value, and it passes a test. -/
def holds (test : α → Bool) : Outcome ε α → Bool
  | value a => test a
  | _ => false

lemma exists_of_holds {test : α → Bool} {x : Outcome ε α} (h : x.holds test = true) :
    ∃ a, x = .value a ∧ test a = true := by
  cases x with
  | value a => exact ⟨a, rfl, h⟩
  | error e => exact nomatch h
  | fault => exact nomatch h

/-- Reading errors differently commutes with sequencing. -/
lemma mapError_bind (f : ε → ε') (x : Outcome ε α) (g : α → Outcome ε β) :
    (x >>= g).mapError f = x.mapError f >>= fun a => (g a).mapError f := by
  cases x <;> rfl

/-! ### Values of traversals -/

/-- Changing every entry of a traversal afterwards. -/
lemma mapM_map (f : α → Outcome ε β) (g : β → γ) (xs : List α) :
    xs.mapM (fun x => do return g (← f x)) = do return (← xs.mapM f).map g := by
  induction xs with
  | nil => rfl
  | cons x xs ih =>
    rw [List.mapM_cons, List.mapM_cons, ih]
    simp only [bind_assoc, pure_bind, List.map_cons]

/-- A traversal gives a list exactly when it gives every entry of it. -/
lemma mapM_eq_value_iff {f : α → Outcome ε β} {xs : List α} {ys : List β} :
    xs.mapM f = .value ys ↔ List.Forall₂ (fun x y => f x = .value y) xs ys := by
  induction xs generalizing ys with
  | nil => cases ys <;> simp
  | cons x xs ih =>
    rw [List.mapM_cons, bind_eq_value_iff]
    cases ys with
    | nil => simp [bind_eq_value_iff]
    | cons y ys =>
      simp only [bind_eq_value_iff, pure_eq, value.injEq, List.cons.injEq, List.forall₂_cons, ← ih]
      constructor
      · rintro ⟨_, hx, _, hxs, rfl, rfl⟩
        exact ⟨hx, hxs⟩
      · rintro ⟨hx, hxs⟩
        exact ⟨y, hx, ys, hxs, rfl, rfl⟩

/-- A traversal whose entries give values gives the list of them. -/
lemma mapM_eq_value {f : α → Outcome ε β} {g : α → β} {xs : List α}
    (each : ∀ x ∈ xs, f x = .value (g x)) : xs.mapM f = .value (xs.map g) := by
  rw [mapM_eq_value_iff, List.forall₂_map_right_iff, List.forall₂_same]
  exact each

/-- A check of every entry passes exactly when each of them does. -/
lemma forM_eq_value_iff {f : α → Outcome ε Unit} {xs : List α} {u : Unit} :
    xs.forM f = .value u ↔ ∀ x ∈ xs, f x = .value () := by
  induction xs with
  | nil => exact ⟨fun _ => List.forall_mem_nil _, fun _ => rfl⟩
  | cons x xs ih =>
    rw [List.forall_mem_cons, ← ih, List.forM, bind_eq_value_iff]
    constructor
    · rintro ⟨_, head, tail⟩
      exact ⟨head, tail⟩
    · rintro ⟨head, tail⟩
      exact ⟨(), head, tail⟩

/-- A fold over two lists passes through the value of the first. -/
lemma foldlM_append_eq_value_iff {f : β → α → Outcome ε β} {xs ys : List α} {b c : β} :
    (xs ++ ys).foldlM f b = .value c ↔
      ∃ d, xs.foldlM f b = .value d ∧ ys.foldlM f d = .value c := by
  rw [List.foldlM_append, bind_eq_value_iff]

/-- A fold whose steps give values gives what a fold without checks does. -/
lemma foldlM_eq_value {f : β → α → Outcome ε β} {g : β → α → β} {xs : List α} {b : β}
    (each : ∀ b, ∀ x ∈ xs, f b x = .value (g b x)) : xs.foldlM f b = .value (xs.foldl g b) := by
  induction xs generalizing b with
  | nil => rfl
  | cons x xs ih =>
    rw [List.foldlM_cons, List.foldl_cons, each b x (List.mem_cons_self ..), value_bind]
    exact ih fun b y hy => each b y (List.mem_cons_of_mem x hy)

/-- What every step keeps holds at the end of a fold that gives a value. -/
lemma foldlM_value_induction {f : β → α → Outcome ε β} (I : β → Prop) {xs : List α} {b c : β}
    (start : I b) (step : ∀ b x c, x ∈ xs → I b → f b x = .value c → I c)
    (h : xs.foldlM f b = .value c) : I c := by
  induction xs generalizing b with
  | nil =>
    cases h
    exact start
  | cons x xs ih =>
    rw [List.foldlM_cons, bind_eq_value_iff] at h
    obtain ⟨d, hd, h⟩ := h
    exact ih (step b x d (List.mem_cons_self ..) start hd)
      (fun b y c hy => step b y c (List.mem_cons_of_mem x hy)) h

/-! ### Computations that do not break off -/

lemma isFault_iff {x : Outcome ε α} : x.isFault = true ↔ x = .fault := by
  cases x <;> simp [isFault]

lemma bind_ne_fault {x : Outcome ε α} {f : α → Outcome ε β} (hx : x ≠ .fault)
    (hf : ∀ a, x = .value a → f a ≠ .fault) : (x >>= f) ≠ .fault := by
  cases x with
  | value a => exact hf a rfl
  | error e => exact nofun
  | fault => exact absurd rfl hx

lemma mapM_ne_fault {f : α → Outcome ε β} {xs : List α} (h : ∀ x ∈ xs, f x ≠ .fault) :
    xs.mapM f ≠ .fault := by
  induction xs with
  | nil => exact nofun
  | cons x xs ih =>
    rw [List.mapM_cons]
    refine bind_ne_fault (h x (List.mem_cons_self ..)) fun a _ => ?_
    exact bind_ne_fault (ih fun y hy => h y (List.mem_cons_of_mem x hy)) fun as _ => nofun

lemma orError_ne_fault {e : ε} {o : Option α} : orError e o ≠ .fault := by
  cases o <;> exact nofun

lemma ofExcept_ne_fault {x : Except ε α} : ofExcept x ≠ .fault := by
  cases x <;> exact nofun

/-! ### Where computations break off -/

lemma bind_eq_fault_iff {x : Outcome ε α} {f : α → Outcome ε β} :
    (x >>= f) = .fault ↔ x = .fault ∨ ∃ a, x = .value a ∧ f a = .fault := by
  cases x <;> simp

/-- A sequence breaks off after a first part without errors if the rest does. -/
lemma bind_eq_fault {x : Outcome ε α} {f : α → Outcome ε β} (total : ∀ e, x ≠ .error e)
    (h : ∀ a, f a = .fault) : (x >>= f) = .fault := by
  cases x with
  | value a => exact h a
  | error e => exact absurd rfl (total e)
  | fault => rfl

/-- A traversal without errors breaks off exactly if some entry does. -/
lemma mapM_eq_fault_iff {f : α → Outcome ε β} {xs : List α}
    (total : ∀ x ∈ xs, ∀ e, f x ≠ .error e) : xs.mapM f = .fault ↔ ∃ x ∈ xs, f x = .fault := by
  induction xs with
  | nil => simp
  | cons x xs ih =>
    obtain ⟨first, later⟩ := List.forall_mem_cons.1 total
    rw [List.mapM_cons, List.exists_mem_cons_iff, ← ih later]
    cases ending : f x with
    | value b => cases xs.mapM f <;> simp
    | error e => exact absurd ending (first e)
    | fault => simp

/-- A fold breaks off exactly if it comes to a step that does. -/
lemma foldlM_eq_fault_iff {f : β → α → Outcome ε β} {xs : List α} {b : β} :
    xs.foldlM f b = .fault ↔ ∃ pre x post c, xs = pre ++ x :: post ∧
      pre.foldlM f b = .value c ∧ f c x = .fault := by
  induction xs generalizing b with
  | nil => simp
  | cons x xs ih =>
    rw [List.foldlM_cons, bind_eq_fault_iff]
    constructor
    · rintro (here | ⟨c, step, later⟩)
      · exact ⟨[], x, xs, b, rfl, rfl, here⟩
      · obtain ⟨pre, y, post, d, rfl, run, broken⟩ := ih.1 later
        exact ⟨x :: pre, y, post, d, rfl, by rw [List.foldlM_cons, step]; exact run, broken⟩
    · rintro ⟨_ | ⟨y, pre⟩, z, post, d, split, run, broken⟩
      · obtain ⟨rfl, rfl⟩ := List.cons.inj split
        obtain rfl := Outcome.value.inj run
        exact .inl broken
      · obtain ⟨rfl, rfl⟩ := List.cons.inj split
        rw [List.foldlM_cons, bind_eq_value_iff] at run
        obtain ⟨c, step, run⟩ := run
        exact .inr ⟨c, step, ih.2 ⟨pre, z, post, d, rfl, run, broken⟩⟩

/-! ### Bounds on endings -/

/-- Every value satisfies `Q` and every error satisfies `P`; a fault is not excluded. -/
def Ends (Q : α → Prop) (P : ε → Prop) : Outcome ε α → Prop
  | value a => Q a
  | error e => P e
  | fault => True

namespace Ends

variable {Q : α → Prop} {R : β → Prop} {P : ε → Prop} {x : Outcome ε α}

lemma of_value (h : x.Ends Q P) {a : α} (hx : x = .value a) : Q a := by
  subst hx
  exact h

lemma of_error (h : x.Ends Q P) {e : ε} (hx : x = .error e) : P e := by
  subst hx
  exact h

@[simp] lemma value_iff {a : α} : (value a : Outcome ε α).Ends Q P ↔ Q a := Iff.rfl

@[simp] lemma error_iff {e : ε} : (error e : Outcome ε α).Ends Q P ↔ P e := Iff.rfl

@[simp] lemma fault_iff : (fault : Outcome ε α).Ends Q P ↔ True := Iff.rfl

/-- Weaker bounds hold as well. -/
lemma mono {Q' : α → Prop} {P' : ε → Prop} (h : x.Ends Q P) (hQ : ∀ a, Q a → Q' a)
    (hP : ∀ e, P e → P' e) : x.Ends Q' P' := by
  cases x with
  | value a => exact hQ a h
  | error e => exact hP e h
  | fault => trivial

/-- The bounds of a sequence follow from those of its parts. -/
lemma bind {f : α → Outcome ε β} (h : x.Ends Q P) (hf : ∀ a, Q a → (f a).Ends R P) :
    (x >>= f).Ends R P := by
  cases x with
  | value a => exact hf a h
  | error e => exact h
  | fault => trivial

lemma mapError {P' : ε' → Prop} {f : ε → ε'} (h : x.Ends Q P) (hf : ∀ e, P e → P' (f e)) :
    (x.mapError f).Ends Q P' := by
  cases x with
  | value a => exact h
  | error e => exact hf e h
  | fault => trivial

/-- A guard is refused only if its condition fails. -/
lemma require {c : Bool} {e : ε} (h : c = false → P e) :
    (Outcome.require c e).Ends (fun _ : PUnit => c = true) P := by
  cases c with
  | true => rfl
  | false => exact h rfl

lemma orFault (o : Option α) : (Outcome.orFault o : Outcome ε α).Ends (fun a => o = some a) P := by
  cases o with
  | none => trivial
  | some a => rfl

/-- A traversal is bounded entry by entry. -/
lemma mapM {f : β → Outcome ε α} {xs : List β} {Q : β → α → Prop}
    (h : ∀ x ∈ xs, (f x).Ends (Q x) P) : (xs.mapM f).Ends (List.Forall₂ Q xs) P := by
  induction xs with
  | nil => exact List.Forall₂.nil
  | cons x xs ih =>
    rw [List.mapM_cons]
    refine (h x (List.mem_cons_self ..)).bind fun a ha => ?_
    refine (ih fun y hy => h y (List.mem_cons_of_mem x hy)).bind fun as has => ?_
    exact List.Forall₂.cons ha has

/-- A fold is bounded by what every step keeps. -/
lemma foldlM {f : α → β → Outcome ε α} {xs : List β} {a : α} (start : Q a)
    (step : ∀ a, ∀ x ∈ xs, Q a → (f a x).Ends Q P) : (xs.foldlM f a).Ends Q P := by
  induction xs generalizing a with
  | nil => exact start
  | cons x xs ih =>
    rw [List.foldlM_cons]
    refine (step a x (List.mem_cons_self ..) start).bind fun b hb => ?_
    exact ih hb fun c y hy => step c y (List.mem_cons_of_mem x hy)

end Ends

/-! ### Computations that break off only in known cases -/

/-- Every value satisfies `Q`, and the computation breaks off only if `B` holds; errors do not
matter. -/
def SafeUnless (B : Prop) (Q : α → Prop) : Outcome ε α → Prop
  | value a => Q a
  | error _ => True
  | fault => B

namespace SafeUnless

variable {B : Prop} {Q : α → Prop} {R : β → Prop} {x : Outcome ε α}

lemma of_value (h : x.SafeUnless B Q) {a : α} (hx : x = .value a) : Q a := by
  subst hx
  exact h

lemma of_fault (h : x.SafeUnless B Q) (hx : x = .fault) : B := by
  subst hx
  exact h

lemma of_ends {P : ε → Prop} (h : x.Ends Q P) (hx : x = .fault → B) : x.SafeUnless B Q := by
  cases x with
  | value a => exact h
  | error e => trivial
  | fault => exact hx rfl

/-- Weaker bounds hold as well. -/
lemma mono {B' : Prop} {Q' : α → Prop} (h : x.SafeUnless B Q) (hB : B → B')
    (hQ : ∀ a, Q a → Q' a) : x.SafeUnless B' Q' := by
  cases x with
  | value a => exact hQ a h
  | error e => trivial
  | fault => exact hB h

/-- A value is known to be the one that was computed. -/
lemma with_value (h : x.SafeUnless B Q) : x.SafeUnless B fun a => x = .value a ∧ Q a := by
  cases x with
  | value a => exact ⟨rfl, h⟩
  | error e => trivial
  | fault => exact h

/-- The bounds of a sequence follow from those of its parts. -/
lemma bind {f : α → Outcome ε β} (h : x.SafeUnless B Q) (hf : ∀ a, Q a → (f a).SafeUnless B R) :
    (x >>= f).SafeUnless B R := by
  cases x with
  | value a => exact hf a h
  | error e => trivial
  | fault => exact h

lemma mapError {f : ε → ε'} (h : x.SafeUnless B Q) : (x.mapError f).SafeUnless B Q := by
  cases x with
  | value a => exact h
  | error e => trivial
  | fault => exact h

lemma require (c : Bool) (e : ε) :
    (Outcome.require c e).SafeUnless B (fun _ : PUnit => c = true) := by
  cases c with
  | true => rfl
  | false => trivial

lemma ofExcept (y : Except ε α) : (Outcome.ofExcept y).SafeUnless B (fun a => y = .ok a) := by
  cases y with
  | ok a => rfl
  | error e => trivial

lemma orError (e : ε) (o : Option α) : (Outcome.orError e o).SafeUnless B (fun a => o = some a) := by
  cases o with
  | some a => rfl
  | none => trivial

/-- A value that is there is taken. -/
lemma orFault {o : Option α} {a : α} (h : o = some a) :
    (Outcome.orFault o : Outcome ε α).SafeUnless B (fun b => b = a) := by
  subst h
  rfl

/-- A traversal is bounded entry by entry. -/
lemma mapM {f : β → Outcome ε α} {xs : List β} {Q : β → α → Prop}
    (h : ∀ x ∈ xs, (f x).SafeUnless B (Q x)) : (xs.mapM f).SafeUnless B (List.Forall₂ Q xs) := by
  induction xs with
  | nil => exact List.Forall₂.nil
  | cons x xs ih =>
    rw [List.mapM_cons]
    refine (h x (List.mem_cons_self ..)).bind fun a ha => ?_
    refine (ih fun y hy => h y (List.mem_cons_of_mem x hy)).bind fun as has => ?_
    exact List.Forall₂.cons ha has

/-- What every entry of a traversal satisfies. -/
lemma mapM_all {f : β → Outcome ε α} {xs : List β} (h : ∀ x ∈ xs, (f x).SafeUnless B Q) :
    (xs.mapM f).SafeUnless B (fun ys => ∀ y ∈ ys, Q y) := by
  refine (mapM (Q := fun _ => Q) h).mono id fun ys related y hy => ?_
  obtain ⟨-, -, holds⟩ := exists_mem_of_forall₂ related.flip hy
  exact holds

/-- A fold is bounded by what every step keeps. -/
lemma foldlM {f : α → β → Outcome ε α} {xs : List β} {a : α} (start : Q a)
    (step : ∀ a, ∀ x ∈ xs, Q a → (f a x).SafeUnless B Q) : (xs.foldlM f a).SafeUnless B Q := by
  induction xs generalizing a with
  | nil => exact start
  | cons x xs ih =>
    rw [List.foldlM_cons]
    refine (step a x (List.mem_cons_self ..) start).bind fun b hb => ?_
    exact ih hb fun c y hy => step c y (List.mem_cons_of_mem x hy)

end SafeUnless

/-! ### Computations that are refused exactly in known cases -/

/-- The computation never breaks off: it is refused if `C` holds, with an error that satisfies `P`,
and otherwise gives a value, which satisfies `Q`. -/
def RefusesIff (C : Prop) (P : ε → Prop) (Q : α → Prop) : Outcome ε α → Prop
  | value a => ¬ C ∧ Q a
  | error e => C ∧ P e
  | fault => False

namespace RefusesIff

variable {C D : Prop} {P : ε → Prop} {Q : α → Prop} {R : β → Prop} {x : Outcome ε α}

lemma ne_fault (h : x.RefusesIff C P Q) : x ≠ .fault := by
  rintro rfl
  exact h

lemma of_error (h : x.RefusesIff C P Q) {e : ε} (hx : x = .error e) : P e := by
  subst hx
  exact h.2

lemma exists_error_iff (h : x.RefusesIff C P Q) : (∃ e, x = .error e) ↔ C := by
  cases x with
  | value a => exact ⟨fun ⟨e, he⟩ => (nomatch he), fun bad => absurd bad h.1⟩
  | error e => exact ⟨fun _ => h.1, fun _ => ⟨e, rfl⟩⟩
  | fault => exact h.elim

lemma of_value {a : α} (hx : x = .value a) (h : Q a) : x.RefusesIff False P Q := by
  subst hx
  exact ⟨not_false, h⟩

/-- Cases that come to the same may be told in other words. -/
lemma congr (h : x.RefusesIff C P Q) (same : C ↔ D) : x.RefusesIff D P Q := propext same ▸ h

/-- A value is known to be the one that was computed. -/
lemma with_value (h : x.RefusesIff C P Q) : x.RefusesIff C P fun a => x = .value a ∧ Q a := by
  cases x with
  | value a => exact ⟨h.1, rfl, h.2⟩
  | error e => exact h
  | fault => exact h

/-- A sequence is refused if one of its parts is. -/
lemma bind {f : α → Outcome ε β} (h : x.RefusesIff C P Q)
    (hf : ∀ a, Q a → (f a).RefusesIff D P R) : (x >>= f).RefusesIff (C ∨ D) P R := by
  cases x with
  | value a => exact (hf a h.2).congr (or_iff_right h.1).symm
  | error e => exact ⟨.inl h.1, h.2⟩
  | fault => exact h.elim

/-- A part that gives a value is never refused. -/
lemma bind_value {f : α → Outcome ε β} {a : α} (hx : x = .value a)
    (hf : (f a).RefusesIff C P R) : (x >>= f).RefusesIff C P R := by
  subst hx
  exact hf

/-- A guard is refused if its condition fails. -/
lemma require {c : Bool} {e : ε} (h : P e) :
    (Outcome.require c e).RefusesIff (c = false) P (fun _ : PUnit => True) := by
  cases c with
  | true => exact ⟨Bool.noConfusion, trivial⟩
  | false => exact ⟨rfl, h⟩

/-- A check of every entry is refused if one of them is. -/
lemma forM {f : β → Outcome ε Unit} {xs : List β} {C : β → Prop}
    (h : ∀ x, (f x).RefusesIff (C x) P fun _ => True) :
    (xs.forM f).RefusesIff (∃ x ∈ xs, C x) P fun _ => True := by
  induction xs with
  | nil => exact ⟨by simp, trivial⟩
  | cons x xs ih =>
    rw [List.forM]
    refine ((h x).bind fun _ _ => ih).congr ?_
    simp

/-- A fold is refused if one of its steps is, each of which knows what the steps before it have
kept. -/
lemma foldlM {f : α → β → Outcome ε α} {C : β → Prop} {Q : List β → α → Prop}
    {done xs : List β} {a : α} (start : Q done a)
    (step : ∀ pre x post b, xs = pre ++ x :: post → Q (done ++ pre) b →
      (f b x).RefusesIff (C x) P (Q (done ++ pre ++ [x]))) :
    (xs.foldlM f a).RefusesIff (∃ x ∈ xs, C x) P (Q (done ++ xs)) := by
  induction xs generalizing done a with
  | nil => exact ⟨by simp, by simpa using start⟩
  | cons x xs ih =>
    have first := step [] x xs a rfl (by simpa using start)
    rw [List.append_nil] at first
    rw [List.foldlM_cons]
    have whole := first.bind fun b hb => ih hb fun pre y post c split hc => by
      have later := step (x :: pre) y post c (by simp [split]) (by simpa using hc)
      simpa using later
    rw [List.append_assoc, List.singleton_append] at whole
    refine whole.congr ?_
    simp

end RefusesIff

/-! ### Two computations -/

/-- If the first computation gives a value, so does the second, and the values are related; if
`both` holds, the second gives a value only if the first does. -/
def Tracks (both : Prop) (R : α → β → Prop) (x : Outcome ε α) (y : Outcome ε' β) : Prop :=
  (∀ a, x = .value a → ∃ b, y = .value b ∧ R a b) ∧
    (both → ∀ b, y = .value b → ∃ a, x = .value a ∧ R a b)

namespace Tracks

variable {δ : Type} {both : Prop} {R : α → β → Prop} {x : Outcome ε α} {y : Outcome ε' β}

lemma of_values {a : α} {b : β} (h : R a b) :
    Tracks both R (.value a : Outcome ε α) (.value b : Outcome ε' β) := by
  constructor
  · rintro a ⟨⟩
    exact ⟨b, rfl, h⟩
  · rintro - b ⟨⟩
    exact ⟨a, rfl, h⟩

/-- A first part that the second computation lacks must give a value wherever the second
computation might. -/
lemma bind_left {f : γ → Outcome ε α} {z : Outcome ε γ}
    (h : ∀ c, z = .value c → Tracks both R (f c) y) (there : both → ∃ c, z = .value c) :
    Tracks both R (z >>= f) y := by
  constructor
  · intro a ha
    obtain ⟨c, hz, ha⟩ := bind_eq_value_iff.1 ha
    exact (h c hz).1 a ha
  · intro hb b hy
    obtain ⟨c, hz⟩ := there hb
    obtain ⟨a, ha, hR⟩ := (h c hz).2 hb b hy
    exact ⟨a, bind_eq_value_iff.2 ⟨c, hz, ha⟩, hR⟩

/-- A weaker relation holds as well. -/
lemma mono {S : α → β → Prop} (h : Tracks both R x y) (hRS : ∀ a b, R a b → S a b) :
    Tracks both S x y := by
  constructor
  · intro a hx
    obtain ⟨b, hy, hR⟩ := h.1 a hx
    exact ⟨b, hy, hRS a b hR⟩
  · intro hb b hy
    obtain ⟨a, hx, hR⟩ := h.2 hb b hy
    exact ⟨a, hx, hRS a b hR⟩

/-- Sequences track each other part by part. -/
lemma bind {S : γ → δ → Prop} {f : α → Outcome ε γ} {g : β → Outcome ε' δ}
    (h : Tracks both R x y) (hfg : ∀ a b, R a b → Tracks both S (f a) (g b)) :
    Tracks both S (x >>= f) (y >>= g) := by
  constructor
  · intro c hc
    obtain ⟨a, hx, hc⟩ := bind_eq_value_iff.1 hc
    obtain ⟨b, hy, hR⟩ := h.1 a hx
    obtain ⟨d, hd, hS⟩ := (hfg a b hR).1 c hc
    exact ⟨d, bind_eq_value_iff.2 ⟨b, hy, hd⟩, hS⟩
  · intro hb d hd
    obtain ⟨b, hy, hd⟩ := bind_eq_value_iff.1 hd
    obtain ⟨a, hx, hR⟩ := h.2 hb b hy
    obtain ⟨c, hc, hS⟩ := (hfg a b hR).2 hb d hd
    exact ⟨c, bind_eq_value_iff.2 ⟨a, hx, hc⟩, hS⟩

/-- Errors do not matter. -/
lemma mapError {ζ ζ' : Type} {f : ζ → ε} {g : ζ' → ε'} {x : Outcome ζ α} {y : Outcome ζ' β}
    (h : Tracks both R x y) : Tracks both R (x.mapError f) (y.mapError g) := by
  simpa only [Tracks, mapError_eq_value_iff] using h

lemma refl (x : Outcome ε α) : Tracks both Eq x x :=
  ⟨fun a hx => ⟨a, hx, rfl⟩, fun _ a hx => ⟨a, hx, rfl⟩⟩

/-- Guards with one condition track each other. -/
lemma require (c : Bool) (e : ε) (e' : ε') :
    Tracks both (fun (_ : PUnit) (_ : PUnit) => True) (Outcome.require c e) (Outcome.require c e') := by
  simp only [Tracks, require_eq_value_iff]
  exact ⟨fun _ h => ⟨⟨⟩, h, trivial⟩, fun _ _ h => ⟨⟨⟩, h, trivial⟩⟩

/-- Traversals track each other entry by entry. -/
lemma mapM {P : γ → δ → Prop} {f : γ → Outcome ε α} {g : δ → Outcome ε' β} {xs : List γ}
    {ys : List δ} (h : List.Forall₂ P xs ys) (hfg : ∀ c d, P c d → Tracks both R (f c) (g d)) :
    Tracks both (List.Forall₂ R) (xs.mapM f) (ys.mapM g) := by
  induction h with
  | nil => exact of_values .nil
  | @cons c d xs ys head _ ih =>
    rw [List.mapM_cons, List.mapM_cons]
    refine (hfg c d head).bind fun a b hR => ih.bind fun as bs hRs => of_values (.cons hR hRs)

end Tracks

/-! ### Values of both -/

/-- Whenever both computations give values, these are related. -/
def Meets (R : α → β → Prop) (x : Outcome ε α) (y : Outcome ε' β) : Prop :=
  ∀ a b, x = .value a → y = .value b → R a b

namespace Meets

variable {ε ε' α β γ δ : Type} {R : α → β → Prop} {x : Outcome ε α} {y : Outcome ε' β}

lemma of_values {a : α} {b : β} (h : R a b) :
    Meets R (.value a : Outcome ε α) (.value b : Outcome ε' β) := by
  rintro _ _ ⟨⟩ ⟨⟩
  exact h

/-- A weaker relation holds as well. -/
lemma mono {S : α → β → Prop} (h : Meets R x y) (hRS : ∀ a b, R a b → S a b) : Meets S x y :=
  fun a b hx hy => hRS a b (h a b hx hy)

/-- A computation gives one value only. -/
lemma refl (x : Outcome ε α) : Meets Eq x x := by
  intro a b hx hy
  exact Outcome.value.inj (hx.symm.trans hy)

lemma anything : Meets (fun _ _ => True) x y := fun _ _ _ _ => trivial

/-- What the first computation gives is known. -/
lemma values_left (x : Outcome ε α) (y : Outcome ε' β) : Meets (fun a _ => x = .value a) x y :=
  fun _ _ hx _ => hx

/-- Sequences meet part by part. -/
lemma bind {S : γ → δ → Prop} {f : α → Outcome ε γ} {g : β → Outcome ε' δ} (h : Meets R x y)
    (hfg : ∀ a b, R a b → Meets S (f a) (g b)) : Meets S (x >>= f) (y >>= g) := by
  intro c d hc hd
  obtain ⟨a, hx, hc⟩ := bind_eq_value_iff.1 hc
  obtain ⟨b, hy, hd⟩ := bind_eq_value_iff.1 hd
  exact hfg a b (h a b hx hy) c d hc hd

/-- Sequences whose first parts give one value meet if the rest does. -/
lemma bind_eq {S : γ → δ → Prop} {x : Outcome ε α} {y : Outcome ε' α} {f : α → Outcome ε γ}
    {g : α → Outcome ε' δ} (h : Meets Eq x y) (hfg : ∀ a, Meets S (f a) (g a)) :
    Meets S (x >>= f) (y >>= g) := by
  refine h.bind ?_
  rintro a _ rfl
  exact hfg a

/-- Sequences with one first part meet if the rest does. -/
lemma bind_same {S : γ → δ → Prop} {x : Outcome ε α} {f : α → Outcome ε γ} {g : α → Outcome ε δ}
    (h : ∀ a, Meets S (f a) (g a)) : Meets S (x >>= f) (x >>= g) :=
  (refl x).bind_eq h

/-- What both computations give is known. -/
lemma with_values (h : Meets R x y) : Meets (fun a b => x = .value a ∧ y = .value b ∧ R a b) x y :=
  fun a b hx hy => ⟨hx, hy, h a b hx hy⟩

/-- Errors do not matter. -/
lemma mapError {ζ ζ' : Type} {f : ζ → ε} {g : ζ' → ε'} {x : Outcome ζ α} {y : Outcome ζ' β}
    (h : Meets R x y) : Meets R (x.mapError f) (y.mapError g) := by
  simpa only [Meets, mapError_eq_value_iff] using h

/-- Traversals meet entry by entry. -/
lemma mapM {P : γ → δ → Prop} {f : γ → Outcome ε α} {g : δ → Outcome ε' β} {xs : List γ}
    {ys : List δ} (h : List.Forall₂ P xs ys) (hfg : ∀ c d, P c d → Meets R (f c) (g d)) :
    Meets (List.Forall₂ R) (xs.mapM f) (ys.mapM g) := by
  induction h with
  | nil => exact of_values .nil
  | @cons c d xs ys head _ ih =>
    rw [List.mapM_cons, List.mapM_cons]
    exact (hfg c d head).bind fun a b hR => ih.bind fun as bs hRs => of_values (.cons hR hRs)

/-- Entries of traversals are the same if they are computed alike. -/
lemma mapM_entries {f : γ → Outcome ε α} {g : δ → Outcome ε' α} {xs : List γ} {ys : List δ}
    (start n : Nat) (h : ∀ i < n, ∃ c d, xs[start + i]? = some c ∧ ys[i]? = some d ∧
      Meets Eq (f c) (g d)) :
    Meets (fun as bs => ∀ i < n, as[start + i]? = bs[i]?) (xs.mapM f) (ys.mapM g) := by
  intro as bs has hbs i hi
  rw [mapM_eq_value_iff] at has hbs
  obtain ⟨c, d, hc, hd, same⟩ := h i hi
  obtain ⟨left, rfl⟩ := List.getElem?_eq_some_iff.1 hc
  obtain ⟨right, rfl⟩ := List.getElem?_eq_some_iff.1 hd
  have left' := has.length_eq ▸ left
  have right' := hbs.length_eq ▸ right
  rw [List.getElem?_eq_getElem left', List.getElem?_eq_getElem right']
  exact congrArg some (same _ _ (has.get left left') (hbs.get right right'))

/-- Folds keep what their steps keep. -/
lemma foldlM {P : γ → δ → Prop} {f : α → γ → Outcome ε α} {g : β → δ → Outcome ε' β}
    {xs : List γ} {ys : List δ} {a : α} {b : β} (h : List.Forall₂ P xs ys) (start : R a b)
    (step : ∀ a b c d, R a b → P c d → Meets R (f a c) (g b d)) :
    Meets R (xs.foldlM f a) (ys.foldlM g b) := by
  induction h generalizing a b with
  | nil => exact of_values start
  | @cons c d xs ys head _ ih =>
    rw [List.foldlM_cons, List.foldlM_cons]
    exact (step a b c d start head).bind fun a' b' kept => ih kept

/-- Folds over one list keep what their steps keep. -/
lemma foldlM_same {f : α → γ → Outcome ε α} {g : β → γ → Outcome ε' β} {xs : List γ} {a : α}
    {b : β} (start : R a b) (step : ∀ a b c, R a b → Meets R (f a c) (g b c)) :
    Meets R (xs.foldlM f a) (xs.foldlM g b) := by
  refine foldlM (P := Eq) (List.forall₂_same.2 fun _ _ => rfl) start ?_
  rintro a b c _ kept rfl
  exact step a b c kept

end Meets

/-! ### The same ending -/

/-- Both computations end in related values, in one error, or by breaking off. -/
def Alike (R : α → β → Prop) : Outcome ε α → Outcome ε β → Prop
  | value a, value b => R a b
  | error e, error e' => e = e'
  | fault, fault => True
  | _, _ => False

namespace Alike

variable {δ : Type} {R : α → β → Prop} {x : Outcome ε α} {y : Outcome ε β}

/-- One computation ends like itself, if its value is related to itself. -/
lemma refl {R : α → α → Prop} (h : ∀ a, x = .value a → R a a) : Alike R x x := by
  cases x with
  | value a => exact h a rfl
  | error e => rfl
  | fault => trivial

/-- Where the first computation gives a value, the second one gives a related value. -/
lemma exists_value {a : α} (h : Alike R x y) (hx : x = .value a) : ∃ b, y = .value b ∧ R a b := by
  subst hx
  cases y with
  | value b => exact ⟨b, rfl, h⟩
  | error _ | fault => exact h.elim

/-- Sequences end alike if their parts do. -/
lemma bind {S : γ → δ → Prop} {f : α → Outcome ε γ} {g : β → Outcome ε δ} (h : Alike R x y)
    (hfg : ∀ a b, R a b → Alike S (f a) (g b)) : Alike S (x >>= f) (y >>= g) := by
  cases x <;> cases y <;> first
    | exact hfg _ _ h
    | exact h.elim
    | exact h

/-- Sequences with one first part end alike if the rest does. -/
lemma bind_same {S : γ → δ → Prop} {f : α → Outcome ε γ} {g : α → Outcome ε δ}
    (h : ∀ a, x = .value a → Alike S (f a) (g a)) : Alike S (x >>= f) (x >>= g) :=
  (refl (R := fun a b => x = .value a ∧ a = b) fun _ ha => ⟨ha, rfl⟩).bind <| by
    rintro a _ ⟨ha, rfl⟩
    exact h a ha

/-- Folds over one list end alike if their steps do. -/
lemma foldlM {f : α → γ → Outcome ε α} {g : β → γ → Outcome ε β} {xs : List γ} {a : α} {b : β}
    (start : R a b) (step : ∀ a b, ∀ c ∈ xs, R a b → Alike R (f a c) (g b c)) :
    Alike R (xs.foldlM f a) (xs.foldlM g b) := by
  induction xs generalizing a b with
  | nil => exact start
  | cons c xs ih =>
    rw [List.foldlM_cons, List.foldlM_cons]
    refine (step a b c (List.mem_cons_self ..) start).bind fun a' b' kept => ih kept ?_
    exact fun a b d hd => step a b d (List.mem_cons_of_mem c hd)

end Alike

end Outcome

/-- A sequence passes exactly when both of its parts do. -/
lemma except_bind_eq_ok_iff {ε α β : Type} {x : Except ε α} {f : α → Except ε β} {b : β} :
    (x >>= f) = .ok b ↔ ∃ a, x = .ok a ∧ f a = .ok b := by
  cases x <;> simp [bind, Except.bind]

/-- A traversal passes exactly when it does at every entry. -/
lemma exists_mapM_eq_ok_iff {ε α β : Type} {f : α → Except ε β} {xs : List α} :
    (∃ ys, xs.mapM f = .ok ys) ↔ ∀ x ∈ xs, ∃ y, f x = .ok y := by
  induction xs with
  | nil => simp [pure, Except.pure]
  | cons x xs ih =>
    simp only [List.forall_mem_cons, ← ih, List.mapM_cons, except_bind_eq_ok_iff]
    constructor
    · rintro ⟨_, y, first, ys, later, -⟩
      exact ⟨⟨y, first⟩, ys, later⟩
    · rintro ⟨⟨y, first⟩, ys, later⟩
      exact ⟨y :: ys, y, first, ys, later, rfl⟩

/-- A check of every entry passes exactly when each of them does. -/
lemma forM_eq_ok_iff {ε α : Type} {f : α → Except ε Unit} {xs : List α} {u : Unit} :
    xs.forM f = .ok u ↔ ∀ x ∈ xs, f x = .ok () := by
  induction xs with
  | nil => simp [pure, Except.pure]
  | cons x xs ih =>
    rw [List.forall_mem_cons, ← ih, List.forM]
    cases f x <;> simp [Except.bind, bind]

end FlatNet
