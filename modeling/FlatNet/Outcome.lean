/-!
Results of checked computations.

A computation of this library ends in one of three ways: with a value, with a
described error, or with a fault.  A fault is the end of a computation whose own
arithmetic left the 64-bit range, divided by zero or indexed out of range; it carries no
description and nothing catches it.

* `Outcome`: the three endings, with `Outcome.bind` passing on only a value;
* `Outcome.value_bind`, `Outcome.error_bind`, `Outcome.fault_bind`: how each ending
  continues;
* `Outcome.require`, `Outcome.orError`, `Outcome.orFault`: guards and partial values.
-/

namespace FlatNet

universe u v w

/-- The ending of a checked computation. -/
inductive Outcome (ε : Type) (α : Type u) : Type u where
  /-- The computation produced a value. -/
  | value (a : α)
  /-- The computation was refused, for the reason given. -/
  | error (e : ε)
  /-- The computation broke off in its own arithmetic or indexing. -/
  | fault
  deriving Repr, DecidableEq

namespace Outcome

variable {ε ε' : Type} {α : Type u} {β : Type v} {γ : Type w}

instance [Inhabited ε] : Inhabited (Outcome ε α) := ⟨.error default⟩

/-! ### Sequencing -/

/-- Continue from a value; an error or a fault is final. -/
def bind (x : Outcome ε α) (f : α → Outcome ε β) : Outcome ε β :=
  match x with
  | .value a => f a
  | .error e => .error e
  | .fault => .fault

instance : Monad (Outcome.{u} ε) where
  pure := .value
  bind := bind

/-- A value continues. -/
@[simp] theorem value_bind {α β : Type u} (a : α) (f : α → Outcome ε β) :
    (Outcome.value a >>= f) = f a := rfl

/-- An error is final. -/
@[simp] theorem error_bind {α β : Type u} (e : ε) (f : α → Outcome ε β) :
    ((Outcome.error e : Outcome ε α) >>= f) = .error e := rfl

/-- A fault is final. -/
@[simp] theorem fault_bind {α β : Type u} (f : α → Outcome ε β) :
    ((Outcome.fault : Outcome ε α) >>= f) = .fault := rfl

/-- Returning is producing a value. -/
@[simp] theorem pure_eq {α : Type u} (a : α) : (pure a : Outcome ε α) = .value a := rfl

instance : LawfulMonad (Outcome.{u} ε) := LawfulMonad.mk' _
  (fun x => by cases x <;> rfl)
  (fun _ _ => rfl)
  (fun x _ _ => by cases x <;> rfl)

/-- A sequence ends in a value exactly when both of its parts do. -/
theorem bind_eq_value_iff {α β : Type u} {x : Outcome ε α} {f : α → Outcome ε β} {b : β} :
    (x >>= f) = .value b ↔ ∃ a, x = .value a ∧ f a = .value b := by
  cases x <;> simp

/-! ### Guards and conversions -/

/-- Go on if the condition holds, else refuse with `e`. -/
def require (c : Bool) (e : ε) : Outcome ε PUnit.{u + 1} :=
  if c then .value ⟨⟩ else .error e

/-- A missing value is the error `e`. -/
def orError (e : ε) : Option α → Outcome ε α
  | some a => .value a
  | none => .error e

/-- A missing value is a fault. -/
def orFault : Option α → Outcome ε α
  | some a => .value a
  | none => .fault

/-- Read the error differently. -/
def mapError (f : ε → ε') : Outcome ε α → Outcome ε' α
  | .value a => .value a
  | .error e => .error (f e)
  | .fault => .fault

/-- A fault-free result. -/
def ofExcept : Except ε α → Outcome ε α
  | .ok a => .value a
  | .error e => .error e

/-- Whether the computation broke off. -/
def isFault : Outcome ε α → Bool
  | .fault => true
  | _ => false

/-- A guard produces a value exactly when its condition holds. -/
@[simp] theorem require_eq_value_iff {c : Bool} {e : ε} {a : PUnit.{u + 1}} :
    require c e = .value a ↔ c = true := by
  unfold require
  split <;> simp_all

/-- A guard never faults. -/
@[simp] theorem require_ne_fault (c : Bool) (e : ε) :
    (require c e : Outcome ε PUnit.{u + 1}) ≠ .fault := by
  unfold require
  split <;> simp

end Outcome

end FlatNet
