import FlatNet.Outcome

/-!
Sizes and offsets of a 64-bit machine.

Sizes are natural numbers.  Sums, products and differences that the machine would form in
64 bits go through this module: the faulting forms end in `Outcome.fault` when the exact
result leaves the range, and the partial forms answer `none` there.

* `Size.bound`: the first number that is not a size;
* `Size.add`, `Size.mul`, `Size.sub`, `Size.divCeil`: faulting arithmetic;
* `Size.mul?`, `Size.product?`: partial products, multiplied from left to right;
* `Size.product`: the faulting product of a list.
-/

namespace FlatNet.Size

variable {ε : Type}

/-- Sizes are the numbers below `2 ^ 64`. -/
def bound : Nat := 0x10000000000000000

/-! ### Faulting arithmetic -/

/-- A number as a size: out of range is a fault. -/
def checked (n : Nat) : Outcome ε Nat :=
  if n < bound then .value n else .fault

/-- The sum, if it is a size. -/
def add (a b : Nat) : Outcome ε Nat := checked (a + b)

/-- The product, if it is a size. -/
def mul (a b : Nat) : Outcome ε Nat := checked (a * b)

/-- The difference, if it is not negative. -/
def sub (a b : Nat) : Outcome ε Nat :=
  if b ≤ a then .value (a - b) else .fault

/-- The quotient rounded up; there is none by zero. -/
def divCeil (a b : Nat) : Outcome ε Nat :=
  if b = 0 then .fault else .value ((a + b - 1) / b)

/-- The quotient rounded down; there is none by zero. -/
def div (a b : Nat) : Outcome ε Nat :=
  if b = 0 then .fault else .value (a / b)

/-- The product of a list, formed from left to right. -/
def product (dims : List Nat) : Outcome ε Nat := dims.foldlM mul 1

/-- The sum of a list, formed from left to right. -/
def sum (parts : List Nat) : Outcome ε Nat := parts.foldlM add 0

/-! ### Partial arithmetic -/

/-- The sum, or `none` if it is no size. -/
def add? (a b : Nat) : Option Nat :=
  if a + b < bound then some (a + b) else none

/-- The product, or `none` if it is no size. -/
def mul? (a b : Nat) : Option Nat :=
  if a * b < bound then some (a * b) else none

/-- The product of `start` and a list, formed from left to right; `none` as soon as a
partial product is no size, even if a later factor is zero. -/
def product? (start : Nat) (dims : List Nat) : Option Nat := dims.foldlM mul? start

/-! ### When the forms succeed -/

@[simp] theorem checked_eq_value_iff {n m : Nat} :
    (checked n : Outcome ε Nat) = .value m ↔ n < bound ∧ n = m := by
  unfold checked
  split
  · rename_i small
    exact ⟨fun h => ⟨small, Outcome.value.inj h⟩, fun h => congrArg Outcome.value h.2⟩
  · rename_i large
    exact ⟨nofun, fun h => absurd h.1 large⟩

@[simp] theorem checked_ne_error {n : Nat} {e : ε} : checked n ≠ .error e := by
  unfold checked
  split <;> simp

@[simp] theorem mul?_eq_some_iff {a b c : Nat} : mul? a b = some c ↔ a * b < bound ∧ a * b = c := by
  unfold mul?
  split
  · rename_i small
    exact ⟨fun h => ⟨small, Option.some.inj h⟩, fun h => congrArg some h.2⟩
  · rename_i large
    exact ⟨nofun, fun h => absurd h.1 large⟩

end FlatNet.Size
