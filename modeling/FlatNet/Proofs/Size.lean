import FlatNet.Proofs.Outcome
import FlatNet.Size

/-!
Values of size arithmetic.

Faulting arithmetic never refuses, and a value of it is the exact result.  The partial
product of factors other than zero is missing only if the whole product is no size.

* `Size.add_ends`, `Size.mul_ends`, `Size.product_ends`: the exact results;
* `Size.sum_eq_value_iff`: when the sum of a list is there;
* `Size.product?_eq_some_iff`: when the partial product is there;
* `Size.row_add_lt`, `Size.row_of_place`: places in a table of rows.
-/

namespace FlatNet.Size

open Outcome (Ends)

variable {ε : Type} {P : ε → Prop}

lemma checked_ends (n : Nat) : (checked n : Outcome ε Nat).Ends (fun m => n < bound ∧ m = n) P := by
  unfold checked
  split
  · rename_i small
    exact ⟨small, rfl⟩
  · trivial

lemma checked_eq_fault_iff {n : Nat} : (checked n : Outcome ε Nat) = .fault ↔ bound ≤ n := by
  unfold checked
  split <;> simp_all

lemma add_ends (a b : Nat) :
    (add a b : Outcome ε Nat).Ends (fun n => a + b < bound ∧ n = a + b) P := checked_ends _

lemma mul_ends (a b : Nat) :
    (mul a b : Outcome ε Nat).Ends (fun n => a * b < bound ∧ n = a * b) P := checked_ends _

lemma sub_ends (a b : Nat) : (sub a b : Outcome ε Nat).Ends (fun n => n = a - b) P := by
  unfold sub
  split <;> trivial

lemma div_ends (a b : Nat) : (div a b : Outcome ε Nat).Ends (fun n => n = a / b) P := by
  unfold div
  split <;> trivial

lemma divCeil_ends (a b : Nat) :
    (divCeil a b : Outcome ε Nat).Ends (fun n => n = (a + b - 1) / b) P := by
  unfold divCeil
  split <;> trivial

@[simp] lemma add_eq_value_iff {a b n : Nat} :
    (add a b : Outcome ε Nat) = .value n ↔ a + b < bound ∧ a + b = n := checked_eq_value_iff

@[simp] lemma mul_eq_value_iff {a b n : Nat} :
    (mul a b : Outcome ε Nat) = .value n ↔ a * b < bound ∧ a * b = n := checked_eq_value_iff

/-! ### Lists -/

lemma foldlM_mul_ends (start : Nat) (dims : List Nat) :
    (dims.foldlM mul start : Outcome ε Nat).Ends (fun n => n = dims.foldl (· * ·) start) P := by
  induction dims generalizing start with
  | nil => rfl
  | cons d dims ih =>
    rw [List.foldlM_cons, List.foldl_cons]
    refine (mul_ends start d).bind ?_
    rintro _ ⟨-, rfl⟩
    exact ih _

/-- A product is exact. -/
lemma product_ends (dims : List Nat) :
    (product dims : Outcome ε Nat).Ends (fun n => n = dims.foldl (· * ·) 1) P :=
  foldlM_mul_ends 1 dims

lemma foldlM_add_ends (start : Nat) (parts : List Nat) :
    (parts.foldlM add start : Outcome ε Nat).Ends (fun n => n = parts.foldl (· + ·) start) P := by
  induction parts generalizing start with
  | nil => rfl
  | cons d parts ih =>
    rw [List.foldlM_cons, List.foldl_cons]
    refine (add_ends start d).bind ?_
    rintro _ ⟨-, rfl⟩
    exact ih _

/-- A sum is exact. -/
lemma sum_ends (parts : List Nat) :
    (sum parts : Outcome ε Nat).Ends (fun n => n = parts.foldl (· + ·) 0) P :=
  foldlM_add_ends 0 parts

/-- A sum of sizes is exact, or no size. -/
lemma foldlM_add_eq (start : Nat) (small : start < bound) (parts : List Nat) :
    (parts.foldlM add start : Outcome ε Nat) = checked (start + parts.sum) := by
  induction parts generalizing start with
  | nil => exact (checked_eq_value_iff.2 ⟨small, rfl⟩).symm
  | cons n parts ih =>
    rw [List.foldlM_cons, List.sum_cons, ← Nat.add_assoc]
    by_cases fits : start + n < bound
    · rw [add, checked, if_pos fits, Outcome.value_bind, ih _ fits]
    · rw [add, checked, if_neg fits, Outcome.fault_bind, eq_comm, checked_eq_fault_iff]
      omega

/-- The sum of a list is there exactly if it is a size. -/
lemma sum_eq_value_iff {parts : List Nat} {n : Nat} :
    (sum parts : Outcome ε Nat) = .value n ↔ parts.sum < bound ∧ parts.sum = n := by
  rw [sum, foldlM_add_eq 0 (by decide), Nat.zero_add, checked_eq_value_iff]

/-- A sum from the left starts with its first number. -/
lemma foldl_add (start : Nat) (parts : List Nat) :
    parts.foldl (· + ·) start = start + parts.foldl (· + ·) 0 := by
  induction parts generalizing start with
  | nil => rfl
  | cons n parts ih =>
    rw [List.foldl_cons, List.foldl_cons, ih, ih (0 + n)]
    omega

/-- A partial product is exact. -/
lemma foldl_mul_of_product? {dims : List Nat} {start n : Nat} (h : product? start dims = some n) :
    dims.foldl (· * ·) start = n := by
  induction dims generalizing start with
  | nil => exact Option.some.inj h
  | cons d dims ih =>
    rw [product?, List.foldlM_cons, Option.bind_eq_bind, Option.bind_eq_some_iff] at h
    obtain ⟨_, first, h⟩ := h
    obtain ⟨-, rfl⟩ := mul?_eq_some_iff.1 first
    exact ih h

/-- The product of dimensions is a size exactly when the partial product is there. -/
lemma product_eq_value_iff {ε : Type} {dims : List Nat} {n : Nat} :
    (product dims : Outcome ε Nat) = .value n ↔ product? 1 dims = some n := by
  have general : ∀ start, (dims.foldlM mul start : Outcome ε Nat) = .value n ↔
      dims.foldlM mul? start = some n := by
    induction dims with
    | nil => simp
    | cons d dims ih =>
      intro start
      simp only [List.foldlM_cons, Outcome.bind_eq_value_iff, mul_eq_value_iff,
        Option.bind_eq_bind, Option.bind_eq_some_iff, mul?_eq_some_iff, ih]
  exact general 1

lemma le_foldl_mul {dims : List Nat} (h : 0 ∉ dims) (start : Nat) :
    start ≤ dims.foldl (· * ·) start := by
  induction dims generalizing start with
  | nil => exact le_refl start
  | cons d dims ih =>
    rw [List.mem_cons, not_or] at h
    have first : start ≤ start * d := Nat.le_mul_of_pos_right start (Nat.pos_of_ne_zero (Ne.symm h.1))
    exact le_trans first (ih h.2 _)

/-- A partial product of factors other than zero is there if the whole product is a size. -/
lemma product?_eq_some_iff {dims : List Nat} {start n : Nat} (pos : 0 ∉ dims)
    (small : start < bound) :
    product? start dims = some n ↔
      dims.foldl (· * ·) start < bound ∧ dims.foldl (· * ·) start = n := by
  induction dims generalizing start with
  | nil => simp [product?, small]
  | cons d dims ih =>
    rw [List.mem_cons, not_or] at pos
    have later := le_foldl_mul pos.2 (start * d)
    simp only [product?, List.foldlM_cons, List.foldl_cons, Option.bind_eq_bind,
      Option.bind_eq_some_iff, mul?_eq_some_iff]
    constructor
    · rintro ⟨_, ⟨fits, rfl⟩, h⟩
      exact (ih pos.2 fits).1 h
    · rintro ⟨fits, h⟩
      have first : start * d < bound := lt_of_le_of_lt later fits
      exact ⟨_, ⟨first, rfl⟩, (ih pos.2 first).2 ⟨fits, h⟩⟩

/-! ### Rows -/

/-- A place in a row of a table lies in the table. -/
lemma row_add_lt {row rows n length : Nat} (hrow : row < rows) (hn : n < length) :
    row * length + n < rows * length := by
  have next : (row + 1) * length ≤ rows * length := Nat.mul_le_mul_right length hrow
  rw [Nat.succ_mul] at next
  omega

/-- A place in a table tells its row and its place there. -/
lemma row_of_place (row : Nat) {n length : Nat} (hn : n < length) :
    (row * length + n) / length = row ∧ (row * length + n) % length = n := by
  have pos : 0 < length := Nat.zero_lt_of_lt hn
  rw [Nat.mul_comm, Nat.mul_add_div pos, Nat.div_eq_of_lt hn, Nat.mul_add_mod, Nat.mod_eq_of_lt hn]
  exact ⟨rfl, rfl⟩

end FlatNet.Size
