import Rynmesh.TaskBalance

/-!
# Amounts as the code keeps them

An amount of the task balance is a double that `_amount` returned: it is rounded
to eight digits, and every sum and difference is rounded twice, to a double and
to eight digits of it.  `Amount` carries this as its invariant, so that `_amount`
of a stored amount is the amount itself.
-/

namespace TaskBalance

/-- A non-negative double that is rounded to eight digits. -/
structure Amount where
  value : ℚ
  nonneg : 0 ≤ value
  rounded : Rounding.roundTo 8 value = some value

namespace Amount

@[ext] theorem ext {a b : Amount} (h : a.value = b.value) : a = b := by
  cases a
  cases b
  cases h
  rfl

instance : DecidableEq Amount := fun _ _ => decidable_of_iff _ Amount.ext_iff.symm

instance : Zero Amount := ⟨0, le_refl 0, by decide +kernel⟩

instance : LE Amount := ⟨fun a b => a.value ≤ b.value⟩

instance : DecidableLE Amount := fun a b => inferInstanceAs (Decidable (a.value ≤ b.value))

/-- The places of an amount are within what a double distinguishes below one. -/
theorem rounded_of {q v : ℚ} (h : Rounding.roundTo 8 q = some v) : Rounding.roundTo 8 v = some v :=
  Rounding.roundTo_roundTo (by norm_num) h

/-- `_amount` of a finite float. -/
def of (q : ℚ) : Option Amount :=
  match h : Rounding.roundTo 8 q with
  | none => none
  | some value => if nonneg : 0 ≤ value then some ⟨value, nonneg, rounded_of h⟩ else none

/-- A stored amount is its own `_amount`. -/
theorem of_value (a : Amount) : of a.value = some a := by
  unfold of
  split
  · next h => cases h.symm.trans a.rounded
  · next value h =>
    obtain rfl := Option.mem_unique h a.rounded
    rw [dif_pos a.nonneg]

theorem nearest_value (a : Amount) : Rounding.nearest a.value = some a.value :=
  Rounding.nearest_nearest a.rounded

/-- A sum or a difference of doubles, and its `_amount`. -/
def compute (q : ℚ) : Option Amount := (Rounding.nearest q).bind of

instance : Arithmetic Amount where
  amount := of
  plus a b := compute (a.value + b.value)
  minus a b := compute (a.value - b.value)
  amount_nonneg {_ a} _ := a.nonneg
  zero_plus {a} _ := by
    show compute (0 + a.value) = some a
    rw [compute, zero_add, a.nearest_value]
    exact a.of_value

/-- A tenth is kept as the double nearest to it. -/
example : (of (1 / 10)).map Amount.value = some (3602879701896397 / 2 ^ 55) := by decide +kernel

end Amount

end TaskBalance
