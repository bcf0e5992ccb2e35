import Mathlib.Algebra.Order.Ring.Abs
import Mathlib.Data.Nat.Digits.Lemmas
import Mathlib.Data.Rat.Floor
import Mathlib.Tactic.Linarith
import Mathlib.Tactic.Positivity
import Mathlib.Tactic.Ring

/-!
# Decimal numbers of bounded precision

A number is a coefficient times a power of ten.  `round` brings it to a number
of significant digits, half to even, on a grid that is not finer than `tiny`.

* `roundHalfEven_error`, `roundHalfEven_even`: the nearest integer, and the even
  one on a tie;
* `round_integer`: an integer stays what it is;
* `round_integer_iff`: the rounded number is an integer exactly when an integer
  lies within half a unit of the last digit.
-/

namespace DecimalFloat

/-! ### Half to even -/

/-- `n / d` rounded to the nearest integer, half to even. -/
def roundHalfEven (n d : Nat) : Nat :=
  if d < 2 * (n % d) ∨ 2 * (n % d) = d ∧ n / d % 2 = 1 then n / d + 1 else n / d

theorem roundHalfEven_error {n d : Nat} (hd : 0 < d) :
    2 * n ≤ 2 * (roundHalfEven n d * d) + d ∧ 2 * (roundHalfEven n d * d) ≤ 2 * n + d := by
  have hdiv := Nat.div_add_mod n d
  have hmod := Nat.mod_lt n hd
  rw [Nat.mul_comm d] at hdiv
  unfold roundHalfEven
  split
  · rw [Nat.add_mul, Nat.one_mul]
    omega
  · omega

theorem roundHalfEven_zero {d : Nat} (hd : 0 < d) : roundHalfEven 0 d = 0 := by
  unfold roundHalfEven
  rw [Nat.zero_mod, Nat.zero_div, if_neg (by omega)]

theorem roundHalfEven_even {n d k : Nat} (hd : 0 < d) (heven : k % 2 = 0)
    (hlow : 2 * n ≤ 2 * (k * d) + d) (hhigh : 2 * (k * d) ≤ 2 * n + d) :
    roundHalfEven n d = k := by
  have hdiv := Nat.div_add_mod n d
  have hmod := Nat.mod_lt n hd
  rw [Nat.mul_comm d] at hdiv
  have hk : k = n / d ∨ k = n / d + 1 := by
    have hge : n / d ≤ k := by
      by_contra hlt
      have hle : (k + 1) * d ≤ n / d * d := Nat.mul_le_mul_right d (by omega)
      rw [Nat.add_mul, Nat.one_mul] at hle
      omega
    have hle : k ≤ n / d + 1 := by
      by_contra hlt
      have hge : (n / d + 2) * d ≤ k * d := Nat.mul_le_mul_right d (by omega)
      rw [Nat.add_mul] at hge
      omega
    omega
  unfold roundHalfEven
  rcases hk with hk | hk
  · rw [hk] at hlow hhigh heven
    split
    · omega
    · exact hk.symm
  · rw [hk, Nat.add_mul, Nat.one_mul] at hlow hhigh
    split
    · exact hk.symm
    · omega

/-! ### Numbers -/

/-- `coefficient * 10 ^ exponent`. -/
structure Number where
  coefficient : Nat
  exponent : Int
  deriving DecidableEq

def Number.value (x : Number) : ℚ := x.coefficient * 10 ^ x.exponent

def digits (n : Nat) : Nat := (Nat.digits 10 n).length

/-- The exponent of a number of `precision` digits whose first digit is that of `x`. -/
def Number.grid (precision : Nat) (tiny : Int) (x : Number) : Int :=
  max (digits x.coefficient + x.exponent - precision) tiny

/-- `x` with at most `precision` digits, on a grid that is not finer than `10 ^ tiny`. -/
def Number.round (precision : Nat) (tiny : Int) (x : Number) : Number :=
  if x.exponent < x.grid precision tiny then
    ⟨roundHalfEven x.coefficient (10 ^ (x.grid precision tiny - x.exponent).toNat),
      x.grid precision tiny⟩
  else x

theorem ten_pos (n : Int) : (0 : ℚ) < 10 ^ n := zpow_pos (by norm_num) n

variable {x : Number}

theorem Number.value_bounds (h : 0 < x.coefficient) :
    (10 : ℚ) ^ (digits x.coefficient + x.exponent - 1) ≤ x.value ∧
      x.value < (10 : ℚ) ^ (digits x.coefficient + x.exponent) := by
  have hlow := Nat.base_pow_length_digits_le 10 x.coefficient (by decide) (by omega)
  have hhigh : x.coefficient < 10 ^ digits x.coefficient :=
    Nat.lt_base_pow_length_digits (by decide)
  have hten := ten_pos x.exponent
  have hlow' : (10 : ℚ) ^ digits x.coefficient ≤ 10 * x.coefficient := by exact_mod_cast hlow
  have hhigh' : (x.coefficient : ℚ) < 10 ^ digits x.coefficient := by exact_mod_cast hhigh
  unfold Number.value
  rw [zpow_sub₀ (by norm_num), zpow_add₀ (by norm_num), zpow_natCast, zpow_one]
  constructor
  · rw [div_le_iff₀ (by norm_num)]
    have := mul_le_mul_of_nonneg_right hlow' hten.le
    linarith
  · exact mul_lt_mul_of_pos_right hhigh' hten

/-- The number of digits before the point is determined by the value. -/
theorem scale_unique {x : ℚ} {a b : Int} (ha : (10 : ℚ) ^ (a - 1) ≤ x) (ha' : x < 10 ^ a)
    (hb : (10 : ℚ) ^ (b - 1) ≤ x) (hb' : x < 10 ^ b) : a = b := by
  have hlt : ∀ {m n : Int}, (10 : ℚ) ^ (m - 1) ≤ x → x < 10 ^ n → m - 1 < n := by
    intro m n hm hn
    exact (zpow_lt_zpow_iff_right₀ (by norm_num)).mp (lt_of_le_of_lt hm hn)
  have h1 := hlt ha hb'
  have h2 := hlt hb ha'
  omega

variable {precision : Nat} {tiny : Int}

theorem Number.round_units (h : x.exponent < x.grid precision tiny) :
    (x.round precision tiny).value =
        roundHalfEven x.coefficient (10 ^ (x.grid precision tiny - x.exponent).toNat) *
          10 ^ x.grid precision tiny ∧
      (10 : ℚ) ^ x.grid precision tiny =
        (10 ^ (x.grid precision tiny - x.exponent).toNat : Nat) * 10 ^ x.exponent := by
  constructor
  · unfold Number.round
    rw [if_pos h]
    rfl
  · push_cast
    rw [← zpow_natCast, ← zpow_add₀ (by norm_num), Int.toNat_of_nonneg (by omega)]
    congr 1
    omega

theorem Number.round_zero (h : x.coefficient = 0) : (x.round precision tiny).value = 0 := by
  unfold Number.round
  split
  · unfold Number.value
    rw [h, roundHalfEven_zero (by positivity)]
    simp
  · unfold Number.value
    rw [h]
    simp

/-- A rounded number lies within half a unit of its last digit. -/
theorem Number.round_error (x : Number) :
    |x.value - (x.round precision tiny).value| ≤ 10 ^ x.grid precision tiny / 2 := by
  by_cases h : x.exponent < x.grid precision tiny
  · obtain ⟨hround, hunit⟩ := x.round_units h
    generalize hdrop : 10 ^ (x.grid precision tiny - x.exponent).toNat = drop at hround hunit
    have hpos : 0 < drop := by
      rw [← hdrop]
      positivity
    obtain ⟨hlow, hhigh⟩ := roundHalfEven_error (n := x.coefficient) hpos
    have hlow' :
      (2 : ℚ) * x.coefficient ≤ 2 * (roundHalfEven x.coefficient drop * drop) + drop := by
      exact_mod_cast hlow
    have hhigh' :
      (2 : ℚ) * (roundHalfEven x.coefficient drop * drop) ≤ 2 * x.coefficient + drop := by
      exact_mod_cast hhigh
    have hten := ten_pos x.exponent
    rw [hround, hunit, Number.value, abs_le]
    constructor
    · have := mul_le_mul_of_nonneg_right hhigh' hten.le
      linarith
    · have := mul_le_mul_of_nonneg_right hlow' hten.le
      linarith
  · have hsame : x.round precision tiny = x := by
      unfold Number.round
      rw [if_neg h]
    rw [hsame, sub_self, abs_zero]
    have hten := ten_pos (x.grid precision tiny)
    linarith

/-- An integer within half a unit of the last digit is what a number is rounded to: it is a
multiple of ten units, so it is even on the grid. -/
theorem Number.round_near (hgrid : x.grid precision tiny < 0)
    (h : x.exponent < x.grid precision tiny) {k : Int}
    (hnear : |x.value - k| ≤ 10 ^ x.grid precision tiny / 2) :
    (x.round precision tiny).value = k := by
  obtain ⟨hround, hunit⟩ := x.round_units h
  generalize hdrop : 10 ^ (x.grid precision tiny - x.exponent).toNat = drop at hround hunit
  have hpos : 0 < drop := by
    rw [← hdrop]
    positivity
  have hten := ten_pos x.exponent
  -- the integer counted in units of the grid
  obtain ⟨m, hm⟩ : ∃ m : Nat, -x.grid precision tiny = m + 1 :=
    ⟨(-x.grid precision tiny - 1).toNat, by omega⟩
  have hscale : (10 : ℚ) ^ (m + 1) * 10 ^ x.grid precision tiny = 1 := by
    rw [← zpow_natCast, ← zpow_add₀ (by norm_num)]
    push_cast
    rw [show (m : Int) + 1 + x.grid precision tiny = 0 by omega, zpow_zero]
  have hscale' : (10 : ℚ) ^ (m + 1) * (drop * 10 ^ x.exponent) = 1 := by
    rw [← hunit]
    exact hscale
  have hvalue : x.value = x.coefficient * 10 ^ x.exponent := rfl
  have hkunits : (k : ℚ) = k * 10 ^ (m + 1) * drop * 10 ^ x.exponent := by
    rw [mul_assoc, mul_assoc, hscale', mul_one]
  rw [hunit, hvalue, hkunits, ← sub_mul, abs_mul, abs_of_pos hten,
    show (drop : ℚ) * 10 ^ x.exponent / 2 = drop / 2 * 10 ^ x.exponent by ring] at hnear
  have hnear := le_of_mul_le_mul_right hnear hten
  rw [abs_le] at hnear
  have hlow : 2 * (x.coefficient : ℚ) ≤ 2 * (k * 10 ^ (m + 1) * drop) + drop := by linarith
  have hhigh : 2 * ((k : ℚ) * 10 ^ (m + 1) * drop) ≤ 2 * x.coefficient + drop := by linarith
  have hlow : 2 * (x.coefficient : Int) ≤ 2 * (k * 10 ^ (m + 1) * drop) + drop := by
    exact_mod_cast hlow
  have hk : 0 ≤ k := by
    by_contra hneg
    have hle : k * (10 ^ (m + 1) * drop) ≤ -1 * (10 ^ (m + 1) * drop) :=
      mul_le_mul_of_nonneg_right (by omega) (by positivity)
    have hone : (1 : Int) * drop ≤ 10 ^ (m + 1) * drop :=
      mul_le_mul_of_nonneg_right (one_le_pow₀ (by norm_num)) (by positivity)
    rw [← mul_assoc] at hle
    omega
  obtain ⟨n, hn⟩ := Int.eq_ofNat_of_zero_le hk
  rw [hn] at hlow hhigh
  have heven : n * 10 ^ (m + 1) % 2 = 0 := by
    rw [pow_succ, ← mul_assoc]
    omega
  have hrounded := roundHalfEven_even hpos heven (by exact_mod_cast hlow) (by exact_mod_cast hhigh)
  rw [hround, hrounded, hn]
  push_cast
  rw [mul_assoc, hscale, mul_one]

theorem Number.round_integer (hgrid : x.grid precision tiny < 0) {k : Int} (h : x.value = k) :
    (x.round precision tiny).value = k := by
  by_cases hexponent : x.exponent < x.grid precision tiny
  · refine x.round_near hgrid hexponent ?_
    rw [h, sub_self, abs_zero]
    have hten := ten_pos (x.grid precision tiny)
    linarith
  · unfold Number.round
    rw [if_neg hexponent]
    exact h

theorem Number.near_integer (hgrid : x.grid precision tiny < 0)
    (h : ¬ x.exponent < x.grid precision tiny) {k : Int}
    (hnear : |x.value - k| ≤ 10 ^ x.grid precision tiny / 2) : x.value = k := by
  have hten := ten_pos (x.grid precision tiny)
  -- both numbers are whole units of the grid
  have hx : x.value = (x.coefficient * 10 ^ (x.exponent - x.grid precision tiny).toNat : Int) *
      10 ^ x.grid precision tiny := by
    unfold Number.value
    push_cast
    rw [mul_assoc, ← zpow_natCast, ← zpow_add₀ (by norm_num), Int.toNat_of_nonneg (by omega)]
    congr 2
    omega
  have hk : (k : ℚ) = (k * 10 ^ (-x.grid precision tiny).toNat : Int) *
      10 ^ x.grid precision tiny := by
    push_cast
    rw [mul_assoc, ← zpow_natCast, ← zpow_add₀ (by norm_num), Int.toNat_of_nonneg (by omega),
      neg_add_cancel, zpow_zero, mul_one]
  rw [hx, hk, ← sub_mul, abs_mul, abs_of_pos hten, div_eq_inv_mul] at hnear
  have hnear := le_of_mul_le_mul_right hnear hten
  generalize (x.coefficient * 10 ^ (x.exponent - x.grid precision tiny).toNat : Int) = a
    at hx hnear
  generalize (k * 10 ^ (-x.grid precision tiny).toNat : Int) = b at hk hnear
  have hab : a = b := by
    have hlt : |((a - b : Int) : ℚ)| < 1 := by
      push_cast
      exact lt_of_le_of_lt hnear (by norm_num)
    have hlt : |a - b| < 1 := by exact_mod_cast hlt
    have hzero := Int.abs_lt_one_iff.mp hlt
    omega
  rw [hx, hk, hab]

/-- A rounded number is an integer exactly when one lies within half a unit of its last digit. -/
theorem Number.round_integer_iff (hgrid : x.grid precision tiny < 0) :
    (∃ k : Int, (x.round precision tiny).value = k) ↔
      ∃ k : Int, |x.value - k| ≤ 10 ^ x.grid precision tiny / 2 := by
  constructor
  · rintro ⟨k, hk⟩
    refine ⟨k, ?_⟩
    rw [← hk]
    exact x.round_error
  · rintro ⟨k, hk⟩
    by_cases hexponent : x.exponent < x.grid precision tiny
    · exact ⟨k, x.round_near hgrid hexponent hk⟩
    · exact ⟨k, x.round_integer hgrid (x.near_integer hgrid hexponent hk)⟩

end DecimalFloat
