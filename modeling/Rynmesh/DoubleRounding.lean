import Mathlib.Data.Int.Log
import Mathlib.Data.Rat.Floor
import Mathlib.Tactic.FieldSimp
import Mathlib.Tactic.Linarith
import Mathlib.Tactic.Positivity
import Mathlib.Tactic.Ring

/-!
# Rounding to doubles and to decimal places

Rational numbers stand for the values of finite doubles.

* `roundHalfEven` is the nearest integer, and of two the even one;
* `nearest` is the nearest double, on the grid of the binade of a number;
* `nearest_near`: a number near an inner point of a grid is rounded to it;
* `roundTo` rounds to decimal places and to a double again, and
  `roundTo_roundTo` says that doing it twice changes nothing.
-/

namespace Rounding

/-! ### To an integer -/

/-- `round` to an integer: the nearest one, and of two the even one. -/
def roundHalfEven (q : ℚ) : Int :=
  if q - ⌊q⌋ < 1 / 2 then ⌊q⌋
  else if 1 / 2 < q - ⌊q⌋ then ⌊q⌋ + 1
  else if ⌊q⌋ % 2 = 0 then ⌊q⌋ else ⌊q⌋ + 1

theorem roundHalfEven_near {q : ℚ} {n : Int} (h : |q - n| < 1 / 2) : roundHalfEven q = n := by
  rw [abs_lt] at h
  by_cases hle : (n : ℚ) ≤ q
  · have hfloor : ⌊q⌋ = n := by
      rw [Int.floor_eq_iff]
      exact ⟨hle, by linarith⟩
    have hsmall : q - n < 1 / 2 := by linarith
    simp only [roundHalfEven, hfloor, if_pos hsmall]
  · have hfloor : ⌊q⌋ = n - 1 := by
      rw [Int.floor_eq_iff]
      push_cast
      exact ⟨by linarith, by linarith⟩
    have hlarge : ¬ q - ((n - 1 : Int) : ℚ) < 1 / 2 := by
      push_cast
      linarith
    have hhalf : 1 / 2 < q - ((n - 1 : Int) : ℚ) := by
      push_cast
      linarith
    simp only [roundHalfEven, hfloor, if_neg hlarge, if_pos hhalf]
    omega

theorem roundHalfEven_int (n : Int) : roundHalfEven n = n :=
  roundHalfEven_near (by simp)

/-- The nearest integer is at most one half away. -/
theorem roundHalfEven_error (q : ℚ) : |q - roundHalfEven q| ≤ 1 / 2 := by
  have hlow := Int.floor_le q
  have hhigh := Int.lt_floor_add_one q
  unfold roundHalfEven
  rw [abs_le]
  split_ifs
  all_goals
    push_cast
    constructor <;> linarith

variable {q v : ℚ}

theorem abs_roundHalfEven_le {n : Int} (h : |q| ≤ n) : |roundHalfEven q| ≤ n := by
  have herror := abs_le.mp (roundHalfEven_error q)
  obtain ⟨hlow, hhigh⟩ := abs_le.mp h
  rw [abs_le]
  constructor
  · have hreal : ((-n - 1 : Int) : ℚ) < roundHalfEven q := by
      push_cast
      linarith [herror.2]
    have := Int.cast_lt.mp hreal
    omega
  · have hreal : (roundHalfEven q : ℚ) < (n + 1 : Int) := by
      push_cast
      linarith [herror.1]
    have := Int.cast_lt.mp hreal
    omega

theorem le_abs_roundHalfEven {n : Int} (h : n ≤ |q|) : n ≤ |roundHalfEven q| := by
  have herror := roundHalfEven_error q
  have hsplit := abs_sub_abs_le_abs_sub q (roundHalfEven q)
  have hreal : ((n - 1 : Int) : ℚ) < |roundHalfEven q| := by
    push_cast
    linarith
  have := Int.cast_lt.mp hreal
  omega

/-! ### To a double -/

/-- The exponent of the last bit of the doubles around a number. -/
def grid (q : ℚ) : Int := max (Int.log 2 |q| - 52) (-1074)

/-- The double nearest to a number, of two the even one, and none past the largest. -/
def nearest (q : ℚ) : Option ℚ :=
  let value : ℚ := roundHalfEven (q / 2 ^ grid q) * 2 ^ grid q
  if |value| < 2 ^ 1024 then some value else none

theorem two_zpow_pos (e : Int) : (0 : ℚ) < 2 ^ e := zpow_pos (by norm_num) e

theorem two_zpow_add (a b : Int) : (2 : ℚ) ^ (a + b) = 2 ^ a * 2 ^ b := zpow_add₀ (by norm_num) a b

/-- A number is below the upper end of its grid. -/
theorem abs_lt_grid (q : ℚ) : |q| < 2 ^ 53 * 2 ^ grid q := by
  have hlog : |q| < 2 ^ (Int.log 2 |q| + 1) := by
    exact_mod_cast Int.lt_zpow_succ_log_self (by norm_num : 1 < 2) |q|
  have hgrid : Int.log 2 |q| + 1 ≤ 53 + grid q := by
    unfold grid
    omega
  calc |q| < 2 ^ (Int.log 2 |q| + 1) := hlog
    _ ≤ 2 ^ (53 + grid q) := zpow_le_zpow_right₀ (by norm_num) hgrid
    _ = 2 ^ 53 * 2 ^ grid q := by rw [two_zpow_add]; norm_num

/-- What the nearest double is. -/
theorem nearest_some (h : nearest q = some v) :
    v = roundHalfEven (q / 2 ^ grid q) * 2 ^ grid q ∧ |v| < 2 ^ 1024 ∧
      |roundHalfEven (q / 2 ^ grid q)| ≤ 2 ^ 53 ∧ |q - v| ≤ 2 ^ grid q / 2 := by
  have hpos := two_zpow_pos (grid q)
  simp only [nearest] at h
  split at h
  · next hsmall =>
    obtain rfl := Option.some.inj h
    refine ⟨rfl, hsmall, abs_roundHalfEven_le ?_, ?_⟩
    · rw [abs_div, abs_of_pos hpos, div_le_iff₀ hpos]
      exact_mod_cast (abs_lt_grid q).le
    · have herror := roundHalfEven_error (q / 2 ^ grid q)
      have hscale : q - roundHalfEven (q / 2 ^ grid q) * 2 ^ grid q =
          (q / 2 ^ grid q - roundHalfEven (q / 2 ^ grid q)) * 2 ^ grid q := by
        field_simp
      rw [hscale, abs_mul, abs_of_pos hpos]
      nlinarith
  · cases h

/-- A multiple of its grid is its own double. -/
theorem nearest_of_grid {n : Int} (h : v = n * 2 ^ grid v) (hsmall : |v| < 2 ^ 1024) :
    nearest v = some v := by
  have hround : roundHalfEven (v / 2 ^ grid v) = n := by
    have hdiv : v / 2 ^ grid v = n := by
      rw [div_eq_iff (two_zpow_pos _).ne']
      exact h
    rw [hdiv, roundHalfEven_int]
  unfold nearest
  simp only [hround, ← h, if_pos hsmall]

theorem log_lt {e : Int} (hq : q ≠ 0) (h : |q| < 2 ^ e) : Int.log 2 |q| < e := by
  have hpos : 0 < |q| := abs_pos.mpr hq
  exact (Int.lt_zpow_iff_log_lt (by norm_num) hpos).mp (by exact_mod_cast h)

theorem nearest_of_lt {m e : Int} (hv : v = m * 2 ^ e) (hm : |m| < 2 ^ 53) (he : -1074 ≤ e)
    (hsmall : |v| < 2 ^ 1024) : nearest v = some v := by
  by_cases hzero : v = 0
  · refine nearest_of_grid (n := 0) ?_ hsmall
    rw [hzero, Int.cast_zero, zero_mul]
  have hbound : |v| < 2 ^ (53 + e) := by
    rw [hv, abs_mul, abs_of_pos (two_zpow_pos e), two_zpow_add]
    refine mul_lt_mul_of_pos_right ?_ (two_zpow_pos e)
    exact_mod_cast hm
  have hgrid : grid v ≤ e := by
    have hlog := log_lt hzero hbound
    unfold grid
    omega
  refine nearest_of_grid (n := m * 2 ^ (e - grid v).toNat) ?_ hsmall
  have hsplit : (2 : ℚ) ^ e = 2 ^ (e - grid v).toNat * 2 ^ grid v := by
    rw [← zpow_natCast, Int.toNat_of_nonneg (by omega), ← two_zpow_add]
    congr 1
    omega
  push_cast
  rw [mul_assoc, ← hsplit]
  exact hv

/-- A double is its own nearest double. -/
theorem nearest_nearest (h : nearest q = some v) : nearest v = some v := by
  obtain ⟨hv, hsmall, hm, -⟩ := nearest_some h
  have hgrid : -1074 ≤ grid q := le_max_right _ _
  generalize roundHalfEven (q / 2 ^ grid q) = m at hv hm
  rcases lt_or_eq_of_le hm with hlt | heq
  · exact nearest_of_lt hv hlt hgrid hsmall
  · -- the upper end of the grid is on the next one
    have hhalf : m = m / 2 * 2 := by
      rcases abs_eq (by norm_num : (0 : Int) ≤ 2 ^ 53) |>.mp heq with rfl | rfl <;> norm_num
    refine nearest_of_lt (m := m / 2) (e := 1 + grid q) ?_ ?_ (by omega) hsmall
    · rw [two_zpow_add, ← mul_assoc, hv]
      congr 1
      exact_mod_cast hhalf
    · rcases abs_eq (by norm_num : (0 : Int) ≤ 2 ^ 53) |>.mp heq with rfl | rfl <;> norm_num

/-- A number near an inner point of a grid is rounded to it. -/
theorem nearest_near {m e : Int} (hv : v = m * 2 ^ e) (hlow : 2 ^ 52 < |m|) (hhigh : |m| < 2 ^ 53)
    (he : -1074 ≤ e) (hsmall : |v| < 2 ^ 1024) (hq : |q - v| < 2 ^ e / 2) :
    nearest q = some v := by
  have hpos := two_zpow_pos e
  have habs : |v| = |m| * 2 ^ e := by rw [hv, abs_mul, abs_of_pos hpos, Int.cast_abs]
  have hsplit := abs_sub_abs_le_abs_sub q v
  have hsplit' := abs_sub_abs_le_abs_sub v q
  rw [abs_sub_comm v q] at hsplit'
  have hm : (2 : ℚ) ^ 52 + 1 ≤ (|m| : Int) := by exact_mod_cast hlow
  have hm' : ((|m| : Int) : ℚ) + 1 ≤ 2 ^ 53 := by exact_mod_cast hhigh
  have hge : (2 : ℚ) ^ (52 + e) ≤ |q| := by
    have hmul := mul_le_mul_of_nonneg_right hm hpos.le
    calc (2 : ℚ) ^ (52 + e) = 2 ^ 52 * 2 ^ e := by rw [two_zpow_add]; norm_num
      _ ≤ |q| := by linarith
  have hlt : |q| < (2 : ℚ) ^ (53 + e) := by
    have hmul := mul_le_mul_of_nonneg_right hm' hpos.le
    calc |q| < 2 ^ 53 * 2 ^ e := by linarith
      _ = (2 : ℚ) ^ (53 + e) := by rw [two_zpow_add]; norm_num
  have hne : q ≠ 0 := by
    rintro rfl
    exact absurd hge (not_le_of_gt (two_zpow_pos _))
  have hlog : Int.log 2 |q| = 52 + e := by
    have hupper := log_lt hne hlt
    have hlower : 52 + e ≤ Int.log 2 |q| :=
      (Int.zpow_le_iff_le_log (by norm_num) (abs_pos.mpr hne)).mp (by exact_mod_cast hge)
    omega
  have hgrid : grid q = e := by
    unfold grid
    omega
  have hround : roundHalfEven (q / 2 ^ e) = m := by
    refine roundHalfEven_near ?_
    have hscale : q / 2 ^ e - m = (q - v) / 2 ^ e := by
      rw [hv]
      field_simp
    rw [hscale, abs_div, abs_of_pos hpos, div_lt_iff₀ hpos]
    linarith
  unfold nearest
  simp only [hgrid, hround, ← hv, if_pos hsmall]

/-! ### To decimal places -/

/-- `round` of a double to decimal places: the double nearest to the decimal nearest to it. -/
def roundTo (places : Nat) (q : ℚ) : Option ℚ :=
  nearest (roundHalfEven (q * 10 ^ places) / 10 ^ places)

variable {places : Nat}

theorem roundTo_of_decimal {n : Int} (h : v * 10 ^ places = n) (hv : nearest v = some v) :
    roundTo places v = some v := by
  have hpos : (0 : ℚ) < 10 ^ places := by positivity
  have hdiv : (n : ℚ) / 10 ^ places = v := by
    rw [div_eq_iff hpos.ne']
    exact h.symm
  rw [roundTo, h, roundHalfEven_int, hdiv, hv]

/-- **Rounding to decimal places twice changes nothing**, up to 15 places. -/
theorem roundTo_roundTo (hplaces : (10 : ℚ) ^ places < 2 ^ 52) (h : roundTo places q = some v) :
    roundTo places v = some v := by
  have hten : (0 : ℚ) < 10 ^ places := by positivity
  unfold roundTo at h
  generalize hdecimal : (roundHalfEven (q * 10 ^ places) : ℚ) / 10 ^ places = d at h
  obtain ⟨hv, hsmall, hm, herror⟩ := nearest_some h
  by_cases hclose : |v * 10 ^ places - roundHalfEven (q * 10 ^ places)| < 1 / 2
  · -- the decimal is found again
    rw [roundTo, roundHalfEven_near hclose, hdecimal]
    exact h
  by_cases hint : ∃ n : Int, v * 10 ^ places = n
  · obtain ⟨n, hn⟩ := hint
    exact roundTo_of_decimal hn (nearest_nearest h)
  -- the grid is coarser than the decimals, and the double an inner point of it
  have hfar : 1 / 2 ≤ |d - v| * 10 ^ places := by
    have hsame : d * 10 ^ places = roundHalfEven (q * 10 ^ places) := by
      rw [← hdecimal]
      field_simp
    rw [← hsame, ← sub_mul, abs_mul, abs_of_pos hten, abs_sub_comm] at hclose
    exact not_lt.mp hclose
  have hcoarse : 1 ≤ 2 ^ grid d * (10 : ℚ) ^ places := by nlinarith
  have hpos := two_zpow_pos (grid d)
  have hgrid : -52 < grid d := by
    have hlow : (2 : ℚ) ^ (-52 : Int) < 2 ^ grid d := by
      have hone : (2 : ℚ) ^ (-52 : Int) * 2 ^ 52 = 1 := by norm_num
      nlinarith
    exact (zpow_lt_zpow_iff_right₀ (by norm_num)).mp hlow
  generalize hmantissa : roundHalfEven (d / 2 ^ grid d) = m at hv hm
  have hinner : ¬ (2 : Int) ^ 52 ∣ m := by
    rintro ⟨k, rfl⟩
    have hexp : (2 : ℚ) ^ 52 * 2 ^ grid d = 2 ^ (52 + grid d).toNat := by
      rw [← zpow_natCast 2 (52 + grid d).toNat, Int.toNat_of_nonneg (by omega), two_zpow_add]
      norm_num
    refine hint ⟨k * 2 ^ (52 + grid d).toNat * 10 ^ places, ?_⟩
    push_cast at hv ⊢
    rw [hv, ← hexp]
    ring
  have hlog : Int.log 2 |d| - 52 = grid d := by
    unfold grid at hgrid ⊢
    omega
  have hlow : 2 ^ 52 < |m| := by
    have hd : d ≠ 0 := by
      rintro rfl
      rw [abs_zero, Int.log_zero_right] at hlog
      omega
    have hself : (2 : ℚ) ^ (Int.log 2 |d|) ≤ |d| := by
      exact_mod_cast Int.zpow_log_le_self (by norm_num : 1 < 2) (abs_pos.mpr hd)
    have hle : ((2 ^ 52 : Int) : ℚ) ≤ |d / 2 ^ grid d| := by
      rw [abs_div, abs_of_pos hpos, le_div_iff₀ hpos]
      have hexp : Int.log 2 |d| = 52 + grid d := by omega
      rw [hexp, two_zpow_add] at hself
      exact_mod_cast hself
    have hmin := le_abs_roundHalfEven hle
    rw [hmantissa] at hmin
    exact lt_of_le_of_ne hmin fun heq => hinner ((dvd_abs _ _).mp (heq ▸ dvd_refl _))
  have hhigh : |m| < 2 ^ 53 :=
    lt_of_le_of_ne hm fun heq => hinner ((dvd_abs _ _).mp (heq ▸ ⟨2, by norm_num⟩))
  have hstrict : 1 < 2 ^ grid d * (10 : ℚ) ^ places := by
    refine lt_of_le_of_ne hcoarse fun heq => hint ⟨m, ?_⟩
    rw [hv, mul_assoc, ← heq, mul_one]
  refine nearest_near hv hlow hhigh (by omega) hsmall ?_
  have hagain := roundHalfEven_error (v * 10 ^ places)
  have hscale : (roundHalfEven (v * 10 ^ places) : ℚ) / 10 ^ places - v =
      -(v * 10 ^ places - roundHalfEven (v * 10 ^ places)) / 10 ^ places := by
    field_simp
    ring
  rw [hscale, abs_div, abs_neg, abs_of_pos hten, div_lt_iff₀ hten]
  linarith

end Rounding
