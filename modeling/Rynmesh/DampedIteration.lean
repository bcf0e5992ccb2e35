import Mathlib.Algebra.Order.BigOperators.Group.Finset
import Mathlib.LinearAlgebra.FiniteDimensional.Basic
import Mathlib.Algebra.BigOperators.Ring.Finset
import Mathlib.Tactic.Linarith
import Mathlib.Tactic.LinearCombination

/-!
# Damped stochastic iteration

A vector over a finite set `U` is moved along a matrix `C` whose rows are
distributions, and a share `a` of it is replaced by a fixed distribution `p`:
one step sends `t` to `a * p + (1 - a) * Cᵀ t`.

* `Distribution.damped`: a step keeps distributions;
* `damped_zero`: it brings nothing into a set that is closed to the outside;
* `damped_contracts`: it brings two vectors closer by the factor `1 - a`;
* `exists_fixed`, `fixed_unique` and `near_fixed`: it has one fixed vector, and a
  short step ends near it.
-/

namespace Stochastic

section Algebra

variable {ι K : Type} [Field K] {U : Finset ι} {C : ι → ι → K} {p t : ι → K} {a : K}

/-- One step: the share `a` of the vector is given to `p`, the rest moves along `C`. -/
def damped (U : Finset ι) (C : ι → ι → K) (p : ι → K) (a : K) (t : ι → K) : ι → K :=
  fun j => a * p j + (1 - a) * ∑ i ∈ U, t i * C i j

/-- A vector that a step leaves as it is. -/
def Fixed (U : Finset ι) (C : ι → ι → K) (p : ι → K) (a : K) (t : ι → K) : Prop :=
  ∀ j ∈ U, t j = damped U C p a t j

/-! ### Closed sets -/

/-- Nothing comes into a set that neither `p` nor a row from outside reaches. -/
theorem damped_zero {S : ι → Prop} (hp : ∀ j, S j → p j = 0)
    (hC : ∀ i ∈ U, ¬ S i → ∀ j, S j → C i j = 0) (ht : ∀ i, S i → t i = 0) {j : ι} (hj : S j) :
    damped U C p a t j = 0 := by
  have hmoved : ∑ i ∈ U, t i * C i j = 0 := by
    refine Finset.sum_eq_zero fun i hi => ?_
    by_cases hS : S i
    · rw [ht i hS, zero_mul]
    · rw [hC i hi hS j hj, mul_zero]
  simp only [damped, hp j hj, hmoved, mul_zero, add_zero]

/-- A step over a larger set is one over a smaller set, for a vector that is zero on the rest. -/
theorem damped_restrict {V : Finset ι} {D : ι → ι → K} {q : ι → K} (hV : V ⊆ U)
    (ht : ∀ i ∈ U, i ∉ V → t i = 0) {j : ι} (hp : p j = q j)
    (hC : ∀ i ∈ V, t i ≠ 0 → C i j = D i j) :
    damped U C p a t j = damped V D q a t j := by
  have hsum : ∑ i ∈ U, t i * C i j = ∑ i ∈ V, t i * D i j := by
    rw [← Finset.sum_subset hV fun i hi hnot => by rw [ht i hi hnot, zero_mul]]
    refine Finset.sum_congr rfl fun i hi => ?_
    by_cases hzero : t i = 0
    · rw [hzero, zero_mul, zero_mul]
    · rw [hC i hi hzero]
  simp only [damped, hp, hsum]

/-! ### Vectors over a set -/

/-- A vector over `U`, zero elsewhere. -/
def extend [DecidableEq ι] (U : Finset ι) (t : U → K) : ι → K :=
  fun i => if h : i ∈ U then t ⟨i, h⟩ else 0

theorem sum_extend [DecidableEq ι] (t : U → K) (f : ι → K) :
    ∑ i ∈ U, extend U t i * f i = ∑ i : U, t i * f i := by
  rw [← Finset.sum_coe_sort U]
  refine Finset.sum_congr rfl fun i _ => ?_
  simp only [extend, i.2, dif_pos]

/-- What a vector loses in a step, as a linear map. -/
def lost [DecidableEq ι] (U : Finset ι) (C : ι → ι → K) (a : K) : (U → K) →ₗ[K] (U → K) where
  toFun t j := t j - (1 - a) * ∑ i : U, t i * C i j
  map_add' t u := by
    funext j
    simp only [Pi.add_apply, add_mul, Finset.sum_add_distrib]
    ring
  map_smul' c t := by
    funext j
    simp only [Pi.smul_apply, smul_eq_mul, RingHom.id_apply, mul_assoc, ← Finset.mul_sum]
    ring

end Algebra

section Order

variable {ι K : Type} [Field K] [LinearOrder K] {U : Finset ι} {C : ι → ι → K}
  {p t u : ι → K} {a : K}

/-! ### Distributions -/

/-- Weights on `U` that are not negative and sum to one. -/
structure Distribution (U : Finset ι) (t : ι → K) : Prop where
  nonneg : ∀ i ∈ U, 0 ≤ t i
  total : ∑ i ∈ U, t i = 1

/-- The distance of two vectors, coordinate by coordinate. -/
def distance (U : Finset ι) (t u : ι → K) : K := ∑ i ∈ U, |t i - u i|

theorem sum_moved (hC : ∀ i ∈ U, Distribution U (C i)) (t : ι → K) :
    ∑ j ∈ U, ∑ i ∈ U, t i * C i j = ∑ i ∈ U, t i := by
  rw [Finset.sum_comm]
  refine Finset.sum_congr rfl fun i hi => ?_
  rw [← Finset.mul_sum, (hC i hi).total, mul_one]

theorem distance_comm [IsStrictOrderedRing K] (t u : ι → K) : distance U t u = distance U u t :=
  Finset.sum_congr rfl fun _ _ => abs_sub_comm _ _

/-- The step of a fixed vector is as far from another vector as the fixed vector is. -/
theorem Fixed.distance_eq (h : Fixed U C p a u) (t : ι → K) :
    distance U t (damped U C p a u) = distance U t u :=
  Finset.sum_congr rfl fun i hi => by rw [← h i hi]

variable [IsStrictOrderedRing K]

theorem Distribution.damped (ha : 0 ≤ a) (ha' : a ≤ 1) (hp : Distribution U p)
    (hC : ∀ i ∈ U, Distribution U (C i)) (ht : Distribution U t) :
    Distribution U (damped U C p a t) where
  nonneg j hj := by
    have hmoved : 0 ≤ ∑ i ∈ U, t i * C i j :=
      Finset.sum_nonneg fun i hi => mul_nonneg (ht.nonneg i hi) ((hC i hi).nonneg j hj)
    exact add_nonneg (mul_nonneg ha (hp.nonneg j hj)) (mul_nonneg (by linarith) hmoved)
  total := by
    simp only [Stochastic.damped]
    rw [Finset.sum_add_distrib, ← Finset.mul_sum, ← Finset.mul_sum, sum_moved hC, hp.total,
      ht.total]
    ring

/-! ### Distances -/

theorem distance_nonneg (t u : ι → K) : 0 ≤ distance U t u :=
  Finset.sum_nonneg fun _ _ => abs_nonneg _

theorem distance_triangle (t u v : ι → K) : distance U t v ≤ distance U t u + distance U u v := by
  rw [distance, distance, distance, ← Finset.sum_add_distrib]
  exact Finset.sum_le_sum fun i _ => abs_sub_le (t i) (u i) (v i)

theorem eq_of_distance_eq_zero (h : distance U t u = 0) {i : ι} (hi : i ∈ U) : t i = u i := by
  have hzero := (Finset.sum_eq_zero_iff_of_nonneg fun j _ => abs_nonneg (t j - u j)).mp h i hi
  exact sub_eq_zero.mp (abs_eq_zero.mp hzero)

/-- A step brings vectors closer. -/
theorem damped_contracts (ha' : a ≤ 1) (hC : ∀ i ∈ U, Distribution U (C i)) (t u : ι → K) :
    distance U (damped U C p a t) (damped U C p a u) ≤ (1 - a) * distance U t u := by
  have hone : 0 ≤ 1 - a := by linarith
  have hentry : ∀ j ∈ U, |damped U C p a t j - damped U C p a u j| ≤
      (1 - a) * ∑ i ∈ U, |t i - u i| * C i j := by
    intro j hj
    have hdiff : damped U C p a t j - damped U C p a u j =
        (1 - a) * ∑ i ∈ U, (t i - u i) * C i j := by
      simp only [damped, sub_mul, Finset.sum_sub_distrib]
      ring
    rw [hdiff, abs_mul, abs_of_nonneg hone]
    refine mul_le_mul_of_nonneg_left ?_ hone
    refine (Finset.abs_sum_le_sum_abs _ _).trans (le_of_eq ?_)
    refine Finset.sum_congr rfl fun i hi => ?_
    rw [abs_mul, abs_of_nonneg ((hC i hi).nonneg j hj)]
  calc distance U (damped U C p a t) (damped U C p a u)
      ≤ ∑ j ∈ U, (1 - a) * ∑ i ∈ U, |t i - u i| * C i j := Finset.sum_le_sum hentry
    _ = (1 - a) * distance U t u := by
        rw [← Finset.mul_sum, sum_moved hC fun i => |t i - u i|]
        rfl

/-! ### Fixed vectors -/

theorem fixed_unique (ha : 0 < a) (ha' : a ≤ 1) (hC : ∀ i ∈ U, Distribution U (C i))
    (ht : Fixed U C p a t) (hu : Fixed U C p a u) {i : ι} (hi : i ∈ U) : t i = u i := by
  have hcontract := damped_contracts (p := p) ha' hC t u
  rw [hu.distance_eq, distance_comm, ht.distance_eq, distance_comm] at hcontract
  have hzero : distance U t u = 0 := by
    have hnonneg := distance_nonneg (U := U) t u
    nlinarith
  exact eq_of_distance_eq_zero hzero hi

/-- After a step of length `e` the fixed vector is at most `e * (1 - a) / a` away. -/
theorem near_fixed (ha : 0 < a) (ha' : a ≤ 1) (hC : ∀ i ∈ U, Distribution U (C i))
    (hu : Fixed U C p a u) {e : K} (he : distance U (damped U C p a t) t ≤ e) :
    distance U (damped U C p a t) u ≤ e * (1 - a) / a := by
  have hcontract := damped_contracts (p := p) ha' hC t u
  rw [hu.distance_eq] at hcontract
  have htriangle := distance_triangle (U := U) t (damped U C p a t) u
  rw [distance_comm t (damped U C p a t)] at htriangle
  rw [le_div_iff₀ ha]
  nlinarith

/-- There is a fixed vector: a step from `0` to `0` is the only one, so `lost` is onto. -/
theorem exists_fixed [DecidableEq ι] (p : ι → K) (ha : 0 < a) (ha' : a ≤ 1)
    (hC : ∀ i ∈ U, Distribution U (C i)) :
    ∃ t : ι → K, Fixed U C p a t ∧ ∀ i ∉ U, t i = 0 := by
  have hinjective : Function.Injective (lost U C a) := by
    rw [← LinearMap.ker_eq_bot, LinearMap.ker_eq_bot']
    intro t ht
    have hfixed : Fixed U C (fun _ => 0) a (extend U t) := by
      intro j hj
      have hj' := congrFun ht ⟨j, hj⟩
      simp only [lost, LinearMap.coe_mk, AddHom.coe_mk, Pi.zero_apply] at hj'
      simp only [damped, sum_extend t fun i => C i j]
      simp only [extend, hj, dif_pos]
      linear_combination hj'
    have hzero : Fixed U C (fun _ => 0) a (fun _ => 0) := by
      intro j _
      simp only [damped, zero_mul, Finset.sum_const_zero, mul_zero, add_zero]
    funext i
    have hi := fixed_unique ha ha' hC hfixed hzero i.2
    rw [extend, dif_pos i.2] at hi
    exact hi
  obtain ⟨t, ht⟩ := LinearMap.surjective_of_injective hinjective fun j => a * p j
  refine ⟨extend U t, ?_, fun i hi => dif_neg hi⟩
  intro j hj
  have hj' := congrFun ht ⟨j, hj⟩
  simp only [lost, LinearMap.coe_mk, AddHom.coe_mk] at hj'
  simp only [damped, sum_extend t fun i => C i j]
  simp only [extend, hj, dif_pos]
  linear_combination hj'

end Order

end Stochastic
