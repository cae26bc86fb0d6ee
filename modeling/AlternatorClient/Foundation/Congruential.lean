import Mathlib.Data.Int.ModEq
import Mathlib.Algebra.BigOperators.Group.List.Basic
import Mathlib.Algebra.Order.BigOperators.Group.List
import Mathlib.Logic.Function.Iterate
import Mathlib.Tactic.LinearCombination
import Mathlib.Tactic.Ring

/-! Multiplicative congruential generators `x ↦ a * x mod m`. Schrage's method
computes the product without leaving the interval between `-m` and `m`, and a
vanishing sum of powers of the multiplier keeps the terms of a run from being
small all together. -/
namespace Foundation.Congruential

/-- `modulus = multiplier * quotient + remainder` with a remainder small enough
for the two products of the method to stay below the modulus. -/
structure Schrage where
  multiplier : Int
  quotient : Int
  remainder : Int
  multiplier_pos : 0 < multiplier
  quotient_pos : 0 < quotient
  remainder_nonneg : 0 ≤ remainder
  remainder_le : remainder ≤ quotient

namespace Schrage
variable (s : Schrage) {x : Int}

def modulus : Int := s.multiplier * s.quotient + s.remainder

/-- The difference the method computes before it is brought into range. -/
def difference (x : Int) : Int :=
  s.multiplier * (x % s.quotient) - s.remainder * (x / s.quotient)

theorem difference_eq (x : Int) :
    s.difference x = s.multiplier * x - s.modulus * (x / s.quotient) := by
  have split := Int.emod_add_mul_ediv x s.quotient
  simp only [difference, modulus]
  linear_combination s.multiplier * split

theorem low_product_range (x : Int) :
    0 ≤ s.multiplier * (x % s.quotient) ∧ s.multiplier * (x % s.quotient) < s.modulus := by
  have multiplier := s.multiplier_pos
  have remainder := s.remainder_nonneg
  have nonneg := Int.emod_nonneg x s.quotient_pos.ne'
  have below := Int.emod_lt_of_pos x s.quotient_pos
  constructor
  · exact mul_nonneg multiplier.le nonneg
  · calc s.multiplier * (x % s.quotient)
        < s.multiplier * s.quotient := by gcongr
      _ ≤ s.modulus := by simp only [modulus]; omega

theorem high_product_range (nonneg : 0 ≤ x) :
    0 ≤ s.remainder * (x / s.quotient) ∧ s.remainder * (x / s.quotient) ≤ x := by
  have remainder := s.remainder_nonneg
  have high : 0 ≤ x / s.quotient := Int.ediv_nonneg nonneg s.quotient_pos.le
  constructor
  · exact mul_nonneg remainder high
  · calc s.remainder * (x / s.quotient)
        ≤ s.quotient * (x / s.quotient) := by
          have := s.remainder_le
          gcongr
      _ ≤ x := Int.mul_ediv_self_le s.quotient_pos.ne'

theorem difference_range (nonneg : 0 ≤ x) (below : x < s.modulus) :
    -s.modulus < s.difference x ∧ s.difference x < s.modulus := by
  have low := s.low_product_range x
  have high := s.high_product_range nonneg
  simp only [difference]
  constructor <;> omega

/-- One conditional addition turns the difference into the residue. -/
theorem residue_eq (nonneg : 0 ≤ x) (below : x < s.modulus) :
    (if s.difference x < 0 then s.difference x + s.modulus else s.difference x) =
      s.multiplier * x % s.modulus := by
  have range := s.difference_range nonneg below
  have exact := s.difference_eq x
  have congruent : s.difference x % s.modulus = s.multiplier * x % s.modulus := by
    rw [exact, Int.sub_mul_emod_self_left]
  split
  · rw [← congruent, ← Int.add_emod_right, Int.emod_eq_of_lt (by omega) (by omega)]
  · rw [← congruent, Int.emod_eq_of_lt (by omega) range.2]

end Schrage

variable {multiplier modulus : Int}

theorem residue_pos {x : Int} (coprime : Int.gcd modulus multiplier = 1) (positive : 0 < x)
    (below : x < modulus) : 0 < multiplier * x % modulus := by
  have nonneg := Int.emod_nonneg (multiplier * x) (show modulus ≠ 0 by omega)
  have nonzero : multiplier * x % modulus ≠ 0 := by
    intro zero
    have divides := Int.dvd_of_dvd_mul_right_of_gcd_one (Int.dvd_of_emod_eq_zero zero) coprime
    have := Int.le_of_dvd positive divides
    omega
  omega

/-- A step that multiplies modulo `modulus` on a set it keeps raises the
multiplier to a power along a run. -/
theorem iterate_eq (step : Int → Int) (inside : Int → Prop)
    (kept : ∀ x, inside x → inside (step x))
    (multiplies : ∀ x, inside x → step x = multiplier * x % modulus)
    {x : Int} (start : inside x) (reduced : x % modulus = x) (n : Nat) :
    inside (step^[n] x) ∧ step^[n] x = multiplier ^ n * x % modulus := by
  induction n with
  | zero => exact ⟨start, by simpa using reduced.symm⟩
  | succ n ih =>
    obtain ⟨inner, power⟩ := ih
    rw [Function.iterate_succ_apply']
    refine ⟨kept _ inner, ?_⟩
    rw [multiplies _ inner, power, Int.mul_emod, Int.emod_emod, ← Int.mul_emod, pow_succ]
    congr 1
    ring

theorem sum_residues_dvd (factors : List Int) (x : Int) (relation : modulus ∣ factors.sum) :
    modulus ∣ (factors.map (fun factor => factor * x % modulus)).sum := by
  have congruent :
      (factors.map (fun factor => factor * x % modulus)).sum ≡ factors.sum * x [ZMOD modulus] := by
    clear relation
    induction factors with
    | nil => simp
    | cons factor rest ih =>
      simp only [List.map_cons, List.sum_cons, add_mul]
      exact (Int.mod_modEq _ _).add ih
  exact (Int.modEq_zero_iff_dvd.mp
    (congruent.trans (Int.modEq_zero_iff_dvd.mpr (relation.mul_right x))))

/-- Where some factors add up to a multiple of the modulus, the residues they
give cannot all be small: together they reach the modulus. -/
theorem exists_large_residue {factors : List Int} (x bound : Int) (nonempty : factors ≠ [])
    (relation : modulus ∣ factors.sum)
    (positive : ∀ factor ∈ factors, 0 < factor * x % modulus)
    (small : factors.length * (bound - 1) < modulus) :
    ∃ factor ∈ factors, bound ≤ factor * x % modulus := by
  by_contra! below
  have total_pos : 0 < (factors.map (fun factor => factor * x % modulus)).sum := by
    apply List.sum_pos
    · simpa using positive
    · simpa using nonempty
  have total_le : (factors.map (fun factor => factor * x % modulus)).sum ≤
      (factors.map (fun factor => factor * x % modulus)).length • (bound - 1) := by
    apply List.sum_le_card_nsmul
    simp only [List.mem_map, forall_exists_index, and_imp]
    rintro _ factor member rfl
    have := below factor member
    omega
  have reached := Int.le_of_dvd total_pos (sum_residues_dvd factors x relation)
  simp only [nsmul_eq_mul, List.length_map] at total_le
  omega

end Foundation.Congruential
