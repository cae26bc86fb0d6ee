import AlternatorClient.GoRandom.Int31n
import Mathlib.Data.Int.CardIntervalMod

/-! `Int31n` is fair. The rejection loop accepts an interval whose length is a
multiple of `n`, and for a power of two it accepts everything, so that the mask
of the fast path and the remainder of the general one are the same draw. -/
namespace AlternatorClient.GoRandom
open Foundation

/-- `static_cast<std::int32_t>((1U << 31U) - 1U - (1U << 31U) % static_cast<std::uint32_t>(n))`. -/
def int31nMax (n : Int32) : Int32 :=
  ((1 : UInt32) <<< (31 : UInt32) - 1 - (1 : UInt32) <<< (31 : UInt32) % n.toUInt32).toInt32

theorem maxFor_range {n : Int} (positive : 0 < n) (range : n < 2 ^ 31) :
    0 ≤ maxFor n ∧ maxFor n < 2 ^ 31 := by
  have large := maxFor_large positive range
  have nonneg := Int.emod_nonneg (2 ^ 31) positive.ne'
  simp only [maxFor] at *
  omega

theorem maxFor_succ (n : Int) : maxFor n + 1 = n * (2 ^ 31 / n) := by
  have split := Int.emod_add_mul_ediv (2 ^ 31) n
  simp only [maxFor]
  omega

/-- Of the accepted values every residue has the same number. -/
theorem card_residue {n : Nat} (positive : 0 < n) {bound r : Nat} (whole : n ∣ bound)
    (residue : r < n) : ((Finset.range bound).filter (· % n = r)).card = bound / n := by
  have counted := Nat.count_modEq_card bound positive r
  rw [Nat.count_eq_card_filter_range, Nat.mod_eq_zero_of_dvd whole, if_neg (Nat.not_lt_zero _),
    Nat.add_zero] at counted
  rw [← counted]
  congr 1
  apply Finset.filter_congr
  intro v _
  rw [Nat.ModEq, Nat.mod_eq_of_lt residue]

/-- Nothing wraps around, and the bound fits the signed type it is narrowed to. -/
theorem int31nMax_eq {n : Int32} (positive : 0 < n.toInt) :
    (int31nMax n).toInt = maxFor n.toInt := by
  have divisor : n.toUInt32.toNat = n.toInt.toNat :=
    Int32.toNat_toUInt32_of_le (Int32.le_iff_toInt_le.mpr positive.le)
  have range := maxFor_range positive n.toInt_lt
  have shifted : (1 : UInt32) <<< (31 : UInt32) = 2147483648 := by decide
  have remainder : ((2147483648 : UInt32) % n.toUInt32).toNat = 2147483648 % n.toInt.toNat := by
    rw [UInt32.toNat_mod, divisor]
    rfl
  have rest : ((2147483648 % n.toInt.toNat : Nat) : Int) = 2 ^ 31 % n.toInt := by
    rw [Int.natCast_emod, Int.toNat_of_nonneg positive.le]
    rfl
  simp only [maxFor] at range ⊢
  have fits : (2147483648 : UInt32) % n.toUInt32 ≤ 2147483647 := by
    rw [UInt32.le_iff_toNat_le, remainder]
    change _ ≤ 2147483647
    omega
  have bound : ((2147483647 : UInt32) - 2147483648 % n.toUInt32).toNat =
      2147483647 - 2147483648 % n.toInt.toNat := by
    rw [UInt32.toNat_sub_of_le _ _ fits, remainder]
    rfl
  have signed : (int31nMax n).toInt =
      ((2147483647 : UInt32) - 2147483648 % n.toUInt32).toBitVec.toInt := by
    rw [int31nMax, shifted]
    rfl
  rw [signed, BitVec.toInt_eq_toNat_of_lt, UInt32.toNat_toBitVec, bound]
  · omega
  · rw [UInt32.toNat_toBitVec, bound]
    omega

theorem int31_range (g : GoRandom) : 0 ≤ g.int31.1 ∧ g.int31.1 < 2 ^ 31 := by
  simp only [int31, int63]
  omega

/-- The loop hands back the first of the generator's 31-bit draws that is not above the
bound, with the state right behind it. -/
theorem rejectAbove_some {max v : Int} {fuel : Nat} {g next : GoRandom}
    (accepted : rejectAbove max fuel g = some (v, next)) :
    ∃ k, (∀ i < k, max < (g.after i).int31.1) ∧ (g.after k).int31 = (v, next) ∧ v ≤ max := by
  induction fuel generalizing g with
  | zero => contradiction
  | succ fuel ih =>
    rw [rejectAbove] at accepted
    split at accepted
    · rename_i rejected
      obtain ⟨k, above, drawn, below⟩ := ih accepted
      -- one draw of 31 bits consumes one word
      change ∀ i < k, max < (g.uint64.2.after i).int31.1 at above
      change (g.uint64.2.after k).int31 = (v, next) at drawn
      rw [after_after] at drawn
      refine ⟨k + 1, ?_, drawn, below⟩
      intro i inside
      cases i with
      | zero => exact rejected
      | succ i =>
        rw [← after_after]
        exact above i (by omega)
    · rename_i below
      have drawn := Option.some.inj accepted
      refine ⟨0, by simp, drawn, ?_⟩
      rw [drawn] at below
      exact not_lt.mp below

/-- The first draw is accepted where the interval holds all 31-bit values. -/
theorem rejectAbove_all {max : Int} (all : 2 ^ 31 - 1 ≤ max) (fuel : Nat) (g : GoRandom) :
    rejectAbove max (fuel + 1) g = some g.int31 := by
  have range := int31_range g
  rw [rejectAbove, if_neg (by omega)]

theorem maxFor_two_pow {n : Int} {k : Nat} (small : k ≤ 31) (power : n = 2 ^ k) :
    maxFor n = 2 ^ 31 - 1 := by
  have divides : (2 ^ k : Int) ∣ 2 ^ 31 := pow_dvd_pow 2 small
  rw [maxFor, power, Int.emod_eq_zero_of_dvd divides, sub_zero]

theorem mask_eq_emod {v n : Int} {k : Nat} (nonneg : 0 ≤ v) (power : n = 2 ^ k) :
    ((v.toNat &&& (n.toNat - 1) : Nat) : Int) = v % n := by
  have size : n.toNat = 2 ^ k := by
    rw [power]
    exact Int.toNat_pow_of_nonneg (by decide) k
  rw [size, Nat.and_two_pow_sub_one_eq_mod, Int.natCast_emod, Int.toNat_of_nonneg nonneg, power]
  norm_cast

/-- The test of the fast path finds the powers of two. -/
theorem mask_eq_zero_iff {n : Int} (positive : 0 < n) :
    n.toNat &&& (n.toNat - 1) = 0 ↔ ∃ k : Nat, n = 2 ^ k := by
  rw [Nat.and_sub_one_eq_zero_iff_isPowerOfTwo (by omega)]
  constructor
  · rintro ⟨k, power⟩
    refine ⟨k, ?_⟩
    rw [← Int.toNat_of_nonneg positive.le, power]
    norm_cast
  · rintro ⟨k, rfl⟩
    exact ⟨k, Int.toNat_pow_of_nonneg (by decide) k⟩

section
variable {n : Int32} (positive : 0 < n.toInt) {k : Nat}
include positive

theorem int31n_two_pow (power : n.toInt = 2 ^ k) (g : GoRandom) :
    rejectAbove (maxFor n.toInt) 1 g = some g.int31 ∧
      rejectAbove (maxFor n.toInt) rejectionBound g = some g.int31 ∧
      g.int31n n = .ok (((g.int31.1.toNat &&& (n.toInt.toNat - 1) : Nat) : Int), g.int31.2) ∧
      g.int31n n = .ok (g.int31.1 % n.toInt, g.int31.2) := by
  have small : k ≤ 31 := by
    have below := n.toInt_lt
    rw [power] at below
    exact ((pow_lt_pow_iff_right₀ (by decide : (1 : Int) < 2)).mp below).le
  have all := (maxFor_two_pow small power).ge
  have masked : g.int31n n =
      .ok (((g.int31.1.toNat &&& (n.toInt.toNat - 1) : Nat) : Int), g.int31.2) := by
    rw [int31n, dif_neg (not_le.mpr positive), if_pos ((mask_eq_zero_iff positive).mpr ⟨k, power⟩)]
  refine ⟨rejectAbove_all all 0 g, rejectAbove_all all _ g, masked, ?_⟩
  rw [masked, mask_eq_emod (int31_range g).1 power]

/-- What the general formula gives, also where the fast path is taken. -/
theorem int31n_eq_rejection (g : GoRandom) :
    ∃ v next, rejectAbove (maxFor n.toInt) rejectionBound g = some (v, next) ∧
      g.int31n n = .ok (v % n.toInt, next) := by
  by_cases fast : n.toInt.toNat &&& (n.toInt.toNat - 1) = 0
  · obtain ⟨k, power⟩ := (mask_eq_zero_iff positive).mp fast
    obtain ⟨-, accepted, -, drawn⟩ := int31n_two_pow positive power g
    exact ⟨_, _, accepted, drawn⟩
  · have ends := rejectAbove_isSome _ (maxFor_large positive n.toInt_lt) g
    obtain ⟨⟨v, next⟩, accepted⟩ := Option.isSome_iff_exists.mp ends
    refine ⟨v, next, accepted, ?_⟩
    simp only [int31n, dif_neg (not_le.mpr positive), if_neg fast, accepted, Option.get_some]

end

/-- What is fair about drawing below `n`: the bound is computed without
wrapping around, the values up to it fall evenly on the residues, every call
returns the residue of the first draw of the generator that is not above the bound
and leaves the state behind that draw, and a power of two costs one draw. -/
structure Fair (n : Int32) : Prop where
  narrowed : (int31nMax n).toInt = maxFor n.toInt
  max_range : 0 ≤ maxFor n.toInt ∧ maxFor n.toInt < 2 ^ 31
  whole : n.toInt ∣ maxFor n.toInt + 1
  residues : ∀ r < n.toInt.toNat,
    ((Finset.range ((maxFor n.toInt).toNat + 1)).filter (· % n.toInt.toNat = r)).card =
      ((maxFor n.toInt).toNat + 1) / n.toInt.toNat
  drawn : ∀ g : GoRandom, ∃ k v next,
    (∀ i < k, maxFor n.toInt < (g.after i).int31.1) ∧ (g.after k).int31 = (v, next) ∧
      rejectAbove (maxFor n.toInt) rejectionBound g = some (v, next) ∧
      (0 ≤ v ∧ v ≤ maxFor n.toInt) ∧ g.int31n n = .ok (v % n.toInt, next) ∧
      0 ≤ v % n.toInt ∧ v % n.toInt < n.toInt
  masked : ∀ k : Nat, n.toInt = 2 ^ k → ∀ g : GoRandom,
    rejectAbove (maxFor n.toInt) 1 g = some g.int31 ∧
      g.int31n n = .ok (((g.int31.1.toNat &&& (n.toInt.toNat - 1) : Nat) : Int), g.int31.2) ∧
      g.int31n n = .ok (g.int31.1 % n.toInt, g.int31.2)

/-- `Int31n` is in range and fair for every bound it accepts. It hands out the
residue of the first 31-bit word that is not rejected, and among those words each
residue stands for equally many. -/
theorem int31n_fair (n : Int32) (positive : 0 < n.toInt) : Fair n := by
  have range := maxFor_range positive n.toInt_lt
  have whole : n.toInt ∣ maxFor n.toInt + 1 := ⟨_, maxFor_succ n.toInt⟩
  refine ⟨int31nMax_eq positive, range, whole, ?_, ?_, ?_⟩
  · intro r residue
    apply card_residue (by omega) _ residue
    rw [← Int.natCast_dvd_natCast, Int.toNat_of_nonneg positive.le, Int.natCast_add,
      Int.toNat_of_nonneg range.1]
    exact whole
  · intro g
    obtain ⟨v, next, accepted, returned⟩ := int31n_eq_rejection positive g
    obtain ⟨k, rejected, drawn, below⟩ := rejectAbove_some accepted
    have nonneg := (int31_range (g.after k)).1
    rw [drawn] at nonneg
    exact ⟨k, v, next, rejected, drawn, accepted, ⟨nonneg, below⟩, returned,
      Int.emod_nonneg _ positive.ne', Int.emod_lt_of_pos _ positive⟩
  · intro k power g
    obtain ⟨single, -, masked, same⟩ := int31n_two_pow positive power g
    exact ⟨single, masked, same⟩

/-- For the largest bound one 31-bit value is rejected, and each residue is left with one. -/
theorem int31n_fair_largest :
    Fair Int32.maxValue ∧
      ((Finset.range (2 ^ 31 - 1)).filter (· % (2 ^ 31 - 1) = 5)).card = 1 := by
  have fair := int31n_fair Int32.maxValue (by decide)
  exact ⟨fair, fair.residues 5 (by decide)⟩

end AlternatorClient.GoRandom
