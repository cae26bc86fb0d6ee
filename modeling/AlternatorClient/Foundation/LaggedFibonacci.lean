import Mathlib.Tactic.Linarith
import Mathlib.Algebra.Order.Ring.Nat

/-! Additive lagged Fibonacci sequences: the sequence two lags generate from its
initial terms, and a bound on runs modulo `M`. Terms of the upper half of the
range are small negative numbers: they add without wrapping around, so a run of
them doubles its distance from the modulus at every lag and must end. -/
namespace Foundation.LaggedFibonacci

/-- The two lags of a recurrence. Both bounds are needed: a lag of zero would read
the word being written, and equal lags would read one word twice. -/
structure Lags where
  long : Nat
  short : Nat
  positive : 0 < short
  ordered : short < long

section Sequence
variable {α : Type*} [Add α] (lags : Lags) (initial : Nat → α)

/-- The first `long` terms are given, every later one is the sum of the terms
the two lags behind it. -/
def sequence (n : Nat) : α :=
  if n < lags.long then initial n else sequence (n - lags.long) + sequence (n - lags.short)
termination_by n
decreasing_by
  all_goals
    have := lags.positive
    have := lags.ordered
    omega

theorem sequence_initial {n : Nat} (early : n < lags.long) :
    sequence lags initial n = initial n := by
  rw [sequence, if_pos early]

theorem sequence_add_long (n : Nat) :
    sequence lags initial (n + lags.long) =
      sequence lags initial n + sequence lags initial (n + (lags.long - lags.short)) := by
  have ordered := lags.ordered
  rw [sequence, if_neg (by omega), Nat.add_sub_cancel, Nat.add_sub_assoc ordered.le]

end Sequence

variable {lag short N : Nat}

theorem doubles {z : Nat → Nat} (ordered : short < lag) (positive : ∀ n < lag, 1 ≤ z n)
    (recurrence : ∀ n < N, z (n + lag) = z n + z (n + short)) (k n : Nat)
    (late : k * lag ≤ n) (inside : n < N + lag) : 2 ^ k ≤ z n := by
  induction n using Nat.strong_induction_on generalizing k with
  | _ n ih =>
    by_cases early : n < lag
    · have : k = 0 := by
        by_contra nonzero
        have : lag ≤ k * lag := Nat.le_mul_of_pos_left lag (by omega)
        omega
      subst this
      simpa using positive n early
    · obtain ⟨m, rfl⟩ : ∃ m, n = m + lag := ⟨n - lag, by omega⟩
      rw [recurrence m (by omega)]
      cases k with
      | zero => exact (ih m (by omega) 0 (by omega) (by omega)).trans (Nat.le_add_right _ _)
      | succ k =>
        have window : k * lag ≤ m := by
          rw [Nat.succ_mul] at late
          omega
        have old := ih m (by omega) k window (by omega)
        have recent := ih (m + short) (by omega) k (by omega) (by omega)
        rw [Nat.pow_succ]
        omega

/-- At most `bits` lags of consecutive terms lie in the upper half. -/
theorem upper_half_run_bounded (x : Nat → Nat) (M bits lag short N : Nat) (ordered : short < lag)
    (small : M ≤ 2 ^ (bits + 1))
    (recurrence : ∀ n < N, x (n + lag) = (x n + x (n + short)) % M)
    (upper : ∀ n < N + lag, M < 2 * x n ∧ x n < M) : N + lag ≤ bits * lag := by
  by_contra long
  have distance : ∀ n < N, M - x (n + lag) = (M - x n) + (M - x (n + short)) := by
    intro n inside
    have first := upper n (by omega)
    have second := upper (n + short) (by omega)
    have wrapped : (x n + x (n + short)) % M = x n + x (n + short) - M := by
      rw [Nat.mod_eq_sub_mod (by omega), Nat.mod_eq_of_lt (by omega)]
    rw [recurrence n inside, wrapped]
    omega
  have grown := doubles (z := fun n => M - x n) ordered
    (fun n inside => by have := upper n (by omega); omega) distance bits (N + lag - 1)
    (by omega) (by omega)
  have last := upper (N + lag - 1) (by omega)
  rw [Nat.pow_succ] at small
  omega

end Foundation.LaggedFibonacci
