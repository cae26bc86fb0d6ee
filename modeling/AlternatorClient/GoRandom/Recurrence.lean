import AlternatorClient.GoRandom.Generator

/-! The words of `detail::GoRandom` as an unbounded linear recurrence. The ring
is overwritten in place; what a slot holds after `n` draws is known by its
distance from the oldest word, which `window` measures. -/
namespace AlternatorClient.GoRandom
open Foundation.LaggedFibonacci

/-- The lags of `x_n = x_(n-607) + x_(n-273)`. -/
def lags : Lags where
  long := 607
  short := 273
  positive := by decide
  ordered := by decide

/-- The seeded words from the oldest on: `x_(-607+k)` is `vec_[(333-k) mod 607]`. -/
def seeded (seed : Int64) (k : Nat) : BitVec 64 :=
  (ofSeed seed).vec.getD ((333 - k : Int) % rngLen).toNat 0

/-- Term `k` of the recurrence, counted from the first seeded word: it is
`x_(k-607)` of the sequence that continues the seeded words. -/
def term (seed : Int64) (k : Nat) : BitVec 64 := sequence lags (seeded seed) k

theorem term_seeded (seed : Int64) {k : Nat} (early : k < 607) : term seed k = seeded seed k :=
  sequence_initial lags (seeded seed) early

theorem term_recurrence (seed : Int64) (k : Nat) :
    term seed (k + 607) = term seed k + term seed (k + 334) :=
  sequence_add_long lags (seeded seed) k

theorem window_ofSeed (seed : Int64) (k : Nat) : (ofSeed seed).window k = seeded seed k := by
  have oldest : (ofSeed seed).feed - 1 - k = 333 - k := by
    simp only [ofSeed, rngLen, rngTap]
    omega
  rw [window, oldest, seeded]

/-- Which generation each slot holds: after `n` draws the ring, read from its
oldest word on, is terms `n` to `n + 606`. -/
theorem window_after_eq_term (seed : Int64) (n : Nat) :
    ∀ k < 607, ((ofSeed seed).after n).window k = term seed (n + k) := by
  induction n with
  | zero =>
    intro k inside
    rw [Nat.zero_add, term_seeded seed inside]
    exact window_ofSeed seed k
  | succ n ih =>
    intro k inside
    rw [after_succ, window_uint64 _ _ inside]
    split
    · rename_i last
      rw [uint64_eq_window, ih 0 (by omega), ih 334 (by omega), last, Nat.add_zero,
        ← term_recurrence, Nat.add_assoc n 1 606]
    · rw [ih (k + 1) (by omega), Nat.add_assoc n 1 k, Nat.add_comm 1 k]

theorem word_eq_term (seed : Int64) (n : Nat) :
    (ofSeed seed).word n = term seed (n + 607) := by
  rw [word, uint64_eq_window, window_after_eq_term seed n 0 (by omega),
    window_after_eq_term seed n 334 (by omega), term_recurrence, Nat.add_zero]

/-- The draws continue the seeded words by the recurrence, and both indices
address the ring after any number of draws. -/
theorem uint64_realises_recurrence (seed : Int64) (n : Nat) :
    (ofSeed seed).word n = sequence lags (seeded seed) (n + 607) ∧
      (0 ≤ ((ofSeed seed).after n).tap ∧ ((ofSeed seed).after n).tap < 607) ∧
      (0 ≤ ((ofSeed seed).after n).feed ∧ ((ofSeed seed).after n).feed < 607) := by
  refine ⟨word_eq_term seed n, ?_, ?_⟩
  · exact ((ofSeed seed).after n).tap_range
  · exact ((ofSeed seed).after n).feed_range

end AlternatorClient.GoRandom
