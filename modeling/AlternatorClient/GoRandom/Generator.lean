import AlternatorClient.GoRandom.Cooked
import AlternatorClient.Foundation.LaggedFibonacci
import Mathlib.Logic.Function.Iterate

/-! `detail::GoRandom`, the generator of Go's `math/rand`: Schrage seeding, an
additive lagged Fibonacci ring of 607 words, and `Int31n` by rejection. Signed
machine arithmetic wraps, as `int32` and the 64-bit words say. -/
namespace AlternatorClient

def rngLen : Int := 607
def rngTap : Int := 273
def int32Max : Int := 2 ^ 31 - 1

/-- The `int32_t` that holds `x` modulo `2 ^ 32`. -/
def int32 (x : Int) : Int := Int.bmod x (2 ^ 32)

namespace GoRandom

def seedRand (x : Int) : Int :=
  let hi := x.tdiv 44488
  let lo := x.tmod 44488
  let x := int32 (int32 (48271 * lo) - int32 (3399 * hi))
  if x < 0 then int32 (x + int32Max) else x

/-- The iterations of `Seed` with `i >= 0`: three draws and one table word to
each word of `vec_`, in index order. -/
def seedWords : List Int → Int → List (BitVec 64)
  | [], _ => []
  | cooked :: rest, x =>
    let x₁ := seedRand x
    let x₂ := seedRand x₁
    let x₃ := seedRand x₂
    (BitVec.ofInt 64 x₁ <<< 40 ^^^ BitVec.ofInt 64 x₂ <<< 20 ^^^ BitVec.ofInt 64 x₃ ^^^
      BitVec.ofInt 64 cooked) :: seedWords rest x₃

@[simp] theorem seedWords_length (cooked : List Int) (x : Int) :
    (seedWords cooked x).length = cooked.length := by
  induction cooked generalizing x with
  | nil => rfl
  | cons word rest ih => simp [seedWords, ih]

/-- The start value of the seeding iteration. The remainder is made positive, and
zero, which the iteration would never leave, is replaced by a constant. -/
def normalizedSeed (seed : Int64) : Int :=
  let seed := seed.toInt.tmod int32Max
  let seed := if seed < 0 then seed + int32Max else seed
  if seed = 0 then 89482311 else seed

end GoRandom

/-- The two indices move in step, so their distance is part of the state's
invariant. Neither index nor the vector can leave its range. -/
structure GoRandom where
  tap : Int
  feed : Int
  vec : List (BitVec 64)
  tap_range : 0 ≤ tap ∧ tap < rngLen
  feed_range : 0 ≤ feed ∧ feed < rngLen
  lag : (feed - tap) % rngLen = rngLen - rngTap
  vec_length : vec.length = 607

namespace GoRandom

/-- The constructor: `Seed`, whose first 20 iterations only advance `x`. -/
def ofSeed (seed : Int64) : GoRandom where
  tap := 0
  feed := rngLen - rngTap
  vec := seedWords rngCooked (seedRand^[20] (normalizedSeed seed))
  tap_range := by decide
  feed_range := by decide
  lag := by decide
  vec_length := by rw [seedWords_length, rngCooked_length]

/-- `--index; if (index < 0) index += rng_len;` -/
def retreat (index : Int) : Int := if index - 1 < 0 then index - 1 + rngLen else index - 1

theorem retreat_range {index : Int} (range : 0 ≤ index ∧ index < rngLen) :
    0 ≤ retreat index ∧ retreat index < rngLen := by
  simp only [retreat, rngLen] at *
  split <;> omega

theorem retreat_eq {index : Int} (range : 0 ≤ index ∧ index < rngLen) :
    retreat index = (index - 1) % rngLen := by
  simp only [retreat, rngLen] at *
  split <;> omega

def uint64 (g : GoRandom) : BitVec 64 × GoRandom :=
  let tap := retreat g.tap
  let feed := retreat g.feed
  let x := g.vec.getD feed.toNat 0 + g.vec.getD tap.toNat 0
  (x, { tap := tap
        feed := feed
        vec := g.vec.set feed.toNat x
        tap_range := retreat_range g.tap_range
        feed_range := retreat_range g.feed_range
        lag := by
          have := g.lag
          simp only [tap, feed, retreat_eq g.tap_range, retreat_eq g.feed_range, rngLen,
            rngTap] at *
          omega
        vec_length := by rw [List.length_set, g.vec_length] })

/-- `Uint64() & rng_mask`. -/
def int63 (g : GoRandom) : Nat × GoRandom := ((g.uint64).1.toNat % 2 ^ 63, (g.uint64).2)

/-- `Int63() >> 32`. -/
def int31 (g : GoRandom) : Int × GoRandom := ((g.int63).1 / 2 ^ 32, (g.int63).2)

/-- The `n`-th state and the `n`-th word drawn from a state. -/
def after (g : GoRandom) (n : Nat) : GoRandom := (fun g : GoRandom => g.uint64.2)^[n] g
def word (g : GoRandom) (n : Nat) : BitVec 64 := (g.after n).uint64.1

def window (g : GoRandom) (k : Nat) : BitVec 64 :=
  g.vec.getD ((g.feed - 1 - k) % rngLen).toNat 0

theorem after_succ (g : GoRandom) (n : Nat) : g.after (n + 1) = (g.after n).uint64.2 :=
  Function.iterate_succ_apply' _ _ _

theorem after_after (g : GoRandom) (n : Nat) : g.uint64.2.after n = g.after (n + 1) :=
  (Function.iterate_succ_apply _ _ _).symm

theorem word_after (g : GoRandom) (n : Nat) : g.uint64.2.word n = g.word (n + 1) := by
  rw [word, word, after_after]

theorem uint64_eq_window (g : GoRandom) : g.uint64.1 = g.window 0 + g.window 334 := by
  have tap := g.tap_range
  have feed := g.feed_range
  have lag := g.lag
  have oldest : retreat g.feed = (g.feed - 1 - (0 : Nat)) % rngLen := by simp [retreat_eq feed]
  have middle : retreat g.tap = (g.feed - 1 - (334 : Nat)) % rngLen := by
    simp only [retreat_eq tap, rngLen, rngTap] at *
    omega
  simp only [uint64, window, oldest, middle]

/-- A draw shifts the window by one and appends what it returns. -/
theorem window_uint64 (g : GoRandom) (k : Nat) (inside : k < 607) :
    g.uint64.2.window k = if k = 606 then g.uint64.1 else g.window (k + 1) := by
  have feed := g.feed_range
  have size := g.vec_length
  have range := retreat_range feed
  have moved := retreat_eq feed
  simp only [uint64, window, List.getD_eq_getElem?_getD, List.getElem?_set, size]
  by_cases last : k = 606
  · have slot : (retreat g.feed).toNat = ((retreat g.feed - 1 - k) % rngLen).toNat := by
      simp only [rngLen] at *
      omega
    have bound : (retreat g.feed).toNat < 607 := by
      simp only [rngLen] at *
      omega
    rw [if_pos slot, if_pos bound, if_pos last, Option.getD_some]
  · have slot : (retreat g.feed).toNat ≠ ((retreat g.feed - 1 - k) % rngLen).toNat := by
      simp only [rngLen] at *
      omega
    have same : (retreat g.feed - 1 - k) % rngLen = (g.feed - 1 - (k + 1 : Nat)) % rngLen := by
      simp only [rngLen] at *
      omega
    rw [if_neg slot, if_neg last, same]

theorem window_after (g : GoRandom) (n j : Nat) (inside : j ≤ 606) :
    (g.after (n + 1 + j)).window (606 - j) = g.word n := by
  induction j with
  | zero => simp [after_succ, window_uint64, word]
  | succ j ih =>
    rw [← Nat.add_assoc, after_succ, window_uint64 _ _ (by omega), if_neg (by omega),
      show 606 - (j + 1) + 1 = 606 - j by omega]
    exact ih (by omega)

/-- The ring buffer realises the recurrence on the words it returns. -/
theorem word_recurrence (g : GoRandom) (n : Nat) :
    g.word (n + 607) = g.word n + g.word (n + 334) := by
  have oldest := g.window_after n 606 (by omega)
  have middle := g.window_after (n + 334) 272 (by omega)
  rw [word, uint64_eq_window, ← oldest, ← middle]

/-- `v = Int31(); while (v > max) v = Int31();`, for at most `fuel` draws. -/
def rejectAbove (max : Int) : Nat → GoRandom → Option (Int × GoRandom)
  | 0, _ => none
  | fuel + 1, g => if (g.int31).1 > max then rejectAbove max fuel (g.int31).2 else some g.int31

theorem rejectAbove_none {max : Int} {fuel : Nat} {g : GoRandom}
    (exhausted : rejectAbove max fuel g = none) :
    ∀ n < fuel, max < ((g.word n).toNat % 2 ^ 63 / 2 ^ 32 : Nat) := by
  induction fuel generalizing g with
  | zero => intro n inside; omega
  | succ fuel ih =>
    simp only [rejectAbove] at exhausted
    split at exhausted
    · rename_i rejected
      intro n inside
      cases n with
      | zero => simpa [int31, int63, word, after] using rejected
      | succ n =>
        rw [← word_after]
        exact ih exhausted n (by omega)
    · contradiction

/-- No state draws this many rejected words in a row. -/
def rejectionBound : Nat := 63 * 607

/-- The rejection loop ends from every state: a rejected word has its top bit
set, and a run of such words doubles its distance from `2 ^ 63` every lag. -/
theorem rejectAbove_isSome (max : Int) (large : 2 ^ 30 ≤ max) (g : GoRandom) :
    (rejectAbove max rejectionBound g).isSome := by
  cases result : rejectAbove max rejectionBound g with
  | some _ => rfl
  | none =>
    have rejected := rejectAbove_none result
    have bounded := Foundation.LaggedFibonacci.upper_half_run_bounded
      (fun n => (g.word n).toNat % 2 ^ 63) (2 ^ 63) 62 607 334 (62 * 607) (by omega) (by norm_num)
      (by
        intro n _
        simp only [word_recurrence, BitVec.toNat_add]
        omega)
      (by
        intro n inside
        have := rejected n (by simp only [rejectionBound]; omega)
        omega)
    omega

/-- The bound up to which a 31-bit word is accepted: the largest for which the
accepted words are a multiple of `n`, so that every residue is as likely as
another. -/
def maxFor (n : Int) : Int := 2 ^ 31 - 1 - 2 ^ 31 % n

theorem maxFor_large {n : Int} (positive : 0 < n) (range : n < 2 ^ 31) : 2 ^ 30 ≤ maxFor n := by
  have below := Int.emod_lt_of_pos (2 ^ 31) positive
  simp only [maxFor]
  by_cases small : n ≤ 2 ^ 30
  · omega
  · have once : (2 ^ 31 : Int) % n = 2 ^ 31 - n := by
      rw [← Int.sub_emod_right, Int.emod_eq_of_lt (by omega) (by omega)]
    omega

end GoRandom
end AlternatorClient
