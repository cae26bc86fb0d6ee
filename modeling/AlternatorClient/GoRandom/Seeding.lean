import AlternatorClient.GoRandom.SignedArithmetic

/-! What `GoRandom::Seed` runs through. Its iteration multiplies by 48271 modulo
the prime `2^31 - 1`; every word of `vec_` is made of three of its values. -/
namespace AlternatorClient.GoRandom

def seedingValue (seed : Int64) (k : Nat) : Int := seedRand^[k] (normalizedSeed seed)

theorem inside_iff (x : Int) : Inside x ↔ 1 ≤ x ∧ x ≤ 2 ^ 31 - 2 := by
  simp only [Inside, int32Max]
  omega

/-- The residue of the seed, and a constant in place of zero. -/
theorem normalizedSeed_eq (seed : Int64) :
    normalizedSeed seed =
      if seed.toInt % int32Max = 0 then 89482311 else seed.toInt % int32Max := by
  have positive : 0 < int32Max := by decide
  have low := Int.lt_tmod_of_pos seed.toInt positive
  have high := Int.tmod_lt_of_pos seed.toInt positive
  have congruent : seed.toInt.tmod int32Max % int32Max = seed.toInt % int32Max := by
    rw [Int.tmod_def, Int.sub_mul_emod_self_left]
  rw [← congruent]
  simp only [normalizedSeed]
  generalize seed.toInt.tmod int32Max = reduced at *
  by_cases negative : reduced < 0
  · have shifted : reduced % int32Max = reduced + int32Max := by
      rw [← Int.add_emod_right, Int.emod_eq_of_lt (by omega) (by omega)]
    rw [if_pos negative, shifted]
  · rw [if_neg negative, Int.emod_eq_of_lt (by omega) high]

/-- Word `k` takes the three draws that follow those of the words before it. -/
theorem seedWords_getElem? (cooked : List Int) (x : Int) (k : Nat) :
    (seedWords cooked x)[k]? = cooked[k]?.map fun word =>
      BitVec.ofInt 64 (seedRand^[3 * k + 1] x) <<< 40 ^^^
        BitVec.ofInt 64 (seedRand^[3 * k + 2] x) <<< 20 ^^^
        BitVec.ofInt 64 (seedRand^[3 * k + 3] x) ^^^ BitVec.ofInt 64 word := by
  induction cooked generalizing x k with
  | nil => rfl
  | cons word rest ih =>
    cases k with
    | zero => rfl
    | succ k =>
      have later : ∀ n, seedRand^[n] (seedRand (seedRand (seedRand x))) = seedRand^[n + 3] x := by
        intro n
        rw [Function.iterate_add_apply]
        rfl
      rw [seedWords, List.getElem?_cons_succ, List.getElem?_cons_succ, ih, later, later, later]
      rfl

theorem vec_ofSeed (seed : Int64) (i : Nat) :
    (ofSeed seed).vec[i]? = rngCooked[i]?.map fun word =>
      BitVec.ofInt 64 (seedingValue seed (20 + 3 * i + 1)) <<< 40 ^^^
        BitVec.ofInt 64 (seedingValue seed (20 + 3 * i + 2)) <<< 20 ^^^
        BitVec.ofInt 64 (seedingValue seed (20 + 3 * i + 3)) ^^^ BitVec.ofInt 64 word := by
  have later : ∀ n, seedRand^[n] (seedRand^[20] (normalizedSeed seed)) =
      seedingValue seed (20 + n) := by
    intro n
    rw [seedingValue, Nat.add_comm, Function.iterate_add_apply]
  rw [ofSeed, seedWords_getElem?]
  simp only [later, Nat.add_assoc]

/-- `SeedRand` multiplies by 48271 modulo `2^31 - 1` without an overflow, and
keeps the values of `Seed` in range; from every seed all of them are powers of
the multiplier times the normalised seed. -/
theorem seeding_exact :
    (∀ x : Int, 1 ≤ x → x ≤ 2 ^ 31 - 2 →
      seedRand x = 48271 * x % (2 ^ 31 - 1) ∧ 1 ≤ seedRand x ∧ seedRand x ≤ 2 ^ 31 - 2 ∧
        ∀ operation ∈ seedRandOperations x, operation.Defined) ∧
    ∀ seed : Int64,
      normalizedSeed seed = (if seed.toInt % (2 ^ 31 - 1) = 0 then 89482311
        else seed.toInt % (2 ^ 31 - 1)) ∧
      (∀ k, (1 ≤ seedingValue seed k ∧ seedingValue seed k ≤ 2 ^ 31 - 2) ∧
        seedingValue seed k = 48271 ^ k * normalizedSeed seed % (2 ^ 31 - 1)) ∧
      ∀ i < 607, ∃ word, (ofSeed seed).vec[i]? = some
        (BitVec.ofInt 64 (seedingValue seed (20 + 3 * i + 1)) <<< 40 ^^^
          BitVec.ofInt 64 (seedingValue seed (20 + 3 * i + 2)) <<< 20 ^^^
          BitVec.ofInt 64 (seedingValue seed (20 + 3 * i + 3)) ^^^ BitVec.ofInt 64 word) ∧
        rngCooked[i]? = some word := by
  constructor
  · intro x low high
    have inside := (inside_iff x).mpr ⟨low, high⟩
    have next := (inside_iff _).mp (seedRand_inside inside)
    exact ⟨seedRand_eq inside, next.1, next.2, seedRandOperations_defined inside⟩
  · intro seed
    refine ⟨normalizedSeed_eq seed, ?_, ?_⟩
    · intro k
      obtain ⟨inside, power⟩ := seedRand_iterate (normalizedSeed_inside seed) k
      exact ⟨(inside_iff _).mp inside, power⟩
    · intro i early
      rw [← rngCooked_length] at early
      have cooked := List.getElem?_eq_getElem early
      refine ⟨_, ?_, cooked⟩
      rw [vec_ofSeed, cooked]
      rfl

/-- The largest value of the iteration, and the last word of the smallest seed,
which takes values 1839 to 1841. -/
theorem seeding_exact_extremes :
    seedRand (2 ^ 31 - 2) = 48271 * (2 ^ 31 - 2) % (2 ^ 31 - 1) ∧
      normalizedSeed Int64.minValue = 2147483645 ∧
      1 ≤ seedingValue Int64.minValue 1841 ∧
      ∃ word, (ofSeed Int64.minValue).vec[606]? = some
        (BitVec.ofInt 64 (seedingValue Int64.minValue 1839) <<< 40 ^^^
          BitVec.ofInt 64 (seedingValue Int64.minValue 1840) <<< 20 ^^^
          BitVec.ofInt 64 (seedingValue Int64.minValue 1841) ^^^ BitVec.ofInt 64 word) := by
  obtain ⟨multiplies, seeds⟩ := seeding_exact
  obtain ⟨normalized, values, words⟩ := seeds Int64.minValue
  obtain ⟨word, last, -⟩ := words 606 (by decide)
  refine ⟨(multiplies _ (by decide) (by decide)).1, ?_, (values 1841).1.1, word, last⟩
  rw [normalized]
  decide

end AlternatorClient.GoRandom
