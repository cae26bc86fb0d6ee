import AlternatorClient.GoRandom.Generator
import AlternatorClient.Foundation.Congruential

/-! The signed arithmetic `detail::GoRandom` executes, operation by operation,
with the mathematical result of each. C++17 leaves an operation undefined whose
result its type cannot represent; a left shift of a signed value is judged by
the unsigned type of the same width. -/
namespace AlternatorClient.GoRandom
open Foundation.Congruential

/-- The type a result has to be representable in. -/
inductive ResultType where
  | int32
  | int64
  | uint64
  deriving DecidableEq

def ResultType.low : ResultType → Int
  | int32 => -2 ^ 31
  | int64 => -2 ^ 63
  | uint64 => 0

def ResultType.high : ResultType → Int
  | int32 => 2 ^ 31
  | int64 => 2 ^ 63
  | uint64 => 2 ^ 64

structure SignedOperation where
  type : ResultType
  result : Int
  deriving DecidableEq

/-- The operation has the value the language gives it, and not undefined
behaviour. -/
def SignedOperation.Defined (operation : SignedOperation) : Prop :=
  operation.type.low ≤ operation.result ∧ operation.result < operation.type.high

instance SignedOperation.definedDecidable (operation : SignedOperation) :
    Decidable operation.Defined :=
  inferInstanceAs (Decidable (_ ∧ _))

/-- `static_cast<std::int64_t>(x) << count`. -/
def shiftLeft (x : Int) (count : Nat) : SignedOperation := ⟨.uint64, x * 2 ^ count⟩

def seedRandOperations (x : Int) : List SignedOperation :=
  let hi := x.tdiv 44488
  let lo := x.tmod 44488
  let difference := int32 (int32 (48271 * lo) - int32 (3399 * hi))
  [⟨.int32, hi⟩, ⟨.int32, lo⟩, ⟨.int32, 48271 * lo⟩, ⟨.int32, 3399 * hi⟩,
    ⟨.int32, int32 (48271 * lo) - int32 (3399 * hi)⟩] ++
    if difference < 0 then [⟨.int32, difference + int32Max⟩] else []

/-- The iterations of `Seed` with `i < 0`; `++i` closes each of them. -/
def warmUpOperations : Nat → Int → List SignedOperation
  | 0, _ => []
  | left + 1, x =>
    seedRandOperations x ++ ⟨.int32, -left⟩ :: warmUpOperations left (seedRand x)

/-- The iterations of `Seed` with `i >= 0`, one to each table word. -/
def seedWordsOperations : List Int → Int → Int → List SignedOperation
  | [], _, _ => []
  | _ :: rest, i, x =>
    let x₁ := seedRand x
    let x₂ := seedRand x₁
    let x₃ := seedRand x₂
    seedRandOperations x ++ shiftLeft x₁ 40 :: seedRandOperations x₁ ++
      shiftLeft x₂ 20 :: seedRandOperations x₂ ++
      ⟨.int32, i + 1⟩ :: seedWordsOperations rest (i + 1) x₃

def seedOperations (seed : Int64) : List SignedOperation :=
  let reduced := seed.toInt.tmod int32Max
  ⟨.int32, rngLen - rngTap⟩ :: ⟨.int64, reduced⟩ ::
    (if reduced < 0 then [⟨.int64, reduced + int32Max⟩] else []) ++
    warmUpOperations 20 (normalizedSeed seed) ++
    seedWordsOperations rngCooked 0 (seedRand^[20] (normalizedSeed seed))

/-- `--index; if (index < 0) index += rng_len;` -/
def retreatOperations (index : Int) : List SignedOperation :=
  ⟨.int32, index - 1⟩ :: if index - 1 < 0 then [⟨.int32, index - 1 + rngLen⟩] else []

/-- The words of `vec_` are `int64_t`; their sum is the last operation of a draw. -/
def uint64Operations (g : GoRandom) : List SignedOperation :=
  let tap := (retreat g.tap).toNat
  let feed := (retreat g.feed).toNat
  retreatOperations g.tap ++ retreatOperations g.feed ++
    [⟨.int64, (g.vec.getD feed 0).toInt + (g.vec.getD tap 0).toInt⟩]

def drawOperations (g : GoRandom) : Nat → List SignedOperation
  | 0 => []
  | n + 1 => uint64Operations g ++ drawOperations g.uint64.2 n

/-- Everything signed a generator executes up to its `n`-th draw. -/
def executedOperations (seed : Int64) (n : Nat) : List SignedOperation :=
  seedOperations seed ++ drawOperations (ofSeed seed) n

def NoSignedOverflow (seed : Int64) (n : Nat) : Prop :=
  ∀ operation ∈ executedOperations seed n, operation.Defined

/-! ### The seeding iteration stays in range -/

/-- `int32_max = a * q + r`, as the constants of `SeedRand` have it. -/
def schrage : Schrage where
  multiplier := 48271
  quotient := 44488
  remainder := 3399
  multiplier_pos := by decide
  quotient_pos := by decide
  remainder_nonneg := by decide
  remainder_le := by decide

@[simp] theorem schrage_modulus : schrage.modulus = int32Max := by decide

/-- The values that `x` takes in `Seed`: it starts inside and one step of `SeedRand`
keeps it inside, hence no operation of `SeedRand` overflows. -/
def Inside (x : Int) : Prop := 0 < x ∧ x < int32Max

theorem int32_of_range {x : Int} (low : -2 ^ 31 ≤ x) (high : x < 2 ^ 31) : int32 x = x := by
  apply Int.bmod_eq_of_le
  · simpa using low
  · simpa using high

theorem tdiv_of_inside {x : Int} (inside : Inside x) :
    x.tdiv 44488 = x / 44488 ∧ x.tmod 44488 = x % 44488 :=
  ⟨Int.tdiv_eq_ediv_of_nonneg inside.1.le, Int.tmod_eq_emod_of_nonneg inside.1.le⟩

theorem difference_of_inside {x : Int} (inside : Inside x) :
    -int32Max < schrage.difference x ∧ schrage.difference x < int32Max := by
  rw [← schrage_modulus]
  exact schrage.difference_range inside.1.le (schrage_modulus ▸ inside.2)

/-- The machine computes Schrage's difference: nothing wraps on the way. -/
theorem int32_difference {x : Int} (inside : Inside x) :
    int32 (48271 * (x % 44488)) - int32 (3399 * (x / 44488)) = schrage.difference x ∧
      int32 (schrage.difference x) = schrage.difference x := by
  have range := difference_of_inside inside
  obtain ⟨positive, below⟩ := inside
  simp only [int32Max] at *
  have low : int32 (48271 * (x % 44488)) = 48271 * (x % 44488) :=
    int32_of_range (by omega) (by omega)
  have high : int32 (3399 * (x / 44488)) = 3399 * (x / 44488) :=
    int32_of_range (by omega) (by omega)
  refine ⟨?_, int32_of_range (by omega) (by omega)⟩
  rw [low, high]
  rfl

theorem seedRand_eq {x : Int} (inside : Inside x) : seedRand x = 48271 * x % int32Max := by
  obtain ⟨difference, representable⟩ := int32_difference inside
  have range := difference_of_inside inside
  have residue := schrage.residue_eq inside.1.le (schrage_modulus ▸ inside.2)
  rw [schrage_modulus] at residue
  simp only [seedRand, tdiv_of_inside inside, difference, representable]
  rw [show (48271 : Int) = schrage.multiplier from rfl, ← residue]
  split
  · simp only [int32Max] at *
    exact int32_of_range (by omega) (by omega)
  · rfl

theorem seedRand_inside {x : Int} (inside : Inside x) : Inside (seedRand x) := by
  rw [seedRand_eq inside]
  constructor
  · exact residue_pos (by decide) inside.1 inside.2
  · exact Int.emod_lt_of_pos _ (by decide)

theorem normalizedSeed_inside (seed : Int64) : Inside (normalizedSeed seed) := by
  have low := Int.lt_tmod_of_pos seed.toInt (show 0 < int32Max by decide)
  have high := Int.tmod_lt_of_pos seed.toInt (show 0 < int32Max by decide)
  simp only [normalizedSeed, Inside]
  generalize seed.toInt.tmod int32Max = reduced at *
  simp only [int32Max] at *
  split <;> split <;> omega

theorem seedRand_iterate {x : Int} (inside : Inside x) (n : Nat) :
    Inside (seedRand^[n] x) ∧ seedRand^[n] x = 48271 ^ n * x % int32Max :=
  iterate_eq seedRand Inside (fun _ => seedRand_inside) (fun _ => seedRand_eq) inside
    (Int.emod_eq_of_lt inside.1.le inside.2) n

theorem seedRandOperations_defined {x : Int} (inside : Inside x) :
    ∀ operation ∈ seedRandOperations x, operation.Defined := by
  obtain ⟨difference, representable⟩ := int32_difference inside
  have range := difference_of_inside inside
  obtain ⟨positive, below⟩ := id inside
  simp only [int32Max] at range below
  intro operation member
  simp only [seedRandOperations, tdiv_of_inside inside, difference, representable,
    List.mem_append] at member
  rcases member with member | member
  · simp only [List.mem_cons, List.not_mem_nil, or_false] at member
    rcases member with rfl | rfl | rfl | rfl | rfl <;>
      simp only [SignedOperation.Defined, ResultType.low, ResultType.high] <;> omega
  · split at member
    · obtain rfl := List.mem_singleton.mp member
      simp only [SignedOperation.Defined, ResultType.low, ResultType.high, int32Max]
      omega
    · contradiction

theorem warmUpOperations_defined {x : Int} (inside : Inside x) (left : Nat) (short : left ≤ 20) :
    ∀ operation ∈ warmUpOperations left x, operation.Defined := by
  induction left generalizing x with
  | zero => simp [warmUpOperations]
  | succ left ih =>
    intro operation member
    simp only [warmUpOperations, List.mem_append, List.mem_cons] at member
    rcases member with member | rfl | member
    · exact seedRandOperations_defined inside operation member
    · simp only [SignedOperation.Defined, ResultType.low, ResultType.high]
      omega
    · exact ih (seedRand_inside inside) (by omega) operation member

theorem seedWordsOperations_int32_defined (cooked : List Int) {i x : Int} (inside : Inside x)
    (start : 0 ≤ i) (short : i + cooked.length < 2 ^ 31) :
    ∀ operation ∈ seedWordsOperations cooked i x, operation.type = .int32 → operation.Defined := by
  induction cooked generalizing i x with
  | nil => simp [seedWordsOperations]
  | cons word rest ih =>
    have inside₁ := seedRand_inside inside
    have inside₂ := seedRand_inside inside₁
    intro operation member type
    simp only [List.length_cons] at short
    simp only [seedWordsOperations, List.mem_append, List.mem_cons] at member
    rcases member with ((member | rfl | member) | rfl | member) | rfl | member
    · exact seedRandOperations_defined inside operation member
    · contradiction
    · exact seedRandOperations_defined inside₁ operation member
    · contradiction
    · exact seedRandOperations_defined inside₂ operation member
    · simp only [SignedOperation.Defined, ResultType.low, ResultType.high]
      omega
    · exact ih (seedRand_inside inside₂) (by omega) (by omega) operation member type

theorem retreatOperations_defined {index : Int} (range : 0 ≤ index ∧ index < rngLen) :
    ∀ operation ∈ retreatOperations index, operation.Defined := by
  intro operation member
  simp only [retreatOperations, List.mem_cons] at member
  simp only [rngLen] at range
  rcases member with rfl | member
  · simp only [SignedOperation.Defined, ResultType.low, ResultType.high]
    omega
  · split at member
    · obtain rfl := List.mem_singleton.mp member
      simp only [SignedOperation.Defined, ResultType.low, ResultType.high, rngLen]
      omega
    · contradiction

theorem drawOperations_int32_defined (g : GoRandom) (n : Nat) :
    ∀ operation ∈ drawOperations g n, operation.type = .int32 → operation.Defined := by
  induction n generalizing g with
  | zero => simp [drawOperations]
  | succ n ih =>
    intro operation member type
    simp only [drawOperations, uint64Operations, List.mem_append, List.mem_singleton] at member
    rcases member with ((member | member) | rfl) | member
    · exact retreatOperations_defined g.tap_range operation member
    · exact retreatOperations_defined g.feed_range operation member
    · contradiction
    · exact ih g.uint64.2 operation member type

/-- The products, differences and index steps in `int` never overflow: what is
left to fail are the 64-bit shifts and sums. -/
theorem int32_operations_defined (seed : Int64) (n : Nat) :
    ∀ operation ∈ executedOperations seed n, operation.type = .int32 → operation.Defined := by
  have inside := normalizedSeed_inside seed
  intro operation member type
  simp only [executedOperations, seedOperations, List.mem_append, List.mem_cons] at member
  rcases member with (((rfl | rfl | member) | member) | member) | member
  · decide
  · contradiction
  · split at member
    · obtain rfl := List.mem_singleton.mp member
      contradiction
    · contradiction
  · exact warmUpOperations_defined inside 20 le_rfl operation member
  · exact seedWordsOperations_int32_defined rngCooked (seedRand_iterate inside 20).1 le_rfl
      (by rw [rngCooked_length]; decide) operation member type
  · exact drawOperations_int32_defined (ofSeed seed) n operation member type

/-! ### The undefined shift -/

/-- The shift by 40 of word `k` takes the first of the word's three draws. -/
theorem shiftLeft_mem_seedWordsOperations (cooked : List Int) (i x : Int) (k : Nat)
    (bound : k < cooked.length) :
    shiftLeft (seedRand^[3 * k + 1] x) 40 ∈ seedWordsOperations cooked i x := by
  induction cooked generalizing i x k with
  | nil => contradiction
  | cons word rest ih =>
    simp only [seedWordsOperations]
    cases k with
    | zero => simp
    | succ k =>
      have member := ih (i + 1) (seedRand (seedRand (seedRand x))) k (by simpa using bound)
      rw [← Function.iterate_succ_apply, ← Function.iterate_succ_apply,
        ← Function.iterate_succ_apply] at member
      simp only [List.mem_append, List.mem_cons]
      exact .inr (.inr member)

theorem shiftLeft_mem_executedOperations (seed : Int64) (n k : Nat) (bound : k < 607) :
    shiftLeft (seedRand^[3 * k + 21] (normalizedSeed seed)) 40 ∈ executedOperations seed n := by
  have member := shiftLeft_mem_seedWordsOperations rngCooked 0
    (seedRand^[20] (normalizedSeed seed)) k (by rw [rngCooked_length]; exact bound)
  rw [← Function.iterate_add_apply, Nat.add_assoc] at member
  simp only [executedOperations, seedOperations, List.mem_append]
  exact .inl (.inr member)

theorem shiftLeft_undefined {x : Int} (large : 2 ^ 24 ≤ x) : ¬ (shiftLeft x 40).Defined := by
  simp only [shiftLeft, SignedOperation.Defined, ResultType.high]
  omega

/-- Five of the words whose leading draws add up to a multiple of `int32_max`. -/
def vanishingWords : List Nat := [0, 3, 26, 457, 494]

theorem vanishingWords_dvd :
    int32Max ∣ (vanishingWords.map (fun k => (48271 : Int) ^ (3 * k + 21))).sum := by
  decide +kernel

/-- Whatever the seed, one of five leading draws is too large for its shift:
all of them below `2 ^ 24` could not add up to a multiple of `int32_max`. -/
theorem exists_large_draw {x : Int} (inside : Inside x) :
    ∃ k < 607, 2 ^ 24 ≤ seedRand^[3 * k + 21] x := by
  obtain ⟨factor, member, large⟩ := exists_large_residue x (2 ^ 24)
    (show vanishingWords.map (fun k => (48271 : Int) ^ (3 * k + 21)) ≠ [] by decide)
    vanishingWords_dvd
    (by
      intro factor member
      obtain ⟨k, -, rfl⟩ := List.mem_map.mp member
      rw [← (seedRand_iterate inside _).2]
      exact (seedRand_iterate inside _).1.1)
    (by decide)
  obtain ⟨k, word, rfl⟩ := List.mem_map.mp member
  have early : ∀ k ∈ vanishingWords, k < 607 := by decide
  refine ⟨k, early k word, ?_⟩
  rw [(seedRand_iterate inside _).2]
  exact large

/-- No seed and no number of draws avoids undefined behaviour: `Seed` itself
shifts a draw of `2 ^ 24` or more by 40. -/
theorem not_noSignedOverflow (seed : Int64) (n : Nat) : ¬ NoSignedOverflow seed n := by
  intro defined
  obtain ⟨k, bound, large⟩ := exists_large_draw (normalizedSeed_inside seed)
  exact shiftLeft_undefined large (defined _ (shiftLeft_mem_executedOperations seed n k bound))

/-- Seed 1 meets it while its first word is built, before anything has been drawn:
`Seed` shifts a value of `2 ^ 24` or more by 40. -/
theorem seed_one_overflows : ¬ NoSignedOverflow 1 0 := by
  intro defined
  have large : 2 ^ 24 ≤ seedRand^[3 * 0 + 21] (normalizedSeed 1) := by decide +kernel
  exact shiftLeft_undefined large (defined _ (shiftLeft_mem_executedOperations 1 0 0 (by decide)))

end AlternatorClient.GoRandom
