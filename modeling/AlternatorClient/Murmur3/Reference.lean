import AlternatorClient.Murmur3
import Mathlib.Data.List.Induction

/-! MurmurHash3_x64_128 as its definition has it, and that `Murmur3H1` is its
first half. The definition reads a word as the number its bytes stand for,
folds the block mix over the full blocks and pads what is left with zeros; the
code ors shifted bytes together, falls through a switch and mixes a key only
where the switch enters at or above its first byte. -/
namespace AlternatorClient
open Foundation

namespace Murmur3.Reference

/-- The number that the bytes stand for, the first byte the lowest. -/
def littleEndian (data : Bytes) : Nat := data.foldr (fun byte rest => byte.toNat + 256 * rest) 0

def word (data : Bytes) : BitVec 64 := BitVec.ofNat 64 (littleEndian data)

def mixKey1 (k : BitVec 64) : BitVec 64 :=
  (k * 0x87c37b91114253d5#64).rotateLeft 31 * 0x4cf5ad432745937f#64

def mixKey2 (k : BitVec 64) : BitVec 64 :=
  (k * 0x4cf5ad432745937f#64).rotateLeft 33 * 0x87c37b91114253d5#64

def fmix64 (k : BitVec 64) : BitVec 64 :=
  let k := (k ^^^ k >>> 33) * 0xff51afd7ed558ccd#64
  let k := (k ^^^ k >>> 33) * 0xc4ceb9fe1a85ec53#64
  k ^^^ k >>> 33

/-- One block of sixteen bytes, as two little-endian words: each is mixed into its
half, which is then rotated and takes up the other. -/
def mixBlock (h : BitVec 64 × BitVec 64) (block : Bytes) : BitVec 64 × BitVec 64 :=
  let h1 := h.1 ^^^ mixKey1 (word (block.take 8))
  let h1 := (h1.rotateLeft 27 + h.2) * 5 + 0x52dce729
  let h2 := h.2 ^^^ mixKey2 (word (block.drop 8))
  let h2 := (h2.rotateLeft 31 + h1) * 5 + 0x38495ab5
  (h1, h2)

def fullBlocks (data : Bytes) : List Bytes :=
  (List.range (data.length / 16)).map fun i => (data.drop (i * 16)).take 16

def remaining (data : Bytes) : Bytes := data.drop (data.length / 16 * 16)

def zeroPad (data : Bytes) : Bytes := data ++ List.replicate (16 - data.length) 0

/-- The keys of what is left, which are mixed in whether or not any byte is. -/
def mixRemaining (h : BitVec 64 × BitVec 64) (rest : Bytes) : BitVec 64 × BitVec 64 :=
  (h.1 ^^^ mixKey1 (word ((zeroPad rest).take 8)), h.2 ^^^ mixKey2 (word ((zeroPad rest).drop 8)))

/-- The two halves of the hash, of which the source returns the first. The blocks
are folded in order; what is left of the data is mixed in before the length. -/
def x64_128 (seed : BitVec 32) (data : Bytes) : BitVec 64 × BitVec 64 :=
  let start := seed.setWidth 64
  let h := mixRemaining ((fullBlocks data).foldl mixBlock (start, start)) (remaining data)
  let h1 := h.1 ^^^ BitVec.ofNat 64 data.length
  let h2 := h.2 ^^^ BitVec.ofNat 64 data.length
  let h1 := h1 + h2
  let h2 := h2 + h1
  let h1 := fmix64 h1
  let h2 := fmix64 h2
  (h1 + h2, h2 + (h1 + h2))

end Murmur3.Reference

namespace Murmur3
open Reference

theorem littleEndian_testBit (data : Bytes) (j : Nat) :
    (littleEndian data).testBit j = (data.getD (j / 8) 0).toNat.testBit (j % 8) := by
  induction data generalizing j with
  | nil => simp [littleEndian]
  | cons byte data ih =>
    have split : littleEndian (byte :: data) = 2 ^ 8 * littleEndian data + byte.toNat := by
      simp only [littleEndian, List.foldr_cons]
      omega
    rw [split, Nat.testBit_two_pow_mul_add _ byte.toNat_lt]
    by_cases low : j < 8
    · rw [if_pos low, Nat.div_eq_of_lt low, Nat.mod_eq_of_lt low, List.getD_cons_zero]
    · have next : j / 8 = (j - 8) / 8 + 1 := by omega
      rw [if_neg low, ih, next, List.getD_cons_succ, ← Nat.mod_eq_sub_mod (by omega)]

theorem word_getLsbD (data : Bytes) {j : Nat} (inside : j < 64) :
    (word data).getLsbD j = (data.getD (j / 8) 0).toNat.testBit (j % 8) := by
  rw [word, BitVec.getLsbD_ofNat, littleEndian_testBit, decide_eq_true inside, Bool.true_and]

/-- Of a byte that was shifted to the `place`-th position only the bits of that position are set. -/
theorem byteAt_shifted (data : Bytes) (i place : Nat) {j : Nat} (inside : j < 64) :
    (byteAt data i <<< (8 * place)).getLsbD j =
      (decide (place = j / 8) && (data.getD i 0).toNat.testBit (j % 8)) := by
  have small : (data.getD i 0).toNat < 2 ^ 8 := (data.getD i 0).toNat_lt
  rw [BitVec.getLsbD_shiftLeft, byteAt, BitVec.getLsbD_ofNat]
  rcases lt_trichotomy place (j / 8) with below | rfl | above
  · have high : (data.getD i 0).toNat.testBit (j - 8 * place) = false :=
      Nat.testBit_lt_two_pow (small.trans_le (Nat.pow_le_pow_right (by decide) (by omega)))
    rw [high, decide_eq_false below.ne, Bool.and_false, Bool.and_false, Bool.false_and]
  · have offset : j - 8 * (j / 8) = j % 8 := by omega
    rw [offset, decide_eq_true inside, decide_eq_false (by omega), decide_eq_true rfl,
      decide_eq_true (by omega)]
    rfl
  · rw [decide_eq_true (by omega : j < 8 * place), decide_eq_false above.ne']
    simp

/-- Bytes put together by an operation that keeps a bit beside a clear one: each
bit comes from the only byte that reaches it. -/
theorem getLsbD_foldl (op : BitVec 64 → BitVec 64 → BitVec 64) {j : Nat}
    (beside : ∀ x y : BitVec 64, y.getLsbD j = false → (op x y).getLsbD j = x.getLsbD j)
    (onto : ∀ x y : BitVec 64, x.getLsbD j = false → (op x y).getLsbD j = y.getLsbD j)
    {term : Nat → BitVec 64} {owner : Nat} {is : List Nat} (distinct : is.Nodup)
    (alone : ∀ i ∈ is, i ≠ owner → (term i).getLsbD j = false) (k : BitVec 64)
    (clear : k.getLsbD j = false) :
    (is.foldl (fun k i => op k (term i)) k).getLsbD j =
      (decide (owner ∈ is) && (term owner).getLsbD j) := by
  induction is using List.reverseRecOn with
  | nil => simpa using clear
  | append_singleton is i ih =>
    obtain ⟨distinct, -, fresh⟩ := List.nodup_append.mp distinct
    have before := ih distinct fun i member => alone i (List.mem_append_left _ member)
    rw [List.foldl_append, List.foldl_cons, List.foldl_nil]
    by_cases here : i = owner
    · subst here
      have absent : i ∉ is := fun member => fresh i member i (List.mem_singleton_self i) rfl
      rw [decide_eq_false absent, Bool.false_and] at before
      rw [onto _ _ before, decide_eq_true (List.mem_append_right _ (List.mem_singleton_self i)),
        Bool.true_and]
    · rw [beside _ _ (alone i (List.mem_append_right _ (List.mem_singleton_self i)) here), before]
      simp [Ne.symm here]

theorem readLittleEndian64_eq (data : Bytes) : readLittleEndian64 data = word data := by
  apply BitVec.eq_of_getLsbD_eq
  intro j inside
  have alone : ∀ i ∈ List.range 8, i ≠ j / 8 → (byteAt data i <<< (8 * i)).getLsbD j = false := by
    intro i _ other
    rw [byteAt_shifted _ _ _ inside, decide_eq_false other, Bool.false_and]
  have loop := getLsbD_foldl (· ||| ·) (by simp +contextual) (by simp +contextual)
    List.nodup_range alone 0 (by simp)
  rw [readLittleEndian64, loop, decide_eq_true (List.mem_range.mpr (by omega)), Bool.true_and,
    byteAt_shifted _ _ _ inside, decide_eq_true rfl, Bool.true_and, word_getLsbD _ inside]

theorem byteAt_of_length_le {data : Bytes} {i : Nat} (beyond : data.length ≤ i) :
    byteAt data i = 0#64 := by
  rw [byteAt, List.getD_eq_getElem?_getD, List.getElem?_eq_none beyond]
  rfl

/-- Entering the switch at the length of the tail leaves out only bytes that are
not there, so the cases of a key read the word of its bytes. -/
theorem tailKey_eq (rest : Bytes) {first : Nat} {cases : List Nat} (distinct : cases.Nodup)
    (owned : ∀ place < 8, first + place ∈ cases ∨ rest.length ≤ first + place)
    (above : ∀ i ∈ cases, first ≤ i) :
    tailKey rest rest.length first cases = word (rest.drop first) := by
  have whole : tailKey rest rest.length first cases =
      cases.foldl (fun k i => k ^^^ byteAt rest i <<< (8 * (i - first))) 0 := by
    unfold tailKey
    congr 1
    funext k i
    split
    · rfl
    · rename_i beyond
      rw [byteAt_of_length_le (not_lt.mp beyond), BitVec.zero_shiftLeft, BitVec.xor_zero]
  apply BitVec.eq_of_getLsbD_eq
  intro j inside
  have alone : ∀ i ∈ cases, i ≠ first + j / 8 →
      (byteAt rest i <<< (8 * (i - first))).getLsbD j = false := by
    intro i member other
    have later := above i member
    rw [byteAt_shifted _ _ _ inside, decide_eq_false (by omega), Bool.false_and]
  have switch := getLsbD_foldl (· ^^^ ·) (by simp +contextual) (by simp +contextual)
    distinct alone 0 (by simp)
  rw [whole, switch, byteAt_shifted _ _ _ inside, Nat.add_sub_cancel_left, decide_eq_true rfl,
    Bool.true_and, word_getLsbD _ inside, List.getD_eq_getElem?_getD, List.getD_eq_getElem?_getD,
    List.getElem?_drop]
  rcases owned (j / 8) (by omega) with member | beyond
  · rw [decide_eq_true member, Bool.true_and]
  · simp [List.getElem?_eq_none beyond]

theorem rotl_eq (x : BitVec 64) {r : Nat} (small : r < 64) : rotl x r = x.rotateLeft r := by
  rw [rotl, BitVec.rotateLeft_def, Nat.mod_eq_of_lt small]

theorem mixK1_eq (k : BitVec 64) : mixK1 k = mixKey1 k := by
  rw [mixK1, rotl_eq _ (by decide)]
  rfl

theorem mixK2_eq (k : BitVec 64) : mixK2 k = mixKey2 k := by
  rw [mixK2, rotl_eq _ (by decide)]
  rfl

theorem fmix_eq (k : BitVec 64) : fmix k = fmix64 k := rfl

/-- Only the first eight bytes reach a word, and absent ones count as zero. -/
theorem word_congr {a b : Bytes} (same : ∀ i < 8, a.getD i 0 = b.getD i 0) : word a = word b := by
  apply BitVec.eq_of_getLsbD_eq
  intro j inside
  rw [word_getLsbD _ inside, word_getLsbD _ inside, same _ (by omega)]

theorem block_eq (h : BitVec 64 × BitVec 64) (data : Bytes) :
    block h data = mixBlock h (data.take 16) := by
  have low : word data = word ((data.take 16).take 8) := by
    apply word_congr
    intro i small
    have inside : i < 16 := by omega
    simp [List.getD_eq_getElem?_getD, small, inside]
  have high : word (data.drop 8) = word ((data.take 16).drop 8) := by
    apply word_congr
    intro i small
    have inside : 8 + i < 16 := by omega
    simp [List.getD_eq_getElem?_getD, List.getElem?_drop, inside]
  simp only [block, mixBlock, readLittleEndian64_eq, mixK1_eq, mixK2_eq,
    rotl_eq _ (by decide : 27 < 64), rotl_eq _ (by decide : 31 < 64), low, high]

theorem getD_zeroPad (rest : Bytes) (i : Nat) : (zeroPad rest).getD i 0 = rest.getD i 0 := by
  simp only [zeroPad, List.getD_eq_getElem?_getD, List.getElem?_append, List.getElem?_replicate]
  split
  · rfl
  · rename_i beyond
    rw [List.getElem?_eq_none (not_lt.mp beyond)]
    split <;> rfl

theorem word_zeroPad_take (rest : Bytes) : word ((zeroPad rest).take 8) = word rest := by
  apply word_congr
  intro i small
  rw [← getD_zeroPad rest i]
  simp [List.getD_eq_getElem?_getD, small]

theorem word_zeroPad_drop (rest : Bytes) : word ((zeroPad rest).drop 8) = word (rest.drop 8) := by
  apply word_congr
  intro i small
  simpa [List.getD_eq_getElem?_getD, List.getElem?_drop] using getD_zeroPad rest (8 + i)

/-- A key without bytes would be mixed in as zero. -/
theorem xor_mix_of_entered (h : BitVec 64) {mix : BitVec 64 → BitVec 64} (still : mix 0#64 = 0#64)
    (key : Bytes) {entered : Prop} [Decidable entered] (skipped : ¬entered → key = []) :
    (if entered then h ^^^ mix (word key) else h) = h ^^^ mix (word key) := by
  split
  · rfl
  · rename_i outside
    have zero : word [] = 0#64 := rfl
    rw [skipped outside, zero, still, BitVec.xor_zero]

/-- The switch agrees with the padded definition for every remainder. -/
theorem tail_eq (h : BitVec 64 × BitVec 64) (rest : Bytes) (short : rest.length < 16) :
    tail h rest rest.length = mixRemaining h rest := by
  have low : tailKey rest rest.length 0 [7, 6, 5, 4, 3, 2, 1, 0] = word rest :=
    tailKey_eq rest (by decide) (by simp; omega) (by simp)
  have high : tailKey rest rest.length 8 [14, 13, 12, 11, 10, 9, 8] = word (rest.drop 8) :=
    tailKey_eq rest (by decide) (by simp; omega) (by decide)
  have first : ¬1 ≤ rest.length → rest = [] := by
    intro outside
    exact List.eq_nil_of_length_eq_zero (by omega)
  have second : ¬9 ≤ rest.length → rest.drop 8 = [] := by
    intro outside
    exact List.drop_eq_nil_of_le (by omega)
  simp only [tail, mixRemaining, low, high, mixK1_eq, mixK2_eq, word_zeroPad_take,
    word_zeroPad_drop, xor_mix_of_entered h.1 (by decide : mixKey1 0#64 = 0#64) rest first,
    xor_mix_of_entered h.2 (by decide : mixKey2 0#64 = 0#64) (rest.drop 8) second]

theorem murmur3H1_eq (data : Bytes) : murmur3H1 data = Int64.ofBitVec (x64_128 0 data).1 := by
  have blocks :
      (List.range (data.length / 16)).foldl (fun h i => block h (data.drop (i * 16))) (0, 0) =
        (fullBlocks data).foldl mixBlock (0, 0) := by
    simp only [fullBlocks, List.foldl_map, block_eq]
  have mask : data.length &&& 15 = data.length % 16 :=
    Nat.and_two_pow_sub_one_eq_mod data.length 4
  have length : (remaining data).length = data.length % 16 := by
    simp only [remaining, List.length_drop]
    omega
  have rest := tail_eq ((fullBlocks data).foldl mixBlock (0, 0)) (remaining data) (by omega)
  rw [length, ← mask, remaining] at rest
  simp only [murmur3H1, x64_128, blocks, rest, fmix_eq]
  rfl

end Murmur3

open Murmur3 Murmur3.Reference

def AttributeValueType.typePrefix : AttributeValueType → UInt8
  | .string => 0x01
  | .number => 0x02
  | .binary => 0x03

theorem hashAttributeValue_eq (type : AttributeValueType) (value : Bytes) :
    hashAttributeValue type value = murmur3H1 (type.typePrefix :: value) := by
  cases type <;> rfl

/-- Converting a char by value and reading its bits are the same, negative chars included. -/
theorem insertChars_toInt8 (data : Bytes) : insertChars (data.map UInt8.toInt8) = data := by
  rw [insertChars, List.map_map]
  apply List.map_id''
  intro byte
  exact forall_byte (P := fun byte => UInt8.ofInt byte.toInt8.toInt = byte) (by decide +kernel) byte

theorem murmur3H1View_toInt8 (data : Bytes) :
    murmur3H1View (data.map UInt8.toInt8) = murmur3H1 data := by
  rw [murmur3H1View, List.map_map]
  congr 1
  apply List.map_id''
  intro byte
  simp

/-- `Murmur3H1` is the first half of the reference hash with seed 0, read as a
signed number; the switch of the tail is the zero-padded definition; and
however a byte string arrives, as bytes or as signed chars, alone or behind the
prefix of its type, it is this hash that is returned. -/
theorem murmur3H1_reference (data : Bytes) :
    murmur3H1 data = Int64.ofBitVec (x64_128 0 data).1 ∧
      (∀ h rest, rest.length < 16 → tail h rest rest.length = mixRemaining h rest) ∧
      murmur3H1View (data.map UInt8.toInt8) = Int64.ofBitVec (x64_128 0 data).1 ∧
      (∀ type : AttributeValueType,
        hashAttributeValue type data = Int64.ofBitVec (x64_128 0 (type.typePrefix :: data)).1 ∧
          hashAttributeValueView type (data.map UInt8.toInt8) =
            Int64.ofBitVec (x64_128 0 (type.typePrefix :: data)).1) ∧
      hashBinaryAttributeValue data =
        Int64.ofBitVec (x64_128 0 (AttributeValueType.binary.typePrefix :: data)).1 := by
  refine ⟨murmur3H1_eq data, tail_eq, ?_, ?_, murmur3H1_eq _⟩
  · rw [murmur3H1View_toInt8, murmur3H1_eq]
  · intro type
    constructor
    · rw [hashAttributeValue_eq, murmur3H1_eq]
    · rw [hashAttributeValueView, insertChars_toInt8, hashAttributeValue_eq, murmur3H1_eq]

/-- Two vectors of the tests: a short text, and bytes that would be negative as chars. -/
example : hashAttributeValue .string (bytes "hello") = 8815023923555918238 ∧
    hashBinaryAttributeValue [0xFF, 0x00, 0x80] = 14533934253577680 := by
  decide +kernel

/-- A remainder of two bytes, the second of which has its high bit set. -/
theorem murmur3H1_reference_short :
    tail (0, 0) [0x61, 0xFF] 2 = mixRemaining (0, 0) [0x61, 0xFF] :=
  (murmur3H1_reference []).2.1 (0, 0) [0x61, 0xFF] (by decide)

end AlternatorClient
