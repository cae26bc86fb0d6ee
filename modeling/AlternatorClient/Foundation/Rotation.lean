import Mathlib.Data.Int.CardIntervalMod
import Mathlib.Data.List.Count
import Mathlib.Data.List.Nodup

/-! Reading a list round and round, and a rotation that gives every
`interval`-th turn to a second list. No position of either list is skipped. -/
namespace Foundation
variable {α : Type}

def cyclic (l : List α) (fallback : α) (i : Nat) : α := l.getD (i % l.length) fallback

def cycle (l : List α) (fallback : α) (start n : Nat) : List α :=
  (List.range n).map fun j => cyclic l fallback (start + j)

theorem cyclic_mem {l : List α} (some : l ≠ []) (fallback : α) (i : Nat) :
    cyclic l fallback i ∈ l := by
  have inside : i % l.length < l.length := Nat.mod_lt _ (List.length_pos_iff.mpr some)
  rw [cyclic, List.getD_eq_getElem?_getD, List.getElem?_eq_getElem inside, Option.getD_some]
  exact List.getElem_mem inside

theorem cycle_succ (l : List α) (fallback : α) (start n : Nat) :
    cycle l fallback start (n + 1) =
      cycle l fallback start n ++ [cyclic l fallback (start + n)] := by
  simp [cycle, List.range_succ]

theorem countP_range (p : Nat → Prop) [DecidablePred p] (n : Nat) :
    (List.range n).countP (fun k => p k) = Nat.count p n := by
  induction n with
  | zero => rfl
  | succ n ih =>
    rw [List.range_succ, List.countP_append, ih, Nat.count_succ]
    simp [List.countP_cons]

theorem cyclic_eq_iff {l : List α} (distinct : l.Nodup) {i : Nat} (inside : i < l.length)
    (fallback : α) (j : Nat) : cyclic l fallback j = l[i] ↔ j ≡ i [MOD l.length] := by
  have within : j % l.length < l.length := Nat.mod_lt _ (by omega)
  rw [cyclic, List.getD_eq_getElem?_getD, List.getElem?_eq_getElem within, Option.getD_some,
    distinct.getElem_inj_iff, Nat.ModEq, Nat.mod_eq_of_lt inside]

variable [DecidableEq α]

/-- A round takes every element once, so its share is fixed up to one. -/
theorem count_cycle {l : List α} (distinct : l.Nodup) {a : α} (member : a ∈ l) (fallback : α)
    (start n : Nat) :
    n / l.length ≤ (cycle l fallback start n).count a ∧
      (cycle l fallback start n).count a ≤ n / l.length + 1 := by
  obtain ⟨i, inside, rfl⟩ := List.getElem_of_mem member
  have positive : 0 < l.length := by omega
  -- the turn from the start at which the element comes first
  have shifted : ∀ j, cyclic l fallback (start + j) = l[i] ↔
      j ≡ i + (l.length - start % l.length) [MOD l.length] := by
    intro j
    rw [cyclic_eq_iff distinct inside]
    have whole : start + (l.length - start % l.length) ≡ 0 [MOD l.length] := by
      have below : start % l.length < l.length := Nat.mod_lt _ positive
      have split := Nat.div_add_mod start l.length
      have sum : start + (l.length - start % l.length) =
          l.length * (start / l.length + 1) := by
        rw [Nat.mul_add]
        omega
      rw [sum]
      exact (Nat.modEq_zero_iff_dvd).mpr (Nat.dvd_mul_right _ _)
    have back : start + j + (l.length - start % l.length) ≡ j [MOD l.length] := by
      have moved := whole.add_right j
      rwa [Nat.zero_add, Nat.add_right_comm] at moved
    have forth : start + (i + (l.length - start % l.length)) ≡ i [MOD l.length] := by
      have moved := whole.add_left i
      rwa [Nat.add_zero, Nat.add_left_comm] at moved
    constructor
    · intro reached
      exact back.symm.trans (reached.add_right _)
    · intro turn
      exact (turn.add_left start).trans forth
  have counted : (cycle l fallback start n).count l[i] =
      Nat.count (· ≡ i + (l.length - start % l.length) [MOD l.length]) n := by
    rw [cycle, List.count_eq_countP, List.countP_map, ← countP_range]
    apply List.countP_congr
    intro j _
    simp [shifted j]
  rw [counted, Nat.count_modEq_card _ positive]
  split <;> omega

/-- Two elements of a list read in turn come up equally often, up to one. -/
theorem count_cycle_fair {l : List α} (distinct : l.Nodup) {a b : α} (left : a ∈ l) (right : b ∈ l)
    (fallback : α) (start n : Nat) :
    (cycle l fallback start n).count a ≤ (cycle l fallback start n).count b + 1 := by
  have upper := (count_cycle distinct left fallback start n).2
  have lower := (count_cycle distinct right fallback start n).1
  omega

/-- So do the elements of a list that takes turns where a test admits it. -/
theorem count_fair_of_filter {l results : List α} {p : α → Bool} {fallback : α} {start n : Nat}
    (turns : results.filter p = cycle l fallback start n) (distinct : l.Nodup)
    (admitted : ∀ a ∈ l, p a = true) :
    ∀ a ∈ l, ∀ b ∈ l, results.count a ≤ results.count b + 1 := by
  have inside : ∀ a ∈ l, results.count a = (results.filter p).count a := by
    intro a member
    rw [List.count_filter (admitted a member)]
  intro a left b right
  rw [inside a left, inside b right, turns]
  exact count_cycle_fair distinct left right fallback start n

namespace Rotation

structure Counters where
  attempts : Nat
  regular : Nat
  sampled : Nat

section
variable (fallback : α) (interval : Nat) (regular samples : List α)

omit [DecidableEq α] in
def turn (c : Counters) : α × Counters :=
  if (c.attempts + 1) % interval = 0 then
    (cyclic samples fallback c.sampled,
      { c with attempts := c.attempts + 1, sampled := c.sampled + 1 })
  else
    (cyclic regular fallback c.regular,
      { c with attempts := c.attempts + 1, regular := c.regular + 1 })

/-- What the first `n` turns give, and the counters after them. -/
def turns (c : Counters) : Nat → List α × Counters
  | 0 => ([], c)
  | n + 1 =>
    let (given, c) := turns c n
    let (a, c) := turn fallback interval regular samples c
    (given ++ [a], c)

end

def sampleCount (interval : Nat) (c : Counters) (n : Nat) : Nat :=
  Nat.count (fun k => (c.attempts + k + 1) % interval = 0) n

theorem sampleCount_le (interval : Nat) (c : Counters) (n : Nat) : sampleCount interval c n ≤ n :=
  Nat.count_le _

theorem sampleCount_succ (interval : Nat) (c : Counters) (n : Nat) :
    sampleCount interval c (n + 1) = sampleCount interval c n +
      if (c.attempts + n + 1) % interval = 0 then 1 else 0 :=
  Nat.count_succ _ _

section
variable (fallback : α) (interval : Nat) {regular samples : List α} (c : Counters)

/-- What turn `k` gives: every turn that completes an interval takes the next
sample, every other the next regular element, and each of the two cycles goes on
where it stopped. -/
def given (fallback : α) (interval : Nat) (regular samples : List α) (c : Counters) (k : Nat) : α :=
  if (c.attempts + k + 1) % interval = 0 then
    cyclic samples fallback (c.sampled + sampleCount interval c k)
  else cyclic regular fallback (c.regular + (k - sampleCount interval c k))

omit [DecidableEq α] in
theorem turns_eq (n : Nat) :
    turns fallback interval regular samples c n =
      ((List.range n).map (given fallback interval regular samples c),
        ⟨c.attempts + n, c.regular + (n - sampleCount interval c n),
          c.sampled + sampleCount interval c n⟩) := by
  induction n with
  | zero => rfl
  | succ n ih =>
    have few := sampleCount_le interval c n
    simp only [turns, ih, turn, List.range_succ, List.map_append, List.map_cons, List.map_nil,
      sampleCount_succ, given]
    split
    · refine Prod.ext rfl ?_
      simp only [Counters.mk.injEq]
      omega
    · refine Prod.ext rfl ?_
      simp only [Counters.mk.injEq]
      omega

variable (some : samples ≠ []) (others : regular ≠ []) (disjoint : ∀ a ∈ samples, a ∉ regular)
include some others disjoint

omit [DecidableEq α] in
theorem given_sampled_iff (k : Nat) :
    given fallback interval regular samples c k ∈ samples ↔
      (c.attempts + k + 1) % interval = 0 := by
  rw [given]
  split
  · rename_i due
    simp [due, cyclic_mem some]
  · rename_i regularTurn
    simp only [regularTurn, iff_false]
    exact fun sampled => disjoint _ sampled (cyclic_mem others _ _)

theorem filter_sampled (n : Nat) :
    ((List.range n).map (given fallback interval regular samples c)).filter (· ∈ samples) =
      cycle samples fallback c.sampled (sampleCount interval c n) := by
  induction n with
  | zero => rfl
  | succ n ih =>
    rw [List.range_succ, List.map_append, List.filter_append, ih, sampleCount_succ]
    have due := given_sampled_iff fallback interval c some others disjoint n
    split
    · rename_i turn
      have value : given fallback interval regular samples c n =
        cyclic samples fallback (c.sampled + sampleCount interval c n) := if_pos turn
      rw [cycle_succ, ← value]
      simp [due.mpr turn]
    · rename_i turn
      simp [mt due.mp turn]

theorem filter_regular (n : Nat) :
    ((List.range n).map (given fallback interval regular samples c)).filter (· ∉ samples) =
      cycle regular fallback c.regular (n - sampleCount interval c n) := by
  induction n with
  | zero => rfl
  | succ n ih =>
    have few := sampleCount_le interval c n
    rw [List.range_succ, List.map_append, List.filter_append, ih, sampleCount_succ]
    have due := given_sampled_iff fallback interval c some others disjoint n
    split
    · rename_i turn
      simp [due.mpr turn]
    · rename_i turn
      have value : given fallback interval regular samples c n =
        cyclic regular fallback (c.regular + (n - sampleCount interval c n)) := if_neg turn
      have one : n + 1 - (sampleCount interval c n + 0) = n - sampleCount interval c n + 1 := by
        omega
      rw [one, cycle_succ, ← value]
      simp [mt due.mp turn]

/-- Every window as long as the interval holds one sample. -/
theorem window_count (positive : 0 < interval) {n start : Nat} (inside : start + interval ≤ n) :
    ((((List.range n).map (given fallback interval regular samples c)).drop start).take
      interval).countP (· ∈ samples) = 1 := by
  have window : ((List.range n).drop start).take interval =
      (List.range interval).map (start + ·) := by
    refine List.ext_getElem ?_ fun k _ _ => by simp
    simp only [List.length_take, List.length_drop, List.length_range, List.length_map]
    omega
  have due : ∀ k, (c.attempts + (start + k) + 1) % interval = 0 ↔
      k ≡ (interval - 1) * (c.attempts + start + 1) [MOD interval] := by
    intro k
    have whole : (interval - 1) * (c.attempts + start + 1) + (c.attempts + start + 1) ≡ 0
        [MOD interval] := by
      rw [← Nat.succ_mul, Nat.succ_eq_add_one, Nat.sub_add_cancel positive]
      exact Nat.modEq_zero_iff_dvd.mpr (Nat.dvd_mul_right _ _)
    have sum : c.attempts + (start + k) + 1 = k + (c.attempts + start + 1) := by omega
    rw [sum]
    constructor
    · intro zero
      have zero : k + (c.attempts + start + 1) ≡ 0 [MOD interval] := by
        rw [Nat.ModEq, zero, Nat.zero_mod]
      exact Nat.ModEq.add_right_cancel' _ (zero.trans whole.symm)
    · intro turn
      have zero := (turn.add_right _).trans whole
      rwa [Nat.ModEq, Nat.zero_mod] at zero
  rw [← List.map_drop, ← List.map_take, window, List.countP_map, List.countP_map]
  have same : (List.range interval).countP
      (((fun a => decide (a ∈ samples)) ∘ given fallback interval regular samples c) ∘
        (start + ·)) =
      (List.range interval).countP
        (fun k => k ≡ (interval - 1) * (c.attempts + start + 1) [MOD interval]) := by
    apply List.countP_congr
    intro k _
    simp [given_sampled_iff fallback interval c some others disjoint, due]
  rw [same, countP_range, Nat.count_modEq_card _ positive, Nat.div_self positive, Nat.mod_self]
  simp

end
end Rotation
end Foundation
