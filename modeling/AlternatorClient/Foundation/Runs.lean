import Mathlib.Data.List.Basic
import Mathlib.Order.Nat

/-! Replacing every maximal run of covered positions of a list by one marker. The
result is put together position by position, so that it splits at any position;
a stretch of uncovered positions is kept, and a stretch of covered ones at the
beginning of which a run begins is the marker. -/
namespace Foundation
variable {α : Type*} (marker : List α) (covered : Nat → Prop) [DecidablePred covered] (data : List α)

/-- What stands for one position: the marker for the first of a run. -/
def piece (i : Nat) : List α :=
  if covered i then if i = 0 ∨ ¬covered (i - 1) then marker else []
  else data[i]?.toList

/-- What stands for the positions from `a` on and before `b`. -/
def stretch (a b : Nat) : List α := (List.range' a (b - a)).flatMap (piece marker covered data)

def replaceRuns : List α := stretch marker covered data 0 data.length

section
variable {marker covered data} {a b c : Nat}

@[simp] theorem stretch_self : stretch marker covered data a a = [] := by simp [stretch]

theorem stretch_append (first : a ≤ b) (second : b ≤ c) :
    stretch marker covered data a b ++ stretch marker covered data b c =
      stretch marker covered data a c := by
  have whole : c - a = (b - a) + (c - b) := by omega
  have middle : b = a + 1 * (b - a) := by omega
  rw [stretch, stretch, stretch, whole, ← List.range'_append, List.flatMap_append, ← middle]

theorem stretch_cons (first : a < b) :
    stretch marker covered data a b =
      piece marker covered data a ++ stretch marker covered data (a + 1) b := by
  have more : b - a = b - (a + 1) + 1 := by omega
  rw [stretch, more, List.range'_succ, List.flatMap_cons, ← stretch]

theorem stretch_uncovered (bound : b ≤ data.length) (none : ∀ i, a ≤ i → i < b → ¬covered i) :
    stretch marker covered data a b = (data.drop a).take (b - a) := by
  induction count : b - a generalizing a with
  | zero => simp [stretch, count]
  | succ n ih =>
    have first : a < b := by omega
    rw [stretch_cons first, piece, if_neg (none a le_rfl first),
      ih (fun i later below => none i (by omega) below) (by omega),
      List.getElem?_eq_getElem (first.trans_le bound),
      List.drop_eq_getElem_cons (first.trans_le bound), List.take_succ_cons]
    rfl

/-- Inside a run nothing is written. -/
theorem stretch_inside (all : ∀ i, a ≤ i → i < b → covered i ∧ covered (i - 1)) (begun : 0 < a) :
    stretch marker covered data a b = [] := by
  rw [stretch, List.flatMap_eq_nil_iff]
  intro i member
  obtain ⟨low, below⟩ := List.mem_range'_1.mp member
  obtain ⟨here, before⟩ := all i low (by omega)
  have inner : ¬(i = 0 ∨ ¬covered (i - 1)) := by
    rintro (zero | fresh)
    · omega
    · exact fresh before
  rw [piece, if_pos here, if_neg inner]

theorem stretch_covered (first : a < b) (all : ∀ i, a ≤ i → i < b → covered i)
    (fresh : a = 0 ∨ ¬covered (a - 1)) : stretch marker covered data a b = marker := by
  have rest : stretch marker covered data (a + 1) b = [] := by
    apply stretch_inside _ (Nat.succ_pos a)
    intro i low below
    exact ⟨all i (by omega) below, all (i - 1) (by omega) (by omega)⟩
  rw [stretch_cons first, rest, piece, if_pos (all a le_rfl first), if_pos fresh, List.append_nil]

end
end Foundation
