import Mathlib.Data.List.DropRight

/-! Trimming and searching of lists: what both ends of a text lose when they are
trimmed, where the first occurrence of a pattern lies, and how two texts that
are joined by a separator can read the same. -/
namespace Foundation
variable {α : Type*}

section Trim
variable (p : α → Bool)

/-- A list without the elements at both of its ends that satisfy `p`. -/
def trim (l : List α) : List α := (l.dropWhile p).rdropWhile p

@[simp] theorem trim_nil : trim p [] = [] := by simp [trim]

theorem exists_trim (l : List α) :
    ∃ before after, (∀ c ∈ before, p c) ∧ (∀ c ∈ after, p c) ∧ l = before ++ trim p l ++ after := by
  refine ⟨l.takeWhile p, (l.dropWhile p).rtakeWhile p, ?_, ?_, ?_⟩
  · intro c member
    exact List.mem_takeWhile_imp member
  · intro c member
    exact List.mem_rtakeWhile_imp member
  · rw [trim, List.append_assoc, List.rdropWhile_append_rtakeWhile, List.takeWhile_append_dropWhile]

theorem rdropWhile_append_of_pos (l : List α) {after : List α} (blank : ∀ c ∈ after, p c) :
    (l ++ after).rdropWhile p = l.rdropWhile p := by
  have reversed : ∀ c ∈ after.reverse, p c := by simpa using blank
  rw [List.rdropWhile, List.rdropWhile, List.reverse_append, List.dropWhile_append_of_pos reversed]

theorem trim_pad {before after : List α} (leading : ∀ c ∈ before, p c) (trailing : ∀ c ∈ after, p c)
    (l : List α) : trim p (before ++ l ++ after) = trim p l := by
  rw [trim, List.append_assoc, List.dropWhile_append_of_pos leading, List.dropWhile_append]
  split
  · rename_i blank
    rw [List.isEmpty_iff] at blank
    rw [List.dropWhile_eq_nil_iff.mpr trailing, trim, blank]
  · exact rdropWhile_append_of_pos p _ trailing

theorem trim_trim (l : List α) : trim p (trim p l) = trim p l := by
  obtain ⟨before, after, leading, trailing, split⟩ := exists_trim p l
  have padded := trim_pad p leading trailing (trim p l)
  rw [← split] at padded
  exact padded.symm

theorem mem_of_mem_trim {l : List α} {c : α} (member : c ∈ trim p l) : c ∈ l := by
  obtain ⟨before, after, -, -, split⟩ := exists_trim p l
  rw [split]
  simp [member]

theorem trim_map (f : α → α) (kept : ∀ c, p (f c) = p c) (l : List α) :
    trim p (l.map f) = (trim p l).map f := by
  have same : p ∘ f = p := funext kept
  rw [trim, trim, List.dropWhile_map, same, List.rdropWhile, List.rdropWhile, ← List.map_reverse,
    List.dropWhile_map, same, List.map_reverse]

end Trim

section Find
variable [BEq α]

/-- `std::string::find`: where the pattern occurs first. -/
def find (pattern : List α) : List α → Option Nat
  | [] => if pattern.isEmpty then some 0 else none
  | c :: rest =>
    if pattern.isPrefixOf (c :: rest) then some 0 else (find pattern rest).map (· + 1)

variable [LawfulBEq α]

theorem find_here (pattern rest : List α) : find pattern (pattern ++ rest) = some 0 := by
  have here : pattern.isPrefixOf (pattern ++ rest) = true := by simp
  cases whole : pattern ++ rest with
  | nil =>
    obtain ⟨rfl, rfl⟩ := List.append_eq_nil_iff.mp whole
    rfl
  | cons c tail =>
    rw [whole] at here
    rw [find, if_pos here]

/-- No occurrence begins in a text without the pattern's first element. -/
theorem find_skip {c : α} {pattern skipped : List α} (absent : c ∉ skipped) (rest : List α) :
    find (c :: pattern) (skipped ++ rest) =
      (find (c :: pattern) rest).map (· + skipped.length) := by
  induction skipped with
  | nil => simp
  | cons d skipped ih =>
    obtain ⟨different, absent⟩ := not_or.mp (mt List.mem_cons.mpr absent)
    have elsewhere : (c :: pattern).isPrefixOf (d :: (skipped ++ rest)) = false := by
      simp [List.isPrefixOf, different]
    rw [List.cons_append, find, elsewhere, if_neg (by decide), ih absent, Option.map_map]
    rfl

/-- The first occurrence of an element splits the list. -/
theorem find_single {c : α} {text : List α} {position : Nat}
    (found : find [c] text = some position) :
    text = text.take position ++ c :: text.drop (position + 1) ∧ c ∉ text.take position := by
  induction text generalizing position with
  | nil => contradiction
  | cons d rest ih =>
    rw [find] at found
    split at found
    · rename_i here
      obtain rfl := Option.some.inj found
      have same : c = d := by simpa [List.isPrefixOf] using here
      simp [same]
    · rename_i elsewhere
      obtain ⟨later, foundLater, rfl⟩ := Option.map_eq_some_iff.mp found
      obtain ⟨split, absent⟩ := ih foundLater
      have different : c ≠ d := by simpa [List.isPrefixOf] using elsewhere
      refine ⟨?_, by simp [different, absent]⟩
      rw [List.take_succ_cons, List.drop_succ_cons, List.cons_append, ← split]

/-- Where a pattern occurs first stays the same when the text goes on. -/
theorem find_append {pattern text : List α} {position : Nat} (found : find pattern text = some position)
    (more : List α) :
    find pattern (text ++ more) = some position ∧ position + pattern.length ≤ text.length := by
  induction text generalizing position with
  | nil =>
    rw [find] at found
    split at found
    · rename_i none
      obtain rfl := List.isEmpty_iff.mp none
      obtain rfl := Option.some.inj found
      exact ⟨find_here [] more, le_rfl⟩
    · contradiction
  | cons d rest ih =>
    rw [find] at found
    rw [List.cons_append, find]
    split at found
    · rename_i here
      obtain rfl := Option.some.inj found
      obtain ⟨after, split⟩ := List.isPrefixOf_iff_prefix.mp here
      have longer : pattern.isPrefixOf (d :: (rest ++ more)) = true := by
        rw [List.isPrefixOf_iff_prefix, ← List.cons_append, ← split, List.append_assoc]
        exact List.prefix_append _ _
      have size := congrArg List.length split
      rw [List.length_append] at size
      exact ⟨if_pos longer, by omega⟩
    · rename_i elsewhere
      obtain ⟨later, foundLater, rfl⟩ := Option.map_eq_some_iff.mp found
      obtain ⟨same, fits⟩ := ih foundLater
      have stillElsewhere : ¬ pattern.isPrefixOf (d :: (rest ++ more)) = true := by
        intro longer
        apply elsewhere
        rw [List.isPrefixOf_iff_prefix] at longer ⊢
        rw [← List.cons_append] at longer
        apply List.prefix_of_prefix_length_le longer (List.prefix_append _ _)
        rw [List.length_cons]
        omega
      refine ⟨?_, ?_⟩
      · rw [if_neg stillElsewhere, same]
        rfl
      · rw [List.length_cons]
        omega

end Find

section Separator
-- the first element does not come again, so the separator cannot overlap itself
variable {c : α} {tail : List α} (once : c ∉ tail)
include once

/-- Where the separator stands twice in a text, the second lies behind the first. -/
theorem separator_append_eq {between after after' : List α}
    (same : c :: tail ++ after = between ++ (c :: tail ++ after')) :
    between = [] ∧ after = after' ∨
      ∃ middle, between = c :: tail ++ middle ∧ after = middle ++ c :: tail ++ after' := by
  rcases List.append_eq_append_iff.mp same with ⟨middle, rfl, rest⟩ | ⟨inner, whole, rest⟩
  · refine .inr ⟨middle, rfl, ?_⟩
    rw [rest, List.append_assoc]
  · cases between with
    | nil =>
      obtain rfl : c :: tail = inner := whole
      exact .inl ⟨rfl, (List.append_cancel_left rest).symm⟩
    | cons d between =>
      obtain ⟨-, tailed⟩ := List.cons.inj whole
      cases inner with
      | nil =>
        refine .inr ⟨[], ?_, ?_⟩
        · rw [List.append_nil, whole, List.append_nil]
        · exact rest.symm
      | cons e inner =>
        -- the second separator would begin inside the first one
        obtain ⟨rfl, -⟩ := List.cons.inj rest
        refine absurd ?_ once
        rw [tailed]
        exact List.mem_append_right _ List.mem_cons_self

/-- Two texts that read the same are joined at one place, or one of them holds
the separator of the other in its part before or after its own. -/
theorem joined_eq_iff {before before' after after' : List α} :
    before ++ c :: tail ++ after = before' ++ c :: tail ++ after' ↔
      before = before' ∧ after = after' ∨
      (∃ middle, before' = before ++ c :: tail ++ middle ∧ after = middle ++ c :: tail ++ after') ∨
      ∃ middle, before = before' ++ c :: tail ++ middle ∧ after' = middle ++ c :: tail ++ after := by
  constructor
  · intro same
    rw [List.append_assoc, List.append_assoc] at same
    rcases List.append_eq_append_iff.mp same with ⟨between, rfl, rest⟩ | ⟨between, rfl, rest⟩
    · rcases separator_append_eq once rest with ⟨rfl, rfl⟩ | ⟨middle, rfl, rfl⟩
      · exact .inl ⟨(List.append_nil _).symm, rfl⟩
      · exact .inr (.inl ⟨middle, (List.append_assoc _ _ _).symm, rfl⟩)
    · rcases separator_append_eq once rest with ⟨rfl, rfl⟩ | ⟨middle, rfl, rfl⟩
      · exact .inl ⟨List.append_nil _, rfl⟩
      · exact .inr (.inr ⟨middle, (List.append_assoc _ _ _).symm, rfl⟩)
  · rintro (⟨rfl, rfl⟩ | ⟨middle, rfl, rfl⟩ | ⟨middle, rfl, rfl⟩) <;>
      simp only [List.append_assoc]

end Separator

end Foundation
