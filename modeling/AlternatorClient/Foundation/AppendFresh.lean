import Mathlib.Data.List.Nodup

/-! Appending in order what is wanted and not there yet. -/
namespace Foundation
variable {α : Type} [DecidableEq α] {keep : α → Bool}

def appendFresh (keep : α → Bool) (out : List α) : List α → List α
  | [] => out
  | a :: rest =>
    if keep a = true ∧ a ∉ out then appendFresh keep (out ++ [a]) rest
    else appendFresh keep out rest

theorem mem_appendFresh {out l : List α} {a : α} :
    a ∈ appendFresh keep out l ↔ a ∈ out ∨ a ∈ l ∧ keep a = true := by
  induction l generalizing out with
  | nil => simp [appendFresh]
  | cons first rest ih =>
    simp only [appendFresh]
    split
    · rename_i wanted
      rw [ih]
      simp only [List.mem_append, List.mem_cons, List.not_mem_nil, or_false]
      constructor
      · rintro ((old | rfl) | ⟨later, kept⟩)
        · exact .inl old
        · exact .inr ⟨.inl rfl, wanted.1⟩
        · exact .inr ⟨.inr later, kept⟩
      · rintro (old | ⟨rfl | later, kept⟩)
        · exact .inl (.inl old)
        · exact .inl (.inr rfl)
        · exact .inr ⟨later, kept⟩
    · rename_i refused
      rw [ih]
      simp only [List.mem_cons]
      constructor
      · rintro (old | ⟨later, kept⟩)
        · exact .inl old
        · exact .inr ⟨.inr later, kept⟩
      · rintro (old | ⟨rfl | later, kept⟩)
        · exact .inl old
        · exact .inl (not_not.mp fun new => refused ⟨kept, new⟩)
        · exact .inr ⟨later, kept⟩

theorem appendFresh_nodup {out l : List α} (distinct : out.Nodup) :
    (appendFresh keep out l).Nodup := by
  induction l generalizing out with
  | nil => exact distinct
  | cons first rest ih =>
    simp only [appendFresh]
    split
    · rename_i wanted
      refine ih (List.nodup_append.mpr ⟨distinct, List.nodup_singleton _, ?_⟩)
      intro a old b new same
      rw [List.mem_singleton.mp new] at same
      exact wanted.2 (same ▸ old)
    · exact ih distinct

/-- A list without repetitions is appended as it is, less what is not wanted
and what is there already. -/
theorem appendFresh_eq_filter {out l : List α} (distinct : l.Nodup) :
    appendFresh keep out l = out ++ l.filter fun a => keep a && !decide (a ∈ out) := by
  induction l generalizing out with
  | nil => simp [appendFresh]
  | cons first rest ih =>
    obtain ⟨new, distinct⟩ := List.nodup_cons.mp distinct
    simp only [appendFresh]
    split
    · rename_i wanted
      have same : ∀ a ∈ rest, (keep a && !decide (a ∈ out ++ [first])) =
          (keep a && !decide (a ∈ out)) := by
        intro a later
        have : a ≠ first := fun eq => new (eq ▸ later)
        simp [this]
      rw [ih distinct, List.filter_congr same, List.filter_cons_of_pos (by simpa using wanted)]
      simp
    · rename_i refused
      rw [ih distinct, List.filter_cons_of_neg (by simpa using refused)]

/-- What is appended are the first occurrences. -/
theorem appendFresh_eq_eraseDups {out l : List α} :
    appendFresh keep out l = out ++ (l.filter fun a => keep a && !decide (a ∈ out)).eraseDups := by
  induction l generalizing out with
  | nil => simp [appendFresh]
  | cons first rest ih =>
    simp only [appendFresh]
    split
    · rename_i wanted
      have narrowed : (rest.filter fun a => keep a && !decide (a ∈ out ++ [first])) =
          (rest.filter fun a => keep a && !decide (a ∈ out)).filter fun a => !a == first := by
        rw [List.filter_filter]
        apply List.filter_congr
        intro a _
        by_cases same : a = first
        · simp [same]
        · simp [same]
      rw [ih, narrowed, List.filter_cons_of_pos (by simpa using wanted), List.eraseDups_cons]
      simp
    · rename_i refused
      rw [ih, List.filter_cons_of_neg (by simpa using refused)]

theorem appendFresh_eq_append {out l : List α} (distinct : l.Nodup) (kept : ∀ a ∈ l, keep a = true)
    (new : ∀ a ∈ l, a ∉ out) : appendFresh keep out l = out ++ l := by
  rw [appendFresh_eq_filter distinct, List.filter_eq_self.mpr]
  intro a member
  simp [kept a member, new a member]

theorem appendFresh_append (out l m : List α) :
    appendFresh keep (appendFresh keep out l) m = appendFresh keep out (l ++ m) := by
  induction l generalizing out with
  | nil => rfl
  | cons first rest ih =>
    simp only [List.cons_append, appendFresh]
    split
    · exact ih _
    · exact ih _

/-- The first with a property is there already, or is the first that is wanted. -/
theorem find?_appendFresh (p : α → Bool) (out l : List α) :
    (appendFresh keep out l).find? p = (out.find? p).or ((l.filter keep).find? p) := by
  induction l generalizing out with
  | nil => simp [appendFresh]
  | cons first rest ih =>
    simp only [appendFresh]
    split
    · rename_i wanted
      rw [ih, List.find?_append, List.filter_cons_of_pos wanted.1, Option.or_assoc]
      by_cases found : p first = true
      · simp [found]
      · simp [found]
    · rename_i refused
      rw [ih]
      by_cases kept : keep first = true
      · have there : first ∈ out := not_not.mp fun new => refused ⟨kept, new⟩
        rw [List.filter_cons_of_pos kept]
        by_cases found : p first = true
        · have some := List.find?_isSome.mpr ⟨first, there, found⟩
          rw [Option.or_of_isSome some, Option.or_of_isSome some]
        · simp [found]
      · rw [List.filter_cons_of_neg kept]

theorem head?_appendFresh (l : List α) : (appendFresh keep [] l).head? = l.find? keep := by
  have all := @find?_appendFresh α _ keep (fun _ => true) [] l
  simpa [← List.head?_filter] using all

theorem filter_eraseDups (p : α → Bool) (l : List α) :
    l.eraseDups.filter p = (l.filter p).eraseDups := by
  induction size : l.length using Nat.strongRecOn generalizing l with
  | _ n ih =>
    cases l with
    | nil => rfl
    | cons a rest =>
      subst size
      have shorter : (rest.filter fun b => !b == a).length < (a :: rest).length :=
        Nat.lt_succ_of_le (List.length_filter_le _ _)
      rw [List.eraseDups_cons]
      cases kept : p a with
      | true =>
        rw [List.filter_cons_of_pos kept, List.filter_cons_of_pos kept, List.eraseDups_cons,
          ih _ shorter _ rfl, List.filter_filter, List.filter_filter]
        simp only [Bool.and_comm]
      | false =>
        have skipped : ∀ b ∈ rest, (p b && !b == a) = p b := by
          intro b _
          by_cases same : b = a
          · simp [same, kept]
          · simp [same]
        rw [List.filter_cons_of_neg (by simp [kept]), List.filter_cons_of_neg (by simp [kept]),
          ih _ shorter _ rfl, List.filter_filter, List.filter_congr skipped]

end Foundation
