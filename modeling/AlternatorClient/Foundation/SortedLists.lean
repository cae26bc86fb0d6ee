import Mathlib.Data.List.Sort
import Mathlib.Data.List.Destutter
import Mathlib.Data.Set.Function

/-! Sorting by a key and dropping adjacent repetitions. The key is the only
thing the order sees, equality the only thing the repetition test sees, so the
result is canonical exactly where the key separates the elements. -/
namespace Foundation
variable {α κ : Type} [LinearOrder κ] {key : α → κ}

/-- A key separates a list when different elements of it have different keys. -/
def Separates {α κ : Type} (key : α → κ) (l : List α) : Prop := Set.InjOn key {a | a ∈ l}

instance decidableSeparates [DecidableEq α] (key : α → κ) (l : List α) :
    Decidable (Separates key l) :=
  decidable_of_iff (∀ a ∈ l, ∀ b ∈ l, key a = key b → a = b)
    ⟨fun h _ ha _ hb => h _ ha _ hb, fun h _ ha _ hb => h ha hb⟩

omit [LinearOrder κ] in
theorem Separates.mono {l m : List α} (separated : Separates key m) (sub : l ⊆ m) :
    Separates key l :=
  Set.InjOn.mono (fun _ member => sub member) separated

/-- What `std::sort` may leave of a list: it does not say in which order elements of
equal key come. -/
structure Sorts (key : α → κ) (l m : List α) : Prop where
  perm : m.Perm l
  pairwise : m.Pairwise fun a b => key a ≤ key b

/-- The result that keeps elements of equal key in their order. It stands for every
other one: what is proved of it below is proved of all that `Sorts` allows. -/
def sortOn (key : α → κ) (l : List α) : List α := l.insertionSort fun a b => key a ≤ key b

/-- `std::unique` followed by the erasure of the tail: of every run of equal
elements the first stays, so in a sorted list each element occurs once. -/
def unique [DecidableEq α] (l : List α) : List α := l.destutter (· ≠ ·)

def sortUnique [DecidableEq α] (key : α → κ) (l : List α) : List α := unique (sortOn key l)

/-- Strictly increasing keys. -/
def Ascending (key : α → κ) (l : List α) : Prop := l.Pairwise fun a b => key a < key b

theorem sorts_sortOn (key : α → κ) (l : List α) : Sorts key l (sortOn key l) := by
  have : Std.Total fun a b : α => key a ≤ key b := ⟨fun a b => le_total (key a) (key b)⟩
  have : IsTrans α fun a b : α => key a ≤ key b := ⟨fun _ _ _ => le_trans⟩
  constructor
  · exact List.perm_insertionSort _ l
  · exact List.pairwise_insertionSort _ l

@[simp] theorem mem_sortOn {l : List α} {a : α} : a ∈ sortOn key l ↔ a ∈ l :=
  (sorts_sortOn key l).perm.mem_iff

/-- A separating key leaves no ties, and so no choice. -/
theorem Sorts.eq {l m n : List α} (separated : Separates key l) (left : Sorts key l m)
    (right : Sorts key l n) : m = n := by
  refine (left.perm.trans right.perm.symm).eq_of_pairwise ?_ left.pairwise right.pairwise
  intro a b first second below above
  exact separated (left.perm.subset first) (right.perm.subset second) (le_antisymm below above)

theorem Sorts.ascending {l m : List α} (sorts : Sorts key l m) (separated : Separates key l)
    (distinct : l.Nodup) : Ascending key m := by
  have distinct : m.Nodup := sorts.perm.nodup_iff.mpr distinct
  refine (sorts.pairwise.and distinct).imp_of_mem ?_
  rintro a b ha hb ⟨below, different⟩
  exact lt_of_le_of_ne below fun same =>
    different (separated (sorts.perm.subset ha) (sorts.perm.subset hb) same)

theorem sortOn_ascending {l : List α} (separated : Separates key l) (distinct : l.Nodup) :
    Ascending key (sortOn key l) :=
  (sorts_sortOn key l).ascending separated distinct

theorem Ascending.separates {l : List α} (ascending : Ascending key l) : Separates key l := by
  induction l with
  | nil => intro a ha; simp at ha
  | cons first rest ih =>
    obtain ⟨below, ascending⟩ := List.pairwise_cons.mp ascending
    intro a ha b hb same
    rcases List.mem_cons.mp ha with rfl | left <;> rcases List.mem_cons.mp hb with rfl | right
    · rfl
    · exact absurd same (ne_of_lt (below b right))
    · exact absurd same.symm (ne_of_lt (below a left))
    · exact ih ascending left right same

theorem Ascending.sorts {l : List α} (ascending : Ascending key l) : Sorts key l l :=
  ⟨.refl l, ascending.imp le_of_lt⟩

theorem Ascending.sortOn_eq {l : List α} (ascending : Ascending key l) : sortOn key l = l :=
  (sorts_sortOn key l).eq ascending.separates ascending.sorts

theorem Ascending.nodup {l : List α} (ascending : Ascending key l) : l.Nodup :=
  ascending.imp fun less same => absurd (congrArg key same) (ne_of_lt less)

/-- Lists of strictly increasing keys are determined by their elements, so sorting
leaves no choice where different elements have different keys. -/
theorem Ascending.ext {l m : List α} (left : Ascending key l) (right : Ascending key m)
    (same : ∀ a, a ∈ l ↔ a ∈ m) : l = m := by
  have perm : l.Perm m := (List.perm_ext_iff_of_nodup left.nodup right.nodup).mpr same
  refine perm.eq_of_pairwise ?_ left right
  intro a b _ _ ab ba
  exact absurd (ab.trans ba) (lt_irrefl _)

variable [DecidableEq α]

private theorem mem_destutter' {l : List α} {a b : α} :
    b ∈ l.destutter' (· ≠ ·) a ↔ b = a ∨ b ∈ l := by
  induction l generalizing a with
  | nil => simp
  | cons c l ih =>
    by_cases same : a = c
    · subst same
      simp [ih]
    · simp [same, ih]

@[simp] theorem mem_unique {l : List α} {a : α} : a ∈ unique l ↔ a ∈ l := by
  cases l with
  | nil => simp [unique]
  | cons b l => simp [unique, List.destutter_cons', mem_destutter']

@[simp] theorem mem_sortUnique {l : List α} {a : α} : a ∈ sortUnique key l ↔ a ∈ l := by
  simp [sortUnique]

theorem sortUnique_length_le (l : List α) : (sortUnique key l).length ≤ l.length :=
  ((List.destutter_sublist _ _).length_le).trans (sorts_sortOn key l).perm.length_eq.le

theorem Ascending.unique_eq {l : List α} (ascending : Ascending key l) : unique l = l := by
  apply List.destutter_of_isChain
  exact (ascending.imp fun less same => absurd (congrArg key same) (ne_of_lt less)).isChain

theorem Ascending.sortUnique_eq {l : List α} (ascending : Ascending key l) :
    sortUnique key l = l := by
  rw [sortUnique, ascending.sortOn_eq, ascending.unique_eq]

/-- Where the key separates the elements, adjacent repetitions are all the
repetitions there are. -/
theorem Sorts.unique_ascending {l m : List α} (sorts : Sorts key l m)
    (separated : Separates key l) : Ascending key (unique m) := by
  have sorted : (unique m).Pairwise fun a b => key a ≤ key b :=
    sorts.pairwise.sublist (List.destutter_sublist _ _)
  have chain : (unique m).IsChain fun a b => a ≠ b := List.isChain_destutter _ _
  have known {a : α} (member : a ∈ unique m) : a ∈ l := sorts.perm.subset (mem_unique.mp member)
  have strict : (unique m).IsChain fun a b => key a < key b := by
    rw [List.isChain_iff_getElem] at chain ⊢
    intro i inside
    have below := List.pairwise_iff_getElem.mp sorted i (i + 1) (by omega) inside (by omega)
    refine lt_of_le_of_ne below fun same => chain i inside ?_
    exact separated (known (List.getElem_mem _)) (known (List.getElem_mem _)) same
  have : IsTrans α fun a b : α => key a < key b := ⟨fun _ _ _ => lt_trans⟩
  exact List.isChain_iff_pairwise.mp strict

theorem sortUnique_ascending {l : List α} (separated : Separates key l) :
    Ascending key (sortUnique key l) :=
  (sorts_sortOn key l).unique_ascending separated

/-- Order and repetitions of the input do not reach the result. -/
theorem sortUnique_congr {l m : List α} (separated : Separates key l)
    (same : ∀ a, a ∈ l ↔ a ∈ m) : sortUnique key l = sortUnique key m := by
  have other : Separates key m := separated.mono fun a member => (same a).mpr member
  refine (sortUnique_ascending separated).ext (sortUnique_ascending other) ?_
  simpa using same

end Foundation
