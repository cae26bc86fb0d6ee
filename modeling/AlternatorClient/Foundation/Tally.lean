import AlternatorClient.Foundation.OrderedMap
import Mathlib.Data.List.Count
import Mathlib.Data.Prod.Lex

/-! Counting votes in a map with signed 32-bit counters, and putting the voted
in the order of their votes. -/
namespace Foundation
variable {α κ : Type} [LinearOrder κ] {key : α → κ}

/-- `++votes[a]` -/
def vote (votes : OrderedMap key Int32) (a : α) : OrderedMap key Int32 :=
  votes.upsert a fun count => count.getD 0 + 1

/-- `votes.at(a)` -/
def votesOf (votes : OrderedMap key Int32) (a : α) : Int32 :=
  ((votes.lookup (key a)).map Prod.snd).getD 0

def voteKey (count : α → Int32) (key : α → κ) (a : α) : ℤ ×ₗ κ := toLex (-(count a).toInt, key a)

theorem voteKey_lt_iff {count : α → Int32} {a b : α} :
    voteKey count key a < voteKey count key b ↔
      count b < count a ∨ count a = count b ∧ key a < key b := by
  simp only [voteKey, Prod.Lex.toLex_lt_toLex, Int32.lt_iff_toInt_lt, Int.neg_lt_neg_iff,
    Int.neg_inj, Int32.toInt_inj]

omit [LinearOrder κ] in
theorem voteKey_separates {count : α → Int32} {l : List α} (separated : Separates key l) :
    Separates (voteKey count key) l := by
  intro a ha b hb same
  simp only [voteKey, EmbeddingLike.apply_eq_iff_eq, Prod.mk.injEq] at same
  exact separated ha hb same.2

variable [DecidableEq α]

/-- Where the key separates the voted, a lookup is the number of votes. -/
theorem lookup_tally {winners : List α} {a : α} (separated : Separates key (a :: winners)) :
    (winners.foldl vote (OrderedMap.empty : OrderedMap key Int32)).lookup (key a) =
      if a ∈ winners then some (a, Int32.ofNat (winners.count a)) else none := by
  induction winners using List.reverseRecOn with
  | nil => rfl
  | append_singleton winners last ih =>
    have ih := ih (separated.mono (by simp))
    rw [List.foldl_append, List.foldl_cons, List.foldl_nil, vote, OrderedMap.lookup_upsert]
    by_cases same : a = last
    · subst same
      rw [if_pos rfl, ih]
      by_cases before : a ∈ winners
      · simp [before]
      · simp [before, List.count_eq_zero_of_not_mem before]
    · have apart : key a ≠ key last := by
        intro equal
        exact same (separated (by simp) (by simp) equal)
      rw [if_neg apart, ih]
      simp [same, List.count_append, Ne.symm same]

omit [DecidableEq α] in
/-- The map keeps the spelling of the first vote, so its keys are voted. -/
theorem tally_keys_subset (winners : List α) :
    (winners.foldl vote (OrderedMap.empty : OrderedMap key Int32)).keys ⊆ winners := by
  induction winners using List.reverseRecOn with
  | nil => exact List.Subset.refl _
  | append_singleton winners last ih =>
    intro a member
    obtain ⟨count, found⟩ := OrderedMap.mem_keys.mp member
    rw [List.foldl_append, List.foldl_cons, List.foldl_nil, vote, OrderedMap.lookup_upsert] at found
    split at found
    · rename_i same
      split at found
      · cases found
        simp
      · rename_i b value old
        cases found
        rw [← same] at old
        exact List.mem_append_left _ (ih (OrderedMap.mem_keys.mpr ⟨value, old⟩))
    · exact List.mem_append_left _ (ih (OrderedMap.mem_keys.mpr ⟨count, found⟩))

theorem mem_tally {winners : List α} (separated : Separates key winners) {entry : α × Int32} :
    entry ∈ (winners.foldl vote (OrderedMap.empty : OrderedMap key Int32)).entries ↔
      entry.1 ∈ winners ∧ entry.2 = Int32.ofNat (winners.count entry.1) := by
  have known : ∀ {a}, a ∈ winners → Separates key (a :: winners) := by
    intro a voted
    exact separated.mono (List.cons_subset.mpr ⟨voted, List.Subset.refl _⟩)
  obtain ⟨a, count⟩ := entry
  rw [OrderedMap.mem_entries]
  constructor
  · intro found
    have voted : a ∈ winners := tally_keys_subset winners (OrderedMap.mem_keys.mpr ⟨count, found⟩)
    rw [lookup_tally (known voted), if_pos voted] at found
    cases found
    exact ⟨voted, rfl⟩
  · rintro ⟨voted, counted⟩
    simp only at voted counted
    rw [lookup_tally (known voted), if_pos voted, counted]

theorem votesOf_tally {winners : List α} (separated : Separates key winners) {a : α}
    (voted : a ∈ winners) :
    votesOf (winners.foldl vote (OrderedMap.empty : OrderedMap key Int32)) a =
      Int32.ofNat (winners.count a) := by
  have known : Separates key (a :: winners) :=
    separated.mono (List.cons_subset.mpr ⟨voted, List.Subset.refl _⟩)
  rw [votesOf, lookup_tally known, if_pos voted]
  rfl

theorem voted_of_positive {winners : List α} {a : α}
    (positive : 0 < Int32.ofNat (winners.count a)) : a ∈ winners := by
  by_contra absent
  rw [List.count_eq_zero_of_not_mem absent] at positive
  exact absurd positive (by decide)

/-- After a vote for each winner the keys with a positive counter are those whose
number of votes is positive as a 32-bit integer, which wraps. -/
theorem mem_positive_tally {winners : List α} (separated : Separates key winners) {a : α} :
    a ∈ ((winners.foldl vote (OrderedMap.empty : OrderedMap key Int32)).entries.filter
        fun entry => 0 < entry.2).map Prod.fst ↔ 0 < Int32.ofNat (winners.count a) := by
  simp only [List.mem_map, List.mem_filter, mem_tally separated, decide_eq_true_eq]
  constructor
  · rintro ⟨entry, ⟨⟨_, counted⟩, positive⟩, rfl⟩
    exact counted ▸ positive
  · intro positive
    exact ⟨(a, Int32.ofNat (winners.count a)), ⟨⟨voted_of_positive positive, rfl⟩, positive⟩, rfl⟩

/-- Sorted by the counters of the map is sorted by the number of votes. -/
theorem sortOn_tally_ascending {winners : List α} (separated : Separates key winners) :
    Ascending (voteKey (fun a => Int32.ofNat (winners.count a)) key)
      (sortOn (voteKey (votesOf (winners.foldl vote (OrderedMap.empty : OrderedMap key Int32))) key)
        (((winners.foldl vote (OrderedMap.empty : OrderedMap key Int32)).entries.filter
          fun entry => 0 < entry.2).map Prod.fst)) := by
  set votes := winners.foldl vote (OrderedMap.empty : OrderedMap key Int32)
  have sublist : ((votes.entries.filter fun entry => 0 < entry.2).map Prod.fst).Sublist votes.keys :=
    List.filter_sublist.map Prod.fst
  have known : ∀ a ∈ (votes.entries.filter fun entry => 0 < entry.2).map Prod.fst, a ∈ winners :=
    fun a member => tally_keys_subset winners (sublist.subset member)
  have ascending := sortOn_ascending
    (@voteKey_separates _ _ key (votesOf votes) _ (separated.mono fun a => known a))
    (sublist.nodup votes.keys_ascending.nodup)
  refine ascending.imp_of_mem fun {a b} ha hb less => ?_
  rw [voteKey_lt_iff] at less ⊢
  rwa [votesOf_tally separated (known a (mem_sortOn.mp ha)),
    votesOf_tally separated (known b (mem_sortOn.mp hb))] at less

end Foundation
