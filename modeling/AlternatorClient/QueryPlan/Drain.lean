import AlternatorClient.QueryPlan

/-! Draining a plan. Every non-empty answer uses up one node, so the call bound
of the model is never felt, and what is drained is a permutation of the nodes
as long as none of them is mistaken for the end. -/
namespace AlternatorClient
open Foundation

namespace QueryPlan

theorem prepare_unsorted {plan : QueryPlan} (unsorted : plan.sortNodes = false) :
    plan.prepare = { plan with prepared := true } := by
  obtain ⟨nodes, seed, rng, order, sort, prepared, preferred⟩ := plan
  cases prepared <;> simp_all [prepare]

theorem next_plain {plan : QueryPlan} (plain : plan.preferredNodes = []) :
    plan.next =
      if plan.prepare.nodes.isEmpty then .ok ({}, plan.prepare)
      else plan.prepare.pickAndRemove := by
  have kept : plan.prepare.preferredNodes = [] := by
    rw [← plain, prepare]
    split <;> rfl
  have same : { plan.prepare with preferredNodes := [] } = plan.prepare := by rw [← kept]
  simp only [next, kept, popPreferred, same]

theorem next_length {plan after : QueryPlan} {u : Url} (returned : plan.next = .ok (u, after))
    (present : u.empty = false) : after.nodes.length + 1 = plan.nodes.length := by
  rcases plan.next_cases with ⟨_, final, same, _⟩ | ⟨_, v, final, same, perm⟩ | ⟨_, error, same⟩
  · rw [returned] at same
    cases same
    contradiction
  · rw [returned] at same
    cases same
    simpa using perm.length_eq
  · rw [returned] at same
    contradiction

theorem drainFor_stable (fuel : Nat) (plan : QueryPlan) (enough : plan.nodes.length < fuel) :
    plan.drainFor fuel = drainPlan plan := by
  induction fuel using Nat.strong_induction_on generalizing plan with
  | _ fuel ih =>
    obtain ⟨fuel, rfl⟩ : ∃ n, fuel = n + 1 := ⟨fuel - 1, by omega⟩
    simp only [drainPlan, drainFor]
    cases returned : plan.next with
    | error error => rfl
    | ok result =>
      obtain ⟨u, after⟩ := result
      cases present : u.empty with
      | true => simp [present]
      | false =>
        have shorter := next_length returned present
        simp only [present, Bool.false_eq_true, if_false]
        by_cases exact : fuel = plan.nodes.length
        · rw [exact]
        · rw [ih fuel (by omega) after (by omega),
            ih plan.nodes.length (by omega) after (by omega)]

end QueryPlan

/-- The loop of `DrainPlan`, as an equation without the bound that makes it
terminate: every call of `Next` that returns a node uses one up. -/
theorem drainPlan_eq (plan : QueryPlan) :
    drainPlan plan =
      match plan.next with
      | .error error => .error error
      | .ok (node, after) =>
        if node.empty then .ok []
        else
          match drainPlan after with
          | .error error => .error error
          | .ok nodes => .ok (node :: nodes) := by
  rw [drainPlan, QueryPlan.drainFor]
  cases returned : plan.next with
  | error error => rfl
  | ok result =>
    obtain ⟨u, after⟩ := result
    cases present : u.empty with
    | true => simp [present]
    | false =>
      have shorter := QueryPlan.next_length returned present
      have stable := QueryPlan.drainFor_stable plan.nodes.length after (by omega)
      cases rest : drainPlan after with
      | error error => simp [present, stable, rest]
      | ok nodes => simp [present, stable, rest]

/-- A plan without empty hosts is drained completely, or the draw throws. -/
theorem drainPlan_perm {plan : QueryPlan} {nodes : List Url} (drained : drainPlan plan = .ok nodes)
    (present : ∀ u ∈ plan.nodes, u.empty = false) : nodes.Perm plan.nodes := by
  induction size : plan.nodes.length using Nat.strong_induction_on generalizing plan nodes with
  | _ n ih =>
    rw [drainPlan_eq] at drained
    rcases plan.next_cases with ⟨none, after, returned, _⟩ | ⟨_, u, after, returned, perm⟩ |
      ⟨_, error, returned⟩
    · simp only [returned, Url.empty_default, if_true] at drained
      cases drained
      rw [none]
    · have visible : u.empty = false := present u (perm.subset List.mem_cons_self)
      simp only [returned, visible, Bool.false_eq_true, if_false] at drained
      have shorter := QueryPlan.next_length returned visible
      cases rest : drainPlan after with
      | error error => simp [rest] at drained
      | ok others =>
        simp only [rest, Except.ok.injEq] at drained
        subst drained
        have left := ih after.nodes.length (by omega) rest
          (fun v member => present v (perm.subset (List.mem_cons_of_mem _ member))) rfl
        exact (left.cons u).trans perm
    · simp [returned] at drained

theorem drainPlan_returns {plan : QueryPlan} (small : plan.nodes.length < 2 ^ 31) :
    ∃ nodes, drainPlan plan = .ok nodes := by
  induction size : plan.nodes.length using Nat.strong_induction_on generalizing plan with
  | _ n ih =>
    rw [drainPlan_eq]
    rcases plan.next_cases with ⟨_, after, returned, _⟩ | ⟨_, u, after, returned, _⟩ | ⟨large, _⟩
    · exact ⟨[], by simp [returned]⟩
    · cases visible : u.empty with
      | true => exact ⟨[], by simp [returned, visible]⟩
      | false =>
        have shorter := QueryPlan.next_length returned visible
        obtain ⟨others, rest⟩ := @ih after.nodes.length (by omega) after (by omega) rfl
        exact ⟨u :: others, by simp [returned, visible, rest]⟩
    · omega

theorem dedupePreservingOrder_eq {nodes : List Url} (distinct : nodes.Nodup)
    (present : ∀ u ∈ nodes, u.empty = false) : dedupePreservingOrder nodes = nodes := by
  rw [dedupePreservingOrder, appendFresh_eq_append distinct (by simpa using present) (by simp)]
  rfl

/-- An ordered plan gives back its list up to the first empty host. -/
theorem drainPlan_ordered {plan : QueryPlan} (ordered : plan.deterministicOrder = true)
    (unsorted : plan.sortNodes = false) (plain : plan.preferredNodes = [])
    (present : ∀ u ∈ plan.nodes, u.empty = false) : drainPlan plan = .ok plan.nodes := by
  induction nodes : plan.nodes generalizing plan with
  | nil =>
    rw [drainPlan_eq, QueryPlan.next_plain plain, QueryPlan.prepare_unsorted unsorted]
    simp [nodes]
  | cons first rest ih =>
    have visible : first.empty = false := present first (by simp [nodes])
    have tail := @ih { plan with prepared := true, nodes := rest } ordered unsorted plain
      (fun u member => present u (by simp [nodes, member])) rfl
    rw [drainPlan_eq, QueryPlan.next_plain plain, QueryPlan.prepare_unsorted unsorted]
    simp [nodes, QueryPlan.pickAndRemove, ordered, visible, ordered ▸ tail]

theorem drainPlan_fromOrderedNodes (nodes : List Url) :
    drainPlan (QueryPlan.fromOrderedNodes nodes) = .ok (dedupePreservingOrder nodes) := by
  refine @drainPlan_ordered (QueryPlan.fromOrderedNodes nodes) rfl rfl rfl ?_
  intro u member
  have kept : u ∈ ([] : List Url) ∨ u ∈ nodes ∧ (!u.empty) = true := mem_appendFresh.mp member
  simpa using (kept.resolve_left (by simp)).2

/-- The first node of a sorted seeded plan is the affinity node of its list. -/
theorem next_withSortedSeed {nodes : List Url} (ascending : Ascending Url.toString nodes)
    (seed : Int64) :
    (QueryPlan.withSortedSeed nodes seed).next.map Prod.fst = firstNodeWithSeed nodes seed := by
  have sorted : sortNodes nodes = nodes := ascending.sortOn_eq
  have deduped : sortAndDedupeNodes nodes = nodes := ascending.sortUnique_eq
  rw [QueryPlan.next_plain rfl]
  simp only [QueryPlan.prepare, QueryPlan.withSortedSeed, Bool.false_eq_true, if_false, if_true,
    sorted,
    QueryPlan.pickAndRemove, firstNodeWithSeed, deduped, Option.getD_none]
  cases nodes with
  | nil => rfl
  | cons first rest =>
    simp only [List.isEmpty_cons, Bool.false_eq_true, if_false]
    cases (GoRandom.ofSeed seed).int31n (Int32.ofNat (first :: rest).length) <;> rfl

end AlternatorClient
