import AlternatorClient.QueryPlan.Drain
import Mathlib.Data.List.Perm.Lattice

/-! Repeated calls of `Next`. A plan of any construction gives its nodes one by
one, each as often as it was put in, and the empty node from then on. -/
namespace AlternatorClient
open Foundation

namespace QueryPlan

/-- The results of that many calls, oldest first, and the plan they leave. -/
def calls : Nat → QueryPlan → Except Error (List Url × QueryPlan)
  | 0, plan => .ok ([], plan)
  | n + 1, plan =>
    match plan.next with
    | .error error => .error error
    | .ok (node, plan) =>
      match calls n plan with
      | .error error => .error error
      | .ok (nodes, plan) => .ok (node :: nodes, plan)

/-- The index that the next draw from a non-empty list uses is inside the list. -/
def DrawsInRange (plan : QueryPlan) : Prop :=
  plan.nodes ≠ [] →
    ∃ idx rng, (plan.goRng.getD (GoRandom.ofSeed plan.seed)).int31n
      (Int32.ofNat plan.nodes.length) = .ok (idx, rng) ∧ 0 ≤ idx ∧ idx < plan.nodes.length

/-- However often it is called, a plan gives these nodes and then only the
empty one, and never leaves its list. -/
def Gives (plan : QueryPlan) (order : List Url) : Prop :=
  (∀ u ∈ order, u.empty = false) ∧
  ∀ n, ∃ after,
    plan.calls n = .ok (order.take n ++ List.replicate (n - order.length) ({} : Url), after) ∧
    after.DrawsInRange

theorem drawsInRange_of_small {plan : QueryPlan} (small : plan.nodes.length < 2 ^ 31) :
    plan.DrawsInRange := by
  intro some
  have size := Int32.toInt_ofNat_of_lt small
  have positive := List.length_pos_iff.mpr some
  obtain ⟨idx, rng, drawn, low, high⟩ := GoRandom.int31n_range
    (plan.goRng.getD (GoRandom.ofSeed plan.seed)) (Int32.ofNat plan.nodes.length) (by omega)
  exact ⟨idx, rng, drawn, low, by omega⟩

theorem gives_of_drainPlan {plan : QueryPlan} {order : List Url}
    (drained : drainPlan plan = .ok order) (present : ∀ u ∈ plan.nodes, u.empty = false)
    (small : plan.nodes.length < 2 ^ 31) : plan.Gives order := by
  have perm := drainPlan_perm drained present
  refine ⟨fun u member => present u (perm.subset member), fun n => ?_⟩
  induction n generalizing plan order with
  | zero => exact ⟨plan, by simp [calls], drawsInRange_of_small small⟩
  | succ n ih =>
    rcases plan.next_cases with ⟨none, after, returned, left⟩ | ⟨_, u, after, returned, rest⟩ |
      ⟨large, _⟩
    · rw [none] at perm
      obtain rfl := perm.eq_nil
      have done : drainPlan after = .ok [] := by
        obtain ⟨order, drained⟩ := @drainPlan_returns after (by simp [left])
        have perm := drainPlan_perm drained (by simp [left])
        rw [left] at perm
        rw [drained, perm.eq_nil]
      obtain ⟨final, called, inside⟩ := @ih after [] done (by simp [left]) (by simp [left])
        (by simp [left])
      simp only [List.take_nil, List.nil_append, List.length_nil, Nat.sub_zero] at called
      exact ⟨final, by simp [calls, returned, List.replicate_succ, called], inside⟩
    · have visible : u.empty = false := present u (rest.subset List.mem_cons_self)
      have kept : ∀ v ∈ after.nodes, v.empty = false :=
        fun v member => present v (rest.subset (List.mem_cons_of_mem _ member))
      have shorter := next_length returned visible
      rw [drainPlan_eq] at drained
      simp only [returned, visible, Bool.false_eq_true, if_false] at drained
      cases others : drainPlan after with
      | error error => simp [others] at drained
      | ok order' =>
        simp only [others, Except.ok.injEq] at drained
        subst drained
        obtain ⟨final, called, inside⟩ := ih others kept (by omega) (drainPlan_perm others kept)
        exact ⟨final, by simp [calls, returned, called], inside⟩
    · omega

/-- What the loop over the preferred nodes takes, in terms of lists with
multiplicities. -/
theorem popPreferred_some {preferred nodes rest left : List Url} {out : Url}
    (present : ∀ u ∈ nodes, u.empty = false)
    (popped : popPreferred preferred nodes = (some out, rest, left)) :
    preferred.bagInter nodes = out :: rest.bagInter left ∧ nodes.diff preferred = left.diff rest ∧
      left.Sublist nodes := by
  induction preferred with
  | nil => simp [popPreferred] at popped
  | cons first others ih =>
    simp only [popPreferred] at popped
    by_cases member : first ∈ nodes
    · rw [if_neg (by simp [present first member]), popNode, if_pos member] at popped
      simp only [Prod.mk.injEq, Option.some.injEq] at popped
      obtain ⟨rfl, rfl, rfl⟩ := popped
      exact ⟨List.cons_bagInter_of_mem _ member, List.diff_cons _ _ _, List.erase_sublist⟩
    · have skipped : popPreferred others nodes = (some out, rest, left) := by
        simpa [popNode, member] using popped
      rw [List.cons_bagInter_of_not_mem _ member, List.diff_cons, List.erase_of_not_mem member]
      exact ih skipped

theorem popPreferred_exhausted {preferred nodes rest left : List Url}
    (present : ∀ u ∈ nodes, u.empty = false)
    (popped : popPreferred preferred nodes = (none, rest, left)) :
    preferred.bagInter nodes = [] ∧ nodes.diff preferred = nodes := by
  induction preferred with
  | nil => simp
  | cons first others ih =>
    simp only [popPreferred] at popped
    by_cases member : first ∈ nodes
    · rw [if_neg (by simp [present first member]), popNode, if_pos member] at popped
      simp at popped
    · have skipped : popPreferred others nodes = (none, rest, left) := by
        simpa [popNode, member] using popped
      rw [List.cons_bagInter_of_not_mem _ member, List.diff_cons, List.erase_of_not_mem member]
      exact ih skipped

/-- One call of a deterministic plan whose list is already in order. -/
theorem next_deterministic {plan : QueryPlan} (ordered : plan.deterministicOrder = true)
    (ready : plan.prepare.nodes = plan.nodes) (present : ∀ u ∈ plan.nodes, u.empty = false) :
    (plan.nodes = [] ∧ ∃ after, plan.next = .ok ({}, after)) ∨
    ∃ u after, plan.next = .ok (u, after) ∧ u ∈ plan.nodes ∧ after.deterministicOrder = true ∧
      after.prepare.nodes = after.nodes ∧ after.nodes.Sublist plan.nodes ∧
      plan.preferredNodes.bagInter plan.nodes ++ plan.nodes.diff plan.preferredNodes =
        u :: (after.preferredNodes.bagInter after.nodes ++
          after.nodes.diff after.preferredNodes) := by
  have kept : plan.prepare.preferredNodes = plan.preferredNodes := by
    rw [prepare]
    split <;> rfl
  have order : plan.prepare.deterministicOrder = true := by
    rw [← ordered, prepare]
    split <;> rfl
  have done : ∀ nodes preferred : List Url, ({ plan.prepare with
      nodes := nodes, preferredNodes := preferred } : QueryPlan).prepare.nodes = nodes := by
    intro nodes preferred
    have prepared : plan.prepare.prepared = true := by
      rw [prepare]
      split
      · assumption
      · rfl
    rw [prepare, if_pos prepared]
  simp only [next, kept, ready]
  cases popped : popPreferred plan.preferredNodes plan.nodes with
  | mk out lists =>
    obtain ⟨rest, left⟩ := lists
    cases out with
    | some u =>
      obtain ⟨taken, remaining, sublist⟩ := popPreferred_some present popped
      refine .inr ⟨u, _, rfl, ?_, order, done _ _, sublist, by rw [taken, remaining]; rfl⟩
      have member : u ∈ plan.preferredNodes.bagInter plan.nodes := by simp [taken]
      exact (List.mem_bagInter.mp member).2
    | none =>
      obtain ⟨none, remaining⟩ := popPreferred_exhausted present popped
      obtain ⟨rfl, rfl⟩ := popPreferred_none popped
      cases nodes : plan.nodes with
      | nil => exact .inl ⟨rfl, _, rfl⟩
      | cons first others =>
        refine .inr ⟨first, { plan.prepare with nodes := others, preferredNodes := [] }, ?_,
          by simp, order, done _ _, List.sublist_cons_self _ _, ?_⟩
        · simp [pickAndRemove, order]
        · rw [← nodes, none, remaining, nodes]
          simp

/-- A deterministic plan in order gives the preferred entries still available,
in their order, and then what is left of the list. -/
theorem drainPlan_deterministic {plan : QueryPlan} (ordered : plan.deterministicOrder = true)
    (ready : plan.prepare.nodes = plan.nodes) (present : ∀ u ∈ plan.nodes, u.empty = false) :
    drainPlan plan =
      .ok (plan.preferredNodes.bagInter plan.nodes ++ plan.nodes.diff plan.preferredNodes) := by
  induction size : plan.nodes.length generalizing plan with
  | zero =>
    have none := List.eq_nil_of_length_eq_zero size
    obtain ⟨_, after, returned⟩ | ⟨u, after, _, member, _⟩ :=
      next_deterministic ordered ready present
    · rw [drainPlan_eq, returned]
      simp [none]
    · simp [none] at member
  | succ n ih =>
    obtain ⟨none, _⟩ | ⟨u, after, returned, member, ordered', ready', sublist, same⟩ :=
      next_deterministic ordered ready present
    · simp [none] at size
    · have shorter := next_length returned (present u member)
      have rest := ih ordered' ready' (fun v left => present v (sublist.subset left)) (by omega)
      rw [drainPlan_eq, same]
      simp [returned, present u member, rest]

theorem prepare_prepare (plan : QueryPlan) : plan.prepare.prepare = plan.prepare := by
  have prepared : plan.prepare.prepared = true := by
    rw [prepare]
    split
    · assumption
    · rfl
  rw [prepare, if_pos prepared]

theorem drainPlan_prepare (plan : QueryPlan) : drainPlan plan.prepare = drainPlan plan := by
  rw [drainPlan_eq, drainPlan_eq plan]
  simp only [next, prepare_prepare]

/-- The nodes of a plan with preferences: the preferred entries still
available, then the rest by `ToString`. -/
def preferredOrder (nodes preferred : List Url) : List Url :=
  preferred.bagInter nodes ++ (AlternatorClient.sortNodes nodes).diff preferred

theorem drainPlan_withPreferredNodes {nodes : List Url} (present : ∀ u ∈ nodes, u.empty = false)
    (preferred : List Url) :
    drainPlan (withPreferredNodes nodes preferred) = .ok (preferredOrder nodes preferred) := by
  have sorted : (withPreferredNodes nodes preferred).prepare.nodes =
    AlternatorClient.sortNodes nodes := rfl
  have drained := @drainPlan_deterministic (withPreferredNodes nodes preferred).prepare rfl
    (by rw [prepare_prepare]) (by simpa [sorted] using present)
  have same : preferred.bagInter (AlternatorClient.sortNodes nodes) = preferred.bagInter nodes :=
    (sorts_sortOn _ nodes).perm.bagInter_left preferred
  rw [drainPlan_prepare] at drained
  rw [drained, preferredOrder, ← same]
  rfl

theorem preferredOrder_sorted (nodes preferred : List Url) :
    ((AlternatorClient.sortNodes nodes).diff preferred).Pairwise fun a b =>
      a.toString ≤ b.toString :=
  (sorts_sortOn _ nodes).pairwise.sublist (List.diff_sublist _ _)

end QueryPlan

theorem dedupePreservingOrder_eq_eraseDups {nodes : List Url}
    (present : ∀ u ∈ nodes, u.empty = false) : dedupePreservingOrder nodes = nodes.eraseDups := by
  have kept : (nodes.filter fun u => !u.empty && !decide (u ∈ ([] : List Url))) = nodes := by
    rw [List.filter_eq_self]
    intro u member
    simp [present u member]
  rw [dedupePreservingOrder, appendFresh_eq_eraseDups, kept, List.nil_append]

namespace QueryPlan

theorem gives_perm {plan : QueryPlan} (present : ∀ u ∈ plan.nodes, u.empty = false)
    (small : plan.nodes.length < 2 ^ 31) :
    ∃ order, plan.Gives order ∧ order.Perm plan.nodes := by
  obtain ⟨order, drained⟩ := drainPlan_returns small
  exact ⟨order, gives_of_drainPlan drained present small, drainPlan_perm drained present⟩

theorem gives_preferred {nodes : List Url} (present : ∀ u ∈ nodes, u.empty = false)
    (small : nodes.length < 2 ^ 31) (preferred : List Url) :
    ∃ rest, (withPreferredNodes nodes preferred).Gives (preferred.bagInter nodes ++ rest) ∧
      (preferred.bagInter nodes ++ rest).Perm nodes ∧
      rest.Pairwise fun a b => a.toString ≤ b.toString := by
  have drained := drainPlan_withPreferredNodes present preferred
  exact ⟨_, gives_of_drainPlan drained present small, drainPlan_perm drained present,
    preferredOrder_sorted nodes preferred⟩

end QueryPlan

/-- However a plan is constructed, draining it gives back the nodes it was made
from, each as often as it was given (once, where the order is given) and the
preferred ones first; calls after that return the sentinel. -/
theorem queryPlan_calls (nodes : List Url) (small : nodes.length < 2 ^ 31)
    (present : ∀ u ∈ nodes, u.empty = false) (seed : Int64) (preferred : List Url)
    (preferredNode : Url) :
    (∃ order, (QueryPlan.ofClock nodes seed).Gives order ∧ order.Perm nodes) ∧
    (∃ order, (QueryPlan.withSeed nodes seed).Gives order ∧ order.Perm nodes) ∧
    (∃ order, (QueryPlan.withSortedSeed nodes seed).Gives order ∧ order.Perm nodes) ∧
    (∃ rest, (QueryPlan.withPreferredNodes nodes preferred).Gives
        (preferred.bagInter nodes ++ rest) ∧
      (preferred.bagInter nodes ++ rest).Perm nodes ∧
      rest.Pairwise fun a b => a.toString ≤ b.toString) ∧
    (∃ rest, (QueryPlan.withPreferredNode nodes preferredNode).Gives
        ([preferredNode].bagInter nodes ++ rest) ∧
      ([preferredNode].bagInter nodes ++ rest).Perm nodes ∧
      rest.Pairwise fun a b => a.toString ≤ b.toString) ∧
    (QueryPlan.fromOrderedNodes nodes).Gives nodes.eraseDups ∧
    nodes.eraseDups.Nodup ∧ ∀ u, u ∈ nodes.eraseDups ↔ u ∈ nodes := by
  have deduped := dedupePreservingOrder_eq_eraseDups present
  have distinct : nodes.eraseDups.Nodup := by
    rw [← deduped]
    exact appendFresh_nodup List.nodup_nil
  refine ⟨?_, ?_, ?_, ?_, ?_, ?_, ?_, ?_⟩
  · exact @QueryPlan.gives_perm (.ofClock nodes seed) present small
  · exact @QueryPlan.gives_perm (.withSeed nodes seed) present small
  · exact @QueryPlan.gives_perm (.withSortedSeed nodes seed) present small
  · exact QueryPlan.gives_preferred present small preferred
  · rw [QueryPlan.withPreferredNode]
    split
    · rename_i empty
      have absent : preferredNode ∉ nodes := by
        intro member
        simp [present preferredNode member] at empty
      rw [List.cons_bagInter_of_not_mem _ absent]
      exact QueryPlan.gives_preferred present small []
    · exact QueryPlan.gives_preferred present small [preferredNode]
  · have fewer : nodes.eraseDups.length ≤ nodes.length :=
      (List.subperm_of_subset distinct fun u => List.mem_eraseDups.mp).length_le
    apply QueryPlan.gives_of_drainPlan (deduped ▸ drainPlan_fromOrderedNodes nodes)
    · intro u member
      simp only [QueryPlan.fromOrderedNodes, deduped, List.mem_eraseDups] at member
      exact present u member
    · simp only [QueryPlan.fromOrderedNodes, deduped]
      omega
  · exact distinct
  · exact fun u => List.mem_eraseDups

theorem queryPlan_calls_repeated :
    let a : Url := ⟨bytes "http", bytes "a", 8080, [], []⟩
    let b : Url := ⟨bytes "http", bytes "b", 8080, [], []⟩
    [b, a, b].length < 2 ^ 31 ∧ (∀ u ∈ [b, a, b], u.empty = false) ∧
      ∃ rest, (QueryPlan.withPreferredNodes [b, a, b] [{}, b, b, b]).Gives
          (([{}, b, b, b] : List Url).bagInter [b, a, b] ++ rest) ∧
        (([{}, b, b, b] : List Url).bagInter [b, a, b] ++ rest).Perm [b, a, b] ∧
        rest.Pairwise fun a b => a.toString ≤ b.toString :=
  ⟨by decide, by decide, (queryPlan_calls _ (by decide) (by decide) 0 _ {}).2.2.2.1⟩

end AlternatorClient
