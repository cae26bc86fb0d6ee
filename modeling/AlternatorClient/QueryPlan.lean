import AlternatorClient.Uri
import AlternatorClient.GoRandom.Int31n
import AlternatorClient.Foundation.AppendFresh
import Mathlib.Data.List.Perm.Basic

/-! `QueryPlan`: one `Next` over six ways of construction. Nodes are taken out
of `nodes_` one at a time, by preference, in order, or by a seeded draw that
moves the last node into the gap. -/
namespace AlternatorClient
open Foundation

structure QueryPlan where
  nodes : List Url
  seed : Int64
  goRng : Option GoRandom := none
  deterministicOrder : Bool
  sortNodes : Bool
  prepared : Bool := false
  preferredNodes : List Url

/-- `PopNode`: the first occurrence of the target is taken out. -/
def popNode (nodes : List Url) (target : Url) : Option (Url × List Url) :=
  if target ∈ nodes then some (target, nodes.erase target) else none

def dedupePreservingOrder (nodes : List Url) : List Url :=
  appendFresh (fun node => !node.empty) [] nodes

namespace QueryPlan

/-- The public constructor; the clock supplies the seed. -/
def ofClock (nodes : List Url) (seedFromClock : Int64) : QueryPlan :=
  { nodes := nodes, seed := seedFromClock, deterministicOrder := false, sortNodes := false,
    preferredNodes := [] }

/-- The casts of the seed to `uint64_t` and back keep its bits. -/
def withSeed (nodes : List Url) (seed : Int64) : QueryPlan :=
  { nodes := nodes, seed := seed, deterministicOrder := false, sortNodes := false,
    preferredNodes := [] }

def withSortedSeed (nodes : List Url) (seed : Int64) : QueryPlan :=
  { nodes := nodes, seed := seed, deterministicOrder := false, sortNodes := true,
    preferredNodes := [] }

def withPreferredNodes (nodes preferredNodes : List Url) : QueryPlan :=
  { nodes := nodes, seed := 0, deterministicOrder := true, sortNodes := true,
    preferredNodes := preferredNodes }

def withPreferredNode (nodes : List Url) (preferredNode : Url) : QueryPlan :=
  withPreferredNodes nodes (if preferredNode.empty then [] else [preferredNode])

def fromOrderedNodes (nodes : List Url) : QueryPlan :=
  { nodes := dedupePreservingOrder nodes, seed := 0, deterministicOrder := true, sortNodes := false,
    preferredNodes := [] }

def prepare (plan : QueryPlan) : QueryPlan :=
  if plan.prepared then plan
  else
    { plan with
      prepared := true
      nodes := if plan.sortNodes then AlternatorClient.sortNodes plan.nodes else plan.nodes }

/-- `nodes[idx] = nodes.back(); nodes.pop_back();` -/
def swapRemove (nodes : List Url) (idx : Nat) : List Url :=
  (nodes.set idx (nodes.getLast?.getD {})).dropLast

def pickAndRemove (plan : QueryPlan) : Except Error (Url × QueryPlan) :=
  if plan.deterministicOrder then
    .ok (plan.nodes.head?.getD {}, { plan with nodes := plan.nodes.tail })
  else
    let rng := plan.goRng.getD (GoRandom.ofSeed plan.seed)
    match rng.int31n (Int32.ofNat plan.nodes.length) with
    | .error error => .error error
    | .ok (idx, rng) =>
      .ok (plan.nodes.getD idx.toNat {},
        { plan with nodes := swapRemove plan.nodes idx.toNat, goRng := some rng })

/-- The loop over `preferred_nodes_`: what it returns, if anything, and what is
left of both lists. -/
def popPreferred : List Url → List Url → Option Url × List Url × List Url
  | [], nodes => (none, [], nodes)
  | preferred :: rest, nodes =>
    if preferred.empty then popPreferred rest nodes
    else
      match popNode nodes preferred with
      | some (out, nodes) => (some out, rest, nodes)
      | none => popPreferred rest nodes

def next (plan : QueryPlan) : Except Error (Url × QueryPlan) :=
  let plan := plan.prepare
  match popPreferred plan.preferredNodes plan.nodes with
  | (some out, preferredNodes, nodes) =>
    .ok (out, { plan with nodes := nodes, preferredNodes := preferredNodes })
  | (none, preferredNodes, nodes) =>
    let plan := { plan with nodes := nodes, preferredNodes := preferredNodes }
    if plan.nodes.isEmpty then .ok ({}, plan) else plan.pickAndRemove

/-- `for (node = Next(); !node.Empty(); node = Next())`, for `fuel` calls. -/
def drainFor : Nat → QueryPlan → Except Error (List Url)
  | 0, _ => .ok []
  | fuel + 1, plan =>
    match plan.next with
    | .error error => .error error
    | .ok (node, plan) =>
      if node.empty then .ok []
      else
        match drainFor fuel plan with
        | .error error => .error error
        | .ok nodes => .ok (node :: nodes)

end QueryPlan

/-- `DrainPlan`: a plan of `n` nodes is exhausted after `n + 1` calls. -/
def drainPlan (plan : QueryPlan) : Except Error (List Url) := plan.drainFor (plan.nodes.length + 1)

def firstNodeWithSeed (nodes : List Url) (seed : Int64) : Except Error Url :=
  let nodes := sortAndDedupeNodes nodes
  if nodes.isEmpty then .ok {}
  else
    match (GoRandom.ofSeed seed).int31n (Int32.ofNat nodes.length) with
    | .error error => .error error
    | .ok (idx, _) => .ok (nodes.getD idx.toNat {})

namespace QueryPlan

theorem prepare_perm (plan : QueryPlan) : plan.prepare.nodes.Perm plan.nodes := by
  unfold prepare
  split
  · exact .refl _
  · dsimp only
    split
    · exact (sorts_sortOn _ _).perm
    · exact .refl _

theorem popPreferred_perm {preferred nodes rest left : List Url} {out : Option Url}
    (popped : popPreferred preferred nodes = (out, rest, left)) :
    (out.toList ++ left).Perm nodes := by
  induction preferred with
  | nil =>
    simp only [popPreferred, Prod.mk.injEq] at popped
    obtain ⟨rfl, rfl, rfl⟩ := popped
    exact .refl _
  | cons first others ih =>
    simp only [popPreferred] at popped
    split at popped
    · exact ih popped
    · split at popped
      · rename_i target nodes' found
        simp only [Prod.mk.injEq] at popped
        obtain ⟨rfl, rfl, rfl⟩ := popped
        simp only [popNode] at found
        split at found
        · rename_i member
          cases found
          exact (List.perm_cons_erase member).symm
        · contradiction
      · exact ih popped

theorem popPreferred_none {preferred nodes rest left : List Url}
    (popped : popPreferred preferred nodes = (none, rest, left)) : rest = [] ∧ left = nodes := by
  induction preferred with
  | nil =>
    simp only [popPreferred, Prod.mk.injEq] at popped
    exact ⟨popped.2.1.symm, popped.2.2.symm⟩
  | cons first others ih =>
    simp only [popPreferred] at popped
    split at popped
    · exact ih popped
    · split at popped
      · simp at popped
      · exact ih popped

theorem swapRemove_perm {nodes : List Url} {idx : Nat} (inside : idx < nodes.length) :
    (nodes.getD idx {} :: swapRemove nodes idx).Perm nodes := by
  obtain ⟨front, last, rfl⟩ : ∃ front last, nodes = front ++ [last] :=
    ⟨nodes.dropLast, nodes.getLast (List.ne_nil_of_length_pos (by omega)),
      (List.dropLast_append_getLast _).symm⟩
  simp only [List.length_append, List.length_singleton] at inside
  simp only [swapRemove, List.getLast?_append, List.getLast?_singleton, Option.getD_some,
    Option.some_or]
  by_cases final : idx = front.length
  · subst final
    simpa [List.getD_eq_getElem?_getD] using (List.perm_append_singleton last front).symm
  · have early : idx < front.length := by omega
    simp only [List.getD_eq_getElem?_getD, List.getElem?_append_left early, List.set_append,
      if_pos early, List.dropLast_concat, List.getElem?_eq_getElem early, Option.getD_some]
    have moved : (front.set idx last).Perm (last :: front.eraseIdx idx) :=
      List.set_perm_cons_eraseIdx early last
    have restored : (front[idx] :: front.eraseIdx idx).Perm front :=
      List.getElem_cons_eraseIdx_perm early
    exact (moved.cons _).trans ((List.Perm.swap _ _ _).trans
      ((restored.cons last).trans (List.perm_append_singleton last front).symm))

/-- `static_cast<std::int32_t>(nodes.size())` is never more than the size. -/
theorem toInt_ofNat_le (n : Nat) : (Int32.ofNat n).toInt ≤ n := by
  have wrapped : (n : Int) % Int32.size ≤ n := by
    exact_mod_cast Nat.mod_le n Int32.size
  rw [Int32.toInt_ofNat', Int.bmod_eq_emod]
  split <;> omega

theorem pickAndRemove_ok {plan after : QueryPlan} {u : Url}
    (returned : plan.pickAndRemove = .ok (u, after)) (some : plan.nodes ≠ []) :
    (u :: after.nodes).Perm plan.nodes := by
  simp only [pickAndRemove] at returned
  split at returned
  · cases returned
    cases nodes : plan.nodes with
    | nil => contradiction
    | cons first rest => simp
  · split at returned
    · contradiction
    · rename_i idx rng drawn
      cases returned
      have range := GoRandom.int31n_ok drawn
      have := toInt_ofNat_le plan.nodes.length
      exact swapRemove_perm (by omega)

theorem pickAndRemove_returns {plan : QueryPlan} (some : plan.nodes ≠ [])
    (small : plan.nodes.length < 2 ^ 31) : ∃ u after, plan.pickAndRemove = .ok (u, after) := by
  simp only [pickAndRemove]
  split
  · exact ⟨_, _, rfl⟩
  · have size := Int32.toInt_ofNat_of_lt small
    have := List.length_pos_iff.mpr some
    obtain ⟨v, next, drawn, _⟩ := GoRandom.int31n_range
      (plan.goRng.getD (GoRandom.ofSeed plan.seed)) (Int32.ofNat plan.nodes.length) (by omega)
    rw [drawn]
    exact ⟨_, _, rfl⟩

/-- What one call can do: it exhausts the preferred nodes and finds none left,
takes one of the nodes out, or throws. -/
theorem next_cases (plan : QueryPlan) :
    (plan.nodes = [] ∧ ∃ after, plan.next = .ok ({}, after) ∧ after.nodes = []) ∨
    (plan.nodes ≠ [] ∧ ∃ u after, plan.next = .ok (u, after) ∧ (u :: after.nodes).Perm plan.nodes) ∨
    (2 ^ 31 ≤ plan.nodes.length ∧ ∃ error, plan.next = .error error) := by
  have prepared := plan.prepare_perm
  simp only [next]
  cases popped : popPreferred plan.prepare.preferredNodes plan.prepare.nodes with
  | mk out lists =>
    obtain ⟨rest, left⟩ := lists
    cases out with
    | some u =>
      have perm := (popPreferred_perm popped).trans prepared
      refine .inr (.inl ⟨?_, u, _, rfl, perm⟩)
      intro none
      rw [none] at perm
      simpa using perm.length_eq
    | none =>
      obtain ⟨rfl, rfl⟩ := popPreferred_none popped
      cases empty : plan.prepare.nodes with
      | nil =>
        rw [empty] at prepared
        exact .inl ⟨prepared.symm.eq_nil, _, rfl, rfl⟩
      | cons first others =>
        have nonempty : plan.nodes ≠ [] := by
          intro none
          rw [none, empty] at prepared
          simpa using prepared.length_eq
        rw [empty] at prepared
        simp only [List.isEmpty_cons, Bool.false_eq_true, if_false]
        cases picked :
          pickAndRemove { plan.prepare with nodes := first :: others, preferredNodes := [] } with
        | ok result =>
          obtain ⟨u, after⟩ := result
          exact .inr (.inl
            ⟨nonempty, u, after, rfl, (pickAndRemove_ok picked (by simp)).trans prepared⟩)
        | error error =>
          refine .inr (.inr ⟨?_, error, rfl⟩)
          by_contra small
          obtain ⟨u, after, returns⟩ := @pickAndRemove_returns
            { plan.prepare with nodes := first :: others, preferredNodes := [] } (by simp)
            (by rw [← prepared.length_eq] at small; exact not_le.mp small)
          rw [picked] at returns
          contradiction

end QueryPlan
end AlternatorClient
