import AlternatorClient.LiveNodes.Affinity
import AlternatorClient.KeyRouteAffinity.Voting
import AlternatorClient.QueryPlan.Calls

/-! Batch writes over live nodes. A batch of one operation is planned like the
single write: one vote names the node the seeded order starts with. -/
namespace AlternatorClient
open Foundation

/-- One hash elects its affinity node and no other. -/
theorem Voted.eq_singleton {active voted : List Url} {hash : Int64} {u : Url}
    (first : firstNodeWithSeed active hash = .ok u) (member : u ∈ active)
    (elected : Voted active [hash] voted) : voted = [u] := by
  have votes : ∀ v, 0 < votesFor active [hash] v ↔ v = u := by
    intro v
    by_cases same : v = u
    · simp [votesFor, first, Except.toOption, same]
    · simp [votesFor, first, Except.toOption, same, Ne.symm same]
  have single : ∀ v, v ∈ voted ↔ v ∈ [u] := by
    intro v
    rw [elected.1 v, votes v, List.mem_singleton]
    constructor
    · exact fun both => both.2
    · rintro rfl
      exact ⟨member, rfl⟩
  have perm := (List.perm_ext_iff_of_nodup elected.2.nodup (List.nodup_singleton u)).mpr single
  exact perm.eq_singleton

namespace LiveNodes
variable {config : Config} {s : LiveNodes} {values : AttributeMap} {table : Bytes}
  {metadata : PartitionKeyMetadata} {value : AttributeValue}

theorem batchWriteHashes_singleton
    (resolved : partitionKeyValue values table metadata = some value) :
    batchWriteHashes metadata [⟨table, values⟩] = [value.hash] := by
  rw [batchWriteHashes_eq]
  simp [resolved]

theorem queryPlanNodesForHashes_singleton {hash : Int64} {offered : List Url}
    (returned : (s.getQueryPlanNodesForHash config hash).1 = .ok offered) (some : offered ≠ [])
    (distinct : offered.Nodup) (present : ∀ u ∈ offered, u.empty = false) :
    (queryPlanNodesForHashes (source config) [hash] s).1 = .ok offered := by
  have whole : appendMissingNodes [] offered = offered := by
    rw [appendMissingNodes, appendFresh_eq_append distinct (by simpa using present) (by simp)]
    rfl
  have asked : ((source config).getQueryPlanNodesForHash hash s).1 = .ok offered := returned
  simp only [queryPlanNodesForHashes, appendNodesForHashes]
  generalize (source config).getQueryPlanNodesForHash hash s = answer at asked ⊢
  obtain ⟨result, after⟩ := answer
  subst asked
  simp [whole, some]

section
variable (present : ∀ u ∈ s.healthStore.nodes, u.empty = false)
  (resolved : partitionKeyValue values table metadata = some value)
include present resolved

theorem batch_without_active (none : s.getActiveNodes = []) (some : s.getQuarantinedNodes ≠ []) :
    ∃ q,
      drainResult (queryPlanForPartitionKey (source config) s values table metadata).1 = .ok [q] ∧
      drainResult (queryPlanForBatchWrite (source config) s [⟨table, values⟩] metadata).1 =
        .ok [q] := by
  obtain ⟨q, member, offered⟩ := @offered_without_active config value.hash s some
  have visible : q.empty = false := present q (s.healthStore.getQuarantinedNodes_subset member)
  rw [← none] at offered
  refine ⟨q, drain_alone present (hashPartitionKey_ok resolved) none offered visible, ?_⟩
  have hashed := batchWriteHashes_singleton resolved
  have returned : (s.getQueryPlanNodesForHash config value.hash).1 = .ok [q] := by
    rw [getQueryPlanNodesForHash_ok offered, none]
    simp [front, visible, appendUniqueNodes, appendFresh]
  have asked := queryPlanNodesForHashes_singleton returned (by simp) (List.nodup_singleton q)
    (by simpa using visible)
  have fixed : sortAndDedupeNodes [q] = [q] :=
    Ascending.sortUnique_eq (List.pairwise_singleton _ _)
  -- the only candidate gets the only vote
  obtain ⟨voted, selected, elected⟩ := @select_voted [q] (by simpa using visible)
    (by simp [Separates]) (fun seed => ⟨q, by simp, firstNodeWithSeed_singleton q seed⟩)
    [⟨table, values⟩] metadata (by simp) (by simp [hashed])
  rw [hashed] at elected
  obtain rfl := elected.eq_singleton (firstNodeWithSeed_singleton q value.hash) (by simp)
  rw [fixed] at selected
  have active : (source config).getActiveNodes s = [] := none
  rw [queryPlanForBatchWrite_fst (by rw [hashed]; exact asked)]
  simp only [batchWritePlan, active, List.isEmpty_nil, if_true, selected]
  change drainPlan (QueryPlan.withPreferredNodes [q] [q]) = _
  rw [QueryPlan.drainPlan_withPreferredNodes (by simpa using visible)]
  simp [QueryPlan.preferredOrder, sortNodes, sortOn]

theorem batch_with_active (some : s.getActiveNodes ≠ []) {nodes : List Url}
    (drained : drainResult (queryPlanForPartitionKey (source config) s values table metadata).1 =
      .ok nodes) :
    ∃ u rest others, nodes = u :: rest ∧
      drainResult (queryPlanForBatchWrite (source config) s [⟨table, values⟩] metadata).1 =
        .ok (u :: others) ∧
      ∀ v, v ∈ u :: rest ↔ v ∈ u :: others := by
  have hashed := hashPartitionKey_ok resolved
  have visible : ∀ u ∈ s.getActiveNodes, u.empty = false := fun u => active_present present
  have separated := s.healthStore.getActiveNodes_ascending.separates
  cases offered : (s.stickyQuarantinedNodeForHash config value.hash s.getActiveNodes).1 with
  | error error =>
    rw [drain_threw offered hashed] at drained
    contradiction
  | ok q =>
    have quarantined := front_quarantined offered
    obtain ⟨order, rfl, perm, ordered⟩ := drain_shape present offered hashed drained
    have returned : (s.getQueryPlanNodesForHash config value.hash).1 =
        .ok (front q ++ s.getActiveNodes) := by
      rw [getQueryPlanNodesForHash_ok offered, appendUniqueNodes_front present quarantined]
    have asked := queryPlanNodesForHashes_singleton returned (by simp [some])
      (by
        rw [← appendUniqueNodes_front present quarantined]
        apply appendFresh_nodup
        simp only [front]
        split <;> simp)
      (by
        intro u member
        exact (List.mem_append.mp member).elim front_present (visible u))
    obtain ⟨first, rest, rfl, affinity⟩ := seededDrain_head visible separated some
      ((sortAndDedupeNodes_active s).symm ▸ ordered)
    have drawn : ∀ seed, ∃ u ∈ s.getActiveNodes, firstNodeWithSeed s.getActiveNodes seed = .ok u := by
      rcases firstNodeWithSeed_cases some with drawn | ⟨_, refused⟩
      · exact drawn
      · rw [refused] at affinity
        contradiction
    have known : first ∈ s.getActiveNodes := perm.subset List.mem_cons_self
    have hash := batchWriteHashes_singleton resolved
    obtain ⟨voted, selected, elected⟩ := @select_voted _ visible separated drawn
      [⟨table, values⟩] metadata some (by simp [hash])
    rw [hash] at elected
    obtain rfl := elected.eq_singleton affinity known
    have planned : drainResult
        (queryPlanForBatchWrite (source config) s [⟨table, values⟩] metadata).1 =
        .ok (front q ++ [first] ++ s.getActiveNodes.filter fun u => u ∉ [first]) := by
      rw [queryPlanForBatchWrite_fst (by rw [hash]; exact asked)]
      refine (drain_batchWritePlan visible separated some selected elected.2.nodup
        (by simpa using known) _).1.trans ?_
      rw [sortAndDedupeNodes_active, nodesMissingFrom_active present quarantined]
    have members : ∀ v, v ∈ front q ++ first :: rest ↔
        v ∈ front q ++ [first] ++ s.getActiveNodes.filter fun u => u ∉ [first] := by
      intro v
      have active : v ∈ first :: rest ↔ v ∈ s.getActiveNodes := perm.mem_iff
      rw [List.mem_append, active]
      by_cases same : v = first
      · simp [same, known]
      · simp [same]
    cases start : front q with
    | nil =>
      rw [start] at planned members
      exact ⟨first, rest, _, rfl, planned, members⟩
    | cons u others =>
      rw [start] at planned members
      exact ⟨u, others ++ first :: rest, _, rfl, planned, members⟩

end
end LiveNodes

/-- A single write and the batch of that one operation are planned alike: from
one state they go to the same node first and try the same nodes. -/
theorem batch_of_one_agrees (config : Config) (state : LiveNodes)
    (present : ∀ u ∈ state.healthStore.nodes, u.empty = false)
    (some : state.getActiveNodes ≠ [] ∨ state.getQuarantinedNodes ≠ [])
    (values : AttributeMap) (table : Bytes) (metadata : PartitionKeyMetadata)
    (value : AttributeValue) (resolved : partitionKeyValue values table metadata = .some value) :
    let single := drainResult
      (queryPlanForPartitionKey (LiveNodes.source config) state values table metadata).1
    let batch := drainResult
      (queryPlanForBatchWrite (LiveNodes.source config) state [⟨table, values⟩] metadata).1
    (∀ nodes, single = .ok nodes →
      ∃ u rest others, nodes = u :: rest ∧ batch = .ok (u :: others) ∧
        ∀ v, v ∈ u :: rest ↔ v ∈ u :: others) ∧
    (state.getActiveNodes.length + 1 < 2 ^ 31 → ∃ nodes, single = .ok nodes) := by
  intro single batch
  constructor
  · intro nodes drained
    by_cases none : state.getActiveNodes = []
    · obtain ⟨q, alone, planned⟩ := @LiveNodes.batch_without_active config _ _ _ _ _ present resolved
        none (some.resolve_left (not_not.mpr none))
      rw [show single = .ok [q] from alone] at drained
      cases drained
      exact ⟨q, [], [], rfl, planned, fun v => Iff.rfl⟩
    · exact LiveNodes.batch_with_active present resolved none drained
  · exact LiveNodes.drain_returns present (hashPartitionKey_ok resolved)

/-- A client with an Active node beside a Quarantined one: the single write and the
batch of it go to one node first and try the same nodes. -/
theorem batch_of_one_agrees_quarantined :
    let a := ({} : Config).nodeUrl (bytes "a")
    let b := ({} : Config).nodeUrl (bytes "b")
    let state := (Session.couple.run {} (quarantining a)).nodes
    let values : AttributeMap := OrderedMap.empty.assign (bytes "pk") (.ofString (bytes "k"))
    let metadata : PartitionKeyMetadata := ⟨OrderedMap.empty.assign (bytes "t") (bytes "pk")⟩
    state.getQuarantinedNodes = [a] ∧ state.getActiveNodes = [b] ∧ ∃ u rest others,
      drainResult (queryPlanForPartitionKey (LiveNodes.source {}) state values (bytes "t")
        metadata).1 = .ok (u :: rest) ∧
      drainResult (queryPlanForBatchWrite (LiveNodes.source {}) state [⟨bytes "t", values⟩]
        metadata).1 = .ok (u :: others) ∧
      ∀ v, v ∈ u :: rest ↔ v ∈ u :: others := by
  intro a b state values metadata
  have agrees := batch_of_one_agrees {} state (by decide +kernel) (.inl (by decide +kernel)) values
    (bytes "t") metadata (.ofString (bytes "k")) (by decide +kernel)
  obtain ⟨nodes, drained⟩ := agrees.2 (by decide +kernel)
  obtain ⟨u, rest, others, rfl, planned, same⟩ := agrees.1 nodes drained
  exact ⟨by decide +kernel, by decide +kernel, u, rest, others, drained, planned, same⟩

end AlternatorClient
