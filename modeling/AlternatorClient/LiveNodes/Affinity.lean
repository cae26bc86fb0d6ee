import AlternatorClient.LiveNodes.InStep
import AlternatorClient.LiveNodes.Sticky

/-! Affinity plans over live nodes: at most one Quarantined node, then the
seeded order of the Active ones. -/
namespace AlternatorClient
open Foundation

namespace LiveNodes
variable {config : Config} {hash : Int64} {s : LiveNodes}

def front (offered : Url) : List Url := if offered.empty then [] else [offered]

theorem sortAndDedupeNodes_active (s : LiveNodes) :
    sortAndDedupeNodes s.getActiveNodes = s.getActiveNodes :=
  s.healthStore.getActiveNodes_ascending.sortUnique_eq

theorem getQueryPlanNodesForHash_ok {q : Url}
    (offered : (s.stickyQuarantinedNodeForHash config hash s.getActiveNodes).1 = .ok q) :
    (s.getQueryPlanNodesForHash config hash).1 =
      .ok (appendUniqueNodes (front q) s.getActiveNodes) := by
  simp only [getQueryPlanNodesForHash, sortAndDedupeNodes_active]
  generalize s.stickyQuarantinedNodeForHash config hash s.getActiveNodes = result at offered ⊢
  obtain ⟨returned, t⟩ := result
  subst offered
  rfl

theorem getQueryPlanNodesForHash_error {error : Error}
    (threw : (s.stickyQuarantinedNodeForHash config hash s.getActiveNodes).1 = .error error) :
    (s.getQueryPlanNodesForHash config hash).1 = .error error := by
  simp only [getQueryPlanNodesForHash, sortAndDedupeNodes_active]
  generalize s.stickyQuarantinedNodeForHash config hash s.getActiveNodes = result at threw ⊢
  obtain ⟨returned, t⟩ := result
  subst threw
  rfl

theorem lookup_of_assigned (held : s.assigned hash = some q) :
    ∃ key, s.quarantineByHash.lookup hash.toInt = some (key, q) := by
  obtain ⟨⟨key, node⟩, found, rfl⟩ := Option.map_eq_some_iff.mp held
  exact ⟨key, found⟩

/-- An assigned node that is still first is offered again. -/
theorem sticky_kept (held : s.assigned hash = some q) (quarantined : q ∈ s.getQuarantinedNodes)
    (first : firstNodeWithSeed (s.getActiveNodes ++ [q]) hash = .ok q) :
    s.stickyQuarantinedNodeForHash config hash s.getActiveNodes = (.ok q, s) := by
  obtain ⟨key, found⟩ := lookup_of_assigned held
  simp only [stickyQuarantinedNodeForHash, found, quarantined, if_true,
    quarantinedNodeIsFirstForHash_true.mpr first]

/-- A node that is offered ahead of the others is Quarantined, so it is not among
the Active nodes that the rest of the plan is made of. -/
theorem front_subset {q : Url} {t : LiveNodes}
    (offered : Offered s.healthStore hash s.getActiveNodes t (.ok q)) :
    front q ⊆ s.getQuarantinedNodes := by
  cases offered with
  | node q quarantined =>
    simp only [front]
    split
    · simp
    · exact fun u member => List.mem_singleton.mp member ▸ quarantined
  | nothing => simp [front]

theorem front_quarantined {q : Url}
    (offered : (s.stickyQuarantinedNodeForHash config hash s.getActiveNodes).1 = .ok q) :
    front q ⊆ s.getQuarantinedNodes := by
  have outcome := @offered_sticky config hash s.getActiveNodes s
  rw [offered] at outcome
  exact front_subset outcome

theorem front_length (q : Url) : (front q).length ≤ 1 := by
  simp only [front]
  split <;> simp

theorem front_present {q u : Url} (member : u ∈ front q) : u.empty = false := by
  simp only [front] at member
  split at member
  · simp at member
  · rename_i present
    rw [List.mem_singleton.mp member]
    simpa using present

/-- A plan of at most one node needs no draw. -/
theorem drain_front (q : Url) (seed : Int64) :
    drainPlan (QueryPlan.withSortedSeed (front q) seed) = .ok (front q) := by
  have size := front_length q
  obtain ⟨nodes, drained⟩ := @drainPlan_returns (QueryPlan.withSortedSeed (front q) seed)
    (lt_of_le_of_lt size (by norm_num))
  have perm : nodes.Perm (front q) := drainPlan_perm drained fun u member => front_present member
  have single : nodes = front q := by
    cases only : front q with
    | nil => rw [only] at perm; exact perm.eq_nil
    | cons first rest =>
      have alone : rest = [] := by
        rw [only, List.length_cons] at size
        exact List.eq_nil_of_length_eq_zero (by omega)
      rw [only, alone] at perm
      rw [perm.eq_singleton, alone]
  rw [drained, single]

section
variable (present : ∀ u ∈ s.healthStore.nodes, u.empty = false)
include present

theorem active_present {u : Url} (member : u ∈ s.getActiveNodes) : u.empty = false :=
  present u (s.healthStore.getActiveNodes_subset member)

/-- The nodes offered for a hash: the front, then the active nodes. -/
theorem appendUniqueNodes_front {q : Url} (quarantined : front q ⊆ s.getQuarantinedNodes) :
    appendUniqueNodes (front q) s.getActiveNodes = front q ++ s.getActiveNodes := by
  apply appendFresh_eq_append s.healthStore.getActiveNodes_ascending.nodup
  · intro u member
    simp [active_present present member]
  · intro u member taken
    exact NodeHealthStore.not_active_of_quarantined (quarantined taken) member

theorem nodesMissingFrom_active {q : Url} (quarantined : front q ⊆ s.getQuarantinedNodes) :
    nodesMissingFrom (front q ++ s.getActiveNodes) s.getActiveNodes = front q := by
  have fresh : ∀ u ∈ front q, u ∉ s.getActiveNodes := fun u taken =>
    NodeHealthStore.not_active_of_quarantined (quarantined taken)
  have distinct : (front q ++ s.getActiveNodes).Nodup := by
    rw [← appendUniqueNodes_front present quarantined]
    apply appendFresh_nodup
    simp only [front]
    split <;> simp
  rw [nodesMissingFrom, appendFresh_eq_filter distinct, List.nil_append, List.filter_append,
    List.filter_eq_self.mpr, List.filter_eq_nil_iff.mpr, List.append_nil]
  · intro u active
    simp [active]
  · intro u taken
    simp [front_present taken, fresh u taken]

/-- The drain of an affinity plan is the front and the seeded order. -/
theorem drain_for_hash {q : Url}
    (offered : (s.stickyQuarantinedNodeForHash config hash s.getActiveNodes).1 = .ok q)
    {values : AttributeMap} {table : Bytes} {metadata : PartitionKeyMetadata}
    (hashed : hashPartitionKey values table metadata = .ok hash) :
    drainResult (queryPlanForPartitionKey (source config) s values table metadata).1 =
      (drainPlan (QueryPlan.withSortedSeed s.getActiveNodes hash)).map (front q ++ ·) := by
  have quarantined := front_quarantined offered
  have returned : ((source config).getQueryPlanNodesForHash hash s).1 =
      .ok (front q ++ s.getActiveNodes) := by
    rw [← appendUniqueNodes_front present quarantined]
    exact getQueryPlanNodesForHash_ok offered
  rw [queryPlanForPartitionKey_ok hashed returned]
  change drainResult (affinityPlan s.getActiveNodes _ hash) = _
  by_cases none : s.getActiveNodes = []
  · have nothing := drain_front {} hash
    simp only [none, affinityPlan, List.isEmpty_nil, if_true, List.append_nil]
    change drainPlan (QueryPlan.withSortedSeed (front q) hash) = _
    rw [drain_front]
    change drainPlan (QueryPlan.withSortedSeed [] hash) = .ok [] at nothing
    rw [nothing]
    simp [Except.map]
  · rw [drain_affinityPlan (fun u => active_present present)
      s.healthStore.getActiveNodes_ascending.separates
      none, sortAndDedupeNodes_active, nodesMissingFrom_active present quarantined]

theorem drain_shape {q : Url}
    (offered : (s.stickyQuarantinedNodeForHash config hash s.getActiveNodes).1 = .ok q)
    {values : AttributeMap} {table : Bytes} {metadata : PartitionKeyMetadata}
    (hashed : hashPartitionKey values table metadata = .ok hash) {nodes : List Url}
    (drained : drainResult (queryPlanForPartitionKey (source config) s values table metadata).1 =
      .ok nodes) :
    ∃ order, nodes = front q ++ order ∧ order.Perm s.getActiveNodes ∧
      drainPlan (QueryPlan.withSortedSeed s.getActiveNodes hash) = .ok order := by
  rw [drain_for_hash present offered hashed] at drained
  cases ordered : drainPlan (QueryPlan.withSortedSeed s.getActiveNodes hash) with
  | error error => simp [ordered, Except.map] at drained
  | ok order =>
    rw [ordered] at drained
    exact ⟨order, (Except.ok.inj drained).symm,
      drainPlan_perm ordered fun u => active_present present, rfl⟩

theorem drain_alone {values : AttributeMap} {table : Bytes} {metadata : PartitionKeyMetadata}
    (hashed : hashPartitionKey values table metadata = .ok hash) (none : s.getActiveNodes = [])
    {q : Url} (offered : (s.stickyQuarantinedNodeForHash config hash s.getActiveNodes).1 = .ok q)
    (visible : q.empty = false) :
    drainResult (queryPlanForPartitionKey (source config) s values table metadata).1 = .ok [q] := by
  have nothing : drainPlan (QueryPlan.withSortedSeed [] hash) = .ok [] := drain_front {} hash
  rw [drain_for_hash present offered hashed, none, nothing]
  simp [front, visible, Except.map]

/-- Without an active node the plan is one Quarantined node. -/
theorem drain_without_active {values : AttributeMap} {table : Bytes}
    {metadata : PartitionKeyMetadata}
    (hashed : hashPartitionKey values table metadata = .ok hash) (none : s.getActiveNodes = [])
    (some : s.getQuarantinedNodes ≠ []) :
    ∃ q ∈ s.getQuarantinedNodes,
      drainResult (queryPlanForPartitionKey (source config) s values table metadata).1 =
        .ok [q] := by
  obtain ⟨q, member, offered⟩ := @offered_without_active config hash s some
  have visible : q.empty = false := present q (s.healthStore.getQuarantinedNodes_subset member)
  rw [← none] at offered
  exact ⟨q, member, drain_alone present hashed none offered visible⟩

theorem drain_returns {values : AttributeMap} {table : Bytes} {metadata : PartitionKeyMetadata}
    (hashed : hashPartitionKey values table metadata = .ok hash)
    (small : s.getActiveNodes.length + 1 < 2 ^ 31) :
    ∃ nodes, drainResult (queryPlanForPartitionKey (source config) s values table metadata).1 =
      .ok nodes := by
  obtain ⟨q, offered⟩ := @sticky_returns config hash s.getActiveNodes small s
  obtain ⟨order, ordered⟩ := @drainPlan_returns (QueryPlan.withSortedSeed s.getActiveNodes hash)
    (lt_of_le_of_lt (Nat.le_succ _) small)
  exact ⟨_, by rw [drain_for_hash present offered hashed, ordered]; rfl⟩

end

theorem count_in_shape {q u : Url} {order : List Url}
    (quarantined : front q ⊆ s.getQuarantinedNodes)
    (perm : order.Perm s.getActiveNodes) (active : u ∈ s.getActiveNodes) :
    (front q ++ order).count u = 1 := by
  have absent : u ∉ front q := fun taken =>
    NodeHealthStore.not_active_of_quarantined (quarantined taken) active
  rw [List.count_append, List.count_eq_zero_of_not_mem absent, Nat.zero_add, perm.count_eq]
  exact List.count_eq_one_of_mem s.healthStore.getActiveNodes_ascending.nodup active

theorem mem_in_shape {q u : Url} {order : List Url} (quarantined : front q ⊆ s.getQuarantinedNodes)
    (perm : order.Perm s.getActiveNodes) (member : u ∈ front q ++ order) :
    u ∉ s.getDownNodes ∧ u ∈ s.healthStore.nodes := by
  rcases List.mem_append.mp member with taken | member
  · exact ⟨NodeHealthStore.not_down_of_quarantined (quarantined taken),
      s.healthStore.getQuarantinedNodes_subset (quarantined taken)⟩
  · exact ⟨NodeHealthStore.not_down_of_active (perm.subset member),
      s.healthStore.getActiveNodes_subset (perm.subset member)⟩

theorem drain_threw {error : Error}
    (threw : (s.stickyQuarantinedNodeForHash config hash s.getActiveNodes).1 = .error error)
    {values : AttributeMap} {table : Bytes} {metadata : PartitionKeyMetadata}
    (hashed : hashPartitionKey values table metadata = .ok hash) :
    drainResult (queryPlanForPartitionKey (source config) s values table metadata).1 =
      .error error := by
  have failed : ((source config).getQueryPlanNodesForHash hash s).1 = .error error :=
    getQueryPlanNodesForHash_error threw
  simp only [queryPlanForPartitionKey, hashed]
  generalize (source config).getQueryPlanNodesForHash hash s = result at failed ⊢
  obtain ⟨returned, t⟩ := result
  subst failed
  rfl

end LiveNodes

/-- The shape of an affinity plan over any reachable state whose nodes have a host:
at most one Quarantined node in front, then the node the hash draws, then the other
Active ones, each once. -/
theorem affinityPlan_shape (hosts : List Bytes) (config : Config) (now : Int) (s : Session)
    (operations : List Operation) (built : LiveNodes.new hosts config now = .ok s.nodes)
    (present : ∀ u ∈ (s.run config operations).nodes.healthStore.nodes, u.empty = false)
    (values : AttributeMap) (table : Bytes) (metadata : PartitionKeyMetadata) (hash : Int64)
    (hashed : hashPartitionKey values table metadata = .ok hash) :
    let state := (s.run config operations).nodes
    let drain := drainResult
      (queryPlanForPartitionKey (LiveNodes.source config) state values table metadata).1
    (∀ nodes, drain = .ok nodes →
      (∃ front order, nodes = front ++ order ∧ front.length ≤ 1 ∧
        front ⊆ state.getQuarantinedNodes ∧
        drainPlan (QueryPlan.withSortedSeed state.getActiveNodes hash) = .ok order ∧
        ∀ u ∈ order, u ∉ state.getQuarantinedNodes) ∧
      (∀ u ∈ state.getActiveNodes, nodes.count u = 1) ∧
      (∀ u ∈ nodes, u ∉ state.getDownNodes ∧ u ∈ state.liveNodes)) ∧
    (state.getActiveNodes = [] → state.getQuarantinedNodes ≠ [] →
      ∃ q ∈ state.getQuarantinedNodes, drain = .ok [q]) ∧
    (state.getActiveNodes.length + 1 < 2 ^ 31 → ∃ nodes, drain = .ok nodes) := by
  intro state drain
  refine ⟨?_, LiveNodes.drain_without_active present hashed,
    LiveNodes.drain_returns present hashed⟩
  intro nodes drained
  cases offered : (state.stickyQuarantinedNodeForHash config hash state.getActiveNodes).1 with
  | error error =>
    have threw : drain = .error error := LiveNodes.drain_threw offered hashed
    rw [threw] at drained
    contradiction
  | ok q =>
    have quarantined := LiveNodes.front_quarantined offered
    obtain ⟨order, rfl, perm, ordered⟩ := LiveNodes.drain_shape present offered hashed drained
    refine ⟨⟨_, order, rfl, LiveNodes.front_length q, quarantined, ordered, ?_⟩, ?_, ?_⟩
    · intro u member taken
      exact NodeHealthStore.not_active_of_quarantined taken (perm.subset member)
    · intro u active
      exact LiveNodes.count_in_shape quarantined perm active
    · intro u member
      obtain ⟨notDown, known⟩ := LiveNodes.mem_in_shape quarantined perm member
      exact ⟨notDown, Session.statuses_live built operations u known⟩

theorem hashPartitionKey_single :
    hashPartitionKey (OrderedMap.empty.assign (bytes "pk") (.ofString (bytes "k"))) (bytes "t")
      ⟨OrderedMap.empty.assign (bytes "t") (bytes "pk")⟩ =
        .ok (AttributeValue.ofString (bytes "k")).hash :=
  hashPartitionKey_ok (by decide)

/-- One of two nodes answered a probe after a refused connection: nothing else can
be in front of the plan, and the Active node beside it occurs in it once. -/
theorem affinityPlan_shape_quarantined :
    let a := ({} : Config).nodeUrl (bytes "a")
    let b := ({} : Config).nodeUrl (bytes "b")
    let state := (Session.couple.run {} (quarantining a)).nodes
    state.getQuarantinedNodes = [a] ∧ state.getActiveNodes = [b] ∧
      ∃ nodes, drainResult (queryPlanForPartitionKey (LiveNodes.source {}) state
          (OrderedMap.empty.assign (bytes "pk") (.ofString (bytes "k"))) (bytes "t")
          ⟨OrderedMap.empty.assign (bytes "t") (bytes "pk")⟩).1 = .ok nodes ∧
        (∃ front order, nodes = front ++ order ∧ front.length ≤ 1 ∧ front ⊆ [a] ∧ a ∉ order) ∧
        nodes.count b = 1 := by
  intro a b state
  have quarantined : state.getQuarantinedNodes = [a] := by decide +kernel
  have active : state.getActiveNodes = [b] := by decide +kernel
  have shape := affinityPlan_shape [bytes "a", bytes "b"] {} 0 Session.couple (quarantining a) rfl
    (by decide +kernel) _ _ _ _ hashPartitionKey_single
  obtain ⟨nodes, drained⟩ := shape.2.2 (by decide +kernel)
  obtain ⟨⟨front, order, split, single, waiting, -, apart⟩, once, -⟩ := shape.1 nodes drained
  have none : a ∉ order := fun member =>
    apart a member (quarantined ▸ List.mem_singleton_self a)
  exact ⟨quarantined, active, nodes, drained,
    ⟨front, order, split, single, quarantined ▸ waiting, none⟩,
    once b (active ▸ List.mem_singleton_self b)⟩

/-- A Quarantined node that comes first for a hash is first among the active
nodes and itself, and is assigned the hash. -/
theorem LiveNodes.first_of_returned {config : Config} {s : LiveNodes} {hash : Int64} {q : Url}
    {rest : List Url} (returned : (s.getQueryPlanNodesForHash config hash).1 = .ok (q :: rest))
    (quarantined : q ∈ s.getQuarantinedNodes) :
    firstNodeWithSeed (s.getActiveNodes ++ [q]) hash = .ok q ∧ q.empty = false ∧
      (s.getQueryPlanNodesForHash config hash).2.assigned hash = some q := by
  have outcome := @offered_sticky config hash s.getActiveNodes s
  rw [getQueryPlanNodesForHash_state, sortAndDedupeNodes_active]
  cases offered : (s.stickyQuarantinedNodeForHash config hash s.getActiveNodes).1 with
  | error error =>
    rw [getQueryPlanNodesForHash_error offered] at returned
    contradiction
  | ok node =>
    rw [offered] at outcome
    rw [getQueryPlanNodesForHash_ok offered] at returned
    have listed : q ∈ appendUniqueNodes (front node) s.getActiveNodes := by
      rw [Except.ok.inj returned]
      exact List.mem_cons_self
    -- The head is not active, so it is the offered node.
    have taken : q ∈ front node := (mem_appendFresh.mp listed).resolve_right fun active =>
      NodeHealthStore.not_active_of_quarantined quarantined active.1
    have visible := front_present taken
    have same : q = node := by
      simp only [front] at taken
      split at taken
      · simp at taken
      · exact List.mem_singleton.mp taken
    subst same
    cases outcome with
    | node _ _ first held => exact ⟨quarantinedNodeIsFirstForHash_true.mp first, visible, held⟩
    | nothing => simp at visible

/-- Promotion does not move keys: once the node is active next to the same
others, its hash still starts with it. -/
theorem promotion_keeps_first (config : Config) (s t : LiveNodes)
    (present : ∀ u ∈ s.healthStore.nodes, u.empty = false) (hash : Int64) (q : Url)
    (rest : List Url) (returned : (s.getQueryPlanNodesForHash config hash).1 = .ok (q :: rest))
    (quarantined : q ∈ s.getQuarantinedNodes)
    (promoted : ∀ u, u ∈ t.getActiveNodes ↔ u ∈ s.getActiveNodes ∨ u = q)
    (offered : List Url) (unsampled : (t.getQueryPlanNodesForHash config hash).1 = .ok offered)
    (active : offered ⊆ t.getActiveNodes) (values : AttributeMap) (table : Bytes)
    (metadata : PartitionKeyMetadata) (hashed : hashPartitionKey values table metadata = .ok hash) :
    let drain := drainResult
      (queryPlanForPartitionKey (LiveNodes.source config) t values table metadata).1
    (∀ nodes, drain = .ok nodes → ∃ others, nodes = q :: others) ∧
      (t.getActiveNodes.length < 2 ^ 31 → ∃ nodes, drain = .ok nodes) := by
  intro drain
  obtain ⟨first, _⟩ := LiveNodes.first_of_returned returned quarantined
  have known : t.getActiveNodes ⊆ s.healthStore.nodes := by
    intro u member
    rcases (promoted u).mp member with old | rfl
    · exact s.healthStore.getActiveNodes_subset old
    · exact s.healthStore.getQuarantinedNodes_subset quarantined
  have separated : Separates Url.toString t.getActiveNodes :=
    s.healthStore.nodes_separated.mono known
  have visible : ∀ u ∈ t.getActiveNodes, u.empty = false := fun u member => present u (known member)
  have some : t.getActiveNodes ≠ [] := List.ne_nil_of_mem ((promoted q).mpr (.inr rfl))
  have canonical : sortAndDedupeNodes t.getActiveNodes =
      sortAndDedupeNodes (s.getActiveNodes ++ [q]) :=
    sortUnique_congr separated fun u => by simp [promoted u]
  have same : firstNodeWithSeed t.getActiveNodes hash = .ok q := by
    rw [firstNodeWithSeed, canonical, ← firstNodeWithSeed]
    exact first
  have seeded : drain =
      drainPlan (QueryPlan.withSortedSeed (sortAndDedupeNodes t.getActiveNodes) hash) := by
    have offers : ((LiveNodes.source config).getQueryPlanNodesForHash hash t).1 = .ok offered :=
      unsampled
    simp only [drain, queryPlanForPartitionKey_ok hashed offers]
    exact drain_affinityPlan_active visible separated some hash active
  constructor
  · intro nodes drained
    rw [seeded] at drained
    obtain ⟨u, others, rfl, head⟩ := seededDrain_head visible separated some drained
    rw [same] at head
    cases head
    exact ⟨others, rfl⟩
  · intro small
    rw [seeded, t.sortAndDedupeNodes_active]
    exact drainPlan_returns small

/-- Two more successes promote a node next to another one, and its hash stays with it. -/
theorem promotion_keeps_first_beside :
    let q := ({} : Config).nodeUrl (bytes "q")
    ∃ other ∈ [bytes "a", bytes "z"],
      let u := ({} : Config).nodeUrl other
      let store := ((NodeHealthStore.new {} [q, u]).reportNodeResult q
        .connectionFailure).reportNodeResult q .success
      let t : LiveNodes :=
        { initialNodes := [q], liveNodes := [q, u], nextUpdate := 0, lastActivity := 0
          healthStore := (store.reportNodeResult q .success).reportNodeResult q .success }
      u ∈ t.getActiveNodes ∧ ∃ others,
        drainResult (queryPlanForPartitionKey (LiveNodes.source {}) t
          (OrderedMap.empty.assign (bytes "pk") (.ofString (bytes "k"))) (bytes "t")
          ⟨OrderedMap.empty.assign (bytes "t") (bytes "pk")⟩).1 = .ok (q :: others) := by
  intro q
  let hash := (AttributeValue.ofString (bytes "k")).hash
  -- the seed of the hash prefers the smaller node or the greater one
  obtain ⟨other, either, first⟩ : ∃ other ∈ [bytes "a", bytes "z"],
      firstNodeWithSeed [({} : Config).nodeUrl other, q] hash = .ok q := by
    rcases firstNodeWithSeed_pair hash with smaller | greater
    · exact ⟨bytes "z", by simp, (smaller q _ (by decide +kernel)).2⟩
    · exact ⟨bytes "a", by simp, (greater _ q (by decide +kernel)).1⟩
  refine ⟨other, either, ?_⟩
  intro u store t
  let s : LiveNodes :=
    { initialNodes := [q], liveNodes := [q, u], healthStore := store
      quarantineByHash := OrderedMap.empty.assign hash q, nextUpdate := 0, lastActivity := 0 }
  obtain ⟨waiting, beside, both, none, few, present, visible⟩ : s.getQuarantinedNodes = [q] ∧
      s.getActiveNodes = [u] ∧ t.getActiveNodes = sortAndDedupeNodes [u, q] ∧
      t.getQuarantinedNodes = [] ∧ t.getActiveNodes.length < 2 ^ 31 ∧
      (∀ v ∈ s.healthStore.nodes, v.empty = false) ∧
      ∀ v ∈ t.healthStore.nodes, v.empty = false := by
    simp only [List.mem_cons, List.not_mem_nil, or_false] at either
    rcases either with rfl | rfl
    · decide +kernel
    · decide +kernel
  have promoted : ∀ v, v ∈ t.getActiveNodes ↔ v ∈ s.getActiveNodes ∨ v = q := by
    simp [both, beside]
  have quarantined : q ∈ s.getQuarantinedNodes := by simp [waiting]
  have held : s.assigned hash = some q := by
    simp [LiveNodes.assigned, s, OrderedMap.lookup_assign]
  have offered : (s.stickyQuarantinedNodeForHash {} hash s.getActiveNodes).1 = .ok q := by
    rw [LiveNodes.sticky_kept held quarantined (beside ▸ first)]
  have returned : (s.getQueryPlanNodesForHash {} hash).1 = .ok (q :: [u]) := by
    rw [LiveNodes.getQueryPlanNodesForHash_ok offered,
      LiveNodes.appendUniqueNodes_front present (LiveNodes.front_quarantined offered), beside]
    rfl
  have unsampled : (t.getQueryPlanNodesForHash {} hash).1 = .ok t.getActiveNodes := by
    rw [LiveNodes.getQueryPlanNodesForHash_ok (LiveNodes.offered_without_quarantined none),
      LiveNodes.appendUniqueNodes_front visible (by simp [LiveNodes.front])]
    rfl
  have kept := promotion_keeps_first {} s t present hash q [u] returned quarantined promoted
    t.getActiveNodes unsampled (fun _ => id) _ _ _ hashPartitionKey_single
  obtain ⟨nodes, drained⟩ := kept.2 few
  obtain ⟨others, rfl⟩ := kept.1 nodes drained
  exact ⟨by simp [both], others, drained⟩

end AlternatorClient
