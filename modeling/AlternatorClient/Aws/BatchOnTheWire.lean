import AlternatorClient.Aws.AffinityOnTheWire

/-! Key-route affinity of a batch, from the votes of its keys to the request that is
sent: the plan begins with a Quarantined node that is offered for one of the keys, or
with the Active node most of the keys hash to. -/
namespace AlternatorClient
open Foundation

def drawsOf (active : List Url) (hashes : List Int64) (u : Url) : Nat :=
  hashes.countP fun hash => decide ((firstNodeWithSeed active hash).toOption = some u)

/-- The first Quarantined node to be offered when the hashes are planned one after the
other, each over what the plan before left. -/
def LiveNodes.firstOffered (config : Config) : List Int64 → LiveNodes → Option Url
  | [], _ => none
  | hash :: rest, s =>
    (s.offeredFor config hash).or
      (firstOffered config rest (s.getQueryPlanNodesForHash config hash).2)

/-- The node a batch plan begins with: the first that is offered for a key, or without
an offer an Active one that a key of the batch hashes to and no node has more keys than. -/
def LiveNodes.BeginsForBatch (config : Config) (s : LiveNodes) (hashes : List Int64)
    (first : Url) : Prop :=
  match firstOffered config hashes s with
  | some quarantined => first = quarantined ∧ quarantined ∈ s.getQuarantinedNodes
  | none =>
    first ∈ s.getActiveNodes ∧ 0 < drawsOf s.getActiveNodes hashes first ∧
      ∀ u ∈ s.getActiveNodes,
        drawsOf s.getActiveNodes hashes u ≤ drawsOf s.getActiveNodes hashes first

section
variable {active : List Url} {hashes : List Int64} (few : hashes.length < 2 ^ 31)
include few

theorem votesFor_pos (u : Url) : 0 < votesFor active hashes u ↔ 0 < drawsOf active hashes u := by
  rw [Int32.lt_iff_toInt_lt, votesFor_toInt few u]
  exact Int.natCast_pos

theorem Voted.ne_nil (some : active ≠ []) (small : active.length < 2 ^ 31) (usable : hashes ≠ [])
    {nodes : List Url} (voted : Voted active hashes nodes) : nodes ≠ [] := by
  obtain ⟨hash, member⟩ := List.exists_mem_of_ne_nil hashes usable
  obtain ⟨u, drawn⟩ := firstNodeWithSeed_returns small hash
  have draws : 0 < drawsOf active hashes u := by
    apply List.countP_pos_iff.mpr
    exact ⟨hash, member, by simp [drawn, Except.toOption]⟩
  exact List.ne_nil_of_mem
    ((voted.1 u).mpr ⟨firstNodeWithSeed_mem some drawn, (votesFor_pos few u).mpr draws⟩)

theorem Voted.head {first : Url} {rest : List Url} (voted : Voted active hashes (first :: rest)) :
    first ∈ active ∧ 0 < drawsOf active hashes first ∧
      ∀ u ∈ active, drawsOf active hashes u ≤ drawsOf active hashes first := by
  have counted (u : Url) : (votesFor active hashes u).toInt = drawsOf active hashes u :=
    votesFor_toInt few u
  obtain ⟨members, ordered⟩ := voted
  obtain ⟨inside, some⟩ := (members first).mp List.mem_cons_self
  refine ⟨inside, (votesFor_pos few first).mp some, fun u member => ?_⟩
  by_cases none : drawsOf active hashes u = 0
  · omega
  · have listed := (members u).mpr ⟨member, (votesFor_pos few u).mpr (Nat.pos_of_ne_zero none)⟩
    rcases List.mem_cons.mp listed with rfl | later
    · exact le_rfl
    · have before := (List.pairwise_cons.mp ordered).1 u later
      rcases voteKey_lt_iff.mp before with more | ⟨equal, _⟩
      · rw [Int32.lt_iff_toInt_lt, counted, counted] at more
        omega
      · have same := congrArg Int32.toInt equal
        rw [counted, counted] at same
        omega

end

namespace LiveNodes
variable {config : Config} {s : LiveNodes}

theorem BeginsForBatch.live {hashes : List Int64} {first : Url}
    (begins : s.BeginsForBatch config hashes first) :
    first ∈ s.getQuarantinedNodes ∨ first ∈ s.getActiveNodes := by
  rw [BeginsForBatch] at begins
  split at begins
  · exact .inl (begins.1 ▸ begins.2)
  · exact .inr begins.1

theorem BeginsForBatch.voted {hashes : List Int64} {first : Url}
    (begins : s.BeginsForBatch config hashes first)
    (unoffered : firstOffered config hashes s = none) :
    first ∈ s.getActiveNodes ∧ 0 < drawsOf s.getActiveNodes hashes first ∧
      ∀ u ∈ s.getActiveNodes,
        drawsOf s.getActiveNodes hashes u ≤ drawsOf s.getActiveNodes hashes first := by
  rwa [BeginsForBatch, unoffered] at begins

theorem firstOffered_eq_none (hashes : List Int64) (healthy : s.getQuarantinedNodes = []) :
    firstOffered config hashes s = none := by
  induction hashes generalizing s with
  | nil => rfl
  | cons hash rest ih =>
    have unoffered : s.offeredFor config hash = none := by
      simp [offeredFor, offered_without_quarantined healthy]
    obtain ⟨held, plan, node, state⟩ := s.getQueryPlanNodesForHash_eq config hash
    rw [firstOffered, unoffered, Option.none_or, state]
    exact ih healthy

/-- A node that a plan can begin with but not draw. -/
def besideActive (s : LiveNodes) (u : Url) : Bool :=
  !u.empty && !decide (u ∈ s.getActiveNodes)

/-- What is offered is all that a hash adds to the Active nodes. -/
theorem find?_offeredFor (present : ∀ u ∈ s.healthStore.nodes, u.empty = false) {hash : Int64}
    {q : Url} (offered : (s.stickyQuarantinedNodeForHash config hash s.getActiveNodes).1 = .ok q) :
    ((front q ++ s.getActiveNodes).filter fun node => !node.empty).find? s.besideActive =
      s.offeredFor config hash := by
  have drawn : (s.getActiveNodes.filter fun node => !node.empty).find? s.besideActive = none := by
    apply List.find?_eq_none.mpr
    intro u member
    simp [besideActive, (List.mem_filter.mp member).1]
  rw [List.filter_append, List.find?_append, drawn, Option.or_none, front_offeredFor offered]
  cases offer : s.offeredFor config hash with
  | none => rfl
  | some p =>
    have quarantined := offeredFor_quarantined offer
    have visible := present p (s.healthStore.getQuarantinedNodes_subset quarantined)
    have waiting : p ∉ s.getActiveNodes := NodeHealthStore.not_active_of_quarantined quarantined
    simp [besideActive, visible, waiting]

/-- What the loop over the hashes gathers: Quarantined and Active nodes, and of the
Quarantined first the one that is offered first. -/
theorem appendNodesForHashes_live (present : ∀ u ∈ s.healthStore.nodes, u.empty = false)
    (small : s.getActiveNodes.length + 1 < 2 ^ 31) (hashes : List Int64) (out : List Url)
    (t : LiveNodes) (same : t.healthStore = s.healthStore) :
    ∃ nodes u, appendNodesForHashes (source config) hashes out t = (.ok nodes, u) ∧
      u.healthStore = s.healthStore ∧ u.getNodes = t.getNodes ∧ out ⊆ nodes ∧
      (hashes ≠ [] → s.getActiveNodes ⊆ nodes) ∧
      (∀ u ∈ nodes, u ∈ out ∨ u ∈ s.getQuarantinedNodes ∨ u ∈ s.getActiveNodes) ∧
      nodes.find? s.besideActive = (out.find? s.besideActive).or (firstOffered config hashes t) := by
  induction hashes generalizing out t with
  | nil => exact ⟨out, t, rfl, same, rfl, fun _ => id, by simp, fun _ => .inl, by simp [firstOffered]⟩
  | cons hash rest ih =>
    have active : t.getActiveNodes = s.getActiveNodes := by simp only [getActiveNodes, same]
    have quarantined : t.getQuarantinedNodes = s.getQuarantinedNodes := by
      simp only [getQuarantinedNodes, same]
    have beside : t.besideActive = s.besideActive := by
      funext u
      simp only [besideActive, active]
    obtain ⟨q, offered⟩ := @sticky_returns config hash t.getActiveNodes (active ▸ small) t
    have returned := getQueryPlanNodesForHash_ok offered
    have front := front_quarantined offered
    rw [appendUniqueNodes_front (same ▸ present) front] at returned
    have offer := find?_offeredFor (same ▸ present) offered
    obtain ⟨held, plan, node, state⟩ := t.getQueryPlanNodesForHash_eq config hash
    obtain ⟨nodes, u, gathered, store, live, grown, -, members, first⟩ := ih
      (appendMissingNodes out (LiveNodes.front q ++ t.getActiveNodes))
      (t.getQueryPlanNodesForHash config hash).2 (by rw [state]; exact same)
    refine ⟨nodes, u, ?_, store, ?_, ?_, fun _ => ?_, fun v member => ?_, ?_⟩
    · have asked : (source config).getQueryPlanNodesForHash hash t =
          (.ok (LiveNodes.front q ++ t.getActiveNodes),
            (t.getQueryPlanNodesForHash config hash).2) := Prod.ext returned rfl
      rw [← gathered]
      simp only [appendNodesForHashes, asked]
    · rw [live, state]
      rfl
    · exact fun v member => grown (mem_appendFresh.mpr (.inl member))
    · intro v member
      refine grown (mem_appendFresh.mpr (.inr ⟨List.mem_append_right _ (active ▸ member), ?_⟩))
      simp [active_present present member]
    · rcases members v member with early | known
      · rcases mem_appendFresh.mp early with old | ⟨listed, -⟩
        · exact .inl old
        · rcases List.mem_append.mp listed with ahead | known
          · exact .inr (.inl (quarantined ▸ front ahead))
          · exact .inr (.inr (active ▸ known))
      · exact .inr known
    · rw [first, appendMissingNodes, find?_appendFresh, ← beside, offer, Option.or_assoc]
      rfl

/-- A batch with a usable key is planned and begins with the node its keys vote for. -/
theorem queryPlanForBatchWrite_begins (present : ∀ u ∈ s.healthStore.nodes, u.empty = false)
    (small : s.getActiveNodes.length + 1 < 2 ^ 31) (some : s.getActiveNodes ≠ [])
    {operations : List BatchWriteOperation} {metadata : PartitionKeyMetadata}
    (usable : batchWriteHashes metadata operations ≠ [])
    (few : (batchWriteHashes metadata operations).length < 2 ^ 31) :
    ∃ plan first t, queryPlanForBatchWrite (source config) s operations metadata = (.ok plan, t) ∧
      plan.next.map Prod.fst = .ok first ∧
      s.BeginsForBatch config (batchWriteHashes metadata operations) first ∧
      t.getNodes = s.getNodes := by
  obtain ⟨candidates, t, gathered, -, live, -, known, members, early⟩ :=
    @appendNodesForHashes_live config s present small (batchWriteHashes metadata operations) [] s rfl
  have visible : ∀ u ∈ s.getActiveNodes, u.empty = false := fun u => active_present present
  have separated := s.healthStore.getActiveNodes_ascending.separates
  obtain ⟨u, member⟩ := List.exists_mem_of_ne_nil _ some
  have asked : queryPlanNodesForHashes (source config) (batchWriteHashes metadata operations) s =
      (.ok candidates, t) := by
    have gatheredSome := List.ne_nil_of_mem (known usable member)
    simp only [queryPlanNodesForHashes, gathered, List.isEmpty_eq_false_iff.mpr gatheredSome,
      Bool.false_eq_true, if_false]
  have offer : (nodesMissingFrom candidates (sortAndDedupeNodes s.getActiveNodes)).head? =
      firstOffered config (batchWriteHashes metadata operations) s := by
    rw [sortAndDedupeNodes_active, nodesMissingFrom, head?_appendFresh]
    exact early
  rcases drain_batchWritePlan_cases some visible separated usable candidates with
    ⟨voted, elected, drained, -⟩ | ⟨large, -⟩
  · obtain ⟨plan, made, planned⟩ := drainResult_ok drained
    have result : queryPlanForBatchWrite (source config) s operations metadata = (.ok plan, t) := by
      simp only [queryPlanForBatchWrite, asked]
      exact Prod.ext made rfl
    cases ahead : nodesMissingFrom candidates (sortAndDedupeNodes s.getActiveNodes) with
    | cons first others =>
      rw [ahead, List.cons_append, List.cons_append] at planned
      rw [ahead, List.head?_cons] at offer
      refine ⟨plan, first, t, result, drainPlan_head planned, ?_, live⟩
      rw [BeginsForBatch, ← offer]
      obtain ⟨listed, -, fresh⟩ := mem_nodesMissingFrom.mp (ahead ▸ List.mem_cons_self)
      rcases members first listed with never | quarantined | active
      · exact absurd never List.not_mem_nil
      · exact ⟨rfl, quarantined⟩
      · exact absurd (mem_sortAndDedupeNodes.mpr active) fresh
    | nil =>
      cases voted with
      | nil => exact absurd rfl (elected.ne_nil few some (by omega) usable)
      | cons first others =>
        rw [ahead, List.nil_append, List.cons_append] at planned
        rw [ahead, List.head?_nil] at offer
        refine ⟨plan, first, t, result, drainPlan_head planned, ?_, live⟩
        rw [BeginsForBatch, ← offer]
        exact elected.head few
  · rw [sortAndDedupeNodes_active] at large
    omega

end LiveNodes
namespace Aws

/-- A `BatchWriteItem` with the attempts the SDK makes for it. -/
structure BatchWrite where
  request : Model.BatchWriteItemRequest
  seedFromClock : Int64
  attempt : SdkAttempt
  retries : List SdkAttempt := []

/-- The plan of a batch, made over the live nodes of a session. -/
def planBatch (config : Config) (mode : KeyRouteAffinityMode) (partitionKeys : PartitionKeyMetadata)
    (write : BatchWrite) (s : Session) : Except Error QueryPlan × Session :=
  let (plan, nodes) := batchWriteItemQueryPlanFor (LiveNodes.source config) mode partitionKeys
    write.seedFromClock write.request s.nodes
  (plan, { s with nodes := nodes })

/-- `DynamoDBHelper::BatchWriteItem`: the plan is made for the request as the caller
gave it, and the attempts then go through the clients of its endpoints. -/
def batchWriteItem {config : HttpConfig} (parser : UriParser) (client : AlternatorHttpClient config)
    (mode : KeyRouteAffinityMode) (partitionKeys : PartitionKeyMetadata) (write : BatchWrite)
    (s : Session) (clients : Clients) :
    Except Error (Except Bytes Account) × Session × Clients :=
  let (plan, s) := planBatch config.toConfig mode partitionKeys write s
  match plan with
  | .error error => (.error error, s, clients)
  | .ok plan => sendPlanned parser client write.attempt write.retries plan s clients

/-- A batch that is routed by its keys gets the plan of the keys. -/
theorem planBatch_affine {config : Config} {mode : KeyRouteAffinityMode}
    {partitionKeys : PartitionKeyMetadata} {write : BatchWrite} {s : Session}
    (affine : shouldUseKeyRouteAffinity mode .putItem {} = true)
    (usable : batchWriteHashes partitionKeys (batchWriteOperationsFor partitionKeys write.request) ≠
      [])
    {plan : QueryPlan} {t : LiveNodes}
    (made : queryPlanForBatchWrite (LiveNodes.source config) s.nodes
      (batchWriteOperationsFor partitionKeys write.request) partitionKeys = (.ok plan, t)) :
    planBatch config mode partitionKeys write s = (.ok plan, { s with nodes := t }) := by
  have some : batchWriteOperationsFor partitionKeys write.request ≠ [] := by
    intro none
    simp [none, batchWriteHashes] at usable
  simp only [planBatch, batchWriteItemQueryPlanFor, affine, Bool.not_true, Bool.false_eq_true,
    if_false, List.isEmpty_eq_false_iff.mpr some, newBatchWriteQueryPlan, made, orDefaultQueryPlan]

/-- A batch that is routed by its keys is first sent to the first Quarantined node
that is offered for one of them, and without such an offer to the Active node that
most of them hash to; there it is reported. -/
theorem affine_batch_goes_to_its_node {config : HttpConfig} (parser : UriParser)
    (client : AlternatorHttpClient config) (mode : KeyRouteAffinityMode)
    (partitionKeys : PartitionKeyMetadata) (write : BatchWrite) {hosts : List Bytes} {now : Int}
    {start : Session} (built : LiveNodes.new hosts config.toConfig now = .ok start.nodes)
    (operations : List Operation) (clients : Clients)
    (present : ∀ u ∈ (start.run config.toConfig operations).nodes.healthStore.nodes,
      u.empty = false)
    (small : (start.run config.toConfig operations).nodes.getActiveNodes.length + 1 < 2 ^ 31)
    (some : (start.run config.toConfig operations).nodes.getActiveNodes ≠ [])
    (affine : shouldUseKeyRouteAffinity mode .putItem {} = true) :
    let s := start.run config.toConfig operations
    let hashes := write.request.entries.flatMap fun entry =>
      if (partitionKeys.getPartitionKeyName (cStr entry.1)).isEmpty then []
      else entry.2.flatMap (writeHashes partitionKeys entry.1)
    hashes ≠ [] → hashes.length < 2 ^ 31 →
      ∃ first, s.nodes.BeginsForBatch config.toConfig hashes first ∧
        (write.attempt.Arrives config (planBatch config.toConfig mode partitionKeys write s).2 first →
          ∃ sending rest reported,
            (batchWriteItem parser client mode partitionKeys write s clients).1 =
                .ok (.ok ⟨sending :: rest, reported⟩) ∧
              sending.sent = true ∧ sending.request.uri = Url.endpoint first ∧
              ∀ report ∈ sending.reported, place report.1 = place first) := by
  intro s hashes usable few
  have known := Session.statuses_live built operations
  have hashed : hashes =
      batchWriteHashes partitionKeys (batchWriteOperationsFor partitionKeys write.request) :=
    (batchWriteHashes_request partitionKeys write.request).symm
  rw [hashed] at usable few ⊢
  obtain ⟨plan, first, t, made, next, begins, same⟩ :=
    @LiveNodes.queryPlanForBatchWrite_begins config.toConfig s.nodes present small some _ _ usable few
  have planned := @planBatch_affine config.toConfig mode partitionKeys write s affine usable plan t made
  refine ⟨first, begins, fun arrives => ?_⟩
  rw [planned] at arrives
  obtain ⟨sending, rest, reported, outcome, goes⟩ := sendPlanned_arrives parser client arrives
    (live_of_begins known begins.live same) next write.retries clients
  refine ⟨sending, rest, reported, ?_, goes⟩
  rw [batchWriteItem, planned]
  exact outcome

/-- Two puts into one table, at their first attempt. -/
def putOrders : BatchWrite :=
  { request := .assign .empty (bytes "orders")
      [{ putRequest := some (.assign .empty (bytes "id") (.string (bytes "k"))) },
       { putRequest := some (.assign .empty (bytes "id") (.string (bytes "l"))) }]
    seedFromClock := 0
    attempt := putOrder.attempt }

/-- The one of two nodes that has the most keys of the batch gets it. -/
theorem putOrders_goes_to_its_node :
    let s := Session.couple
    let hashes := [(AttributeValue.ofString (bytes "k")).hash,
      (AttributeValue.ofString (bytes "l")).hash]
    ∃ first ∈ s.nodes.getActiveNodes,
      (∀ u ∈ s.nodes.getActiveNodes,
        drawsOf s.nodes.getActiveNodes hashes u ≤ drawsOf s.nodes.getActiveNodes hashes first) ∧
      ∃ sending rest reported,
        (batchWriteItem plainUriParser (⟨[], [], rfl, rfl⟩ : AlternatorHttpClient {}) .anyWrite
            idKeys putOrders s {}).1 = .ok (.ok ⟨sending :: rest, reported⟩) ∧
          sending.sent = true ∧ sending.request.uri = Url.endpoint first := by
  intro s hashes
  have built : LiveNodes.new [bytes "a", bytes "b"] {} 0 = .ok s.nodes := rfl
  obtain ⟨first, begins, goes⟩ := affine_batch_goes_to_its_node plainUriParser
    (⟨[], [], rfl, rfl⟩ : AlternatorHttpClient {}) .anyWrite idKeys putOrders built [] {} (by decide)
    (by decide) (by decide) (by decide) (by decide +kernel) (by decide +kernel)
  have healthy : s.nodes.getQuarantinedNodes = [] := by decide
  obtain ⟨active, -, most⟩ := begins.voted (LiveNodes.firstOffered_eq_none _ healthy)
  have both : s.nodes.getActiveNodes = [bytes "a", bytes "b"].map ({} : Config).nodeUrl := by decide
  obtain ⟨host, either, rfl⟩ := List.mem_map.mp (both ▸ active)
  obtain ⟨sending, rest, reported, outcome, sent, uri, _⟩ := goes (putOrder_arrives either _)
  exact ⟨_, active, most, sending, rest, reported, outcome, sent, uri⟩

end Aws
end AlternatorClient
