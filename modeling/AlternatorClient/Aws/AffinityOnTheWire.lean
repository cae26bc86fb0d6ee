import AlternatorClient.Aws.Clients
import AlternatorClient.LiveNodes.Affinity

/-! Key-route affinity from the hash of a key to the request that is sent. The
plan begins with the node of the hash, the client kept for that node resolves to
its endpoint, and the first attempt of the SDK stays at the endpoint. -/
namespace AlternatorClient
open Foundation

/-- The Quarantined node that is offered for a hash, if one is. -/
def LiveNodes.offeredFor (config : Config) (s : LiveNodes) (hash : Int64) : Option Url :=
  match (s.stickyQuarantinedNodeForHash config hash s.getActiveNodes).1 with
  | .error _ => none
  | .ok quarantined => if quarantined.empty then none else some quarantined

/-- The node an affinity plan begins with: the Quarantined one that is offered for
the hash, or without an offer the one the hash draws among the Active. -/
def LiveNodes.BeginsFor (config : Config) (s : LiveNodes) (hash : Int64) (first : Url) : Prop :=
  match s.offeredFor config hash with
  | some quarantined => first = quarantined ∧ quarantined ∈ s.getQuarantinedNodes
  | none => first ∈ s.getActiveNodes ∧ firstNodeWithSeed s.getActiveNodes hash = .ok first

theorem firstNodeWithSeed_mem {nodes : List Url} (some : nodes ≠ []) {hash : Int64} {first : Url}
    (drawn : firstNodeWithSeed nodes hash = .ok first) : first ∈ nodes := by
  rcases firstNodeWithSeed_cases some with draws | ⟨_, threw⟩
  · obtain ⟨u, member, same⟩ := draws hash
    rw [drawn] at same
    exact Except.ok.inj same ▸ member
  · rw [threw hash] at drawn
    contradiction

theorem drainResult_ok {plan : Except Error QueryPlan} {nodes : List Url}
    (drained : drainResult plan = .ok nodes) :
    ∃ made, plan = .ok made ∧ drainPlan made = .ok nodes := by
  cases plan with
  | error error => contradiction
  | ok made => exact ⟨made, rfl, drained⟩

namespace LiveNodes
variable {config : Config} {hash : Int64} {s : LiveNodes}

theorem front_offeredFor {q : Url}
    (offered : (s.stickyQuarantinedNodeForHash config hash s.getActiveNodes).1 = .ok q) :
    front q = (s.offeredFor config hash).toList := by
  simp only [front, offeredFor, offered]
  split
  · rfl
  · rfl

theorem offeredFor_quarantined {q : Url} (offered : s.offeredFor config hash = some q) :
    q ∈ s.getQuarantinedNodes := by
  cases returned : (s.stickyQuarantinedNodeForHash config hash s.getActiveNodes).1 with
  | error error => simp [offeredFor, returned] at offered
  | ok p =>
    apply front_quarantined returned
    rw [front_offeredFor returned, offered]
    exact List.mem_singleton_self q

theorem BeginsFor.live {first : Url} (begins : s.BeginsFor config hash first) :
    first ∈ s.getQuarantinedNodes ∨ first ∈ s.getActiveNodes := by
  rw [BeginsFor] at begins
  split at begins
  · exact .inl (begins.1 ▸ begins.2)
  · exact .inr begins.1

/-- When the hash is offered no node it begins for an Active one, the node that a
seeded draw over the Active nodes takes. -/
theorem BeginsFor.drawn {first : Url} (begins : s.BeginsFor config hash first)
    (unoffered : s.offeredFor config hash = none) :
    first ∈ s.getActiveNodes ∧ firstNodeWithSeed s.getActiveNodes hash = .ok first := by
  rwa [BeginsFor, unoffered] at begins

/-- A plan for a hash is made and begins with the node of the hash. -/
theorem queryPlanForPartitionKey_begins (present : ∀ u ∈ s.healthStore.nodes, u.empty = false)
    {values : AttributeMap} {table : Bytes} {metadata : PartitionKeyMetadata}
    (hashed : hashPartitionKey values table metadata = .ok hash)
    (small : s.getActiveNodes.length + 1 < 2 ^ 31)
    (some : s.getActiveNodes ≠ [] ∨ s.getQuarantinedNodes ≠ []) :
    ∃ plan first, (queryPlanForPartitionKey (source config) s values table metadata).1 = .ok plan ∧
      plan.next.map Prod.fst = .ok first ∧ s.BeginsFor config hash first := by
  obtain ⟨q, offered⟩ := @sticky_returns config hash s.getActiveNodes small s
  obtain ⟨nodes, drained⟩ := @drain_returns config hash s present _ _ _ hashed small
  obtain ⟨plan, made, planned⟩ := drainResult_ok drained
  obtain ⟨order, rfl, -, ordered⟩ := drain_shape present offered hashed drained
  have ahead := front_offeredFor offered
  cases offer : s.offeredFor config hash with
  | some first =>
    rw [ahead, offer] at planned
    refine ⟨plan, first, made, drainPlan_head planned, ?_⟩
    rw [BeginsFor, offer]
    exact ⟨rfl, offeredFor_quarantined offer⟩
  | none =>
    -- without an Active node there would have been an offer
    have active : s.getActiveNodes ≠ [] := by
      intro none
      obtain ⟨p, member, returned⟩ := @offered_without_active config hash s
        (some.resolve_left (not_not_intro none))
      have visible := present p (s.healthStore.getQuarantinedNodes_subset member)
      rw [← none] at returned
      simp [offeredFor, returned, visible] at offer
    rw [← sortAndDedupeNodes_active] at ordered
    obtain ⟨u, rest, rfl, drawn⟩ := seededDrain_head (fun u => active_present present)
      s.healthStore.getActiveNodes_ascending.separates active ordered
    rw [ahead, offer, Option.toList_none, List.nil_append] at planned
    refine ⟨plan, u, made, drainPlan_head planned, ?_⟩
    rw [BeginsFor, offer]
    exact ⟨firstNodeWithSeed_mem active drawn, drawn⟩

end LiveNodes

namespace Aws

section
variable {config : HttpConfig} {client : AlternatorHttpClient config}

/-- A call whose node is found is sent to the endpoint it was left with, and any
report of it is about that node. -/
theorem makeRequest_selected {delegate : StandardHttpRequest → Option StandardHttpResponse}
    {request selected : StandardHttpRequest} (readable : selected.Readable config) {node : Url}
    {s t : Session}
    (select : request.selectAttemptNode config.toConfig s = (node, selected, t))
    (found : node.empty = false) :
    let sending := (client.makeRequest delegate request s).1
    sending.sent = true ∧ sending.node = node ∧ sending.request.uri = selected.uri ∧
      ∀ report ∈ sending.reported, report.1 = node := by
  have readable : (client.setAcceptEncoding selected).Readable config := by
    intro body present
    rw [AlternatorHttpClient.setAcceptEncoding_contentBody] at present
    exact readable body present
  obtain ⟨prepared, compressed, uri⟩ := readable.compressAwsRequestBody client.requestContentEncoding
  have sent : (prepared.optimizeRequestHeaders (buildHeaderOptimizationPolicy config)).uri =
      selected.uri := by
    rw [StandardHttpRequest.optimizeRequestHeaders_uri, uri,
      AlternatorHttpClient.setAcceptEncoding_uri]
  simp only [AlternatorHttpClient.makeRequest, select, found, Bool.false_eq_true, if_false,
    compressed, AlternatorHttpClient.conclude]
  split
  · exact ⟨rfl, rfl, sent, by simp⟩
  · exact ⟨rfl, rfl, sent, by simp⟩

theorem operate_head (endpoint : Uri) (attempt : SdkAttempt) (retries : List SdkAttempt)
    (s : Session) :
    ∃ rest, (client.operate endpoint attempt retries s).1.sendings =
      (client.send endpoint attempt s).1 :: rest := by
  cases retries with
  | nil => exact ⟨[], rfl⟩
  | cons next retries =>
    rw [AlternatorHttpClient.operate]
    dsimp only
    split
    · exact ⟨[], rfl⟩
    · exact ⟨_, rfl⟩

end

/-- The client made for a plan resolves to the endpoint of the node it begins with. -/
theorem newDynamoDBForQueryPlan_resolves (parser : UriParser) {plan : QueryPlan} {first : Url}
    (next : plan.next.map Prod.fst = .ok first) (addressable : Url.Addressable first)
    (clients : Clients) (config : Config) (s : Session) :
    ∃ dynamoDB, (clients.newDynamoDBForQueryPlan plan).1 = .ok dynamoDB ∧
      dynamoDB.endpointProvider.resolveEndpoint parser config s = (.ok (Url.endpoint first), s) := by
  have visible := addressable.present
  cases returned : plan.next with
  | error error => simp [returned, Except.map] at next
  | ok result =>
    obtain ⟨node, rest⟩ := result
    have same : node = first := by simpa [returned, Except.map] using next
    subst same
    obtain ⟨resolved, provider, text⟩ := clients.newDynamoDBForNode_resolves node
    refine ⟨(clients.newDynamoDBForNode node).1, ?_, ?_⟩
    · simp only [Clients.newDynamoDBForQueryPlan, returned, visible, Bool.false_eq_true, if_false]
    · have named : resolved.empty = false := by
        cases blank : resolved.empty with
        | false => rfl
        | true =>
          simp only [Url.empty] at blank visible
          rw [Url.toString, if_pos blank, Url.toString, visible] at text
          have separator : bytes "://" ≠ [] := by decide
          simp [separator] at text
      rw [provider, EndpointProvider.resolveEndpoint, named, text,
        parse_toString parser addressable]
      rfl

theorem queryPlanForPartitionKey_getNodes (config : Config) (s : LiveNodes) (values : AttributeMap)
    (table : Bytes) (metadata : PartitionKeyMetadata) :
    (queryPlanForPartitionKey (LiveNodes.source config) s values table metadata).2.getNodes =
      s.getNodes := by
  rw [queryPlanForPartitionKey]
  cases hashPartitionKey values table metadata with
  | error error => rfl
  | ok seed =>
    obtain ⟨held, plan, node, planned⟩ := s.getQueryPlanNodesForHash_eq config seed
    have same : ((LiveNodes.source config).getQueryPlanNodesForHash seed s).2.getNodes =
        s.getNodes := by
      change (s.getQueryPlanNodesForHash config seed).2.getNodes = s.getNodes
      rw [planned]
      rfl
    dsimp only
    generalize (LiveNodes.source config).getQueryPlanNodesForHash seed s = result at same ⊢
    obtain ⟨returned, after⟩ := result
    cases returned with
    | error error => exact same
    | ok nodes => exact same

/-- A write that is routed by its key gets the plan of the key. -/
theorem planItem_affine {config : Config} {mode : KeyRouteAffinityMode}
    {partitionKeys : PartitionKeyMetadata} {write : TypedWrite} {s : Session}
    (affine : shouldUseKeyRouteAffinity mode write.kind (itemOptions write.request write.kind) = true)
    {value : Model.AttributeValue} {key : AttributeValue}
    (holds : HoldsKey partitionKeys write.request.tableName write.request.values value)
    (converted : toAttributeValue value = .ok key) :
    ∃ values table, hashPartitionKey values table partitionKeys = .ok key.hash ∧
      ∀ plan, (queryPlanForPartitionKey (LiveNodes.source config) s.nodes values table
          partitionKeys).1 = .ok plan →
        (planItem config mode partitionKeys write s).1 = .ok plan ∧
          (planItem config mode partitionKeys write s).2.nodes.getNodes = s.nodes.getNodes := by
  refine ⟨_, _, holds.hashPartitionKey key, ?_⟩
  intro plan made
  rw [planItem, itemQueryPlanFor_affine _ _ _ affine, holds.queryPlan converted,
    newPartitionKeyQueryPlan, if_neg (by simpa using holds.named)]
  have nodes := queryPlanForPartitionKey_getNodes config s.nodes
    (keyOnly (partitionKeys.getPartitionKeyName (cStr write.request.tableName)) key)
    (cStr write.request.tableName) partitionKeys
  generalize queryPlanForPartitionKey (LiveNodes.source config) s.nodes
    (keyOnly (partitionKeys.getPartitionKeyName (cStr write.request.tableName)) key)
    (cStr write.request.tableName) partitionKeys = result at made nodes ⊢
  obtain ⟨returned, after⟩ := result
  cases made
  exact ⟨rfl, nodes⟩

theorem unbracketHost_formatHostForAuthority (host : Bytes) :
    unbracketHost (formatHostForAuthority host) = unbracketHost host := unbracket_bracket host

theorem host_endpoint {node : Url} (addressable : Url.Addressable node) :
    (urlFromAwsUri (Url.endpoint node)).host = formatHostForAuthority node.host :=
  (cStr_eq_self_iff _).mpr addressable.host.1

theorem place_endpoint {node : Url} (addressable : Url.Addressable node) :
    place (urlFromAwsUri (Url.endpoint node)) = place node := by
  rw [place, host_endpoint addressable, unbracketHost_formatHostForAuthority]
  rfl

theorem endpoint_present {node : Url} (addressable : Url.Addressable node) :
    (urlFromAwsUri (Url.endpoint node)).empty = false := by
  rw [Url.empty, host_endpoint addressable, List.isEmpty_eq_false_iff]
  rcases addressable.host.2 with ⟨some, _⟩ | ⟨address, bracketed, _⟩
  · exact some
  · rw [bracketed]
    exact List.cons_ne_nil _ _

/-- What the first attempt of an operation meets when it is sent to a node: the node
is not removed in the meantime, and the SDK marks the attempt as the first. -/
structure SdkAttempt.Arrives (attempt : SdkAttempt) (config : HttpConfig) (planned : Session)
    (first : Url) : Prop where
  addressable : Url.Addressable first
  foreign : sameEndpointHost first.host endpointOverrideHost = false
  stays : first ∈ planned.nodes.getNodes →
    first ∈ (planned.run config.toConfig attempt.meanwhile).nodes.getNodes
  marked : isFirstSdkAttempt (attempt.request (Url.endpoint first)).routed = true
  readable : (attempt.request (Url.endpoint first)).Readable config

section
variable {attempt : SdkAttempt} {config : HttpConfig} {planned : Session} {first : Url}

/-- The first attempt stays at the node it was planned for. -/
theorem SdkAttempt.Arrives.select (arrives : attempt.Arrives config planned first)
    (live : first ∈ planned.nodes.getNodes) :
    ∃ selected t,
      (attempt.request (Url.endpoint first)).selectAttemptNode config.toConfig
          (planned.run config.toConfig attempt.meanwhile) =
        (urlFromAwsUri (Url.endpoint first), selected, t) ∧
      selected.uri = Url.endpoint first := by
  have aimed : AimedAtLiveNode (attempt.request (Url.endpoint first)).routed
      (planned.run config.toConfig attempt.meanwhile) := by
    have host : (urlFromAwsUri (attempt.request (Url.endpoint first)).routed.uri).host =
        formatHostForAuthority first.host := host_endpoint arrives.addressable
    refine ⟨⟨first, arrives.stays live, ?_, rfl⟩, ?_⟩
    · rw [host]
      exact decide_eq_true (unbracketHost_formatHostForAuthority first.host)
    · rw [host, sameEndpointHost, unbracketHost_formatHostForAuthority]
      exact arrives.foreign
  have stays := selectAttemptNode_aimed config.toConfig aimed
  rw [if_pos arrives.marked, StandardHttpRequest.selectAttemptNode_refines] at stays
  simp only [Prod.mk.injEq] at stays
  exact ⟨_, _, Prod.ext stays.1 rfl, congrArg HttpRequest.uri stays.2.1⟩

/-- The first call of an operation that the SDK aims at a live node goes there, and
any report of it is about that node. -/
theorem SdkAttempt.Arrives.operate (arrives : attempt.Arrives config planned first)
    (live : first ∈ planned.nodes.getNodes) (client : AlternatorHttpClient config)
    (retries : List SdkAttempt) :
    ∃ sending rest,
      (client.operate (Url.endpoint first) attempt retries planned).1.sendings =
        sending :: rest ∧
      sending.sent = true ∧ sending.request.uri = Url.endpoint first ∧
      ∀ report ∈ sending.reported, place report.1 = place first := by
  obtain ⟨selected, t, select, uri⟩ := arrives.select live
  have readable : selected.Readable config := by
    have body := StandardHttpRequest.selected_selectAttemptNode config.toConfig
      (attempt.request (Url.endpoint first)) (planned.run config.toConfig attempt.meanwhile)
    rw [select] at body
    intro stored present
    rw [body.contentBody] at present
    exact arrives.readable stored present
  obtain ⟨sent, -, goes, reports⟩ := @makeRequest_selected config client attempt.delegate _ _
    readable _ _ _ select (endpoint_present arrives.addressable)
  obtain ⟨rest, sendings⟩ := @operate_head config client (Url.endpoint first) attempt retries planned
  refine ⟨_, rest, sendings, sent, goes.trans uri, fun report member => ?_⟩
  rw [reports report member, place_endpoint arrives.addressable]

end

theorem sendPlanned_arrives {config : HttpConfig} (parser : UriParser)
    (client : AlternatorHttpClient config) {attempt : SdkAttempt} {planned : Session} {first : Url}
    (arrives : attempt.Arrives config planned first) (live : first ∈ planned.nodes.getNodes)
    {plan : QueryPlan} (next : plan.next.map Prod.fst = .ok first) (retries : List SdkAttempt)
    (clients : Clients) :
    ∃ sending rest reported,
      (sendPlanned parser client attempt retries plan planned clients).1 =
        .ok (.ok ⟨sending :: rest, reported⟩) ∧
      sending.sent = true ∧ sending.request.uri = Url.endpoint first ∧
      ∀ report ∈ sending.reported, place report.1 = place first := by
  obtain ⟨dynamoDB, kept, resolves⟩ := newDynamoDBForQueryPlan_resolves parser next
    arrives.addressable clients config.toConfig planned
  obtain ⟨sending, rest, sendings, goes⟩ := arrives.operate live client retries
  refine ⟨sending, rest,
    (client.operate (Url.endpoint first) attempt retries planned).1.reported, ?_, goes⟩
  rw [sendPlanned, ← sendings]
  generalize clients.newDynamoDBForQueryPlan plan = result at kept ⊢
  obtain ⟨outcome, after⟩ := result
  dsimp only at kept ⊢
  rw [kept]
  dsimp only
  rw [resolves]

/-- A node that a plan may begin with is live, also after planning. -/
theorem live_of_begins {s t : Session} {first : Url}
    (known : ∀ u ∈ s.nodes.healthStore.nodes, u ∈ s.nodes.liveNodes)
    (begins : first ∈ s.nodes.getQuarantinedNodes ∨ first ∈ s.nodes.getActiveNodes)
    (same : t.nodes.getNodes = s.nodes.getNodes) : first ∈ t.nodes.getNodes := by
  have listed : first ∈ s.nodes.liveNodes := by
    rcases begins with quarantined | active
    · exact known first (s.nodes.healthStore.getQuarantinedNodes_subset quarantined)
    · exact known first (s.nodes.healthStore.getActiveNodes_subset active)
  rw [same, LiveNodes.getNodes, if_neg (by simpa using List.ne_nil_of_mem listed)]
  exact listed

/-- A write that is routed by its key is first sent to the node of the key's hash
and reported there, whatever clients the helper has made before. -/
theorem affine_write_goes_to_its_node {config : HttpConfig} (parser : UriParser)
    (client : AlternatorHttpClient config) (mode : KeyRouteAffinityMode)
    (partitionKeys : PartitionKeyMetadata) (write : TypedWrite) {hosts : List Bytes} {now : Int}
    {start : Session} (built : LiveNodes.new hosts config.toConfig now = .ok start.nodes)
    (operations : List Operation) (clients : Clients)
    (present : ∀ u ∈ (start.run config.toConfig operations).nodes.healthStore.nodes,
      u.empty = false)
    (small : (start.run config.toConfig operations).nodes.getActiveNodes.length + 1 < 2 ^ 31)
    (some : (start.run config.toConfig operations).nodes.getActiveNodes ≠ [] ∨
      (start.run config.toConfig operations).nodes.getQuarantinedNodes ≠ [])
    (affine : shouldUseKeyRouteAffinity mode write.kind (itemOptions write.request write.kind) = true)
    {value : Model.AttributeValue} {key : AttributeValue}
    (holds : HoldsKey partitionKeys write.request.tableName write.request.values value)
    (converted : toAttributeValue value = .ok key) :
    let s := start.run config.toConfig operations
    ∃ first, s.nodes.BeginsFor config.toConfig key.hash first ∧
      (write.attempt.Arrives config (planItem config.toConfig mode partitionKeys write s).2 first →
        ∃ sending rest reported,
          (writeItem parser client mode partitionKeys write s clients).1 =
              .ok (.ok ⟨sending :: rest, reported⟩) ∧
            sending.sent = true ∧ sending.request.uri = Url.endpoint first ∧
            ∀ report ∈ sending.reported, place report.1 = place first) := by
  have known := Session.statuses_live built operations
  intro s
  obtain ⟨values, table, hashed, planned⟩ :=
    @planItem_affine config.toConfig mode partitionKeys write s affine value key holds converted
  obtain ⟨plan, first, made, next, begins⟩ :=
    @LiveNodes.queryPlanForPartitionKey_begins config.toConfig key.hash s.nodes present _ _ _ hashed
      small some
  refine ⟨first, begins, fun arrives => ?_⟩
  have live := live_of_begins known begins.live (planned plan made).2
  obtain ⟨sending, rest, reported, outcome, goes⟩ := sendPlanned_arrives parser client
    arrives live next write.retries clients
  refine ⟨sending, rest, reported, ?_, goes⟩
  rw [writeItem]
  simp only [(planned plan made).1]
  exact outcome

/-- A put of an item with a string key, at its first attempt. -/
def putOrder : TypedWrite :=
  { kind := .putItem
    request := { tableName := bytes "orders", values := .assign .empty (bytes "id") (.string (bytes "k")) }
    seedFromClock := 0
    attempt :=
      { headers := Headers.setHeaderValue OrderedMap.empty sdkRequestHeaderName
          (bytes "attempt=1; max=2")
        delegate := fun _ => some { responseCode := 200 } } }

theorem putOrder_holds : HoldsKey idKeys putOrder.request.tableName putOrder.request.values
    (.string (bytes "k")) where
  named := by decide
  held := ⟨bytes "id", by decide⟩

theorem putOrder_arrives {host : Bytes} (either : host ∈ [bytes "a", bytes "b"])
    (planned : Session) : putOrder.attempt.Arrives {} planned (({} : Config).nodeUrl host) where
  addressable := by
    have plain : ∀ host ∈ [bytes "a", bytes "b"],
        0 ∉ formatHostForAuthority host ∧ formatHostForAuthority host ≠ [] ∧
          (formatHostForAuthority host).head? ≠ some (byte '[') ∧
          ∀ c ∈ formatHostForAuthority host, c ∉ bytes ":/?" := by decide +kernel
    obtain ⟨clear, some, unbracketed, ends⟩ := plain host either
    exact ⟨.inl rfl, ⟨clear, .inl ⟨some, unbracketed, ends⟩⟩, by simp [Config.nodeUrl], rfl, rfl⟩
  foreign := by
    have foreign : ∀ host ∈ [bytes "a", bytes "b"],
        sameEndpointHost host endpointOverrideHost = false := by decide
    exact foreign host either
  stays := fun live => live
  marked := (by decide : isFirstSdkAttempt (putOrder.attempt.request ⟨.http, [], 0⟩).routed = true)
  readable := by
    intro body present
    contradiction

/-- The one of two nodes that the hash draws gets the write, from a helper that made
no client yet. -/
theorem putOrder_goes_to_its_node :
    let s := Session.couple
    let hash := (AttributeValue.ofString (bytes "k")).hash
    ∃ first, firstNodeWithSeed s.nodes.getActiveNodes hash = .ok first ∧
      ∃ sending rest reported,
        (writeItem plainUriParser (⟨[], [], rfl, rfl⟩ : AlternatorHttpClient {}) .anyWrite idKeys
            putOrder s {}).1 = .ok (.ok ⟨sending :: rest, reported⟩) ∧
          sending.sent = true ∧ sending.request.uri = Url.endpoint first := by
  intro s hash
  have built : LiveNodes.new [bytes "a", bytes "b"] {} 0 = .ok s.nodes := rfl
  obtain ⟨first, begins, goes⟩ := affine_write_goes_to_its_node plainUriParser
    (⟨[], [], rfl, rfl⟩ : AlternatorHttpClient {}) .anyWrite idKeys putOrder built [] {} (by decide)
    (by decide) (by decide) (by decide) putOrder_holds
    (show toAttributeValue (.string (bytes "k")) = .ok (.ofString (bytes "k")) by decide)
  have unoffered : s.nodes.offeredFor {} hash = none := by
    simp [LiveNodes.offeredFor, LiveNodes.offered_without_quarantined
      (show s.nodes.getQuarantinedNodes = [] by decide)]
  obtain ⟨active, drawn⟩ : first ∈ s.nodes.getActiveNodes ∧
      firstNodeWithSeed s.nodes.getActiveNodes hash = .ok first := begins.drawn unoffered
  have both : s.nodes.getActiveNodes = [bytes "a", bytes "b"].map ({} : Config).nodeUrl := by decide
  rw [both] at active
  obtain ⟨host, either, rfl⟩ := List.mem_map.mp active
  obtain ⟨sending, rest, reported, outcome, sent, uri, _⟩ := goes (putOrder_arrives either _)
  exact ⟨_, drawn, sending, rest, reported, outcome, sent, uri⟩

end Aws

end AlternatorClient
