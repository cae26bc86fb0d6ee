import AlternatorClient.LiveNodes.Interleavings
import AlternatorClient.LiveNodes.Mutex
import AlternatorClient.Foundation.Blindness

/-! Whom the client contacts. It asks the configured hosts and the nodes that a node
it may ask has named; what any other address would answer makes no difference to any
interleaving of any calls, so it is never asked. -/
namespace AlternatorClient
open Foundation Program

/-- A question for the node, by `GetNodesFromEndpoint` or a probe. -/
def Url.localNodes (node : Url) (query : Bytes) : Url :=
  node.withPathAndQuery (bytes "/localnodes") query

/-- The configured nodes, and those that a node of them names at any time. -/
inductive Told (config : Config) (hosts : List Bytes) (wire : Wire) : Url → Prop
  | configured {host : Bytes} (listed : host ∈ hosts) : Told config hosts wire (config.nodeUrl host)
  | named {node u : Url} {query : Bytes} {nodes : List Url} {n : Nat}
      (asked : Told config hosts wire node)
      (answered : Call.nodesOfResponse config (node.localNodes query)
        (wire.answer n (node.localNodes query)) = .ok nodes)
      (listed : u ∈ nodes) : Told config hosts wire u

/-- A response names hosts on the configured scheme and port only. -/
theorem nodeUrl_of_response {config : Config} {endpoint : Url}
    {response : Except Bytes HttpResponse} {nodes : List Url}
    (answered : Call.nodesOfResponse config endpoint response = .ok nodes) :
    ∀ u ∈ nodes, ∃ host, u = config.nodeUrl host := by
  intro u member
  simp only [Call.nodesOfResponse] at answered
  split at answered
  · contradiction
  · split at answered
    · contradiction
    · split at answered
      · contradiction
      · cases answered
        rw [toUrls, mem_sortAndDedupeNodes] at member
        obtain ⟨host, _, rfl⟩ := List.mem_map.mp member
        exact ⟨host, rfl⟩

theorem Told.nodeUrl {config : Config} {hosts : List Bytes} {wire : Wire} {u : Url}
    (told : Told config hosts wire u) : ∃ host, u = config.nodeUrl host := by
  cases told with
  | configured => exact ⟨_, rfl⟩
  | named asked answered listed => exact nodeUrl_of_response answered u listed

structure LiveNodes.Of (kind : Url → Prop) (s : LiveNodes) : Prop where
  initial : ∀ u ∈ s.initialNodes, kind u
  live : ∀ u ∈ s.liveNodes, kind u
  statuses : ∀ u ∈ s.healthStore.nodes, kind u

/-- The nodes are of a kind, and those of the kind name no others. -/
structure Within (config : Config) (kind : Url → Prop) (s : Shared) : Prop where
  nodes : s.nodes.Of kind
  closed : ∀ n node query nodes, kind node →
    Call.nodesOfResponse config (node.localNodes query) (s.wire.answer n (node.localNodes query)) =
      .ok nodes → ∀ u ∈ nodes, kind u

/-- The same but for what nodes of other kinds would answer. -/
structure Agree (kind : Url → Prop) (s t : Shared) : Prop where
  nodes : t.nodes = s.nodes
  clock : t.clock = s.clock
  seeds : t.seeds = s.seeds
  held : t.held = s.held
  answers : ∀ n node query, kind node →
    t.wire.answer n (node.localNodes query) = s.wire.answer n (node.localNodes query)

/-- The call asks nodes of the kind only, and keeps the nodes of the state in it. -/
abbrev Call.Confined {α : Type} (config : Config) (kind : Url → Prop) (post : α → Prop)
    (p : Call α) : Prop :=
  p.Blind (Agree kind) (Within config kind) post

namespace LiveNodes.Of
variable {kind : Url → Prop} {s : LiveNodes}

theorem active (known : s.Of kind) {u : Url} (member : u ∈ s.getActiveNodes) : kind u :=
  known.statuses u (s.healthStore.getActiveNodes_subset member)

theorem quarantined (known : s.Of kind) {u : Url} (member : u ∈ s.getQuarantinedNodes) : kind u :=
  known.statuses u (s.healthStore.getQuarantinedNodes_subset member)

theorem getNodes (known : s.Of kind) {u : Url} (member : u ∈ s.getNodes) : kind u := by
  simp only [LiveNodes.getNodes] at member
  split at member
  · exact known.initial u member
  · exact known.live u member

theorem of_same {t : LiveNodes} (known : s.Of kind) (initial : t.initialNodes = s.initialNodes)
    (live : t.liveNodes = s.liveNodes) (statuses : t.healthStore.nodes = s.healthStore.nodes) :
    t.Of kind :=
  ⟨initial ▸ known.initial, live ▸ known.live, statuses ▸ known.statuses⟩

end LiveNodes.Of

def Offered (kind : Url → Prop) (u : Url) : Prop := u = {} ∨ kind u

theorem offered_getD {kind : Url → Prop} {nodes : List Url} (known : ∀ u ∈ nodes, kind u)
    (some : nodes ≠ []) (i : Nat) : Offered kind (nodes.getD (i % nodes.length) {}) :=
  .inr (known _ (getD_mod_mem some i))

namespace Call.Confined
variable {α : Type} {config : Config} {kind : Url → Prop} {post : α → Prop}

theorem pure {a : α} (ends : post a) : Confined config kind post (.done a) := .done ends

theorem atomically {f : LiveNodes → α × LiveNodes} (keeps : ∀ s, s.Of kind → (f s).2.Of kind)
    (ends : ∀ s, s.Of kind → post (f s).1) : Confined config kind post (Call.atomically f) := by
  refine .act (fun s t _ agrees => ?_) (fun s here => ⟨keeps s.nodes here.nodes, here.closed⟩)
    (fun s t _ agrees => by rw [agrees.nodes]) fun s here => ends s.nodes here.nodes
  exact ⟨by rw [agrees.nodes], agrees.clock, agrees.seeds, agrees.held, agrees.answers⟩

theorem locked {f : LiveNodes → α × LiveNodes} (keeps : ∀ s, s.Of kind → (f s).2.Of kind)
    (ends : ∀ s, s.Of kind → post (f s).1) : Confined config kind post (Call.locked f) := by
  refine .await ⟨fun s t _ agrees => by rw [agrees.held], fun s t _ _ agrees => ?_,
    fun s here _ => ⟨keeps s.nodes here.nodes, here.closed⟩⟩
    (fun s t _ agrees => by rw [agrees.nodes]) fun s here => ends s.nodes here.nodes
  exact ⟨by rw [agrees.nodes], agrees.clock, agrees.seeds, agrees.held, agrees.answers⟩

theorem read {f : LiveNodes → α} (ends : ∀ s, s.Of kind → post (f s)) :
    Confined config kind post (Call.read f) :=
  .act (fun _ _ _ agrees => agrees) (fun _ here => here)
    (fun _ _ _ agrees => congrArg f agrees.nodes) fun s here => ends s.nodes here.nodes

theorem look {f : LiveNodes → α} : Confined config kind (fun _ => True) (Call.read f) :=
  read fun _ _ => trivial

theorem lock : Confined config kind (fun _ => True) Call.lock :=
  .await ⟨fun _ _ _ agrees => by rw [agrees.held],
      fun _ _ _ _ agrees => ⟨agrees.nodes, agrees.clock, agrees.seeds, rfl, agrees.answers⟩,
      fun _ here _ => ⟨here.nodes, here.closed⟩⟩
    (fun _ _ _ _ => rfl) fun _ _ => trivial

theorem unlock : Confined config kind (fun _ => True) Call.unlock :=
  .act (fun _ _ _ agrees => ⟨agrees.nodes, agrees.clock, agrees.seeds, rfl, agrees.answers⟩)
    (fun _ here => ⟨here.nodes, here.closed⟩) (fun _ _ _ _ => rfl) fun _ _ => trivial

theorem now : Confined config kind (fun _ => True) Call.now := by
  refine .act (fun s t _ agrees => ?_) (fun s here => ⟨here.nodes, here.closed⟩)
    (fun s t _ agrees => by rw [agrees.clock]) fun _ _ => trivial
  exact ⟨agrees.nodes, by simp only [agrees.clock], agrees.seeds, agrees.held, agrees.answers⟩

theorem takeSeed : Confined config kind (fun _ => True) Call.takeSeed := by
  refine .act (fun s t _ agrees => ?_) (fun s here => ⟨here.nodes, here.closed⟩)
    (fun s t _ agrees => by rw [agrees.seeds]) fun _ _ => trivial
  exact ⟨agrees.nodes, agrees.clock, by simp only [agrees.seeds], agrees.held, agrees.answers⟩

theorem counted {f : LiveNodes → α × LiveNodes} (same : ∀ s, (f s).2.initialNodes = s.initialNodes ∧
      (f s).2.liveNodes = s.liveNodes ∧ (f s).2.healthStore.nodes = s.healthStore.nodes) :
    Confined config kind (fun _ => True) (Call.atomically f) :=
  atomically (fun s known => known.of_same (same s).1 (same s).2.1 (same s).2.2)
    fun _ _ => trivial

/-- The one region that asks a node. If the node is of the kind, so is every node
that its answer lists, whatever the answer is. -/
theorem get {node : Url} (known : kind node) (query : Bytes) :
    Confined config kind (fun response => ∀ nodes,
      Call.nodesOfResponse config (node.localNodes query) response = .ok nodes →
        ∀ u ∈ nodes, kind u) (Call.get (node.localNodes query)) := by
  refine .act (fun s t _ agrees => ?_) (fun s here => ⟨here.nodes, fun n => here.closed (n + 1)⟩)
    (fun s t _ agrees => agrees.answers 0 node query known)
    fun s here nodes => here.closed 0 node query nodes known
  exact ⟨agrees.nodes, agrees.clock, agrees.seeds, agrees.held, fun n => agrees.answers (n + 1)⟩

theorem markActivity : Confined config kind (fun _ => True) (Call.markActivity config) := by
  refine now.bind fun time _ => locked (fun s known => ?_) fun _ _ => trivial
  obtain ⟨nextUpdate, marked⟩ := s.markActivity_eq config time
  rw [marked]
  exact known.of_same rfl rfl rfl

theorem removeQuarantineHashAssignmentsForNode (node : Url) :
    Confined config kind (fun _ => True) (Call.removeQuarantineHashAssignmentsForNode node) :=
  locked (fun _ known => known.of_same rfl rfl rfl) fun _ _ => trivial

theorem reportToStore (node : Url) (o : NodeHealthObservation) :
    Confined config kind (fun _ => True) (Call.reportToStore node o) :=
  counted fun s => ⟨rfl, rfl, s.healthStore.nodes_reportNodeResult node o⟩

theorem reportNodeResult (node : Url) (o : NodeHealthObservation) :
    Confined config kind (fun _ => True) (Call.reportNodeResult config node o) := by
  refine markActivity.bind fun _ _ => (reportToStore node o).bind fun _ _ =>
    look.bind fun _ _ => ?_
  exact .ite (fun _ => pure trivial) fun _ => removeQuarantineHashAssignmentsForNode node

theorem probe {node : Url} (known : kind node) :
    Confined config kind (fun _ => True) (Call.probe node) := by
  refine (get known []).bind fun response _ => ?_
  cases response with
  | ok response => exact pure trivial
  | error what => exact pure trivial

theorem probeCandidates {nodes : List Url} (known : ∀ u ∈ nodes, kind u) :
    Confined config kind (fun responsive => ∀ u ∈ responsive, kind u)
      (Call.probeCandidates nodes) := by
  induction nodes with
  | nil => exact pure (by simp)
  | cons node rest ih =>
    obtain ⟨first, others⟩ := List.forall_mem_cons.mp known
    refine look.bind fun _ _ =>
      .ite (fun _ => ih others) fun _ => ?_
    refine (probe first).bind fun o _ => (reportToStore node o).bind fun _ _ => ?_
    refine (ih others).bind fun responsive found => pure ?_
    split
    · exact List.forall_mem_cons.mpr ⟨first, found⟩
    · exact found

theorem readDown :
    Confined config kind (fun down => ∀ u ∈ down, kind u) (Call.read LiveNodes.getDownNodes) :=
  read fun s known u member => known.statuses u (s.healthStore.getDownNodes_subset member)

theorem probeDownNodes :
    Confined config kind (fun responsive => ∀ u ∈ responsive, kind u) Call.probeDownNodes := by
  refine look.bind fun _ _ => .ite (fun _ => pure (by simp)) fun _ => ?_
  exact readDown.bind fun _ known => probeCandidates known

theorem shouldTryQuarantinedNode (b : Bool) :
    Confined config kind (fun _ => True) (Call.shouldTryQuarantinedNode config b) := by
  refine look.bind fun _ _ => .ite (fun _ => pure trivial) fun _ => .ite (fun _ => pure trivial) fun _ => ?_
  exact (counted fun _ => ⟨rfl, rfl, rfl⟩).bind fun _ _ => pure trivial

theorem quarantineTicket : Confined config kind (fun _ => True) Call.quarantineTicket :=
  counted fun _ => ⟨rfl, rfl, rfl⟩

theorem takeCandidate {candidates : List Url} (known : ∀ u ∈ candidates, kind u) :
    Confined config kind (Offered kind) (Call.takeCandidate candidates) :=
  .ite (fun _ => pure (.inl rfl)) fun some =>
    atomically (fun _ known => known.of_same rfl rfl rfl) fun _ _ =>
      offered_getD known (by simpa using some) _

theorem readActive :
    Confined config kind (fun active => ∀ u ∈ active, kind u) (Call.read LiveNodes.getActiveNodes) :=
  read fun _ known _ => known.active

theorem readQuarantined :
    Confined config kind (fun nodes => ∀ u ∈ nodes, kind u)
      (Call.read LiveNodes.getQuarantinedNodes) :=
  read fun _ known _ => known.quarantined

theorem nextQuarantinedNode : Confined config kind (Offered kind) Call.nextQuarantinedNode :=
  readQuarantined.bind fun _ known => .ite (fun _ => pure (.inl rfl)) fun some =>
    quarantineTicket.bind fun _ _ => pure (offered_getD known (by simpa using some) _)

theorem candidatesOrProbe {active : List Url} (known : ∀ u ∈ active, kind u) :
    Confined config kind (fun candidates => ∀ u ∈ candidates, kind u)
      (Call.candidatesOrProbe active) :=
  .ite (fun _ => probeDownNodes.bind fun _ _ => readActive) fun _ => pure known

theorem nextNode : Confined config kind (Offered kind) (Call.nextNode config) := by
  refine markActivity.bind fun _ _ => readActive.bind fun _ active => (candidatesOrProbe active).bind
    fun candidates known => (shouldTryQuarantinedNode _).bind fun _ _ => ?_
  refine .ite (fun _ => nextQuarantinedNode.bind fun _ offered => ?_) fun _ => takeCandidate known
  exact .ite (fun _ => pure offered) fun _ => takeCandidate known

theorem getQueryPlanNodes :
    Confined config kind (fun nodes => ∀ u ∈ nodes, kind u) (Call.getQueryPlanNodes config) := by
  refine readActive.bind fun _ known => (shouldTryQuarantinedNode _).bind fun _ _ => ?_
  refine .ite (fun _ => nextQuarantinedNode.bind fun quarantined offered => pure ?_)
    fun _ => pure fun u member => known u (mem_sortAndDedupeNodes.mp member)
  intro u member
  rw [mem_sortAndDedupeNodes] at member
  split at member
  · exact known u member
  · rename_i some
    rcases List.mem_append.mp member with active | last
    · exact known u active
    · rw [List.mem_singleton.mp last]
      rcases offered with rfl | told
      · simp at some
      · exact told

def Chosen (kind : Url → Prop) (result : Except Error Url) : Prop :=
  ∀ u, result = .ok u → Offered kind u

theorem chosen_error {error : Error} : Chosen kind (.error error) := fun u returned => by
  contradiction

theorem chosen_ok {u : Url} (offered : Offered kind u) : Chosen kind (.ok u) := by
  intro v returned
  cases returned
  exact offered

theorem same_heldAssignment (hash : Int64) (active quarantined : List Url) (s : LiveNodes)
    (known : s.Of kind) : (Call.heldAssignment hash active quarantined s).2.Of kind := by
  simp only [Call.heldAssignment]
  repeat' split
  all_goals exact known.of_same rfl rfl rfl

theorem chosen_heldAssignment (hash : Int64) {active quarantined : List Url} (s : LiveNodes)
    (known : ∀ u ∈ quarantined, kind u) :
    ∀ result, (Call.heldAssignment hash active quarantined s).1 = some result →
      Chosen kind result := by
  intro result returned
  simp only [Call.heldAssignment] at returned
  split at returned
  · contradiction
  · rename_i held
    split at returned
    · rename_i member
      split at returned
      · cases returned
        exact chosen_error
      · cases returned
        exact chosen_ok (.inl rfl)
      · cases returned
        exact chosen_ok (.inr (known _ member))
    · contradiction

theorem sampleQuarantinedNodeForHash (hash : Int64) (active : List Url) :
    Confined config kind (Chosen kind)
      (Call.sampleQuarantinedNodeForHash config hash active) := by
  have none : Confined config kind (Chosen kind) (.done (.ok {})) := pure (chosen_ok (.inl rfl))
  refine (shouldTryQuarantinedNode _).bind fun _ _ => .ite (fun _ => ?_) fun _ => none
  refine readQuarantined.bind fun _ known => .ite (fun _ => none) fun some =>
    quarantineTicket.bind fun index _ => ?_
  dsimp only
  split
  · exact pure chosen_error
  · exact none
  · exact locked (fun _ known => known.of_same rfl rfl rfl)
      fun _ _ => chosen_ok (offered_getD known (by simpa using some) _)

theorem stickyQuarantinedNodeForHash (hash : Int64) (active : List Url) :
    Confined config kind (Chosen kind)
      (Call.stickyQuarantinedNodeForHash config hash active) := by
  refine readQuarantined.bind fun quarantined known => ?_
  have held : Confined config kind (fun returned => ∀ result, returned = some result →
      Chosen kind result) (Call.locked (Call.heldAssignment hash active quarantined)) :=
    locked (same_heldAssignment hash active quarantined)
      fun s _ => chosen_heldAssignment hash s known
  refine held.bind fun returned chosen => ?_
  cases returned with
  | some result => exact pure (chosen result rfl)
  | none => exact sampleQuarantinedNodeForHash hash active

theorem getQueryPlanNodesForHash (hash : Int64) :
    Confined config kind (Call.Apart.Fetched kind)
      (Call.getQueryPlanNodesForHash config hash) := by
  refine readActive.bind fun active known => (stickyQuarantinedNodeForHash hash _).bind
    fun result chosen => pure ?_
  cases result with
  | error error => exact fun nodes returned => by contradiction
  | ok quarantined =>
    rintro nodes returned u member
    cases returned
    rcases mem_appendFresh.mp member with first | ⟨listed, _⟩
    · split at first
      · simp at first
      · rename_i some
        rw [List.mem_singleton.mp first]
        rcases chosen quarantined rfl with rfl | told
        · simp at some
        · exact told
    · exact known u (mem_sortAndDedupeNodes.mp listed)

theorem nextKnownNode : Confined config kind (Offered kind) Call.nextKnownNode := by
  have nodes : Confined config kind (fun nodes => ∀ u ∈ nodes, kind u)
      (Call.locked fun nodes => (nodes.getNodes, nodes)) :=
    locked (fun _ known => known) fun _ known _ => known.getNodes
  exact nodes.bind fun _ known => takeCandidate known

theorem getNodesFromEndpoint {node : Url} (known : kind node) (query : Bytes) :
    Confined config kind (Call.Apart.Fetched kind)
      (Call.getNodesFromEndpoint config (node.localNodes query)) :=
  (get known query).bind fun _ answered => pure answered

theorem visitPlan (scope : RoutingScopePtr) (fuel : Nat) (plan : QueryPlan) {discovered : List Url}
    (lastError : Option Error) (known : ∀ u ∈ plan.nodes, kind u)
    (found : ∀ u ∈ discovered, kind u) :
    Confined config kind (Call.Apart.Fetched kind)
      (Call.visitPlan config scope fuel plan discovered lastError) := by
  have concluded (discovered lastError) (found : ∀ u ∈ discovered, kind u) :
      Confined config kind (Call.Apart.Fetched kind)
        (.done (Session.concludeScope discovered lastError)) :=
    pure (Call.Apart.fetched_concludeScope lastError found)
  induction fuel generalizing plan discovered lastError with
  | zero => exact concluded discovered lastError found
  | succ fuel ih =>
    rw [Call.visitPlan]
    rcases plan.next_cases with ⟨_, after, returned, _⟩ | ⟨_, node, after, returned, perm⟩ |
      ⟨_, error, returned⟩
    · simp only [returned, Url.empty_default, if_true]
      exact concluded discovered lastError found
    · obtain ⟨first, others⟩ := List.forall_mem_cons.mp fun u member => known u (perm.subset member)
      simp only [returned]
      refine .ite (fun _ => concluded discovered lastError found) fun _ => ?_
      refine (getNodesFromEndpoint first scope.localNodesQuery).bind fun answered told => ?_
      cases answered with
      | error error =>
        exact (reportNodeResult node _).bind fun _ _ => ih after (some error) others found
      | ok nodes =>
        refine .ite (fun _ => ih after lastError others found) fun _ => ?_
        refine .ite (fun _ => pure told) fun _ => ih after lastError others fun u member => ?_
        exact (List.mem_append.mp member).elim (found u) (told nodes rfl u)
    · simp only [returned]
      exact pure fun nodes returned => by contradiction

theorem getNodesForScope (scope : RoutingScopePtr) :
    Confined config kind (Call.Apart.Fetched kind) (Call.getNodesForScope config scope) := by
  have asked : Confined config kind (fun nodes => ∀ u ∈ nodes, kind u)
      (Call.getDiscoveryNodesForScope config scope) :=
    .ite (fun _ => read fun _ known => known.initial) fun _ => getQueryPlanNodes
  exact asked.bind fun _ known => takeSeed.bind fun _ _ => visitPlan scope _ _ none known (by simp)

theorem fetchFrom (scopes : List RoutingScopePtr) :
    Confined config kind (Call.Apart.Fetched kind) (Call.fetchFrom config scopes) := by
  induction scopes with
  | nil => exact pure fun nodes returned u member => by cases returned; simp at member
  | cons scope rest ih =>
    refine (getNodesForScope scope).bind fun result told => ?_
    cases result with
    | error error => exact pure told
    | ok nodes => exact .ite (fun _ => pure told) fun _ => ih

theorem addNodes {nodes : List Url} (told : ∀ u ∈ nodes, kind u) :
    Confined config kind (fun _ => True) (Call.addNodes nodes) := by
  induction nodes with
  | nil => exact pure trivial
  | cons node rest ih =>
    obtain ⟨first, others⟩ := List.forall_mem_cons.mp told
    have added : Confined config kind (fun _ => True) (Call.atomically fun nodes =>
        ((), { nodes with healthStore := nodes.healthStore.addNode node })) := by
      refine atomically (fun s known => ⟨known.initial, known.live, fun u member => ?_⟩)
        fun _ _ => trivial
      rcases NodeHealthStore.mem_of_mem_addNode member with old | rfl
      · exact known.statuses u old
      · exact first
    exact added.bind fun _ _ => ih others

theorem removeNodes (nodes : List Url) :
    Confined config kind (fun _ => True) (Call.removeNodes nodes) := by
  induction nodes with
  | nil => exact pure trivial
  | cons node rest ih =>
    have removed : Confined config kind (fun _ => True) (Call.atomically fun nodes =>
        ((), { nodes with healthStore := nodes.healthStore.removeNode node })) := by
      refine atomically (fun s known => ⟨known.initial, known.live, fun u member => ?_⟩)
        fun _ _ => trivial
      exact known.statuses u (@NodeHealthStore.mem_nodes_foldl_removeNode _ _ [node] |>.mp member).1
    exact removed.bind fun _ _ => ih

theorem replaceLiveNodes {newNodes : List Url} (told : ∀ u ∈ newNodes, kind u) :
    Confined config kind (fun _ => True) (Call.replaceLiveNodes newNodes) := by
  have replaced : Confined config kind (fun _ => True) (Call.atomically fun nodes =>
      ((), { nodes with liveNodes := sortAndDedupeNodes newNodes })) :=
    atomically (fun s known => ⟨known.initial, fun u member =>
      told u (mem_sortAndDedupeNodes.mp member), known.statuses⟩) fun _ _ => trivial
  refine lock.bind fun _ _ => (addNodes told).bind fun _ _ => look.bind fun removed _ => ?_
  exact (removeNodes removed).bind fun _ _ => replaced.bind fun _ _ => unlock.bind fun _ _ =>
    pure trivial

theorem removeAssignments (nodes : List Url) :
    Confined config kind (fun _ => True) (Call.removeAssignments nodes) := by
  induction nodes with
  | nil => exact pure trivial
  | cons node rest ih =>
    exact (removeQuarantineHashAssignmentsForNode node).bind fun _ _ => ih

theorem updateLiveNodes : Confined config kind (fun _ => True) (Call.updateLiveNodes config) := by
  refine (fetchFrom config.routingScope.chain).bind fun fetched told => ?_
  cases fetched with
  | error error => exact pure trivial
  | ok newNodes =>
    refine .ite (fun _ => probeDownNodes.bind fun _ _ => pure trivial) fun _ => ?_
    exact (replaceLiveNodes (told newNodes rfl)).bind fun removed _ =>
      (removeAssignments removed).bind fun _ _ => probeDownNodes.bind fun _ _ => pure trivial

theorem checkScopes (scopes : List RoutingScopePtr) (misses : List Bytes) :
    Confined config kind (fun _ => True) (Call.checkScopes config scopes misses) := by
  induction scopes generalizing misses with
  | nil => exact pure trivial
  | cons scope rest ih =>
    refine .ite (fun _ => pure trivial) fun _ => (getNodesForScope scope).bind fun result _ => ?_
    cases result with
    | error error => exact pure trivial
    | ok nodes => exact .ite (fun _ => pure trivial) fun _ => ih _

theorem checkIfRackDatacenterFeatureIsSupported :
    Confined config kind (fun _ => True)
      (Call.checkIfRackDatacenterFeatureIsSupported config) := by
  refine nextKnownNode.bind fun node offered => .ite (fun _ => pure trivial) fun some => ?_
  have known : kind node := offered.resolve_left fun sentinel => some (by rw [sentinel]; rfl)
  refine (getNodesFromEndpoint known (bytes "rack=fakeRack")).bind fun fake _ => ?_
  cases fake with
  | error error => exact pure trivial
  | ok hosts =>
    refine (getNodesFromEndpoint known []).bind fun plain _ => ?_
    cases plain with
    | error error => exact pure trivial
    | ok all => exact .ite (fun _ => pure trivial) fun _ => pure trivial

end Call.Confined

/-- Every node that the reply hands out is of the kind. -/
def Reply.Of (kind : Url → Prop) : Reply → Prop
  | .url u => Offered kind u
  | .urls nodes => ∀ u ∈ nodes, kind u
  | _ => True

theorem confined_call (config : Config) (kind : Url → Prop) (operation : Operation) :
    Call.Confined config kind (Reply.Of kind) (operation.call config) := by
  cases operation with
  | updateLiveNodes =>
    refine Call.Confined.updateLiveNodes.bind fun result _ => .done ?_
    cases result
    · trivial
    · trivial
  | reportNodeResult node o =>
    exact (Call.Confined.reportNodeResult node o).bind fun _ _ => .done trivial
  | probeDownNodes => exact Call.Confined.probeDownNodes.bind fun _ known => .done known
  | nextNode => exact Call.Confined.nextNode.bind fun _ offered => .done offered
  | getQueryPlanNodes => exact Call.Confined.getQueryPlanNodes.bind fun _ known => .done known
  | getQueryPlanNodesForHash hash =>
    refine (Call.Confined.getQueryPlanNodesForHash hash).bind fun result known => .done ?_
    cases result with
    | error error => trivial
    | ok nodes => exact known nodes rfl
  | checkIfRackAndDatacenterSetCorrectly =>
    refine (Call.Confined.checkScopes _ _).bind fun result _ => .done ?_
    cases result
    · trivial
    · trivial
  | checkIfRackDatacenterFeatureIsSupported =>
    refine Call.Confined.checkIfRackDatacenterFeatureIsSupported.bind fun result _ => .done ?_
    cases result
    · trivial
    · trivial

/-- Threads over a client fresh from the constructor. What addresses would answer that
are neither configured nor named by a node the client may ask makes no difference: each
interleaving is one in the other world too, region by region, with the same replies. The
replies and the state hold such nodes only, all on the configured scheme and port. -/
theorem strangers_are_never_asked {ι : Type} [DecidableEq ι] (hosts : List Bytes)
    (config : Config) (now : Int) (calls : ι → Operation) (shared : Shared) (other : Wire)
    (turns : List (Turn ι Shared Reply)) (pool : Pool ι Shared Reply)
    (built : LiveNodes.new hosts config now = .ok shared.nodes)
    (same : ∀ n node query, Told config hosts shared.wire node →
      other.answer n (node.localNodes query) = shared.wire.answer n (node.localNodes query))
    (run : Pool.Run (shared.calling config calls) turns pool) :
    (∃ turns' state, Pool.Run (Shared.calling { shared with wire := other } config calls) turns'
        ⟨state, pool.threads⟩ ∧
      List.Forall₂ (Pool.Turn.Alike (Agree (Told config hosts shared.wire))) turns turns' ∧
      state.nodes = pool.state.nodes) ∧
    (∀ i reply, pool.threads i = .done reply → reply.Of (Told config hosts shared.wire)) ∧
    pool.state.nodes.Of (Told config hosts shared.wire) ∧
    ∀ u, Told config hosts shared.wire u → ∃ host, u = config.nodeUrl host := by
  obtain ⟨initial, live, store, _⟩ := LiveNodes.new_ok built
  have known : ∀ u ∈ shared.nodes.initialNodes, Told config hosts shared.wire u := by
    intro u member
    rw [initial, mem_sortAndDedupeNodes] at member
    obtain ⟨host, listed, rfl⟩ := List.mem_map.mp member
    exact .configured listed
  have here : Within config (Told config hosts shared.wire) shared := by
    refine ⟨⟨known, live ▸ known, fun u member => ?_⟩, ?_⟩
    · rw [store] at member
      exact known u (NodeHealthStore.mem_of_mem_new member)
    · exact fun n node query nodes asked answered u listed => .named asked answered listed
  obtain ⟨turns', state, run', alike, agrees, ended, blind⟩ := run.mimicked
    (fun i => confined_call config _ (calls i)) here
    (t := { shared with wire := other }) ⟨rfl, rfl, rfl, rfl, same⟩
  refine ⟨⟨turns', state, run', alike, agrees.nodes⟩, ?_, ended.nodes, fun u told => told.nodeUrl⟩
  intro i reply returned
  have own := blind i
  rw [returned] at own
  cases own with
  | done ends => exact ends

/-- Of two threads that refresh a client from one host to another one has returned.
What a third host would answer makes no difference, as nobody names it. -/
theorem strangers_are_never_asked_by_two :
    ∃ nodes turns pool reply turns' state, LiveNodes.new [bytes "a"] {} 0 = .ok nodes ∧
      Pool.Run (twoCallers (.still nodes ⟨fun _ _ => .ok ⟨200, bytes "[\"b\"]"⟩⟩)
        .updateLiveNodes) turns pool ∧
      pool.threads true = .done reply ∧
      Pool.Run (twoCallers (.still nodes ⟨fun _ endpoint =>
          if endpoint.host = bytes "c" then .error (bytes "refused")
          else .ok ⟨200, bytes "[\"b\"]"⟩⟩)
        .updateLiveNodes) turns' ⟨state, pool.threads⟩ ∧
      state.nodes = pool.state.nodes := by
  obtain ⟨nodes, built⟩ : ∃ nodes, LiveNodes.new [bytes "a"] {} 0 = .ok nodes := ⟨_, rfl⟩
  let wire : Wire := ⟨fun _ _ => .ok ⟨200, bytes "[\"b\"]"⟩⟩
  have known : ∀ u, Told {} [bytes "a"] wire u → u.host ≠ bytes "c" := by
    intro u told
    cases told with
    | configured listed =>
      rw [List.mem_singleton.mp listed]
      decide
    | @named node _ query listed n asked answered member =>
      have read : Call.nodesOfResponse {} (node.localNodes query) (.ok ⟨200, bytes "[\"b\"]"⟩) =
          .ok [({} : Config).nodeUrl (bytes "b")] := rfl
      cases read.symm.trans answered
      rw [List.mem_singleton.mp member]
      decide
  obtain ⟨turns, pool, run, returned, -⟩ := @twoCallers_run _ .updateLiveNodes _ _
    (Alone.updateLiveNodes.map (Reply.ofExcept fun _ => .unit) (.still nodes wire))
  obtain ⟨⟨turns', state, run', -, same⟩, -⟩ := strangers_are_never_asked [bytes "a"] {} 0
    (fun _ : Bool => .updateLiveNodes) (Session.still nodes wire).shared
    ⟨fun _ endpoint => if endpoint.host = bytes "c" then .error (bytes "refused")
      else .ok ⟨200, bytes "[\"b\"]"⟩⟩ turns pool built
    (fun n node query told => if_neg (known node told)) run
  exact ⟨nodes, turns, pool, _, turns', state, built, run, returned, run', same⟩

end AlternatorClient
