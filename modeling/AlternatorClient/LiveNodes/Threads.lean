import AlternatorClient.LiveNodes.Discovery
import AlternatorClient.Foundation.Interleaving

/-! The operations of `AlternatorLiveNodes` as several threads run them: a region
for every section under a mutex, every atomic counter, every request and every
reading of the clock. The health store has a mutex of its own, so a refresh that
holds `mutex_` is cut at each call of the store. -/
namespace AlternatorClient
open Foundation Program

/-- What the threads share. `held` is `mutex_`; the store and the counters are
atomic objects of their own, which can be reached without it. -/
structure Shared where
  nodes : LiveNodes
  wire : Wire
  clock : Nat → Int
  seeds : Nat → Int64
  held : Bool := false

/-- What a public operation returns, or throws. -/
inductive Reply where
  | url (node : Url)
  | urls (nodes : List Url)
  | answer (supported : Bool)
  | unit
  | thrown (error : Error)

def Reply.ofExcept {α : Type} (f : α → Reply) : Except Error α → Reply
  | .ok a => f a
  | .error error => .thrown error

abbrev Call (α : Type) := Program Shared α

namespace Call
variable (config : Config)

/-- A section of the health store, or an atomic counter. -/
def atomically {α : Type} (f : LiveNodes → α × LiveNodes) : Call α :=
  act fun s => ((f s.nodes).1, { s with nodes := (f s.nodes).2 })

/-- A section under `mutex_` that touches nothing but what `mutex_` protects. It is
one region, since no other thread can tell its parts apart. -/
def locked {α : Type} (f : LiveNodes → α × LiveNodes) : Call α :=
  await (fun s => !s.held) fun s => ((f s.nodes).1, { s with nodes := (f s.nodes).2 })

def read {α : Type} (f : LiveNodes → α) : Call α := look fun s => f s.nodes

def lock : Call Unit := await (fun s => !s.held) fun s => ((), { s with held := true })

def unlock : Call Unit := act fun s => ((), { s with held := false })

def now : Call Int := act fun s => (s.clock 0, { s with clock := fun n => s.clock (n + 1) })

def takeSeed : Call Int64 := act fun s => (s.seeds 0, { s with seeds := fun n => s.seeds (n + 1) })

def get (url : Url) : Call (Except Bytes HttpResponse) :=
  act fun s => ((s.wire.get url).1, { s with wire := (s.wire.get url).2 })

def markActivity : Call Unit := do
  let time ← now
  locked fun nodes => ((), (nodes.markActivity config time).1)

def removeQuarantineHashAssignmentsForNode (node : Url) : Call Unit :=
  locked fun nodes => ((), nodes.removeQuarantineHashAssignmentsForNode node)

/-- `NodeHealthStore::ReportNodeResult`. -/
def reportToStore (node : Url) (observation : NodeHealthObservation) : Call Unit :=
  atomically fun nodes =>
    ((), { nodes with healthStore := nodes.healthStore.reportNodeResult node observation })

def reportNodeResult (node : Url) (observation : NodeHealthObservation) : Call Unit := do
  markActivity config
  reportToStore node observation
  let status ← read fun nodes => nodes.healthStore.getNodeStatus node
  if status.any fun status => status.state = .quarantined then pure ()
  else removeQuarantineHashAssignmentsForNode node

def probe (node : Url) : Call NodeHealthObservation := do
  let response ← get (node.withPathAndQuery (bytes "/localnodes"))
  match response with
  | .ok response => pure (if response.statusCode ≥ 500 then .serverError else .success)
  | .error _ => pure .connectionFailure

/-- The loop of `NodeHealthStore::ProbeDownNodes`. -/
def probeCandidates : List Url → Call (List Url)
  | [] => pure []
  | node :: rest => do
    let status ← read fun nodes => nodes.healthStore.getNodeStatus node
    if status.isNone then probeCandidates rest
    else
      let observation ← probe node
      reportToStore node observation
      let responsive ← probeCandidates rest
      pure (if observation = .success then node :: responsive else responsive)

def probeDownNodes : Call (List Url) := do
  let disabled ← read fun nodes => nodes.healthStore.config.disabled
  if disabled then pure []
  else
    let candidates ← read LiveNodes.getDownNodes
    probeCandidates candidates

def shouldTryQuarantinedNode (activeNodesEmpty : Bool) : Call Bool := do
  let quarantinedNodes ← read LiveNodes.getQuarantinedNodes
  if quarantinedNodes.isEmpty then pure false
  else if activeNodesEmpty then pure true
  else
    let interval := config.nodeHealth.quarantineTrafficInterval
    let interval := if interval = 0 then 1 else interval
    let attempt ← atomically fun nodes =>
      (nodes.quarantinePlanIndex + 1,
        { nodes with quarantinePlanIndex := nodes.quarantinePlanIndex + 1 })
    pure (decide (attempt.toNat % interval.toNat = 0))

/-- `quarantine_node_index_.fetch_add(1)`. -/
def quarantineTicket : Call UInt64 :=
  atomically fun nodes =>
    (nodes.quarantineNodeIndex, { nodes with quarantineNodeIndex := nodes.quarantineNodeIndex + 1 })

/-- `next_node_index_.fetch_add(1)`, and the node at that index. -/
def takeCandidate (candidates : List Url) : Call Url :=
  if candidates.isEmpty then pure {}
  else
    atomically fun nodes =>
      (candidates.getD (nodes.nextNodeIndex.toNat % candidates.length) {},
        { nodes with nextNodeIndex := nodes.nextNodeIndex + 1 })

def nextQuarantinedNode : Call Url := do
  let nodes ← read LiveNodes.getQuarantinedNodes
  if nodes.isEmpty then pure {}
  else
    let index ← quarantineTicket
    pure (nodes.getD (index.toNat % nodes.length) {})

/-- The candidates of `NextNode`, over the Active nodes it found first. -/
def candidatesOrProbe (candidates : List Url) : Call (List Url) :=
  if candidates.isEmpty then do
    let _ ← probeDownNodes
    read LiveNodes.getActiveNodes
  else pure candidates

/-- The end of `NextNode`. The sampled node is taken if there still is one; by then
the quarantine may have been emptied by another thread. -/
def chooseNode (candidates : List Url) (try_ : Bool) : Call Url :=
  if try_ then do
    let quarantined ← nextQuarantinedNode
    if !quarantined.empty then pure quarantined else takeCandidate candidates
  else takeCandidate candidates

def nextNode : Call Url := do
  markActivity config
  let active ← read LiveNodes.getActiveNodes
  let candidates ← candidatesOrProbe active
  let try_ ← shouldTryQuarantinedNode config candidates.isEmpty
  chooseNode candidates try_

def getQueryPlanNodes : Call (List Url) := do
  let candidates ← read LiveNodes.getActiveNodes
  let try_ ← shouldTryQuarantinedNode config candidates.isEmpty
  if try_ then
    let quarantined ← nextQuarantinedNode
    pure (sortAndDedupeNodes (if quarantined.empty then candidates else candidates ++ [quarantined]))
  else pure (sortAndDedupeNodes candidates)

/-- The first section of `StickyQuarantinedNodeForHash`: what it returns from
there, if it returns. -/
def heldAssignment (hash : Int64) (activeNodes quarantinedNodes : List Url) (nodes : LiveNodes) :
    Option (Except Error Url) × LiveNodes :=
  match nodes.quarantineByHash.lookup hash.toInt with
  | none => (none, nodes)
  | some (_, node) =>
    if node ∈ quarantinedNodes then
      match quarantinedNodeIsFirstForHash node activeNodes hash with
      | .error error => (some (.error error), nodes)
      | .ok false =>
        (some (.ok {}), { nodes with quarantineByHash := nodes.quarantineByHash.erase hash.toInt })
      | .ok true => (some (.ok node), nodes)
    else (none, { nodes with quarantineByHash := nodes.quarantineByHash.erase hash.toInt })

/-- `StickyQuarantinedNodeForHash` after its first section. The quarantine is read
again, and may no longer hold what that section saw. -/
def sampleQuarantinedNodeForHash (hash : Int64) (activeNodes : List Url) :
    Call (Except Error Url) := do
  let try_ ← shouldTryQuarantinedNode config activeNodes.isEmpty
  if try_ then
    let quarantinedNodes ← read LiveNodes.getQuarantinedNodes
    if quarantinedNodes.isEmpty then pure (.ok {})
    else
      let index ← quarantineTicket
      let node := quarantinedNodes.getD (index.toNat % quarantinedNodes.length) {}
      match quarantinedNodeIsFirstForHash node activeNodes hash with
      | .error error => pure (.error error)
      | .ok false => pure (.ok {})
      | .ok true =>
        locked fun nodes =>
          (.ok node, { nodes with quarantineByHash := nodes.quarantineByHash.assign hash node })
  else pure (.ok {})

def stickyQuarantinedNodeForHash (hash : Int64) (activeNodes : List Url) :
    Call (Except Error Url) := do
  let quarantinedNodes ← read LiveNodes.getQuarantinedNodes
  let returned ← locked (heldAssignment hash activeNodes quarantinedNodes)
  match returned with
  | some result => pure result
  | none => sampleQuarantinedNodeForHash config hash activeNodes

def getQueryPlanNodesForHash (hash : Int64) : Call (Except Error (List Url)) := do
  let active ← read LiveNodes.getActiveNodes
  let activeNodes := sortAndDedupeNodes active
  let quarantined ← stickyQuarantinedNodeForHash config hash activeNodes
  pure (quarantined.map fun quarantined =>
    appendUniqueNodes (if quarantined.empty then [] else [quarantined]) activeNodes)

def nextKnownNode : Call Url := do
  let nodes ← locked fun nodes => (nodes.getNodes, nodes)
  takeCandidate nodes

def nodesOfResponse (endpoint : Url) : Except Bytes HttpResponse → Except Error (List Url)
  | .error what => .error (.runtimeError what)
  | .ok response =>
    if response.statusCode ≠ 200 then
      .error (.httpStatusError (bytes "non-200 response from " ++ endpoint.toString)
        response.statusCode)
    else
      match parseJsonStringArray response.body with
      | .error error => .error (.invalidHttpResponseError error.what)
      | .ok hosts => .ok (toUrls hosts config)

def getNodesFromEndpoint (endpoint : Url) : Call (Except Error (List Url)) := do
  let response ← get endpoint
  pure (nodesOfResponse config endpoint response)

/-- The loop of `GetNodesForScope`, for `fuel` calls of `Next`. -/
def visitPlan (scope : RoutingScopePtr) :
    Nat → QueryPlan → List Url → Option Error → Call (Except Error (List Url))
  | 0, _, discovered, lastError => pure (Session.concludeScope discovered lastError)
  | fuel + 1, plan, discovered, lastError =>
    match plan.next with
    | .error error => pure (.error error)
    | .ok (node, plan) =>
      if node.empty then pure (Session.concludeScope discovered lastError)
      else do
        let answered ← getNodesFromEndpoint config (Session.localNodesEndpoint scope node)
        match answered with
        | .ok nodes =>
          if nodes.isEmpty then visitPlan scope fuel plan discovered lastError
          else if !scope.isCluster then pure (.ok nodes)
          else visitPlan scope fuel plan (discovered ++ nodes) lastError
        | .error error => do
          reportNodeResult config node (Session.discoveryObservation error)
          visitPlan scope fuel plan discovered (some error)

/-- The nodes to ask for a scope. `initial_nodes_` is never written after
construction, so reading it takes no lock. -/
def getDiscoveryNodesForScope (scope : RoutingScopePtr) : Call (List Url) :=
  if scope.isCluster then read LiveNodes.initialNodes else getQueryPlanNodes config

def getNodesForScope (scope : RoutingScopePtr) : Call (Except Error (List Url)) := do
  let nodes ← getDiscoveryNodesForScope config scope
  let seed ← takeSeed
  visitPlan config scope (nodes.length + 1) (QueryPlan.ofClock nodes seed) [] none

def fetchFrom : List RoutingScopePtr → Call (Except Error (List Url))
  | [] => pure (.ok [])
  | scope :: rest => do
    let fetched ← getNodesForScope config scope
    match fetched with
    | .error error => pure (.error error)
    | .ok nodes => if !nodes.isEmpty then pure (.ok nodes) else fetchFrom rest

def fetchLiveNodes : Call (Except Error (List Url)) := fetchFrom config config.routingScope.chain

def addNodes : List Url → Call Unit
  | [] => pure ()
  | node :: rest => do
    atomically fun nodes => ((), { nodes with healthStore := nodes.healthStore.addNode node })
    addNodes rest

def removeNodes : List Url → Call Unit
  | [] => pure ()
  | node :: rest => do
    atomically fun nodes => ((), { nodes with healthStore := nodes.healthStore.removeNode node })
    removeNodes rest

/-- The locked section of `UpdateLiveNodes`; it returns the removed nodes. -/
def replaceLiveNodes (newNodes : List Url) : Call (List Url) := do
  lock
  addNodes newNodes
  let removedNodes ← read fun nodes => nodes.liveNodes.filter fun node => decide (node ∉ newNodes)
  removeNodes removedNodes
  atomically fun nodes => ((), { nodes with liveNodes := sortAndDedupeNodes newNodes })
  unlock
  pure removedNodes

def removeAssignments : List Url → Call Unit
  | [] => pure ()
  | node :: rest => do
    removeQuarantineHashAssignmentsForNode node
    removeAssignments rest

def updateLiveNodes : Call (Except Error Unit) := do
  let fetched ← fetchLiveNodes config
  match fetched with
  | .error error => pure (.error error)
  | .ok newNodes =>
    if newNodes.isEmpty then do
      let _ ← probeDownNodes
      pure (.ok ())
    else do
      let removedNodes ← replaceLiveNodes newNodes
      removeAssignments removedNodes
      let _ ← probeDownNodes
      pure (.ok ())

/-- The loop of `CheckIfRackAndDatacenterSetCorrectly`. -/
def checkScopes : List RoutingScopePtr → List Bytes → Call (Except Error Unit)
  | [], misses =>
    pure (if misses.isEmpty then .ok ()
      else .error (.runtimeError (misses.foldl (fun message miss => message ++ bytes " " ++ miss)
        (bytes "routing scope has no nodes:"))))
  | scope :: rest, misses =>
    if scope.isCluster then pure (.ok ())
    else do
      let fetched ← getNodesForScope config scope
      match fetched with
      | .error error => pure (.error error)
      | .ok nodes =>
        if !nodes.isEmpty then pure (.ok ())
        else checkScopes rest (misses ++ [scope.toString])

def checkIfRackAndDatacenterSetCorrectly : Call (Except Error Unit) :=
  checkScopes config config.routingScope.chain []

def checkIfRackDatacenterFeatureIsSupported : Call (Except Error Bool) := do
  let node ← nextKnownNode
  if node.empty then pure (.error (.runtimeError (bytes "no known nodes are available")))
  else
    let fake ← getNodesFromEndpoint config
      (node.withPathAndQuery (bytes "/localnodes") (bytes "rack=fakeRack"))
    match fake with
    | .error error => pure (.error error)
    | .ok hostsWithFakeRack => do
      let plain ← getNodesFromEndpoint config (node.withPathAndQuery (bytes "/localnodes"))
      match plain with
      | .error error => pure (.error error)
      | .ok hostsWithoutRack =>
        if hostsWithoutRack.isEmpty then
          pure (.error (.runtimeError (bytes "host returned empty /localnodes list")))
        else pure (.ok (decide (hostsWithFakeRack.length ≠ hostsWithoutRack.length)))

end Call

def Operation.call (config : Config) : Operation → Call Reply
  | .updateLiveNodes => Reply.ofExcept (fun _ => .unit) <$> Call.updateLiveNodes config
  | .reportNodeResult node observation =>
    (fun _ => Reply.unit) <$> Call.reportNodeResult config node observation
  | .probeDownNodes => Reply.urls <$> Call.probeDownNodes
  | .nextNode => Reply.url <$> Call.nextNode config
  | .getQueryPlanNodes => Reply.urls <$> Call.getQueryPlanNodes config
  | .getQueryPlanNodesForHash hash =>
    Reply.ofExcept Reply.urls <$> Call.getQueryPlanNodesForHash config hash
  | .checkIfRackAndDatacenterSetCorrectly =>
    Reply.ofExcept (fun _ => .unit) <$> Call.checkIfRackAndDatacenterSetCorrectly config
  | .checkIfRackDatacenterFeatureIsSupported =>
    Reply.ofExcept Reply.answer <$> Call.checkIfRackDatacenterFeatureIsSupported config

end AlternatorClient
