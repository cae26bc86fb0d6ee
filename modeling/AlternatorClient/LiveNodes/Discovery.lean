import AlternatorClient.LiveNodes
import AlternatorClient.LocalNodes

/-! Discovery and probing, and the operations that `AlternatorLiveNodes` offers.
What the code asks of the outside is answered by a session: the `n`-th request,
the `n`-th reading of the clock and the `n`-th seed a plan takes from it. -/
namespace AlternatorClient
open Foundation

structure HttpResponse where
  statusCode : Int := 0
  body : Bytes := []
  deriving DecidableEq, Repr

/-- The http client: what it answers to the next requests, or the text of what
it throws. -/
structure Wire where
  answer : Nat → Url → Except Bytes HttpResponse

def Wire.get (wire : Wire) (url : Url) : Except Bytes HttpResponse × Wire :=
  (wire.answer 0 url, ⟨fun n => wire.answer (n + 1)⟩)

structure Answer where
  endpoint : Url
  result : Except Error (List Url)

/-- The state with its surroundings. `answers` and `trace` are not read by the
code; they keep what discovery was told and every state that was passed. -/
structure Session where
  nodes : LiveNodes
  wire : Wire
  clock : Nat → Int
  seeds : Nat → Int64
  answers : List Answer := []
  trace : List LiveNodes := []

namespace Session

def still (nodes : LiveNodes) (wire : Wire) : Session :=
  { nodes := nodes, wire := wire, clock := fun _ => 0, seeds := fun _ => 0 }

/-- One step of the state itself, which the trace records; reading the clock, asking
a node and drawing a seed are no such steps. -/
def act {α : Type} (s : Session) (f : LiveNodes → α × LiveNodes) : α × Session :=
  let (result, nodes) := f s.nodes
  (result, { s with nodes := nodes, trace := s.trace ++ [nodes] })

def markActivity (config : Config) (s : Session) : Session :=
  let s' := { s with clock := fun n => s.clock (n + 1) }
  (s'.act fun nodes => ((), (nodes.markActivity config (s.clock 0)).1)).2

def reportNodeResult (config : Config) (node : Url) (observation : NodeHealthObservation)
    (s : Session) : Session :=
  ((s.markActivity config).act fun nodes => ((), nodes.observe node observation)).2

/-- The probe that `ProbeDownNodes` hands to the health store. -/
def probe (node : Url) (_ : NodeHealthStatus) (wire : Wire) : NodeHealthObservation × Wire :=
  match wire.get (node.withPathAndQuery (bytes "/localnodes")) with
  | (.ok response, wire) => (if response.statusCode ≥ 500 then .serverError else .success, wire)
  | (.error _, wire) => (.connectionFailure, wire)

/-- One report of the health store to itself, with no care for assignments. -/
def probed (nodes : LiveNodes) (report : Url × NodeHealthObservation) : LiveNodes :=
  { nodes with healthStore := nodes.healthStore.reportNodeResult report.1 report.2 }

def probedStates : LiveNodes → List (Url × NodeHealthObservation) → List LiveNodes
  | _, [] => []
  | nodes, report :: rest => probed nodes report :: probedStates (probed nodes report) rest

def probeDownNodes (s : Session) : List Url × Session :=
  let (reported, store, wire) := s.nodes.healthStore.probeDownNodes probe s.wire
  (NodeHealthStore.responsive reported,
    { s with
      nodes := { s.nodes with healthStore := store }
      wire := wire
      trace := s.trace ++ probedStates s.nodes reported })

/-- The end of `NextNode`, over the candidates it settled on. -/
def takeCandidate (candidates : List Url) (s : Session) : Url × Session :=
  if candidates.isEmpty then ({}, s)
  else
    s.act fun nodes =>
      (candidates.getD (nodes.nextNodeIndex.toNat % candidates.length) {},
        { nodes with nextNodeIndex := nodes.nextNodeIndex + 1 })

def nextNode (config : Config) (s : Session) : Url × Session :=
  let s := s.markActivity config
  let s := if s.nodes.getActiveNodes.isEmpty then s.probeDownNodes.2 else s
  let candidates := s.nodes.getActiveNodes
  let (try_, s) := s.act (LiveNodes.shouldTryQuarantinedNode config candidates.isEmpty)
  if try_ then
    let (quarantined, s) := s.act LiveNodes.nextQuarantinedNode
    if !quarantined.empty then (quarantined, s) else s.takeCandidate candidates
  else s.takeCandidate candidates

def getNodesFromEndpoint (config : Config) (endpoint : Url) (s : Session) :
    Except Error (List Url) × Session :=
  let (response, wire) := s.wire.get endpoint
  let result : Except Error (List Url) :=
    match response with
    | .error what => .error (.runtimeError what)
    | .ok response =>
      if response.statusCode ≠ 200 then
        .error (.httpStatusError (bytes "non-200 response from " ++ endpoint.toString)
          response.statusCode)
      else
        match parseJsonStringArray response.body with
        | .error error => .error (.invalidHttpResponseError error.what)
        | .ok hosts => .ok (toUrls hosts config)
  (result, { s with wire := wire, answers := s.answers ++ [⟨endpoint, result⟩] })

/-- A request leaves the nodes as they are and is logged. -/
theorem getNodesFromEndpoint_frame {config : Config} {endpoint : Url} {s t : Session}
    {result : Except Error (List Url)}
    (answered : s.getNodesFromEndpoint config endpoint = (result, t)) :
    t.nodes = s.nodes ∧ t.trace = s.trace ∧ t.answers = s.answers ++ [⟨endpoint, result⟩] := by
  have frame : (s.getNodesFromEndpoint config endpoint).2.nodes = s.nodes ∧
      (s.getNodesFromEndpoint config endpoint).2.trace = s.trace ∧
      (s.getNodesFromEndpoint config endpoint).2.answers =
        s.answers ++ [⟨endpoint, (s.getNodesFromEndpoint config endpoint).1⟩] := ⟨rfl, rfl, rfl⟩
  rwa [answered] at frame

/-- What the handlers of `GetNodesForScope` report about the node they asked. -/
def discoveryObservation : Error → NodeHealthObservation
  | .httpStatusError _ statusCode => if statusCode ≥ 500 then .serverError else .success
  | .invalidHttpResponseError _ => .success
  | _ => .connectionFailure

def concludeScope (discovered : List Url) (lastError : Option Error) : Except Error (List Url) :=
  if !discovered.isEmpty then .ok (sortAndDedupeNodes discovered)
  else
    match lastError with
    | some error => .error error
    | none => .ok []

def localNodesEndpoint (scope : RoutingScopePtr) (node : Url) : Url :=
  node.withPathAndQuery (bytes "/localnodes") scope.localNodesQuery

/-- The loop of `GetNodesForScope`, for `fuel` calls of `Next`. -/
def visitPlan (config : Config) (scope : RoutingScopePtr) :
    Nat → QueryPlan → List Url → Option Error → Session → Except Error (List Url) × Session
  | 0, _, discovered, lastError, s => (concludeScope discovered lastError, s)
  | fuel + 1, plan, discovered, lastError, s =>
    match plan.next with
    | .error error => (.error error, s)
    | .ok (node, plan) =>
      if node.empty then (concludeScope discovered lastError, s)
      else
        match s.getNodesFromEndpoint config (localNodesEndpoint scope node) with
        | (.ok nodes, s) =>
          if nodes.isEmpty then visitPlan config scope fuel plan discovered lastError s
          else if !scope.isCluster then (.ok nodes, s)
          else visitPlan config scope fuel plan (discovered ++ nodes) lastError s
        | (.error error, s) =>
          visitPlan config scope fuel plan discovered (some error)
            (s.reportNodeResult config node (discoveryObservation error))

/-- What one turn of that loop can do, with the turns after it. -/
inductive Turn (config : Config) (scope : RoutingScopePtr) (fuel : Nat) (plan : QueryPlan)
    (discovered : List Url) (lastError : Option Error) (s : Session) :
    Except Error (List Url) × Session → Prop
  | concluded (done : (∀ node ∈ plan.nodes, node.empty = false) → plan.nodes = []) :
      Turn config scope fuel plan discovered lastError s (concludeScope discovered lastError, s)
  | oversized (large : 2 ^ 31 ≤ plan.nodes.length) (error : Error) :
      Turn config scope fuel plan discovered lastError s (.error error, s)
  | nothing (node : Url) (after : QueryPlan) (perm : (node :: after.nodes).Perm plan.nodes)
      (t : Session)
      (answered : s.getNodesFromEndpoint config (localNodesEndpoint scope node) = (.ok [], t)) :
      Turn config scope fuel plan discovered lastError s
        (visitPlan config scope fuel after discovered lastError t)
  | list (node : Url) (after : QueryPlan) (perm : (node :: after.nodes).Perm plan.nodes)
      (t : Session) (nodes : List Url) (some : nodes ≠ []) (plain : scope.isCluster = false)
      (answered : s.getNodesFromEndpoint config (localNodesEndpoint scope node) = (.ok nodes, t)) :
      Turn config scope fuel plan discovered lastError s (.ok nodes, t)
  | merged (node : Url) (after : QueryPlan) (perm : (node :: after.nodes).Perm plan.nodes)
      (t : Session) (nodes : List Url) (cluster : scope.isCluster = true)
      (answered : s.getNodesFromEndpoint config (localNodesEndpoint scope node) = (.ok nodes, t)) :
      Turn config scope fuel plan discovered lastError s
        (visitPlan config scope fuel after (discovered ++ nodes) lastError t)
  | failed (node : Url) (after : QueryPlan) (perm : (node :: after.nodes).Perm plan.nodes)
      (t : Session) (error : Error)
      (answered :
        s.getNodesFromEndpoint config (localNodesEndpoint scope node) = (.error error, t)) :
      Turn config scope fuel plan discovered lastError s
        (visitPlan config scope fuel after discovered (some error)
          (t.reportNodeResult config node (discoveryObservation error)))

theorem turn_visitPlan (config : Config) (scope : RoutingScopePtr) (fuel : Nat) (plan : QueryPlan)
    (discovered : List Url) (lastError : Option Error) (s : Session) :
    Turn config scope fuel plan discovered lastError s
      (visitPlan config scope (fuel + 1) plan discovered lastError s) := by
  rw [visitPlan]
  rcases plan.next_cases with ⟨none, after, returned, _⟩ | ⟨_, node, after, returned, perm⟩ |
    ⟨large, error, returned⟩
  · simp only [returned, Url.empty_default, if_true]
    exact .concluded fun _ => none
  · simp only [returned]
    split
    · rename_i empty
      apply Turn.concluded
      intro present
      exact absurd (present node (perm.subset List.mem_cons_self)) (by simp [empty])
    · split
      · rename_i nodes t answered
        split
        · rename_i none
          rw [List.isEmpty_iff.mp none] at answered
          exact .nothing node after perm t answered
        · rename_i some
          split
          · rename_i plain
            exact .list node after perm t nodes (by simpa using some) (by simpa using plain)
              answered
          · rename_i cluster
            exact .merged node after perm t nodes (by simpa using cluster) answered
      · rename_i error t answered
        exact .failed node after perm t error answered
  · simp only [returned]
    exact .oversized large error

def getDiscoveryNodesForScope (config : Config) (scope : RoutingScopePtr) (s : Session) :
    List Url × Session :=
  if scope.isCluster then (s.nodes.initialNodes, s) else s.act (LiveNodes.getQueryPlanNodes config)

def takeSeed (s : Session) : Int64 × Session :=
  (s.seeds 0, { s with seeds := fun n => s.seeds (n + 1) })

/-- A plan of `n` nodes is exhausted after `n + 1` calls. -/
def getNodesForScope (config : Config) (scope : RoutingScopePtr) (s : Session) :
    Except Error (List Url) × Session :=
  let (nodes, s) := s.getDiscoveryNodesForScope config scope
  let (seed, s) := s.takeSeed
  visitPlan config scope (nodes.length + 1) (QueryPlan.ofClock nodes seed) [] none s

/-- The loop of `FetchLiveNodes` over a chain of scopes. -/
def fetchFrom (config : Config) : List RoutingScopePtr → Session → Except Error (List Url) × Session
  | [], s => (.ok [], s)
  | scope :: rest, s =>
    match s.getNodesForScope config scope with
    | (.error error, s) => (.error error, s)
    | (.ok nodes, s) => if !nodes.isEmpty then (.ok nodes, s) else fetchFrom config rest s

def fetchLiveNodes (config : Config) (s : Session) : Except Error (List Url) × Session :=
  fetchFrom config config.routingScope.chain s

def updateLiveNodes (config : Config) (s : Session) : Except Error Unit × Session :=
  match s.fetchLiveNodes config with
  | (.error error, s) => (.error error, s)
  | (.ok newNodes, s) =>
    if newNodes.isEmpty then (.ok (), s.probeDownNodes.2)
    else
      let s := (s.act fun nodes => ((), nodes.commit newNodes)).2
      (.ok (), s.probeDownNodes.2)

/-- The loop of `CheckIfRackAndDatacenterSetCorrectly`, with the misses so far. -/
def checkScopes (config : Config) :
    List RoutingScopePtr → List Bytes → Session → Except Error Unit × Session
  | [], misses, s =>
    (if misses.isEmpty then .ok ()
      else .error (.runtimeError (misses.foldl (fun message miss => message ++ bytes " " ++ miss)
        (bytes "routing scope has no nodes:"))), s)
  | scope :: rest, misses, s =>
    if scope.isCluster then (.ok (), s)
    else
      match s.getNodesForScope config scope with
      | (.error error, s) => (.error error, s)
      | (.ok nodes, s) =>
        if !nodes.isEmpty then (.ok (), s)
        else checkScopes config rest (misses ++ [scope.toString]) s

def checkIfRackAndDatacenterSetCorrectly (config : Config) (s : Session) :
    Except Error Unit × Session :=
  checkScopes config config.routingScope.chain [] s

def checkIfRackDatacenterFeatureIsSupported (config : Config) (s : Session) :
    Except Error Bool × Session :=
  let (node, s) := s.act LiveNodes.nextKnownNode
  if node.empty then (.error (.runtimeError (bytes "no known nodes are available")), s)
  else
    match s.getNodesFromEndpoint config
        (node.withPathAndQuery (bytes "/localnodes") (bytes "rack=fakeRack")) with
    | (.error error, s) => (.error error, s)
    | (.ok hostsWithFakeRack, s) =>
      match s.getNodesFromEndpoint config (node.withPathAndQuery (bytes "/localnodes")) with
      | (.error error, s) => (.error error, s)
      | (.ok hostsWithoutRack, s) =>
        if hostsWithoutRack.isEmpty then
          (.error (.runtimeError (bytes "host returned empty /localnodes list")), s)
        else (.ok (decide (hostsWithFakeRack.length ≠ hostsWithoutRack.length)), s)

end Session

/-- The public operations that change the state. Those that only read it are
functions of the state and need no step of their own. -/
inductive Operation where
  | updateLiveNodes
  | reportNodeResult (node : Url) (observation : NodeHealthObservation)
  | probeDownNodes
  | nextNode
  | getQueryPlanNodes
  | getQueryPlanNodesForHash (hash : Int64)
  | checkIfRackAndDatacenterSetCorrectly
  | checkIfRackDatacenterFeatureIsSupported
  deriving DecidableEq

namespace Session

/-- What an operation leaves behind, also when it throws. -/
def perform (config : Config) (s : Session) : Operation → Session
  | .updateLiveNodes => (s.updateLiveNodes config).2
  | .reportNodeResult node observation => s.reportNodeResult config node observation
  | .probeDownNodes => s.probeDownNodes.2
  | .nextNode => (s.nextNode config).2
  | .getQueryPlanNodes => (s.act (LiveNodes.getQueryPlanNodes config)).2
  | .getQueryPlanNodesForHash hash => (s.act (LiveNodes.getQueryPlanNodesForHash config hash)).2
  | .checkIfRackAndDatacenterSetCorrectly => (s.checkIfRackAndDatacenterSetCorrectly config).2
  | .checkIfRackDatacenterFeatureIsSupported => (s.checkIfRackDatacenterFeatureIsSupported config).2

def run (config : Config) (s : Session) : List Operation → Session
  | [] => s
  | operation :: rest => (s.perform config operation).run config rest

theorem run_append (config : Config) (s : Session) (first second : List Operation) :
    s.run config (first ++ second) = (s.run config first).run config second := by
  induction first generalizing s with
  | nil => rfl
  | cons operation rest ih => exact ih (s.perform config operation)

/-- What discovery was told during an operation: one answer for every node it asked,
in the order in which it asked them. -/
def received (config : Config) (s : Session) (operation : Operation) : List Answer :=
  (s.perform config operation).answers.drop s.answers.length

/-- Every step of a run meets a condition on the operation and the session it starts from. -/
def Meets (condition : Session → Operation → Prop) (config : Config) (s : Session) :
    List Operation → Prop
  | [] => True
  | operation :: rest =>
    condition s operation ∧ Meets condition config (s.perform config operation) rest

theorem run_invariant {condition : Session → Operation → Prop} {P : Session → Prop}
    {config : Config}
    (kept : ∀ s operation, condition s operation → P s → P (s.perform config operation))
    {s : Session} {operations : List Operation} (met : s.Meets condition config operations)
    (start : P s) :
    P (s.run config operations) := by
  induction operations generalizing s with
  | nil => exact start
  | cons operation rest ih => exact ih met.2 (kept s operation met.1 start)

theorem run_always {P : Session → Prop} {config : Config}
    (kept : ∀ s operation, P s → P (s.perform config operation)) {s : Session}
    (operations : List Operation) (start : P s) : P (s.run config operations) := by
  induction operations generalizing s with
  | nil => exact start
  | cons operation rest ih => exact ih (kept s operation start)

end Session

/-- The session of a single node that answers every request alike. -/
def Session.alone (host body : Bytes) : Session :=
  .still
    { initialNodes := [({} : Config).nodeUrl host], liveNodes := [({} : Config).nodeUrl host]
      healthStore := NodeHealthStore.new {} [({} : Config).nodeUrl host]
      nextUpdate := milliseconds 60000, lastActivity := timePointMin }
    ⟨fun _ _ => .ok ⟨200, body⟩⟩

def Session.couple : Session :=
  .still
    { initialNodes := [({} : Config).nodeUrl (bytes "a"), ({} : Config).nodeUrl (bytes "b")]
      liveNodes := [({} : Config).nodeUrl (bytes "a"), ({} : Config).nodeUrl (bytes "b")]
      healthStore := NodeHealthStore.new {}
        [({} : Config).nodeUrl (bytes "a"), ({} : Config).nodeUrl (bytes "b")]
      nextUpdate := milliseconds 60000, lastActivity := timePointMin }
    ⟨fun _ _ => .ok ⟨200, []⟩⟩

/-- The only node refuses a connection and answers a probe. -/
def quarantining (u : Url) : List Operation :=
  [.reportNodeResult u .connectionFailure, .probeDownNodes]

end AlternatorClient
