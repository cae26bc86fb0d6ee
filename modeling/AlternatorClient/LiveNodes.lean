import AlternatorClient.Config
import AlternatorClient.KeyRouteAffinity

/-! The state of `AlternatorLiveNodes` and the part of its logic that neither
asks a node nor reads the clock. The three counters are `uint64_t` and wrap. -/
namespace AlternatorClient
open Foundation

structure LiveNodes where
  initialNodes : List Url
  liveNodes : List Url
  quarantineByHash : OrderedMap Int64.toInt Url := OrderedMap.empty
  healthStore : NodeHealthStore
  nextNodeIndex : UInt64 := 0
  quarantinePlanIndex : UInt64 := 0
  quarantineNodeIndex : UInt64 := 0
  nextUpdate : Int
  lastActivity : Int

/-- A count of `std::chrono`, which has 64 bits. Where it overflows the source is
undefined; the model wraps around, and what is said of times asks that they do not. -/
def count64 (n : Int) : Int := n.bmod 18446744073709551616

/-- A period as `std::chrono::steady_clock` counts it, in nanoseconds. From about
292 years on the 64-bit count overflows, which the source does not check. -/
def milliseconds (n : Int) : Int := count64 (n * 1000000)

/-- `time_point + milliseconds`. -/
def addPeriod (now period : Int) : Int := count64 (now + milliseconds period)

def timePointMin : Int := -2 ^ 63
def timePointMax : Int := 2 ^ 63 - 1

/-- The period, and the time it leads to from `now`, are within the range of time points. -/
structure InReach (now period : Int) : Prop where
  start : timePointMin ≤ now
  representable : period * 1000000 ≤ timePointMax
  sum : now + period * 1000000 ≤ timePointMax

theorem count64_eq {n : Int} (least : timePointMin ≤ n) (most : n ≤ timePointMax) :
    count64 n = n := by
  simp only [timePointMin, timePointMax] at least most
  exact Int.bmod_eq_of_le (by omega) (by omega)

theorem addPeriod_eq {now period : Int} (positive : 0 < period) (reach : InReach now period) :
    addPeriod now period = now + period * 1000000 := by
  obtain ⟨start, representable, sum⟩ := reach
  have lowest : timePointMin ≤ 0 := by decide
  have exact : milliseconds period = period * 1000000 := count64_eq (by omega) representable
  rw [addPeriod, exact, count64_eq (by omega) sum]

/-- `AppendUniqueNodes`. -/
def appendUniqueNodes (out nodes : List Url) : List Url :=
  appendFresh (fun node => !node.empty) out nodes

def quarantinedNodeIsFirstForHash (node : Url) (activeNodes : List Url) (hash : Int64) :
    Except Error Bool :=
  (firstNodeWithSeed (activeNodes ++ [node]) hash).map fun first => decide (first = node)

theorem getD_mod_mem {nodes : List Url} (some : nodes ≠ []) (i : Nat) :
    nodes.getD (i % nodes.length) {} ∈ nodes := by
  have inside : i % nodes.length < nodes.length := Nat.mod_lt _ (List.length_pos_iff.mpr some)
  rw [List.getD_eq_getElem?_getD, List.getElem?_eq_getElem inside, Option.getD_some]
  exact List.getElem_mem inside

namespace LiveNodes

/-- The constructor, with the time it reads. It rejects a configuration that
`ValidateConfig` refuses and an empty list of nodes, in this order. -/
def new (initialNodes : List Bytes) (config : Config) (now : Int) : Except Error LiveNodes :=
  match validateConfig config with
  | .error error => .error error
  | .ok _ =>
    if initialNodes.isEmpty then .error (.invalidArgument (bytes "initial_nodes cannot be empty"))
    else
      let nodes := sortAndDedupeNodes (initialNodes.map config.nodeUrl)
      .ok
        { initialNodes := nodes
          liveNodes := nodes
          healthStore := NodeHealthStore.new config.nodeHealth nodes
          lastActivity := timePointMin
          nextUpdate :=
            if config.idleNodesListUpdatePeriod > 0 then
              addPeriod now config.idleNodesListUpdatePeriod
            else timePointMax }

def getNodes (s : LiveNodes) : List Url :=
  if s.liveNodes.isEmpty then s.initialNodes else s.liveNodes

def getActiveNodes (s : LiveNodes) : List Url := s.healthStore.getActiveNodes

def getQuarantinedNodes (s : LiveNodes) : List Url := s.healthStore.getQuarantinedNodes

def getDownNodes (s : LiveNodes) : List Url := s.healthStore.getDownNodes

/-- The new state and whether the background thread is notified. -/
def markActivity (config : Config) (now : Int) (s : LiveNodes) : LiveNodes × Bool :=
  let s := { s with lastActivity := now }
  if config.nodesListUpdatePeriod > 0 then
    let activeDue := addPeriod now config.nodesListUpdatePeriod
    if s.nextUpdate > activeDue then ({ s with nextUpdate := activeDue }, true)
    else (s, decide (now ≥ s.nextUpdate))
  else (s, false)

def shouldTryQuarantinedNode (config : Config) (activeNodesEmpty : Bool) (s : LiveNodes) :
    Bool × LiveNodes :=
  if s.getQuarantinedNodes.isEmpty then (false, s)
  else if activeNodesEmpty then (true, s)
  else
    let interval := config.nodeHealth.quarantineTrafficInterval
    let interval := if interval = 0 then 1 else interval
    let attempt := s.quarantinePlanIndex + 1
    (decide (attempt.toNat % interval.toNat = 0),
      { s with quarantinePlanIndex := s.quarantinePlanIndex + 1 })

def nextQuarantinedNode (s : LiveNodes) : Url × LiveNodes :=
  let nodes := s.getQuarantinedNodes
  if nodes.isEmpty then ({}, s)
  else
    (nodes.getD (s.quarantineNodeIndex.toNat % nodes.length) {},
      { s with quarantineNodeIndex := s.quarantineNodeIndex + 1 })

def getQueryPlanNodes (config : Config) (s : LiveNodes) : List Url × LiveNodes :=
  let candidates := s.getActiveNodes
  let (try_, s) := s.shouldTryQuarantinedNode config candidates.isEmpty
  if try_ then
    let (quarantined, s) := s.nextQuarantinedNode
    (sortAndDedupeNodes (if quarantined.empty then candidates else candidates ++ [quarantined]), s)
  else (sortAndDedupeNodes candidates, s)

/-- The second half of `StickyQuarantinedNodeForHash`: no assignment held, one
may be made. -/
def sampleQuarantinedNodeForHash (config : Config) (hash : Int64) (activeNodes : List Url)
    (s : LiveNodes) : Except Error Url × LiveNodes :=
  let (try_, s) := s.shouldTryQuarantinedNode config activeNodes.isEmpty
  if try_ then
    let quarantinedNodes := s.getQuarantinedNodes
    if quarantinedNodes.isEmpty then (.ok {}, s)
    else
      let node := quarantinedNodes.getD (s.quarantineNodeIndex.toNat % quarantinedNodes.length) {}
      let s := { s with quarantineNodeIndex := s.quarantineNodeIndex + 1 }
      match quarantinedNodeIsFirstForHash node activeNodes hash with
      | .error error => (.error error, s)
      | .ok false => (.ok {}, s)
      | .ok true => (.ok node, { s with quarantineByHash := s.quarantineByHash.assign hash node })
  else (.ok {}, s)

def stickyQuarantinedNodeForHash (config : Config) (hash : Int64) (activeNodes : List Url)
    (s : LiveNodes) : Except Error Url × LiveNodes :=
  match s.quarantineByHash.lookup hash.toInt with
  | none => s.sampleQuarantinedNodeForHash config hash activeNodes
  | some (_, node) =>
    if node ∈ s.getQuarantinedNodes then
      match quarantinedNodeIsFirstForHash node activeNodes hash with
      | .error error => (.error error, s)
      | .ok false => (.ok {}, { s with quarantineByHash := s.quarantineByHash.erase hash.toInt })
      | .ok true => (.ok node, s)
    else
      { s with
        quarantineByHash := s.quarantineByHash.erase hash.toInt
      }.sampleQuarantinedNodeForHash config hash activeNodes

def getQueryPlanNodesForHash (config : Config) (hash : Int64) (s : LiveNodes) :
    Except Error (List Url) × LiveNodes :=
  let activeNodes := sortAndDedupeNodes s.getActiveNodes
  match s.stickyQuarantinedNodeForHash config hash activeNodes with
  | (.error error, s) => (.error error, s)
  | (.ok quarantined, s) =>
    (.ok (appendUniqueNodes (if quarantined.empty then [] else [quarantined]) activeNodes), s)

def removeQuarantineHashAssignmentsForNode (node : Url) (s : LiveNodes) : LiveNodes :=
  { s with quarantineByHash := s.quarantineByHash.eraseIf fun entry => decide (entry.2 = node) }

def nextKnownNode (s : LiveNodes) : Url × LiveNodes :=
  let nodes := s.getNodes
  if nodes.isEmpty then ({}, s)
  else
    (nodes.getD (s.nextNodeIndex.toNat % nodes.length) {},
      { s with nextNodeIndex := s.nextNodeIndex + 1 })

/-- `ReportNodeResult` after it has marked activity. The store looks the node up by
its text, while the assignments are dropped by `operator==`. -/
def observe (node : Url) (observation : NodeHealthObservation) (s : LiveNodes) : LiveNodes :=
  let s := { s with healthStore := s.healthStore.reportNodeResult node observation }
  match s.healthStore.getNodeStatus node with
  | none => s.removeQuarantineHashAssignmentsForNode node
  | some status =>
    if status.state = .quarantined then s else s.removeQuarantineHashAssignmentsForNode node

/-- The middle of `UpdateLiveNodes`: the locked section and the loop after it. -/
def commit (newNodes : List Url) (s : LiveNodes) : LiveNodes :=
  let removedNodes := s.liveNodes.filter fun node => decide (node ∉ newNodes)
  let store := newNodes.foldl NodeHealthStore.addNode s.healthStore
  let store := removedNodes.foldl NodeHealthStore.removeNode store
  let s := { s with healthStore := store, liveNodes := sortAndDedupeNodes newNodes }
  removedNodes.foldl (fun s node => s.removeQuarantineHashAssignmentsForNode node) s

/-- What the constructor builds: every initial node is live and Active, and nothing
is assigned to any hash. -/
theorem new_ok {hosts : List Bytes} {config : Config} {now : Int} {s : LiveNodes}
    (built : new hosts config now = .ok s) :
    s.initialNodes = sortAndDedupeNodes (hosts.map config.nodeUrl) ∧ s.liveNodes = s.initialNodes ∧
      s.healthStore = NodeHealthStore.new config.nodeHealth s.initialNodes ∧
      s.quarantineByHash = OrderedMap.empty := by
  simp only [new] at built
  split at built
  · contradiction
  · split at built
    · contradiction
    · cases built
      exact ⟨rfl, rfl, rfl, rfl⟩

theorem markActivity_eq (config : Config) (now : Int) (s : LiveNodes) :
    ∃ nextUpdate, (s.markActivity config now).1 =
      { s with nextUpdate := nextUpdate, lastActivity := now } := by
  simp only [markActivity]
  split
  · split
    · exact ⟨_, rfl⟩
    · exact ⟨s.nextUpdate, rfl⟩
  · exact ⟨s.nextUpdate, rfl⟩

theorem shouldTryQuarantinedNode_eq (config : Config) (b : Bool) (s : LiveNodes) :
    ∃ index, (s.shouldTryQuarantinedNode config b).2 = { s with quarantinePlanIndex := index } := by
  simp only [shouldTryQuarantinedNode]
  split
  · exact ⟨s.quarantinePlanIndex, rfl⟩
  · split
    · exact ⟨s.quarantinePlanIndex, rfl⟩
    · exact ⟨_, rfl⟩

theorem nextQuarantinedNode_eq (s : LiveNodes) :
    ∃ index, s.nextQuarantinedNode.2 = { s with quarantineNodeIndex := index } := by
  simp only [nextQuarantinedNode]
  split
  · exact ⟨s.quarantineNodeIndex, rfl⟩
  · exact ⟨_, rfl⟩

theorem nextKnownNode_eq (s : LiveNodes) :
    ∃ index, s.nextKnownNode.2 = { s with nextNodeIndex := index } := by
  simp only [nextKnownNode]
  split
  · exact ⟨s.nextNodeIndex, rfl⟩
  · exact ⟨_, rfl⟩

theorem getQueryPlanNodes_eq (config : Config) (s : LiveNodes) :
    ∃ plan node, (s.getQueryPlanNodes config).2 =
      { s with quarantinePlanIndex := plan, quarantineNodeIndex := node } := by
  obtain ⟨plan, tried⟩ := s.shouldTryQuarantinedNode_eq config s.getActiveNodes.isEmpty
  simp only [getQueryPlanNodes]
  split
  · obtain ⟨node, taken⟩ :=
      (s.shouldTryQuarantinedNode config s.getActiveNodes.isEmpty).2.nextQuarantinedNode_eq
    exact ⟨plan, node, by rw [taken, tried]⟩
  · exact ⟨plan, s.quarantineNodeIndex, by rw [tried]⟩

theorem quarantined_of_tried {config : Config} {b : Bool} {s : LiveNodes}
    (tried : (s.shouldTryQuarantinedNode config b).1 = true) : s.getQuarantinedNodes ≠ [] := by
  intro none
  simp [shouldTryQuarantinedNode, none] at tried

/-- Without an active node a Quarantined one is always tried. -/
theorem quarantined_of_untried {config : Config} {s : LiveNodes}
    (untried : (s.shouldTryQuarantinedNode config true).1 = false) :
    s.getQuarantinedNodes = [] := by
  by_contra some
  simp [shouldTryQuarantinedNode, some] at untried

theorem nextQuarantinedNode_mem {s : LiveNodes} (some : s.getQuarantinedNodes ≠ []) :
    s.nextQuarantinedNode.1 ∈ s.getQuarantinedNodes := by
  simp only [nextQuarantinedNode, List.isEmpty_eq_false_iff.mpr some, Bool.false_eq_true, if_false]
  exact getD_mod_mem some _

theorem getQueryPlanNodes_subset (config : Config) (s : LiveNodes) :
    (s.getQueryPlanNodes config).1 ⊆ s.healthStore.nodes := by
  have active : s.getActiveNodes ⊆ s.healthStore.nodes := s.healthStore.getActiveNodes_subset
  intro u member
  simp only [getQueryPlanNodes] at member
  split at member
  · rename_i tried
    obtain ⟨plan, same⟩ := s.shouldTryQuarantinedNode_eq config s.getActiveNodes.isEmpty
    have some := quarantined_of_tried tried
    have taken : { s with quarantinePlanIndex := plan }.nextQuarantinedNode.1 ∈
        s.getQuarantinedNodes :=
      nextQuarantinedNode_mem some
    rw [same, mem_sortAndDedupeNodes] at member
    split at member
    · exact active member
    · rcases List.mem_append.mp member with member | quarantined
      · exact active member
      · rw [List.mem_singleton.mp quarantined]
        exact s.healthStore.getQuarantinedNodes_subset taken
  · exact active (mem_sortAndDedupeNodes.mp member)

/-- A plan for a hash touches the assignments and the sampling counters only. -/
theorem sampleQuarantinedNodeForHash_eq (config : Config) (hash : Int64) (active : List Url)
    (s : LiveNodes) :
    ∃ held plan node, (s.sampleQuarantinedNodeForHash config hash active).2 =
      { s with
        quarantineByHash := held, quarantinePlanIndex := plan, quarantineNodeIndex := node } := by
  obtain ⟨plan, tried⟩ := s.shouldTryQuarantinedNode_eq config active.isEmpty
  simp only [sampleQuarantinedNodeForHash, tried]
  split
  · split
    · exact ⟨s.quarantineByHash, plan, s.quarantineNodeIndex, rfl⟩
    · split
      · exact ⟨s.quarantineByHash, plan, _, rfl⟩
      · exact ⟨s.quarantineByHash, plan, _, rfl⟩
      · exact ⟨_, plan, _, rfl⟩
  · exact ⟨s.quarantineByHash, plan, s.quarantineNodeIndex, rfl⟩

theorem getQueryPlanNodesForHash_state (config : Config) (hash : Int64) (s : LiveNodes) :
    (s.getQueryPlanNodesForHash config hash).2 =
      (s.stickyQuarantinedNodeForHash config hash (sortAndDedupeNodes s.getActiveNodes)).2 := by
  simp only [getQueryPlanNodesForHash]
  split
  · rename_i error t returned
    rw [returned]
  · rename_i quarantined t returned
    rw [returned]

theorem getQueryPlanNodesForHash_eq (config : Config) (hash : Int64) (s : LiveNodes) :
    ∃ held plan node, (s.getQueryPlanNodesForHash config hash).2 =
      { s with
        quarantineByHash := held, quarantinePlanIndex := plan, quarantineNodeIndex := node } := by
  rw [getQueryPlanNodesForHash_state]
  simp only [stickyQuarantinedNodeForHash]
  split
  · exact s.sampleQuarantinedNodeForHash_eq config hash _
  · split
    · split
      · exact ⟨s.quarantineByHash, s.quarantinePlanIndex, s.quarantineNodeIndex, rfl⟩
      · exact ⟨_, s.quarantinePlanIndex, s.quarantineNodeIndex, rfl⟩
      · exact ⟨s.quarantineByHash, s.quarantinePlanIndex, s.quarantineNodeIndex, rfl⟩
    · exact sampleQuarantinedNodeForHash_eq config hash _ _

/-- A report touches the store and the assignments of its node. -/
theorem observe_eq (node : Url) (o : NodeHealthObservation) (s : LiveNodes) :
    ∃ held, s.observe node o =
      { s with
        quarantineByHash := held, healthStore := s.healthStore.reportNodeResult node o } := by
  simp only [observe]
  split
  · exact ⟨_, rfl⟩
  · split
    · exact ⟨s.quarantineByHash, rfl⟩
    · exact ⟨_, rfl⟩

@[simp] theorem observe_healthStore (node : Url) (o : NodeHealthObservation) (s : LiveNodes) :
    (s.observe node o).healthStore = s.healthStore.reportNodeResult node o := by
  obtain ⟨held, observed⟩ := s.observe_eq node o
  rw [observed]

@[simp] theorem observe_initialNodes (node : Url) (o : NodeHealthObservation) (s : LiveNodes) :
    (s.observe node o).initialNodes = s.initialNodes := by
  obtain ⟨held, observed⟩ := s.observe_eq node o
  rw [observed]

@[simp] theorem observe_liveNodes (node : Url) (o : NodeHealthObservation) (s : LiveNodes) :
    (s.observe node o).liveNodes = s.liveNodes := by
  obtain ⟨held, observed⟩ := s.observe_eq node o
  rw [observed]

theorem foldl_removeAssignments (removed : List Url) (s : LiveNodes) :
    ∃ held, removed.foldl (fun s node => s.removeQuarantineHashAssignmentsForNode node) s =
      { s with quarantineByHash := held } := by
  induction removed generalizing s with
  | nil => exact ⟨s.quarantineByHash, rfl⟩
  | cons node rest ih =>
    obtain ⟨held, same⟩ := ih (s.removeQuarantineHashAssignmentsForNode node)
    exact ⟨held, same⟩

theorem commit_eq (nodes : List Url) (s : LiveNodes) :
    ∃ held, s.commit nodes =
      { s with
        quarantineByHash := held
        liveNodes := sortAndDedupeNodes nodes
        healthStore := (s.liveNodes.filter fun node => decide (node ∉ nodes)).foldl
          NodeHealthStore.removeNode
          (nodes.foldl NodeHealthStore.addNode s.healthStore) } :=
  foldl_removeAssignments _ _

def source (config : Config) : NodesSource LiveNodes where
  getActiveNodes := getActiveNodes
  getQueryPlanNodes s := let (nodes, s) := s.getQueryPlanNodes config; (.ok nodes, s)
  getQueryPlanNodesForHash := getQueryPlanNodesForHash config

end LiveNodes
end AlternatorClient
