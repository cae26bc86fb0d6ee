import AlternatorClient.Uri
import AlternatorClient.Foundation.OrderedMap
import Mathlib.Tactic.Convert

/-! `NodeHealthStore`: one status per node, keyed by `operator<` and so by the
text of the node. The time of the last update is left out; nothing reads it. -/
namespace AlternatorClient
open Foundation

inductive NodeHealthObservation where
  | success
  | serverError
  | connectionFailure
  deriving DecidableEq, Repr

inductive NodeHealthState where
  | active
  | quarantined
  | down
  deriving DecidableEq, Repr

structure NodeHealthStoreConfig where
  consecutiveServerErrorThreshold : UInt32 := 3
  quarantineSuccessThreshold : UInt32 := 3
  downNodeProbePeriod : Int := 30000
  quarantineTrafficInterval : UInt32 := 10
  disabled : Bool := false
  deriving DecidableEq, Repr

structure NodeHealthStatus where
  state : NodeHealthState := .active
  consecutiveServerErrors : UInt32 := 0
  consecutiveSuccesses : UInt32 := 0
  deriving DecidableEq, Repr

structure NodeHealthStore where
  config : NodeHealthStoreConfig
  statuses : OrderedMap Url.toString NodeHealthStatus

def NodeHealthStoreConfig.normalized (config : NodeHealthStoreConfig) : NodeHealthStoreConfig :=
  { config with
    consecutiveServerErrorThreshold :=
      if config.consecutiveServerErrorThreshold = 0 then 1
      else config.consecutiveServerErrorThreshold
    quarantineSuccessThreshold :=
      if config.quarantineSuccessThreshold = 0 then 1 else config.quarantineSuccessThreshold
    quarantineTrafficInterval :=
      if config.quarantineTrafficInterval = 0 then 1 else config.quarantineTrafficInterval }

/-- The switch of `ReportNodeResult`, on the status the iterator points to. The
counters are `uint32_t` and wrap. -/
def NodeHealthStatus.observe (config : NodeHealthStoreConfig) (status : NodeHealthStatus) :
    NodeHealthObservation → NodeHealthStatus
  | .success =>
    match status.state with
    | .down => { state := .quarantined, consecutiveServerErrors := 0, consecutiveSuccesses := 1 }
    | .quarantined =>
      if config.quarantineSuccessThreshold ≤ status.consecutiveSuccesses + 1 then
        { state := .active
          consecutiveServerErrors := 0
          consecutiveSuccesses := config.quarantineSuccessThreshold }
      else
        { state := .quarantined
          consecutiveServerErrors := 0
          consecutiveSuccesses := status.consecutiveSuccesses + 1 }
    | .active =>
      { state := .active
        consecutiveServerErrors := 0
        consecutiveSuccesses := config.quarantineSuccessThreshold }
  | .serverError =>
    { state :=
        if config.consecutiveServerErrorThreshold ≤ status.consecutiveServerErrors + 1 then .down
        else status.state
      consecutiveServerErrors := status.consecutiveServerErrors + 1
      consecutiveSuccesses := 0 }
  | .connectionFailure =>
    { state := .down
      consecutiveServerErrors := config.consecutiveServerErrorThreshold
      consecutiveSuccesses := 0 }

namespace NodeHealthStore

def getNodeStatus (store : NodeHealthStore) (node : Url) : Option NodeHealthStatus :=
  (store.statuses.lookup node.toString).map Prod.snd

def freshStatus (config : NodeHealthStoreConfig) : NodeHealthStatus :=
  { state := .active
    consecutiveServerErrors := 0
    consecutiveSuccesses := config.quarantineSuccessThreshold }

/-- `find`, then `emplace`: a node whose text is known keeps its status. -/
def addNode (store : NodeHealthStore) (node : Url) : NodeHealthStore :=
  { store with statuses := store.statuses.upsert node fun status =>
    status.getD (freshStatus store.config) }

def removeNode (store : NodeHealthStore) (node : Url) : NodeHealthStore :=
  { store with statuses := store.statuses.erase node.toString }

def reportNodeResult (store : NodeHealthStore) (node : Url) (observation : NodeHealthObservation) :
    NodeHealthStore :=
  if store.config.disabled then store
  else
    { store with
      statuses := store.statuses.modify node.toString fun status =>
        status.observe store.config observation }

/-- The constructor. It raises a threshold or an interval of zero to one, and keeps
each node as Active under its text. -/
def new (config : NodeHealthStoreConfig) (initialNodes : List Url) : NodeHealthStore :=
  initialNodes.foldl addNode ⟨config.normalized, OrderedMap.empty⟩

def getNodesByState (store : NodeHealthStore) (state : NodeHealthState) : List Url :=
  sortNodes ((store.statuses.entries.filter fun entry => entry.2.state = state).map Prod.fst)

def getActiveNodes (store : NodeHealthStore) : List Url :=
  if store.config.disabled then sortNodes store.statuses.keys else store.getNodesByState .active

def getQuarantinedNodes (store : NodeHealthStore) : List Url :=
  if store.config.disabled then [] else store.getNodesByState .quarantined

def getDownNodes (store : NodeHealthStore) : List Url :=
  if store.config.disabled then [] else store.getNodesByState .down

/-- The loop of `ProbeDownNodes` over its candidates, with the state `ω` of
whatever the probe talks to. It returns the observations in the order they were
reported. -/
def probeCandidates {ω : Type} (probe : Url → NodeHealthStatus → ω → NodeHealthObservation × ω) :
    List Url → NodeHealthStore → ω → List (Url × NodeHealthObservation) × NodeHealthStore × ω
  | [], store, world => ([], store, world)
  | node :: rest, store, world =>
    match store.getNodeStatus node with
    | none => probeCandidates probe rest store world
    | some status =>
      let (observation, world) := probe node status world
      let (reported, store, world) :=
        probeCandidates probe rest (store.reportNodeResult node observation) world
      ((node, observation) :: reported, store, world)

def probeDownNodes {ω : Type} (store : NodeHealthStore)
    (probe : Url → NodeHealthStatus → ω → NodeHealthObservation × ω) (world : ω) :
    List (Url × NodeHealthObservation) × NodeHealthStore × ω :=
  if store.config.disabled then ([], store, world)
  else probeCandidates probe store.getDownNodes store world

def responsive (reported : List (Url × NodeHealthObservation)) : List Url :=
  (reported.filter fun entry => entry.2 = .success).map Prod.fst

def nodes (store : NodeHealthStore) : List Url := store.statuses.keys

theorem mem_nodes {store : NodeHealthStore} {u : Url} :
    u ∈ store.nodes ↔ ∃ status, store.statuses.lookup u.toString = some (u, status) :=
  OrderedMap.mem_keys

theorem nodes_separated (store : NodeHealthStore) : Separates Url.toString store.nodes :=
  store.statuses.keys_ascending.separates

theorem getNodesByState_eq (store : NodeHealthStore) (state : NodeHealthState) :
    store.getNodesByState state =
      (store.statuses.entries.filter fun entry => entry.2.state = state).map Prod.fst := by
  have ascending : Ascending Url.toString
      ((store.statuses.entries.filter fun entry => entry.2.state = state).map Prod.fst) :=
    List.pairwise_map.mpr (store.statuses.ascending.filter _)
  exact ascending.sortOn_eq

theorem getNodesByState_ascending (store : NodeHealthStore) (state : NodeHealthState) :
    Ascending Url.toString (store.getNodesByState state) := by
  rw [getNodesByState_eq]
  exact List.pairwise_map.mpr (store.statuses.ascending.filter _)

theorem mem_getNodesByState {store : NodeHealthStore} {state : NodeHealthState} {u : Url} :
    u ∈ store.getNodesByState state ↔
      ∃ status, store.statuses.lookup u.toString = some (u, status) ∧ status.state = state := by
  simp only [getNodesByState_eq, List.mem_map, List.mem_filter, decide_eq_true_eq, Prod.exists,
    exists_and_right, exists_eq_right, OrderedMap.mem_entries]

/-- A node has one status, so it is in one state. -/
theorem state_unique {store : NodeHealthStore} {u : Url} {first second : NodeHealthState}
    (left : u ∈ store.getNodesByState first) (right : u ∈ store.getNodesByState second) :
    first = second := by
  obtain ⟨status, found, rfl⟩ := mem_getNodesByState.mp left
  obtain ⟨status', found', rfl⟩ := mem_getNodesByState.mp right
  rw [found] at found'
  cases found'
  rfl

theorem mem_getActiveNodes {store : NodeHealthStore} (enabled : store.config.disabled = false)
    {u : Url} : u ∈ store.getActiveNodes ↔ u ∈ store.getNodesByState .active := by
  simp [getActiveNodes, enabled]

theorem mem_getQuarantinedNodes {store : NodeHealthStore} {u : Url} :
    u ∈ store.getQuarantinedNodes ↔
      store.config.disabled = false ∧ u ∈ store.getNodesByState .quarantined := by
  cases disabled : store.config.disabled <;> simp [getQuarantinedNodes, disabled]

theorem mem_getDownNodes {store : NodeHealthStore} {u : Url} :
    u ∈ store.getDownNodes ↔
      store.config.disabled = false ∧ u ∈ store.getNodesByState .down := by
  cases disabled : store.config.disabled <;> simp [getDownNodes, disabled]

theorem getActiveNodes_ascending (store : NodeHealthStore) :
    Ascending Url.toString store.getActiveNodes := by
  unfold getActiveNodes
  split
  · rw [sortNodes, store.statuses.keys_ascending.sortOn_eq]
    exact store.statuses.keys_ascending
  · exact store.getNodesByState_ascending .active

theorem getQuarantinedNodes_ascending (store : NodeHealthStore) :
    Ascending Url.toString store.getQuarantinedNodes := by
  unfold getQuarantinedNodes
  split
  · exact .nil
  · exact store.getNodesByState_ascending .quarantined

theorem getNodesByState_subset (store : NodeHealthStore) (state : NodeHealthState) :
    store.getNodesByState state ⊆ store.nodes := by
  intro u member
  obtain ⟨status, found, _⟩ := mem_getNodesByState.mp member
  exact mem_nodes.mpr ⟨status, found⟩

theorem getActiveNodes_subset (store : NodeHealthStore) : store.getActiveNodes ⊆ store.nodes := by
  unfold getActiveNodes
  split
  · exact fun u member => mem_sortNodes.mp member
  · exact store.getNodesByState_subset .active

theorem getQuarantinedNodes_subset (store : NodeHealthStore) :
    store.getQuarantinedNodes ⊆ store.nodes := by
  intro u member
  exact store.getNodesByState_subset .quarantined (mem_getQuarantinedNodes.mp member).2

theorem getDownNodes_subset (store : NodeHealthStore) : store.getDownNodes ⊆ store.nodes := by
  intro u member
  exact store.getNodesByState_subset .down (mem_getDownNodes.mp member).2

@[simp] theorem addNode_config (store : NodeHealthStore) (u : Url) :
    (store.addNode u).config = store.config := rfl

@[simp] theorem removeNode_config (store : NodeHealthStore) (u : Url) :
    (store.removeNode u).config = store.config := rfl

@[simp] theorem reportNodeResult_config (store : NodeHealthStore) (u : Url)
    (o : NodeHealthObservation) :
    (store.reportNodeResult u o).config = store.config := by
  unfold reportNodeResult
  split <;> rfl

theorem lookup_addNode (store : NodeHealthStore) (u : Url) (x : Bytes) :
    (store.addNode u).statuses.lookup x =
      if x = u.toString ∧ store.statuses.lookup x = none then some (u, freshStatus store.config)
      else store.statuses.lookup x := by
  rw [addNode, OrderedMap.lookup_upsert]
  by_cases same : x = u.toString
  · subst same
    cases store.statuses.lookup u.toString <;> simp
  · simp [same]

theorem lookup_removeNode (store : NodeHealthStore) (u : Url) (x : Bytes) :
    (store.removeNode u).statuses.lookup x =
      if x = u.toString then none else store.statuses.lookup x := by
  rw [removeNode]
  convert store.statuses.lookup_erase u.toString x

theorem lookup_reportNodeResult {store : NodeHealthStore}
    (enabled : store.config.disabled = false) (u : Url) (o : NodeHealthObservation) (x : Bytes) :
    (store.reportNodeResult u o).statuses.lookup x =
      (store.statuses.lookup x).map fun entry =>
        if x = u.toString then (entry.1, entry.2.observe store.config o) else entry := by
  rw [reportNodeResult, if_neg (by simp [enabled])]
  convert store.statuses.lookup_modify u.toString _ x

/-- A report leaves every node with another text in the state it was in. Nodes with
equal texts are one and the same to the store. -/
theorem mem_getNodesByState_reportNodeResult {store : NodeHealthStore} {u v : Url}
    (different : u.toString ≠ v.toString) (o : NodeHealthObservation) (state : NodeHealthState) :
    u ∈ (store.reportNodeResult v o).getNodesByState state ↔ u ∈ store.getNodesByState state := by
  cases disabled : store.config.disabled with
  | true => rw [reportNodeResult, if_pos disabled]
  | false => simp [mem_getNodesByState, lookup_reportNodeResult disabled, different]

theorem mem_getDownNodes_reportNodeResult {store : NodeHealthStore} {u v : Url}
    (different : u.toString ≠ v.toString) (o : NodeHealthObservation) :
    u ∈ (store.reportNodeResult v o).getDownNodes ↔ u ∈ store.getDownNodes := by
  rw [mem_getDownNodes, mem_getDownNodes, reportNodeResult_config,
    mem_getNodesByState_reportNodeResult different]

theorem mem_getQuarantinedNodes_reportNodeResult {store : NodeHealthStore} {u v : Url}
    (different : u.toString ≠ v.toString) (o : NodeHealthObservation) :
    u ∈ (store.reportNodeResult v o).getQuarantinedNodes ↔ u ∈ store.getQuarantinedNodes := by
  rw [mem_getQuarantinedNodes, mem_getQuarantinedNodes, reportNodeResult_config,
    mem_getNodesByState_reportNodeResult different]

@[simp] theorem nodes_reportNodeResult (store : NodeHealthStore) (u : Url)
    (o : NodeHealthObservation) :
    (store.reportNodeResult u o).nodes = store.nodes := by
  unfold reportNodeResult nodes
  split
  · rfl
  · exact OrderedMap.keys_modify _ _ _

theorem mem_of_mem_addNode {store : NodeHealthStore} {u w : Url}
    (member : w ∈ (store.addNode u).nodes) :
    w ∈ store.nodes ∨ w = u := by
  obtain ⟨status, found⟩ := mem_nodes.mp member
  rw [lookup_addNode] at found
  split at found
  · exact .inr (by simpa using congrArg Prod.fst (Option.some.inj found).symm)
  · exact .inl (mem_nodes.mpr ⟨status, found⟩)

theorem mem_of_mem_foldl_addNode {store : NodeHealthStore} {w : Url} {added : List Url}
    (member : w ∈ (added.foldl addNode store).nodes) : w ∈ store.nodes ∨ w ∈ added := by
  induction added generalizing store with
  | nil => exact .inl member
  | cons u rest ih =>
    rcases ih member with member | later
    · rcases mem_of_mem_addNode member with old | rfl
      · exact .inl old
      · exact .inr List.mem_cons_self
    · exact .inr (List.mem_cons_of_mem _ later)

theorem mem_of_mem_new {config : NodeHealthStoreConfig} {nodes : List Url} {w : Url}
    (member : w ∈ (new config nodes).nodes) : w ∈ nodes := by
  rcases mem_of_mem_foldl_addNode member with none | added
  · simp [NodeHealthStore.nodes, OrderedMap.keys, OrderedMap.empty] at none
  · exact added

theorem mem_nodes_foldl_removeNode {store : NodeHealthStore} {w : Url} {removed : List Url} :
    w ∈ (removed.foldl removeNode store).nodes ↔
      w ∈ store.nodes ∧ ∀ u ∈ removed, w.toString ≠ u.toString := by
  induction removed generalizing store with
  | nil => simp
  | cons u rest ih =>
    have single : w ∈ (store.removeNode u).nodes ↔ w ∈ store.nodes ∧ w.toString ≠ u.toString := by
      simp only [mem_nodes, lookup_removeNode]
      by_cases same : w.toString = u.toString <;> simp [same]
    rw [List.foldl_cons, ih, single, and_assoc, List.forall_mem_cons]

/-- A probe of the candidates leaves the store as the reports it made do, one after
the other. Nothing else of it reaches the store. -/
theorem probeCandidates_store {ω : Type}
    (probe : Url → NodeHealthStatus → ω → NodeHealthObservation × ω)
    (candidates : List Url) (store : NodeHealthStore) (world : ω) :
    (probeCandidates probe candidates store world).2.1 =
      (probeCandidates probe candidates store world).1.foldl
        (fun store report => store.reportNodeResult report.1 report.2) store := by
  induction candidates generalizing store world with
  | nil => rfl
  | cons node rest ih =>
    simp only [probeCandidates]
    split
    · exact ih store world
    · exact ih _ _

theorem probeDownNodes_store {ω : Type} (store : NodeHealthStore)
    (probe : Url → NodeHealthStatus → ω → NodeHealthObservation × ω) (world : ω) :
    (store.probeDownNodes probe world).2.1 =
      (store.probeDownNodes probe world).1.foldl
        (fun store report => store.reportNodeResult report.1 report.2) store := by
  unfold probeDownNodes
  split
  · rfl
  · exact probeCandidates_store probe _ _ _

end NodeHealthStore
end AlternatorClient
