import AlternatorClient.LiveNodes.Operations
import AlternatorClient.LiveNodes.Sticky

/-! The assignments of hashes. They are dropped by `operator==` while the store
finds a node by its text, so they end with the quarantine of their node as long
as nobody names that node by another spelling. -/
namespace AlternatorClient
open Foundation

namespace NodeHealthStore
variable {store : NodeHealthStore} {u v : Url}

theorem quarantined_iff :
    u ∈ store.getQuarantinedNodes ↔ store.config.disabled = false ∧
      ∃ status, store.statuses.lookup u.toString = some (u, status) ∧
        status.state = .quarantined := by
  rw [mem_getQuarantinedNodes, mem_getNodesByState]

theorem quarantined_addNode (member : u ∈ store.getQuarantinedNodes) :
    u ∈ (store.addNode v).getQuarantinedNodes := by
  obtain ⟨enabled, status, found, quarantined⟩ := quarantined_iff.mp member
  exact quarantined_iff.mpr ⟨enabled, status, by simp [lookup_addNode, found], quarantined⟩

theorem quarantined_removeNode (different : u.toString ≠ v.toString)
    (member : u ∈ store.getQuarantinedNodes) : u ∈ (store.removeNode v).getQuarantinedNodes := by
  obtain ⟨enabled, status, found, quarantined⟩ := quarantined_iff.mp member
  exact quarantined_iff.mpr
    ⟨enabled, status, by simp [lookup_removeNode, different, found], quarantined⟩

theorem quarantined_foldl_addNode {added : List Url} (member : u ∈ store.getQuarantinedNodes) :
    u ∈ (added.foldl addNode store).getQuarantinedNodes := by
  induction added generalizing store with
  | nil => exact member
  | cons v rest ih => exact ih (quarantined_addNode member)

theorem quarantined_foldl_removeNode {removed : List Url}
    (different : ∀ v ∈ removed, u.toString ≠ v.toString) (member : u ∈ store.getQuarantinedNodes) :
    u ∈ (removed.foldl removeNode store).getQuarantinedNodes := by
  induction removed generalizing store with
  | nil => exact member
  | cons v rest ih =>
    obtain ⟨first, others⟩ := List.forall_mem_cons.mp different
    exact ih others (quarantined_removeNode first member)

end NodeHealthStore

namespace LiveNodes
variable {s : LiveNodes} {hash : Int64} {q node : Url}

/-- The invariant: whatever is assigned to a hash is in quarantine, so no assignment
outlives the quarantine of its node. -/
def AssignmentsHold (s : LiveNodes) : Prop :=
  ∀ hash q, s.assigned hash = some q → q ∈ s.getQuarantinedNodes

/-- The node is named as the assignments name it: an assigned node of the same
text is the node itself. -/
def Spells (s : LiveNodes) (node : Url) : Prop :=
  ∀ hash q, s.assigned hash = some q → q.toString = node.toString → q = node

/-- The report leaves the status of the node in quarantine. -/
def StaysQuarantined (s : LiveNodes) (node : Url) (o : NodeHealthObservation) : Prop :=
  ∃ status, (s.healthStore.reportNodeResult node o).getNodeStatus node = some status ∧
    status.state = .quarantined

theorem spells_of_known (hold : s.AssignmentsHold) (known : node ∈ s.healthStore.nodes) :
    s.Spells node := by
  intro hash q held text
  have assigned := s.healthStore.getQuarantinedNodes_subset (hold hash q held)
  exact s.healthStore.nodes_separated assigned known text

theorem assigned_remove_iff :
    (s.removeQuarantineHashAssignmentsForNode node).assigned hash = some q ↔
      s.assigned hash = some q ∧ q ≠ node := by
  simp [assigned_remove, Option.filter_eq_some_iff]

/-- A report keeps an assignment of another node, or one of a node that it
leaves in quarantine. -/
theorem assigned_observe_iff {o : NodeHealthObservation} :
    (s.observe node o).assigned hash = some q ↔
      s.assigned hash = some q ∧ (q ≠ node ∨ s.StaysQuarantined node o) := by
  have same (store : NodeHealthStore) :
      assigned { s with healthStore := store } hash = s.assigned hash := rfl
  simp only [observe]
  split
  · rename_i absent
    simp [StaysQuarantined, assigned_remove_iff, same, absent]
  · rename_i status found
    split
    · rename_i quarantined
      simp [StaysQuarantined, same, found, quarantined]
    · rename_i other
      simp [StaysQuarantined, assigned_remove_iff, same, found, other]

theorem assigned_commit_iff {nodes : List Url} :
    (s.commit nodes).assigned hash = some q ↔
      s.assigned hash = some q ∧ q ∉ s.liveNodes.filter fun node => decide (node ∉ nodes) := by
  have removed (gone : List Url) (n : LiveNodes) :
      (gone.foldl (fun n node => n.removeQuarantineHashAssignmentsForNode node) n).assigned hash =
        some q ↔
        n.assigned hash = some q ∧ q ∉ gone := by
    induction gone generalizing n with
    | nil => simp
    | cons node rest ih => simp [ih, assigned_remove_iff, and_assoc]
  exact removed _ _

theorem quarantined_commit {nodes : List Url} (quarantined : q ∈ s.getQuarantinedNodes)
    (different : ∀ v ∈ s.liveNodes.filter fun node => decide (node ∉ nodes),
      q.toString ≠ v.toString) :
    q ∈ (s.commit nodes).getQuarantinedNodes := by
  obtain ⟨held, committed⟩ := s.commit_eq nodes
  rw [committed]
  exact NodeHealthStore.quarantined_foldl_removeNode different
    (NodeHealthStore.quarantined_foldl_addNode quarantined)

/-- The node that a report leaves in quarantine is the one with its text. -/
theorem quarantined_observe {o : NodeHealthObservation} (quarantined : q ∈ s.getQuarantinedNodes)
    (text : q.toString = node.toString) (stays : s.StaysQuarantined node o) :
    q ∈ (s.observe node o).getQuarantinedNodes := by
  obtain ⟨status, found, state⟩ := stays
  obtain ⟨enabled, old, present, _⟩ := NodeHealthStore.quarantined_iff.mp quarantined
  have reported := NodeHealthStore.lookup_reportNodeResult enabled node o q.toString
  rw [present, Option.map_some, if_pos text] at reported
  have same : (old.observe s.healthStore.config o) = status := by
    rw [NodeHealthStore.getNodeStatus, ← text, reported] at found
    exact Option.some.inj found
  rw [getQuarantinedNodes, observe_healthStore]
  exact NodeHealthStore.quarantined_iff.mpr
    ⟨by simpa using enabled, _, reported, by rw [same, state]⟩

/-- What a plan leaves assigned to its own hash is in quarantine. -/
theorem assigned_of_plan {config : Config}
    (held : (s.getQueryPlanNodesForHash config hash).2.assigned hash = some q) :
    q ∈ s.getQuarantinedNodes := by
  have outcome := @offered_sticky config hash (sortAndDedupeNodes s.getActiveNodes) s
  rw [getQueryPlanNodesForHash_state] at held
  generalize
    (s.stickyQuarantinedNodeForHash config hash (sortAndDedupeNodes s.getActiveNodes)).1 = result
    at outcome
  cases outcome with
  | node _ quarantined _ now =>
    rw [now] at held
    exact Option.some.inj held ▸ quarantined
  | nothing free => simp [free] at held
  | threw _ _ _ still => exact still q held

theorem assignmentsHold_observe (hold : s.AssignmentsHold) {o : NodeHealthObservation}
    (named : s.StaysQuarantined node o ∨ s.Spells node) : (s.observe node o).AssignmentsHold := by
  intro hash q held
  have elsewhere (quarantined : q ∈ s.getQuarantinedNodes)
      (different : q.toString ≠ node.toString) : q ∈ (s.observe node o).getQuarantinedNodes := by
    rw [getQuarantinedNodes, observe_healthStore]
    exact (NodeHealthStore.mem_getQuarantinedNodes_reportNodeResult different o).mpr quarantined
  obtain ⟨before, kept⟩ := assigned_observe_iff.mp held
  by_cases text : q.toString = node.toString
  · have stays : s.StaysQuarantined node o := by
      rcases named with stays | spelled
      · exact stays
      · exact kept.resolve_left fun other => other (spelled hash q before text)
    exact quarantined_observe (hold hash q before) text stays
  · exact elsewhere (hold hash q before) text

/-- A probe reports a Down node, which is not the node of an assignment. -/
theorem assignmentsHold_probed (hold : s.AssignmentsHold) {report : Url × NodeHealthObservation}
    (down : report.1 ∈ s.getDownNodes) : (Session.probed s report).AssignmentsHold := by
  intro hash q held
  have quarantined : q ∈ s.getQuarantinedNodes := hold hash q held
  refine (NodeHealthStore.mem_getQuarantinedNodes_reportNodeResult ?_ report.2).mpr quarantined
  intro text
  have same := spells_of_known hold (s.healthStore.getDownNodes_subset down) hash q held text
  exact NodeHealthStore.not_down_of_quarantined quarantined (same ▸ down)

theorem assignmentsHold_commit (hold : s.AssignmentsHold) {nodes : List Url}
    (spelled : ∀ u ∈ s.liveNodes, u ∉ nodes → s.Spells u) : (s.commit nodes).AssignmentsHold := by
  intro hash q held
  obtain ⟨before, kept⟩ := assigned_commit_iff.mp held
  apply quarantined_commit (hold hash q before)
  intro v gone text
  obtain ⟨live, unlisted⟩ := List.mem_filter.mp gone
  have same : q = v := spelled v live (by simpa using unlisted) hash q before text
  exact kept (same ▸ gone)

theorem assignmentsHold_plan (hold : s.AssignmentsHold) (config : Config) (hash : Int64) :
    (s.getQueryPlanNodesForHash config hash).2.AssignmentsHold := by
  intro other q held
  obtain ⟨assignments, plan, node, planned⟩ := s.getQueryPlanNodesForHash_eq config hash
  have store : (s.getQueryPlanNodesForHash config hash).2.getQuarantinedNodes =
      s.getQuarantinedNodes := by
    rw [planned, getQuarantinedNodes, getQuarantinedNodes]
  rw [store]
  by_cases same : other = hash
  · subst same
    exact assigned_of_plan held
  · rw [assigned_other s same] at held
    exact hold other q held

end LiveNodes

section
variable {config : Config} {licence : Licence} {answers : List Answer} {s t : LiveNodes}

theorem Act.assigned_before (act : Act config licence answers s t) {hash : Int64} {q : Url}
    (held : t.assigned hash = some q) : s.assigned hash = some q ∨ licence.plans hash := by
  cases act with
  | marked now =>
    obtain ⟨nextUpdate, marked⟩ := s.markActivity_eq config now
    rw [marked] at held
    exact .inl held
  | observed node o source => exact .inl (LiveNodes.assigned_observe_iff.mp held).1
  | probed report down => exact .inl held
  | committed nodes some allowed named dropped =>
    exact .inl (LiveNodes.assigned_commit_iff.mp held).1
  | counted i j k => exact .inl held
  | planned other allowed =>
    by_cases same : hash = other
    · exact .inr (same ▸ allowed)
    · rw [LiveNodes.assigned_other s same] at held
      exact .inl held

/-- One action keeps the assignments of nodes in quarantine if it names the
nodes it reports and removes as the assignments do. -/
theorem Act.assignmentsHold (act : Act config licence answers s t) (hold : s.AssignmentsHold)
    (reported : ∀ node, licence.reports node → s.Spells node)
    (asked : ∀ u ∈ s.initialNodes, licence.discovers u → s.Spells u)
    (removed : licence.commits s → ∀ u ∈ s.liveNodes, licence.drops u → s.Spells u) :
    t.AssignmentsHold := by
  cases act with
  | marked now =>
    obtain ⟨nextUpdate, marked⟩ := s.markActivity_eq config now
    rw [marked]
    exact hold
  | observed node o source =>
    refine LiveNodes.assignmentsHold_observe hold (.inr ?_)
    rcases source with report | ⟨discovers, initial | known⟩
    · exact reported node report
    · exact asked node initial discovers
    · exact LiveNodes.spells_of_known hold known
  | probed report down => exact LiveNodes.assignmentsHold_probed hold down
  | committed nodes some allowed named dropped =>
    exact LiveNodes.assignmentsHold_commit hold fun u live gone =>
      removed allowed u live (dropped u live gone)
  | counted i j k => exact hold
  | planned hash allowed => exact LiveNodes.assignmentsHold_plan hold config hash

end

/-- The nodes that an operation takes out of quarantine are spelled as the
assignments spell them: one that a report leaves in another state, an initial
node that did not answer discovery, a live node that no answer lists when some
other is listed. -/
def NamesAssigned (config : Config) (s : Session) : Operation → Prop
  | .reportNodeResult node o => s.nodes.StaysQuarantined node o ∨ s.nodes.Spells node
  | .updateLiveNodes =>
    (∀ u ∈ s.nodes.initialNodes, Failing (s.received config .updateLiveNodes) u →
      s.nodes.Spells u) ∧
    ∀ u ∈ s.nodes.liveNodes, Unlisted (s.received config .updateLiveNodes) u → s.nodes.Spells u
  | .checkIfRackAndDatacenterSetCorrectly =>
    ∀ u ∈ s.nodes.initialNodes,
      Failing (s.received config .checkIfRackAndDatacenterSetCorrectly) u → s.nodes.Spells u
  | _ => True

namespace Session
variable {config : Config} {s : Session} {operation : Operation} {hash : Int64} {q : Url}

theorem assigned_perform (held : (s.perform config operation).nodes.assigned hash = some q) :
    s.nodes.assigned hash = some q ∨ operation = .getQueryPlanNodesForHash hash := by
  obtain ⟨_, _, _, path⟩ := s.evolves_perform config operation
  refine (path.invariant (P := fun n : LiveNodes => n.assigned hash = some q →
    s.nodes.assigned hash = some q ∨ operation = .getQueryPlanNodesForHash hash) ?_ .inl).1 held
  intro before after act origin held
  rcases act.assigned_before held with held | planned
  · exact origin held
  · exact .inr planned

theorem assigned_run {operations : List Operation}
    (held : (s.run config operations).nodes.assigned hash = some q) :
    s.nodes.assigned hash = some q ∨ .getQueryPlanNodesForHash hash ∈ operations := by
  induction operations generalizing s with
  | nil => exact .inl held
  | cons operation rest ih =>
    rcases ih held with held | later
    · rcases assigned_perform held with held | rfl
      · exact .inl held
      · exact .inr List.mem_cons_self
    · exact .inr (List.mem_cons_of_mem _ later)

theorem assignmentsHold_reportNodeResult {node : Url} {o : NodeHealthObservation}
    (named : s.nodes.StaysQuarantined node o ∨ s.nodes.Spells node)
    (hold : s.nodes.AssignmentsHold) :
    (s.reportNodeResult config node o).nodes.AssignmentsHold := by
  obtain ⟨nextUpdate, marked⟩ := s.nodes.markActivity_eq config (s.clock 0)
  simp only [reportNodeResult, markActivity, act, marked]
  exact LiveNodes.assignmentsHold_observe
    (s := { s.nodes with nextUpdate, lastActivity := s.clock 0 }) hold named

theorem assignmentsHold_perform (named : NamesAssigned config s operation)
    (hold : s.nodes.AssignmentsHold) :
    (s.perform config operation).nodes.AssignmentsHold := by
  by_cases report : ∃ node o, operation = .reportNodeResult node o
  · obtain ⟨node, o, rfl⟩ := report
    exact assignmentsHold_reportNodeResult named hold
  obtain ⟨_, _, _, path⟩ := s.evolves_perform config operation
  -- Along the path no hash is newly assigned unless the operation is a plan for it.
  refine (path.invariant (P := fun n : LiveNodes => n.AssignmentsHold ∧
    n.initialNodes = s.nodes.initialNodes ∧
    ∀ hash q, n.assigned hash = some q →
      s.nodes.assigned hash = some q ∨ operation = .getQueryPlanNodesForHash hash) ?_
    ⟨hold, rfl, fun hash q => .inl⟩).1.1
  rintro before after act ⟨hold, initial, origin⟩
  have spelled {u : Url} (plain : ∀ hash, operation ≠ .getQueryPlanNodesForHash hash)
      (spelled : s.nodes.Spells u) : before.Spells u := by
    intro hash q held
    exact spelled hash q ((origin hash q held).resolve_right (plain hash))
  refine ⟨act.assignmentsHold hold ?_ ?_ ?_, act.initialNodes.trans initial, ?_⟩
  · rintro node ⟨o, reported⟩
    exact absurd ⟨node, o, reported⟩ report
  · rintro u member ⟨discovers, failing⟩
    rw [initial] at member
    rcases discovers with rfl | rfl
    · exact spelled (by simp) (named.1 u member failing)
    · exact spelled (by simp) (named u member failing)
  · rintro ⟨rfl, live⟩ u member gone
    rw [live] at member
    exact spelled (by simp) (named.2 u member gone)
  · intro hash q held
    rcases act.assigned_before held with earlier | planned
    · exact origin hash q earlier
    · exact .inr planned

end Session

/-- In a run whose steps name the assigned nodes that they take out of
quarantine by their own spelling, every assignment is of a Quarantined node
after every operation; whatever is assigned to a node that was not Quarantined
has been planned for since. -/
theorem assignments_end_with_quarantine (hosts : List Bytes) (config : Config) (now : Int)
    (s : Session) (operations : List Operation)
    (built : LiveNodes.new hosts config now = .ok s.nodes)
    (met : s.Meets (NamesAssigned config) config operations) :
    let after := (s.run config operations).nodes
    (∀ hash q, after.assigned hash = some q → q ∈ after.getQuarantinedNodes) ∧
    ∀ q ∉ after.getQuarantinedNodes, ∀ later hash,
      (s.run config (operations ++ later)).nodes.assigned hash = some q →
        .getQueryPlanNodesForHash hash ∈ later := by
  obtain ⟨_, _, _, unassigned⟩ := LiveNodes.new_ok built
  have hold : (s.run config operations).nodes.AssignmentsHold := by
    refine Session.run_invariant (P := fun s => s.nodes.AssignmentsHold)
      (fun s operation named hold => Session.assignmentsHold_perform named hold) met ?_
    intro hash q held
    simp [LiveNodes.assigned, unassigned, OrderedMap.lookup, OrderedMap.empty] at held
  refine ⟨hold, ?_⟩
  intro q outside later hash held
  rw [Session.run_append] at held
  exact (Session.assigned_run held).resolve_left fun before => outside (hold hash q before)

/-- Without an active node a plan assigns its hash to the only Quarantined one. -/
theorem LiveNodes.plan_alone {config : Config} {s : LiveNodes} {hash : Int64} {q : Url}
    (active : s.getActiveNodes = []) (only : s.getQuarantinedNodes = [q])
    (visible : q.empty = false) (free : s.quarantineByHash.lookup hash.toInt = none) :
    s.getQueryPlanNodesForHash config hash = (.ok [q],
      { s with
        quarantineByHash := s.quarantineByHash.assign hash q
        quarantineNodeIndex := s.quarantineNodeIndex + 1 }) := by
  have first : quarantinedNodeIsFirstForHash q [] hash = .ok true :=
    quarantinedNodeIsFirstForHash_true.mpr (firstNodeWithSeed_singleton q hash)
  have nothing : sortAndDedupeNodes ([] : List Url) = [] := rfl
  simp [getQueryPlanNodesForHash, stickyQuarantinedNodeForHash, free, sampleQuarantinedNodeForHash,
    shouldTryQuarantinedNode, active, only, nothing, Nat.mod_one, first, visible,
    appendUniqueNodes, appendFresh]

theorem Session.assigned_alone (config : Config) (s : Session) (hash : Int64) {q : Url}
    (active : s.nodes.getActiveNodes = []) (only : s.nodes.getQuarantinedNodes = [q])
    (visible : q.empty = false) (free : s.nodes.quarantineByHash.lookup hash.toInt = none) :
    (s.run config [.getQueryPlanNodesForHash hash]).nodes.assigned hash = some q ∧
      (s.run config [.getQueryPlanNodesForHash hash]).nodes.healthStore = s.nodes.healthStore := by
  simp only [run, perform, act, LiveNodes.plan_alone active only visible free]
  exact ⟨(LiveNodes.assigned_assign s.nodes hash hash q).trans (if_pos rfl), trivial⟩

theorem alone_assigned :
    let u := ({} : Config).nodeUrl (bytes "::1")
    let s := (Session.alone (bytes "::1") []).run {} (quarantining u)
    (s.run {} [.getQueryPlanNodesForHash 0]).nodes.assigned 0 = some u ∧
      (s.run {} [.getQueryPlanNodesForHash 0]).nodes.healthStore = s.nodes.healthStore :=
  Session.assigned_alone {} _ 0 (by decide +kernel) (by decide +kernel) rfl (by decide +kernel)

theorem assignments_end_with_quarantine_alone :
    let u := ({} : Config).nodeUrl (bytes "::1")
    let s := Session.alone (bytes "::1") []
    let after := (s.run {} (quarantining u ++ [.getQueryPlanNodesForHash 0])).nodes
    LiveNodes.new [bytes "::1"] {} 0 = .ok s.nodes ∧ after.assigned 0 = some u ∧
      u ∈ after.getQuarantinedNodes := by
  intro u s after
  have held : after.assigned 0 = some u := by
    simp only [after]
    rw [Session.run_append]
    exact alone_assigned.1
  have spelled : s.nodes.Spells u := fun hash q held => absurd held (by
    simp [s, Session.alone, Session.still, LiveNodes.assigned, OrderedMap.lookup, OrderedMap.empty])
  have met : s.Meets (NamesAssigned {}) {} (quarantining u ++ [.getQueryPlanNodesForHash 0]) := by
    simp only [quarantining, List.cons_append, List.nil_append, Session.Meets]
    exact ⟨.inr spelled, trivial, trivial, trivial⟩
  have kept := assignments_end_with_quarantine [bytes "::1"] {} 0 s _ rfl met
  exact ⟨rfl, held, kept.1 0 u held⟩

/-- A report by another name reaches the status and not the assignment. -/
theorem Session.assigned_report (config : Config) {s : Session} {hash : Int64} {q : Url}
    (node : Url)
    (o : NodeHealthObservation) (held : s.nodes.assigned hash = some q) (other : q ≠ node) :
    (s.run config [.reportNodeResult node o]).nodes.assigned hash = some q ∧
      (s.run config [.reportNodeResult node o]).nodes.healthStore =
        s.nodes.healthStore.reportNodeResult node o := by
  obtain ⟨nextUpdate, marked⟩ := s.nodes.markActivity_eq config (s.clock 0)
  simp only [run, perform, reportNodeResult, markActivity, act, marked,
    LiveNodes.observe_healthStore,
    LiveNodes.assigned_observe_iff, and_true]
  exact ⟨held, .inl other⟩

/-- Reported by its other spelling the node leaves quarantine and stays assigned:
the store finds it by its text, the assignments do not know the URL. -/
theorem assignment_outlives_quarantine :
    let u := ({} : Config).nodeUrl (bytes "::1")
    let v := ({} : Config).nodeUrl (bytes "[::1]")
    let s := Session.alone (bytes "::1") []
    let after := (s.run {} (quarantining u ++ [.getQueryPlanNodesForHash 0] ++
      [.reportNodeResult v .connectionFailure])).nodes
    LiveNodes.new [bytes "::1"] {} 0 = .ok s.nodes ∧
      ¬ ∀ hash q, after.assigned hash = some q → q ∈ after.getQuarantinedNodes := by
  intro u v s after
  obtain ⟨held, store⟩ :=
    Session.assigned_report {} v .connectionFailure alone_assigned.1 (by decide)
  rw [alone_assigned.2] at store
  refine ⟨rfl, ?_⟩
  intro hold
  simp only [after] at hold
  rw [Session.run_append, Session.run_append] at hold
  have quarantined := hold 0 u held
  rw [LiveNodes.getQuarantinedNodes, store] at quarantined
  exact absurd quarantined (by decide +kernel)

end AlternatorClient
