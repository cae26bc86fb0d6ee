import AlternatorClient.LiveNodes.Scopes
import AlternatorClient.LiveNodes.Operations

/-! The url without a host. It ends a plan and is what `NextNode` returns when
there is no node, so a node without a host is mistaken for the end; neither the
constructor nor a refresh refuses one. -/
namespace AlternatorClient
open Foundation

namespace LiveNodes

/-- No node of the state is taken for the sentinel. -/
structure Present (s : LiveNodes) : Prop where
  initial : ∀ u ∈ s.initialNodes, u.empty = false
  live : ∀ u ∈ s.liveNodes, u.empty = false
  statuses : ∀ u ∈ s.healthStore.nodes, u.empty = false

theorem present_commit {s : LiveNodes} {nodes : List Url} (present : s.Present)
    (listed : ∀ u ∈ nodes, u.empty = false) : (s.commit nodes).Present := by
  obtain ⟨held, committed⟩ := s.commit_eq nodes
  rw [committed]
  refine ⟨present.initial, ?_, ?_⟩
  · intro u member
    exact listed u (mem_sortAndDedupeNodes.mp member)
  · intro u member
    have added := (NodeHealthStore.mem_nodes_foldl_removeNode.mp member).1
    rcases NodeHealthStore.mem_of_mem_foldl_addNode added with old | new
    · exact present.statuses u old
    · exact listed u new

theorem Present.active {s : LiveNodes} (present : s.Present) {u : Url}
    (member : u ∈ s.getActiveNodes) : u.empty = false :=
  present.statuses u (s.healthStore.getActiveNodes_subset member)

theorem Present.quarantined {s : LiveNodes} (present : s.Present) {u : Url}
    (member : u ∈ s.getQuarantinedNodes) : u.empty = false :=
  present.statuses u (s.healthStore.getQuarantinedNodes_subset member)

end LiveNodes

theorem Act.present {config : Config} {licence : Licence} {answers : List Answer} {s t : LiveNodes}
    (act : Act config licence answers s t) (present : s.Present)
    (hosts : licence.commits s → ∀ u ∈ listed answers, u.empty = false) : t.Present := by
  rcases act.nodes_cases with ⟨initial, live, statuses⟩ | ⟨nodes, allowed, named, rfl⟩
  · exact ⟨initial ▸ present.initial, live ▸ present.live, statuses ▸ present.statuses⟩
  · exact LiveNodes.present_commit present fun u member => hosts allowed u (named member)

/-- No answer to a refresh lists an empty host. -/
def NamesHosts (config : Config) (s : Session) (operation : Operation) : Prop :=
  operation = .updateLiveNodes → ∀ u ∈ listed (s.received config operation), u.empty = false

namespace Session
variable {config : Config} {s : Session}

theorem present_perform {operation : Operation} (hosts : NamesHosts config s operation)
    (present : s.nodes.Present) : (s.perform config operation).nodes.Present := by
  obtain ⟨_, _, _, path⟩ := s.evolves_perform config operation
  refine (path.invariant (P := LiveNodes.Present) ?_ present).1
  intro before after act present
  exact act.present present fun allowed => hosts allowed.1

/-- The licence of an operation that does nothing but probe and count. -/
def probing : Licence where
  reports _ := False
  discovers _ := False
  commits _ := False
  drops _ := False
  plans _ := False

theorem present_of_evolves {t : Session} {answers : List Answer} (present : s.nodes.Present)
    (evolved : Evolves config probing answers s t) : t.nodes.Present := by
  obtain ⟨_, _, _, path⟩ := evolved
  refine (path.invariant (P := LiveNodes.Present) ?_ present).1
  intro before after act present
  exact act.present present (by simp [probing])

theorem takeCandidate_empty {candidates : List Url} (present : ∀ u ∈ candidates, u.empty = false)
    (none : (s.takeCandidate candidates).1.empty = true) :
    candidates = [] ∧ (s.takeCandidate candidates).2 = s := by
  simp only [takeCandidate] at none ⊢
  split at none
  · rename_i nothing
    exact ⟨List.isEmpty_iff.mp nothing, by rw [if_pos nothing]⟩
  · rename_i some
    have taken := @getD_mod_mem candidates (by simpa using some) s.nodes.nextNodeIndex.toNat
    simp only [act] at none
    rw [present _ taken] at none
    contradiction

/-- `NextNode` returns the sentinel only if its probing leaves neither an Active
nor a Quarantined node. -/
theorem nextNode_empty (present : s.nodes.Present) (none : (s.nextNode config).1.empty = true) :
    (s.nextNode config).2.nodes.getActiveNodes = [] ∧
      (s.nextNode config).2.nodes.getQuarantinedNodes = [] := by
  have present := present_of_evolves present (evolves_probeWithoutActive config probing s)
  simp only [nextNode] at none ⊢
  generalize (if (s.markActivity config).nodes.getActiveNodes.isEmpty then
    (s.markActivity config).probeDownNodes.2 else s.markActivity config) = t at present none ⊢
  obtain ⟨plan, same⟩ := t.nodes.shouldTryQuarantinedNode_eq config t.nodes.getActiveNodes.isEmpty
  simp only [act, same] at none ⊢
  split at none
  · rename_i tried
    have some := LiveNodes.quarantined_of_tried tried
    have taken : { t.nodes with quarantinePlanIndex := plan }.nextQuarantinedNode.1 ∈
        t.nodes.getQuarantinedNodes := LiveNodes.nextQuarantinedNode_mem some
    have visible := present.quarantined taken
    simp [visible] at none
  · rename_i untried
    obtain ⟨active, stays⟩ := takeCandidate_empty (fun u => present.active) none
    have quarantined : t.nodes.getQuarantinedNodes = [] :=
      @LiveNodes.quarantined_of_untried config t.nodes (by simpa [active] using untried)
    rw [if_neg untried, stays]
    exact ⟨active, quarantined⟩

/-- Any plan of nodes that are present goes through all of them. -/
theorem drains {nodes : List Url} (present : ∀ u ∈ nodes, u.empty = false) (plan : QueryPlan)
    (lists : plan.nodes = nodes) :
    (∀ drained, drainPlan plan = .ok drained → drained.Perm nodes) ∧
      (nodes.length < 2 ^ 31 → ∃ drained, drainPlan plan = .ok drained) := by
  subst lists
  constructor
  · intro drained returned
    exact drainPlan_perm returned present
  · exact drainPlan_returns

theorem discovery_present (present : s.nodes.Present) (scope : RoutingScopePtr) :
    ∀ u ∈ (s.getDiscoveryNodesForScope config scope).1, u.empty = false := by
  intro u member
  simp only [getDiscoveryNodesForScope] at member
  split at member
  · exact present.initial u member
  · exact present.statuses u (s.nodes.getQueryPlanNodes_subset config member)

end Session

/-- In a run that is told no empty host, no node is taken for the sentinel:
`NextNode` returns it only when there is no node to return, and a plan of live
or discovery nodes reaches every node before it. -/
theorem empty_only_sentinel (hosts : List Bytes) (config : Config) (now : Int) (s : Session)
    (operations : List Operation) (built : LiveNodes.new hosts config now = .ok s.nodes)
    (named : ∀ host ∈ hosts, host ≠ []) (met : s.Meets (NamesHosts config) config operations) :
    let t := s.run config operations
    t.nodes.Present ∧
    ((t.nextNode config).1.empty = true →
      (t.nextNode config).2.nodes.getActiveNodes = [] ∧
        (t.nextNode config).2.nodes.getQuarantinedNodes = []) ∧
    (∀ plan : QueryPlan, plan.nodes = (t.nodes.getQueryPlanNodes config).1 →
      (∀ drained, drainPlan plan = .ok drained →
        drained.Perm (t.nodes.getQueryPlanNodes config).1) ∧
      ((t.nodes.getQueryPlanNodes config).1.length < 2 ^ 31 →
        ∃ drained, drainPlan plan = .ok drained)) ∧
    ∀ scope (plan : QueryPlan), plan.nodes = (t.getDiscoveryNodesForScope config scope).1 →
      (∀ drained, drainPlan plan = .ok drained →
        drained.Perm (t.getDiscoveryNodesForScope config scope).1) ∧
      ((t.getDiscoveryNodesForScope config scope).1.length < 2 ^ 31 →
        ∃ drained, drainPlan plan = .ok drained) := by
  intro t
  have present : t.nodes.Present := by
    obtain ⟨initial, live, store, _⟩ := LiveNodes.new_ok built
    have start : ∀ u ∈ s.nodes.initialNodes, u.empty = false := by
      intro u member
      rw [initial, mem_sortAndDedupeNodes] at member
      obtain ⟨host, listed, rfl⟩ := List.mem_map.mp member
      simpa [Url.empty, Config.nodeUrl] using named host listed
    refine Session.run_invariant (P := fun s => s.nodes.Present)
      (fun s operation hosts present => Session.present_perform hosts present) met
      ⟨start, live ▸ start, ?_⟩
    intro u member
    rw [store] at member
    exact start u (NodeHealthStore.mem_of_mem_new member)
  refine ⟨present, Session.nextNode_empty present, ?_, ?_⟩
  · intro plan lists
    apply Session.drains ?_ plan lists
    intro u member
    exact present.statuses u (t.nodes.getQueryPlanNodes_subset config member)
  · intro scope plan lists
    exact Session.drains (Session.discovery_present present scope) plan lists

/-- A refresh that replaces the only host by another, after which still no node is
taken for the sentinel. -/
theorem empty_only_sentinel_after_refresh :
    ∃ nodes, LiveNodes.new [bytes "a"] {} 0 = .ok nodes ∧
      ((Session.still nodes ⟨fun _ _ => .ok ⟨200, bytes "[\"b\"]"⟩⟩).run {}
        [.updateLiveNodes]).nodes.Present := by
  refine ⟨_, rfl,
    And.left (empty_only_sentinel [bytes "a"] {} 0 _ [.updateLiveNodes] rfl (by decide)
    ⟨fun _ => ?_, trivial⟩)⟩
  rw [Session.received, Session.perform, Session.updateLiveNodes, Session.fetchLiveNodes,
    show ({} : Config).routingScope.chain = [.cluster] from rfl,
    @Session.fetchFrom_singleton _ _ _ _ ⟨bytes "http", bytes "a", 8080, [], []⟩
      (by decide +kernel) (by decide)]
  decide +kernel

/-- The constructor accepts an empty host, and `NextNode` returns the node that
has it while it is Active. -/
theorem empty_host_accepted :
    ∃ nodes, LiveNodes.new [bytes ""] {} 0 = .ok nodes ∧ ¬ nodes.Present ∧
      ((Session.still nodes ⟨fun _ _ => .ok ⟨200, []⟩⟩).nextNode {}).1.empty = true ∧
      ((Session.still nodes ⟨fun _ _ => .ok ⟨200, []⟩⟩).nextNode {}).2.nodes.getActiveNodes ≠
        [] := by
  refine ⟨_, rfl, ?_, by decide +kernel, by decide +kernel⟩
  intro present
  exact absurd (present.initial _ List.mem_cons_self) (by decide)

end AlternatorClient
