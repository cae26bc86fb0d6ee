import AlternatorClient.LiveNodes.Operations
import AlternatorClient.LiveNodes.Scopes

/-! The live nodes and the health store. A refresh compares nodes by
`operator==` where the store compares their texts, so the two stay in step
as long as nodes of one text are one node. -/
namespace AlternatorClient
open Foundation

namespace NodeHealthStore
variable {store : NodeHealthStore} {u w : Url}

theorem mem_nodes_addNode (separated : ∀ v ∈ store.nodes, v.toString = u.toString → v = u) :
    w ∈ (store.addNode u).nodes ↔ w ∈ store.nodes ∨ w = u := by
  refine ⟨mem_of_mem_addNode, ?_⟩
  simp only [mem_nodes, lookup_addNode]
  rintro (⟨status, found⟩ | rfl)
  · exact ⟨status, by simp [found]⟩
  · cases found : store.statuses.lookup w.toString with
    | none => exact ⟨freshStatus store.config, by simp⟩
    | some entry =>
      obtain ⟨v, status⟩ := entry
      have text : v.toString = w.toString := OrderedMap.lookup_key found
      have known : v ∈ store.nodes := mem_nodes.mpr ⟨status, text ▸ found⟩
      exact ⟨status, by simp [separated v known text]⟩

theorem mem_nodes_foldl_addNode {added : List Url}
    (separated : Separates Url.toString (store.nodes ++ added)) :
    w ∈ (added.foldl addNode store).nodes ↔ w ∈ store.nodes ∨ w ∈ added := by
  induction added generalizing store with
  | nil => simp
  | cons u rest ih =>
    have alone : ∀ v ∈ store.nodes, v.toString = u.toString → v = u := fun v member same =>
      separated (List.mem_append_left _ member) (List.mem_append_right _ List.mem_cons_self) same
    have others : Separates Url.toString ((store.addNode u).nodes ++ rest) := by
      apply separated.mono
      intro v member
      rcases List.mem_append.mp member with member | member
      · rcases (mem_nodes_addNode alone).mp member with member | rfl
        · exact List.mem_append_left _ member
        · exact List.mem_append_right _ List.mem_cons_self
      · exact List.mem_append_right _ (List.mem_cons_of_mem _ member)
    rw [List.foldl_cons, ih others, mem_nodes_addNode alone, List.mem_cons, or_assoc]

theorem exactly_one_state (member : u ∈ store.nodes) :
    ∃! state, u ∈ store.getNodesByState state := by
  obtain ⟨status, found⟩ := mem_nodes.mp member
  refine ⟨status.state, mem_getNodesByState.mpr ⟨status, found, rfl⟩, ?_⟩
  intro state other
  exact state_unique other (mem_getNodesByState.mpr ⟨status, found, rfl⟩)

end NodeHealthStore

namespace LiveNodes

/-- The nodes with a status are the live nodes, by `operator==`, and with
health tracking each of them is in one of the three states. -/
structure InStep (s : LiveNodes) : Prop where
  same : ∀ u, u ∈ s.healthStore.nodes ↔ u ∈ s.liveNodes
  placed : s.healthStore.config.disabled = false → ∀ u ∈ s.liveNodes,
    (u ∈ s.getActiveNodes ∧ u ∉ s.getQuarantinedNodes ∧ u ∉ s.getDownNodes) ∨
    (u ∉ s.getActiveNodes ∧ u ∈ s.getQuarantinedNodes ∧ u ∉ s.getDownNodes) ∨
    (u ∉ s.getActiveNodes ∧ u ∉ s.getQuarantinedNodes ∧ u ∈ s.getDownNodes)

theorem inStep_of_same {s : LiveNodes} (same : ∀ u, u ∈ s.healthStore.nodes ↔ u ∈ s.liveNodes) :
    s.InStep := by
  refine ⟨same, ?_⟩
  intro enabled u member
  obtain ⟨state, placed, only⟩ := NodeHealthStore.exactly_one_state ((same u).mpr member)
  have elsewhere : ∀ other, other ≠ state → u ∉ s.healthStore.getNodesByState other := by
    intro other different member
    exact different (only other member)
  simp only [getActiveNodes, getQuarantinedNodes, getDownNodes,
    NodeHealthStore.mem_getActiveNodes enabled, NodeHealthStore.mem_getQuarantinedNodes,
    NodeHealthStore.mem_getDownNodes, enabled, true_and]
  cases state with
  | active => exact .inl ⟨placed, elsewhere _ (by decide), elsewhere _ (by decide)⟩
  | quarantined => exact .inr (.inl ⟨elsewhere _ (by decide), placed, elsewhere _ (by decide)⟩)
  | down => exact .inr (.inr ⟨elsewhere _ (by decide), elsewhere _ (by decide), placed⟩)

theorem same_commit {s : LiveNodes} {nodes : List Url}
    (same : ∀ u, u ∈ s.healthStore.nodes ↔ u ∈ s.liveNodes)
    (separated : Separates Url.toString (s.liveNodes ++ nodes)) (u : Url) :
    u ∈ (s.commit nodes).healthStore.nodes ↔ u ∈ (s.commit nodes).liveNodes := by
  obtain ⟨held, committed⟩ := s.commit_eq nodes
  have known : Separates Url.toString (s.healthStore.nodes ++ nodes) := by
    apply separated.mono
    intro v member
    simpa [same v] using member
  simp only [committed, NodeHealthStore.mem_nodes_foldl_removeNode,
    NodeHealthStore.mem_nodes_foldl_addNode known, same, mem_sortAndDedupeNodes, List.mem_filter,
    decide_eq_true_eq, and_imp]
  constructor
  · rintro ⟨member | member, kept⟩
    · by_contra gone
      exact kept u member gone rfl
    · exact member
  · intro member
    refine ⟨.inr member, ?_⟩
    intro v live gone text
    apply gone
    have one : u = v :=
      separated (List.mem_append_right _ member) (List.mem_append_left _ live) text
    exact one ▸ member

/-- A refresh gives no status to a node that it does not list. -/
theorem mem_of_status_commit {s : LiveNodes} {nodes : List Url}
    (live : ∀ u ∈ s.healthStore.nodes, u ∈ s.liveNodes) {u : Url}
    (member : u ∈ (s.commit nodes).healthStore.nodes) : u ∈ nodes := by
  obtain ⟨held, committed⟩ := s.commit_eq nodes
  rw [committed] at member
  obtain ⟨member, kept⟩ := NodeHealthStore.mem_nodes_foldl_removeNode.mp member
  rcases NodeHealthStore.mem_of_mem_foldl_addNode member with old | added
  · by_contra gone
    exact kept u (by simp [live u old, gone]) rfl
  · exact added

end LiveNodes

theorem Act.statuses_live {config : Config} {licence : Licence} {answers : List Answer}
    {s t : LiveNodes}
    (act : Act config licence answers s t) (live : ∀ u ∈ s.healthStore.nodes, u ∈ s.liveNodes) :
    ∀ u ∈ t.healthStore.nodes, u ∈ t.liveNodes := by
  intro u member
  rcases act.nodes_cases with ⟨_, same, statuses⟩ | ⟨nodes, _, _, rfl⟩
  · rw [same]
    exact live u (statuses ▸ member)
  · have listed := LiveNodes.mem_of_status_commit live member
    obtain ⟨held, committed⟩ := s.commit_eq nodes
    rw [committed]
    exact mem_sortAndDedupeNodes.mpr listed

/-- Whatever is refreshed and however it is spelled, no status belongs to a
node that is not live. -/
theorem Session.statuses_live {hosts : List Bytes} {config : Config} {now : Int} {s : Session}
    (built : LiveNodes.new hosts config now = .ok s.nodes) (operations : List Operation) :
    ∀ u ∈ (s.run config operations).nodes.healthStore.nodes,
      u ∈ (s.run config operations).nodes.liveNodes := by
  obtain ⟨_, live, store, _⟩ := LiveNodes.new_ok built
  refine Session.run_always
    (P := fun s => ∀ u ∈ s.nodes.healthStore.nodes, u ∈ s.nodes.liveNodes) ?_ operations ?_
  · intro s operation live
    obtain ⟨_, _, _, path⟩ := s.evolves_perform config operation
    exact (path.invariant (P := fun n : LiveNodes => ∀ u ∈ n.healthStore.nodes, u ∈ n.liveNodes)
      Act.statuses_live live).1
  · intro u member
    rw [store] at member
    rw [live]
    exact NodeHealthStore.mem_of_mem_new member

/-- One action keeps the live nodes in step if what it commits is spelled as the
live nodes are. -/
theorem Act.same {config : Config} {licence : Licence} {answers : List Answer} {s t : LiveNodes}
    (act : Act config licence answers s t)
    (separated : licence.commits s → Separates Url.toString (s.liveNodes ++ listed answers))
    (same : ∀ u, u ∈ s.healthStore.nodes ↔ u ∈ s.liveNodes) (u : Url) :
    u ∈ t.healthStore.nodes ↔ u ∈ t.liveNodes := by
  rcases act.nodes_cases with ⟨_, live, statuses⟩ | ⟨nodes, allowed, named, rfl⟩
  · rw [statuses, live]
    exact same u
  · refine s.same_commit same ((separated allowed).mono fun v member => ?_) u
    exact List.mem_append.mpr ((List.mem_append.mp member).imp_right fun fresh => named fresh)

/-- Every node that a refresh is told, and every live node it may replace, has
one spelling: nodes of the same text are equal. -/
def Unambiguous (config : Config) (s : Session) (operation : Operation) : Prop :=
  operation = .updateLiveNodes →
    Separates Url.toString (s.nodes.liveNodes ++ listed (s.received config operation))

theorem Session.same_perform {config : Config} (s : Session) (operation : Operation)
    (unambiguous : Unambiguous config s operation)
    (same : ∀ u, u ∈ s.nodes.healthStore.nodes ↔ u ∈ s.nodes.liveNodes) :
    ∀ u, u ∈ (s.perform config operation).nodes.healthStore.nodes ↔
      u ∈ (s.perform config operation).nodes.liveNodes := by
  obtain ⟨_, states, _, path⟩ := s.evolves_perform config operation
  refine (path.invariant (P := fun n : LiveNodes => ∀ u, u ∈ n.healthStore.nodes ↔ u ∈ n.liveNodes)
    (fun act => act.same ?_) same).1
  rintro ⟨refreshes, live⟩
  rw [live]
  exact unambiguous refreshes

/-- In a run whose refreshes are all unambiguous, live nodes and health store
are in step after every operation. -/
theorem liveNodes_in_step (hosts : List Bytes) (config : Config) (now : Int) (s : Session)
    (operations : List Operation) (built : LiveNodes.new hosts config now = .ok s.nodes)
    (initial : Separates Url.toString (hosts.map config.nodeUrl))
    (met : s.Meets (Unambiguous config) config operations) :
    (s.run config operations).nodes.InStep := by
  obtain ⟨nodes, live, store, _⟩ := LiveNodes.new_ok built
  refine LiveNodes.inStep_of_same (Session.run_invariant
    (P := fun s => ∀ u, u ∈ s.nodes.healthStore.nodes ↔ u ∈ s.nodes.liveNodes) ?_ met ?_)
  · intro s operation unambiguous same
    exact s.same_perform operation unambiguous same
  · intro u
    have separated : Separates Url.toString s.nodes.initialNodes := by
      rw [nodes]
      exact initial.mono fun u member => mem_sortAndDedupeNodes.mp member
    rw [store, live, NodeHealthStore.new, NodeHealthStore.mem_nodes_foldl_addNode]
    · simp [NodeHealthStore.nodes, OrderedMap.keys, OrderedMap.empty]
    · exact separated

/-- A refresh that replaces the only node by another: the status of the one has gone
with it, and the other has a status. -/
theorem liveNodes_in_step_after_refresh :
    ∃ nodes, LiveNodes.new [bytes "a"] {} 0 = .ok nodes ∧
      ((Session.still nodes ⟨fun _ _ => .ok ⟨200, bytes "[\"b\"]"⟩⟩).run {}
        [.updateLiveNodes]).nodes.InStep := by
  refine ⟨_, rfl, liveNodes_in_step [bytes "a"] {} 0 _ _ rfl (by decide +kernel)
    ⟨fun _ => ?_, trivial⟩⟩
  rw [Session.received, Session.perform, Session.updateLiveNodes, Session.fetchLiveNodes,
    show ({} : Config).routingScope.chain = [.cluster] from rfl,
    @Session.fetchFrom_singleton _ _ _ _ ⟨bytes "http", bytes "a", 8080, [], []⟩
      (by decide +kernel) (by decide)]
  decide +kernel

/-- A refresh that spells the only live node another way leaves it live and
without a status. -/
theorem liveNodes_out_of_step :
    ∃ nodes, LiveNodes.new [bytes "::1"] {} 0 = .ok nodes ∧
      ¬ ((Session.still nodes ⟨fun _ _ => .ok ⟨200, bytes "[\"[::1]\"]"⟩⟩).run {}
        [.updateLiveNodes]).nodes.InStep := by
  refine ⟨_, rfl, ?_⟩
  intro inStep
  have apart := inStep.same ⟨bytes "http", bytes "[::1]", 8080, [], []⟩
  rw [Session.run, Session.run, Session.perform, Session.updateLiveNodes, Session.fetchLiveNodes,
    show ({} : Config).routingScope.chain = [.cluster] from rfl,
    @Session.fetchFrom_singleton _ _ _ _ ⟨bytes "http", bytes "::1", 8080, [], []⟩
      (by decide +kernel) (by decide)] at apart
  exact absurd apart (by decide +kernel)

end AlternatorClient
