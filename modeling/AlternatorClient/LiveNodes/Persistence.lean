import AlternatorClient.LiveNodes.Affinity
import AlternatorClient.LiveNodes.Assignments
import AlternatorClient.LiveNodes.Scopes

/-! How long an assignment lasts: while its node stays in quarantine, until a
plan for the hash finds another node first. -/
namespace AlternatorClient
open Foundation

namespace LiveNodes
variable {config : Config} {s : LiveNodes} {hash : Int64} {q : Url}

/-- A Quarantined node that is assigned but no longer first for the hash loses it:
the plan offers no node, and the assignment is erased. -/
theorem sticky_lost (held : s.assigned hash = some q) (quarantined : q ∈ s.getQuarantinedNodes)
    {other : Url} (first : firstNodeWithSeed (s.getActiveNodes ++ [q]) hash = .ok other)
    (rival : other ≠ q) :
    s.stickyQuarantinedNodeForHash config hash s.getActiveNodes =
      (.ok {}, { s with quarantineByHash := s.quarantineByHash.erase hash.toInt }) := by
  obtain ⟨key, found⟩ := lookup_of_assigned held
  have outranked : quarantinedNodeIsFirstForHash q s.getActiveNodes hash = .ok false := by
    simp [quarantinedNodeIsFirstForHash, first, Except.map, rival]
  simp only [stickyQuarantinedNodeForHash, found, quarantined, if_true, outranked]

theorem plan_kept (held : s.assigned hash = some q) (quarantined : q ∈ s.getQuarantinedNodes)
    (visible : q.empty = false) (first : firstNodeWithSeed (s.getActiveNodes ++ [q]) hash = .ok q) :
    s.getQueryPlanNodesForHash config hash = (.ok (appendUniqueNodes [q] s.getActiveNodes), s) := by
  simp only [getQueryPlanNodesForHash, sortAndDedupeNodes_active,
    sticky_kept held quarantined first, visible, Bool.false_eq_true, if_false]

theorem plan_lost (held : s.assigned hash = some q) (quarantined : q ∈ s.getQuarantinedNodes)
    {other : Url} (first : firstNodeWithSeed (s.getActiveNodes ++ [q]) hash = .ok other)
    (rival : other ≠ q) :
    s.getQueryPlanNodesForHash config hash = (.ok (appendUniqueNodes [] s.getActiveNodes),
      { s with quarantineByHash := s.quarantineByHash.erase hash.toInt }) := by
  simp only [getQueryPlanNodesForHash, sortAndDedupeNodes_active,
    sticky_lost held quarantined first rival, Url.empty_default, if_true]

theorem kept_of_quarantined_commit {nodes : List Url}
    (remains : q ∈ (s.commit nodes).getQuarantinedNodes) :
    q ∉ s.liveNodes.filter fun node => decide (node ∉ nodes) := by
  obtain ⟨held, committed⟩ := s.commit_eq nodes
  have known := (s.commit nodes).healthStore.getQuarantinedNodes_subset remains
  rw [committed] at known
  intro removed
  exact (NodeHealthStore.mem_nodes_foldl_removeNode.mp known).2 q removed rfl

end LiveNodes

/-- No action other than a plan for the hash takes it from a node that stays in
quarantine. -/
theorem Act.assigned_kept {config : Config} {licence : Licence} {answers : List Answer}
    {s t : LiveNodes} (act : Act config licence answers s t) {hash : Int64} {q : Url}
    (other : ¬ licence.plans hash) (held : s.assigned hash = some q)
    (remains : q ∈ t.getQuarantinedNodes) : t.assigned hash = some q := by
  cases act with
  | marked now =>
    obtain ⟨nextUpdate, marked⟩ := s.markActivity_eq config now
    rw [marked]
    exact held
  | observed node o source =>
    refine LiveNodes.assigned_observe_iff.mpr ⟨held, ?_⟩
    by_cases same : q = node
    · subst same
      rw [LiveNodes.getQuarantinedNodes, LiveNodes.observe_healthStore] at remains
      obtain ⟨_, status, found, state⟩ := NodeHealthStore.quarantined_iff.mp remains
      exact .inr ⟨status, by simp [NodeHealthStore.getNodeStatus, found], state⟩
    · exact .inl same
  | probed report down => exact held
  | committed nodes some allowed named dropped =>
    exact LiveNodes.assigned_commit_iff.mpr ⟨held, LiveNodes.kept_of_quarantined_commit remains⟩
  | counted i j k => exact held
  | planned planned allowed =>
    have different : hash ≠ planned := fun same => other (same ▸ allowed)
    rw [LiveNodes.assigned_other s different]
    exact held

namespace Session
variable {config : Config} {hash : Int64} {q : Url}

def passed (config : Config) (s : Session) (operations : List Operation) : List LiveNodes :=
  (s.run config operations).trace.drop s.trace.length

theorem trace_run (config : Config) (s : Session) (operations : List Operation) :
    ∃ states, (s.run config operations).trace = s.trace ++ states := by
  induction operations generalizing s with
  | nil => exact ⟨[], by simp [run]⟩
  | cons operation rest ih =>
    obtain ⟨_, states, traced, _⟩ := s.evolves_perform config operation
    obtain ⟨more, continued⟩ := ih (s.perform config operation)
    exact ⟨states ++ more, by rw [run, continued, traced, List.append_assoc]⟩

theorem passed_cons (config : Config) (s : Session) (operation : Operation)
    (rest : List Operation) :
    s.passed config (operation :: rest) =
      s.passed config [operation] ++ (s.perform config operation).passed config rest := by
  obtain ⟨first, traced⟩ := s.trace_run config [operation]
  obtain ⟨more, continued⟩ := (s.perform config operation).trace_run config rest
  simp only [run] at traced
  simp only [passed, run, continued, traced, List.append_assoc, List.drop_left]
  rw [← List.append_assoc, List.drop_left]

/-- A plan for the hash finds its node first. -/
def Unrivalled (hash : Int64) (q : Url) (s : Session) (operation : Operation) : Prop :=
  operation = .getQueryPlanNodesForHash hash →
    firstNodeWithSeed (s.nodes.getActiveNodes ++ [q]) hash = .ok q

theorem assigned_kept_perform (s : Session) (operation : Operation) (visible : q.empty = false)
    (unrivalled : Unrivalled hash q s operation) (held : s.nodes.assigned hash = some q)
    (quarantined : q ∈ s.nodes.getQuarantinedNodes)
    (remains : ∀ n ∈ s.passed config [operation], q ∈ n.getQuarantinedNodes) :
    (s.perform config operation).nodes.assigned hash = some q ∧
      q ∈ (s.perform config operation).nodes.getQuarantinedNodes := by
  by_cases planned : operation = .getQueryPlanNodesForHash hash
  · have kept := @LiveNodes.plan_kept config s.nodes hash q held quarantined visible
      (unrivalled planned)
    subst planned
    simp only [perform, act, kept]
    exact ⟨held, quarantined⟩
  · obtain ⟨_, states, traced, path⟩ := s.evolves_perform config operation
    have along : ∀ n ∈ states, q ∈ n.getQuarantinedNodes := by
      simpa [passed, run, traced] using remains
    refine path.invariant_while
      (P := fun n : LiveNodes => n.assigned hash = some q ∧ q ∈ n.getQuarantinedNodes) ?_
      ⟨held, quarantined⟩ along
    rintro before after act ⟨held, _⟩ remains
    exact ⟨act.assigned_kept planned held remains, remains⟩

theorem assigned_kept_run (s : Session) (operations : List Operation) (visible : q.empty = false)
    (unrivalled : s.Meets (Unrivalled hash q) config operations)
    (held : s.nodes.assigned hash = some q) (quarantined : q ∈ s.nodes.getQuarantinedNodes)
    (remains : ∀ n ∈ s.passed config operations, q ∈ n.getQuarantinedNodes) :
    (s.run config operations).nodes.assigned hash = some q ∧
      q ∈ (s.run config operations).nodes.getQuarantinedNodes := by
  induction operations generalizing s with
  | nil => exact ⟨held, quarantined⟩
  | cons operation rest ih =>
    rw [passed_cons] at remains
    obtain ⟨now, later⟩ := List.forall_mem_append.mp remains
    obtain ⟨held, quarantined⟩ :=
      s.assigned_kept_perform operation visible unrivalled.1 held quarantined now
    exact ih _ unrivalled.2 held quarantined later

end Session

/-- A hash whose plan started with a Quarantined node keeps it as long as the
node stays in quarantine and no plan for the hash finds another node first;
such a plan ends the assignment. -/
theorem assignment_lasts (config : Config) (s : Session) (hash : Int64) (q : Url) (rest : List Url)
    (returned : (s.nodes.getQueryPlanNodesForHash config hash).1 = .ok (q :: rest))
    (quarantined : q ∈ s.nodes.getQuarantinedNodes) (operations : List Operation)
    (remains : ∀ n ∈ (s.perform config (.getQueryPlanNodesForHash hash)).passed config operations,
      q ∈ n.getQuarantinedNodes)
    (unrivalled : (s.perform config (.getQueryPlanNodesForHash hash)).Meets
      (Session.Unrivalled hash q) config operations) :
    let after := ((s.perform config (.getQueryPlanNodesForHash hash)).run config operations).nodes
    after.assigned hash = some q ∧
    (firstNodeWithSeed (after.getActiveNodes ++ [q]) hash = .ok q →
      ∃ others, (after.getQueryPlanNodesForHash config hash).1 = .ok (q :: others)) ∧
    ∀ other, firstNodeWithSeed (after.getActiveNodes ++ [q]) hash = .ok other → other ≠ q →
      (after.getQueryPlanNodesForHash config hash).2.assigned hash = none ∧
      ∃ others, (after.getQueryPlanNodesForHash config hash).1 = .ok others ∧ q ∉ others := by
  intro after
  obtain ⟨_, visible, held⟩ := LiveNodes.first_of_returned returned quarantined
  have still : q ∈ (s.nodes.getQueryPlanNodesForHash config hash).2.getQuarantinedNodes := by
    obtain ⟨assignments, plan, node, planned⟩ := s.nodes.getQueryPlanNodesForHash_eq config hash
    rw [planned]
    exact quarantined
  obtain ⟨held, quarantined⟩ := Session.assigned_kept_run
    (s.perform config (.getQueryPlanNodesForHash hash)) operations visible unrivalled held still
    remains
  refine ⟨held, ?_, ?_⟩
  · intro first
    have distinct : after.getActiveNodes.Nodup := after.healthStore.getActiveNodes_ascending.nodup
    rw [LiveNodes.plan_kept held quarantined visible first, appendUniqueNodes,
      appendFresh_eq_filter distinct]
    exact ⟨_, rfl⟩
  · intro other first rival
    rw [LiveNodes.plan_lost held quarantined first rival]
    refine ⟨(LiveNodes.assigned_erase _ hash hash).trans (if_pos rfl), _, rfl, ?_⟩
    intro listed
    rcases mem_appendFresh.mp listed with none | active
    · simp at none
    · exact NodeHealthStore.not_active_of_quarantined quarantined active.1

/-- The only node is in quarantine and about to be told of another one. -/
def Session.rivalled (other : Bytes) : Session :=
  (Session.alone (bytes "q") (bytes "[\"q\",\"" ++ other ++ bytes "\"]")).run {}
    (quarantining (({} : Config).nodeUrl (bytes "q")))

def Session.assigning (s : Session) (hash : Int64) (q : Url) : Session :=
  let nodes := { s.nodes with
    quarantineByHash := s.nodes.quarantineByHash.assign hash q
    quarantineNodeIndex := s.nodes.quarantineNodeIndex + 1 }
  { s with nodes := nodes, trace := s.trace ++ [nodes] }

theorem Session.perform_alone {config : Config} {s : Session} {hash : Int64} {q : Url}
    (active : s.nodes.getActiveNodes = []) (only : s.nodes.getQuarantinedNodes = [q])
    (visible : q.empty = false) (free : s.nodes.quarantineByHash.lookup hash.toInt = none) :
    s.perform config (.getQueryPlanNodesForHash hash) = s.assigning hash q := by
  simp only [perform, act, LiveNodes.plan_alone active only visible free, assigning]

theorem Session.rivalled_refreshed {other : Bytes} (either : other ∈ [bytes "a", bytes "z"])
    {q u : Url} {t : Session} (sole : q = ({} : Config).nodeUrl (bytes "q"))
    (rival : u = ({} : Config).nodeUrl other)
    (assigned : t = (Session.rivalled other).assigning 0 q) :
    (∀ n ∈ t.passed {} [.updateLiveNodes], q ∈ n.getQuarantinedNodes) ∧
      (t.run {} [.updateLiveNodes]).nodes.assigned 0 = some q ∧
      (t.run {} [.updateLiveNodes]).nodes.getActiveNodes = [u] ∧
      q ∈ (t.run {} [.updateLiveNodes]).nodes.getQuarantinedNodes := by
  rw [passed, run, run, perform, updateLiveNodes, fetchLiveNodes,
    show ({} : Config).routingScope.chain = [.cluster] from rfl]
  simp only [List.mem_cons, List.not_mem_nil, or_false] at either
  rcases either with rfl | rfl
  · subst assigned rival sole
    rw [@fetchFrom_singleton _ _ _ _ (({} : Config).nodeUrl (bytes "q")) (by decide +kernel)
      (by decide)]
    decide +kernel
  · subst assigned rival sole
    rw [@fetchFrom_singleton _ _ _ _ (({} : Config).nodeUrl (bytes "q")) (by decide +kernel)
      (by decide)]
    decide +kernel

theorem Session.rivalled_assigned {other : Bytes} (either : other ∈ [bytes "a", bytes "z"])
    {q : Url} (sole : q = ({} : Config).nodeUrl (bytes "q")) :
    (Session.rivalled other).nodes.getActiveNodes = [] ∧
      (Session.rivalled other).nodes.getQuarantinedNodes = [q] ∧
      (Session.rivalled other).nodes.quarantineByHash.lookup (0 : Int64).toInt = none := by
  simp only [List.mem_cons, List.not_mem_nil, or_false] at either
  subst sole
  rcases either with rfl | rfl
  · decide +kernel
  · decide +kernel

theorem Session.plan_after_rival {other : Bytes} (either : other ∈ [bytes "a", bytes "z"])
    {q u : Url} (sole : q = ({} : Config).nodeUrl (bytes "q"))
    (rival : u = ({} : Config).nodeUrl other)
    (first : firstNodeWithSeed [u, q] 0 = .ok u) (different : u ≠ q) (visible : u.empty = false) :
    let s := Session.rivalled other
    let t := s.perform {} (.getQueryPlanNodesForHash 0)
    q ∈ s.nodes.getQuarantinedNodes ∧ (s.nodes.getQueryPlanNodesForHash {} 0).1 = .ok [q] ∧
      (∀ n ∈ t.passed {} [.updateLiveNodes], q ∈ n.getQuarantinedNodes) ∧
      ((t.run {} [.updateLiveNodes]).nodes.getQueryPlanNodesForHash {} 0).1 = .ok [u] := by
  intro s t
  obtain ⟨active, only, free⟩ := rivalled_assigned either sole
  have present : q.empty = false := by rw [sole]; rfl
  have planned : t = s.assigning 0 q := perform_alone active only present free
  obtain ⟨remains, held, alone, quarantined⟩ := rivalled_refreshed either sole rival planned
  have outranked :
      firstNodeWithSeed ((t.run {} [.updateLiveNodes]).nodes.getActiveNodes ++ [q]) 0 = .ok u := by
    rw [alone]
    exact first
  refine ⟨by simp [s, only], ?_, remains, ?_⟩
  · rw [LiveNodes.plan_alone active only present free]
  · rw [LiveNodes.plan_lost held quarantined outranked different, alone]
    simp [appendUniqueNodes, appendFresh, visible]

theorem Session.rivalled_next {q : Url} {t : Session} (sole : q = ({} : Config).nodeUrl (bytes "q"))
    (assigned : t = (Session.rivalled (bytes "a")).assigning 0 q) :
    (∀ n ∈ t.passed {} [.nextNode], q ∈ n.getQuarantinedNodes) ∧
      (t.run {} [.nextNode]).nodes.getActiveNodes = [] := by
  subst assigned sole
  decide +kernel

/-- `NextNode` may take a node out of turn, but takes the hash from nobody: the node
assigned to it is still the first of its next plan. -/
theorem assignment_lasts_after_next :
    let q := ({} : Config).nodeUrl (bytes "q")
    let t := (Session.rivalled (bytes "a")).perform {} (.getQueryPlanNodesForHash 0)
    ∃ others, ((t.run {} [.nextNode]).nodes.getQueryPlanNodesForHash {} 0).1 =
      .ok (q :: others) := by
  intro q t
  obtain ⟨active, only, free⟩ := @Session.rivalled_assigned (bytes "a") (by simp) q rfl
  have returned : ((Session.rivalled (bytes "a")).nodes.getQueryPlanNodesForHash {} 0).1 =
      .ok [q] := by
    rw [LiveNodes.plan_alone active only rfl free]
  obtain ⟨remains, none⟩ := Session.rivalled_next rfl (Session.perform_alone active only rfl free)
  have lasts := assignment_lasts {} (Session.rivalled (bytes "a")) 0 q [] returned (by simp [only])
    [.nextNode] remains ⟨fun planned => absurd planned (by simp), trivial⟩
  apply lasts.2.1
  rw [none]
  exact firstNodeWithSeed_singleton q 0

/-- A refresh finds a node that is first for the hash, and the hash leaves the
node that stayed in quarantine. -/
theorem assignment_lost_in_quarantine :
    let q := ({} : Config).nodeUrl (bytes "q")
    ∃ other, other ≠ bytes "q" ∧ ∃ s : Session, s = Session.rivalled other ∧
      LiveNodes.new [bytes "q"] {} 0 = .ok (Session.alone (bytes "q") []).nodes ∧
      let t := s.perform {} (.getQueryPlanNodesForHash 0)
      q ∈ s.nodes.getQuarantinedNodes ∧ (s.nodes.getQueryPlanNodesForHash {} 0).1 = .ok [q] ∧
        (∀ n ∈ t.passed {} [.updateLiveNodes], q ∈ n.getQuarantinedNodes) ∧
        ((t.run {} [.updateLiveNodes]).nodes.getQueryPlanNodesForHash {} 0).1 =
          .ok [({} : Config).nodeUrl other] := by
  intro q
  rcases firstNodeWithSeed_pair 0 with smaller | greater
  · have first := (smaller (({} : Config).nodeUrl (bytes "a")) q (by decide +kernel)).1
    exact ⟨bytes "a", by decide, _, rfl, rfl, Session.plan_after_rival (by simp) rfl rfl first
      (by decide) rfl⟩
  · have first := (greater q (({} : Config).nodeUrl (bytes "z")) (by decide +kernel)).2
    exact ⟨bytes "z", by decide, _, rfl, rfl, Session.plan_after_rival (by simp) rfl rfl first
      (by decide) rfl⟩

end AlternatorClient
