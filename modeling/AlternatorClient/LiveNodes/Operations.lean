import AlternatorClient.LiveNodes.Actions

/-! Every operation of `AlternatorLiveNodes` is a path of actions, and a refresh
commits only nodes that the answers it received name. -/
namespace AlternatorClient
open Foundation

namespace Session
variable (config : Config) (licence : Licence)

theorem evolves_probeWithoutActive (s : Session) : Evolves config licence [] s
    (if (s.markActivity config).nodes.getActiveNodes.isEmpty then
      (s.markActivity config).probeDownNodes.2
      else s.markActivity config) := by
  have marked := evolves_markActivity config licence s
  split
  · exact marked.trans (evolves_probeDownNodes config licence _)
  · exact marked

theorem evolves_nextNode (s : Session) : Evolves config licence [] s (s.nextNode config).2 := by
  have start := evolves_probeWithoutActive config licence s
  simp only [nextNode]
  generalize (if (s.markActivity config).nodes.getActiveNodes.isEmpty then
    (s.markActivity config).probeDownNodes.2 else s.markActivity config) = t at start ⊢
  have tried :=
    start.trans (.act _ t (t.nodes.act_shouldTryQuarantinedNode t.nodes.getActiveNodes.isEmpty))
  split
  · have taken := tried.trans (.act _ _ (LiveNodes.act_nextQuarantinedNode _))
    split
    · exact taken
    · exact taken.trans (evolves_takeCandidate config licence _ _)
  · exact tried.trans (evolves_takeCandidate config licence _ _)

theorem evolves_getNodesFromEndpoint {endpoint : Url} {s t : Session}
    {result : Except Error (List Url)}
    (answered : s.getNodesFromEndpoint config endpoint = (result, t)) :
    Evolves config licence [⟨endpoint, result⟩] s t ∧ t.nodes = s.nodes := by
  obtain ⟨same, trace, logged⟩ := getNodesFromEndpoint_frame answered
  exact ⟨.outside same trace logged, same⟩

theorem known_reportNodeResult {config : Config} {s : Session} {node u : Url}
    {o : NodeHealthObservation} :
    (s.reportNodeResult config node o).nodes.Known u ↔ s.nodes.Known u := by
  obtain ⟨nextUpdate, marked⟩ := s.nodes.markActivity_eq config (s.clock 0)
  simp [reportNodeResult, markActivity, act, marked, LiveNodes.Known]

theorem mem_concludeScope {discovered nodes : List Url} {lastError : Option Error}
    (concluded : concludeScope discovered lastError = .ok nodes) (u : Url) :
    u ∈ nodes ↔ u ∈ discovered := by
  simp only [concludeScope] at concluded
  split at concluded
  · cases concluded
    exact mem_sortAndDedupeNodes
  · rename_i none
    split at concluded
    · contradiction
    · cases concluded
      simp_all

/-- The loop over a plan of known nodes: it finds what the answers name, and reports
the nodes that failed to answer. -/
theorem evolves_visitPlan (scope : RoutingScopePtr) (fuel : Nat) (plan : QueryPlan)
    (discovered : List Url) (lastError : Option Error) (s : Session)
    (start : scope.isCluster = true ∨ discovered = [])
    (known : ∀ u ∈ plan.nodes, s.nodes.Known u) :
    ∃ answers,
      (∀ licence : Licence, licence.Covers answers → Evolves config licence answers s
        (visitPlan config scope fuel plan discovered lastError s).2) ∧
      ∀ nodes, (visitPlan config scope fuel plan discovered lastError s).1 = .ok nodes →
        ∀ u, u ∈ nodes ↔ u ∈ discovered ∨ u ∈ listed answers := by
  induction fuel generalizing plan discovered lastError s with
  | zero =>
    refine ⟨[], fun licence _ => .refl s, ?_⟩
    intro nodes concluded u
    simpa [listed] using mem_concludeScope concluded u
  | succ fuel ih =>
    have known {node : Url} {after : QueryPlan} {t : Session} (same : t.nodes = s.nodes)
        (perm : (node :: after.nodes).Perm plan.nodes) :
        t.nodes.Known node ∧ ∀ u ∈ after.nodes, t.nodes.Known u := by
      rw [same]
      exact List.forall_mem_cons.mp fun u member => known u (perm.subset member)
    have turn := turn_visitPlan config scope fuel plan discovered lastError s
    generalize visitPlan config scope (fuel + 1) plan discovered lastError s = result at turn ⊢
    cases turn with
    | concluded =>
      refine ⟨[], fun licence _ => .refl s, ?_⟩
      intro nodes concluded u
      simpa [listed] using mem_concludeScope concluded u
    | oversized => exact ⟨[], fun licence _ => .refl s, by simp⟩
    | nothing node after perm t answered =>
      have unchanged := (getNodesFromEndpoint_frame answered).1
      obtain ⟨answers, evolved, found⟩ := ih after discovered lastError t start
        (known unchanged perm).2
      refine ⟨_, fun licence covers => (evolves_getNodesFromEndpoint config licence answered).1.trans
        (evolved licence (Licence.covers_append.mp covers).2), ?_⟩
      intro nodes returned u
      rw [found nodes returned u, listed_append]
      simp [listed, Except.toOption]
    | list node after perm t nodes some plain answered =>
      have none := start.resolve_left (by simp [plain])
      refine ⟨_, fun licence _ => (evolves_getNodesFromEndpoint config licence answered).1, ?_⟩
      intro nodes' returned u
      cases returned
      simp [none, listed, Except.toOption]
    | merged node after perm t nodes cluster answered =>
      have unchanged := (getNodesFromEndpoint_frame answered).1
      obtain ⟨answers, evolved, found⟩ :=
        ih after (discovered ++ nodes) lastError t (.inl cluster) (known unchanged perm).2
      refine ⟨_, fun licence covers => (evolves_getNodesFromEndpoint config licence answered).1.trans
        (evolved licence (Licence.covers_append.mp covers).2), ?_⟩
      intro result returned u
      rw [found result returned u, listed_append, List.mem_append, List.mem_append, or_assoc]
      simp [listed, Except.toOption]
    | failed node after perm t error answered =>
      have unchanged := (getNodesFromEndpoint_frame answered).1
      obtain ⟨asker, others⟩ := known unchanged perm
      obtain ⟨answers, evolved, found⟩ := ih after discovered (.some error)
        (t.reportNodeResult config node (discoveryObservation error)) start
        fun u member => known_reportNodeResult.mpr (others u member)
      refine ⟨⟨localNodesEndpoint scope node, .error error⟩ :: answers, fun licence covers => ?_, ?_⟩
      · rw [← List.singleton_append] at covers ⊢
        obtain ⟨now, later⟩ := Licence.covers_append.mp covers
        have reported : Evolves config licence [] t
            (t.reportNodeResult config node (discoveryObservation error)) :=
          evolves_reportNodeResult config licence t node _ (.inr ⟨now node
            ⟨_, List.mem_cons_self, ⟨scope, rfl⟩, error, rfl⟩, asker⟩)
        exact ((evolves_getNodesFromEndpoint config licence answered).1.trans reported).trans
          (evolved licence later)
      · intro nodes returned u
        rw [found nodes returned u, listed_cons]
        simp [Except.toOption]

theorem evolves_getNodesForScope (scope : RoutingScopePtr) (s : Session) :
    ∃ answers,
      (∀ licence : Licence, licence.Covers answers →
        Evolves config licence answers s (s.getNodesForScope config scope).2) ∧
      ∀ nodes, (s.getNodesForScope config scope).1 = .ok nodes →
        ∀ u, u ∈ nodes ↔ u ∈ listed answers := by
  have chosen : (∀ licence, Evolves config licence [] s (s.getDiscoveryNodesForScope config scope).2) ∧
      ∀ u ∈ (s.getDiscoveryNodesForScope config scope).1,
        (s.getDiscoveryNodesForScope config scope).2.nodes.Known u := by
    simp only [getDiscoveryNodesForScope]
    split
    · exact ⟨fun licence => .refl s, fun u member => .inl member⟩
    · refine ⟨fun licence => .act _ s s.nodes.act_getQueryPlanNodes, ?_⟩
      intro u member
      right
      obtain ⟨plan, node, same⟩ := s.nodes.getQueryPlanNodes_eq config
      simp only [act, same]
      exact s.nodes.getQueryPlanNodes_subset config member
  obtain ⟨chosen, known⟩ := chosen
  simp only [getNodesForScope]
  generalize (s.getDiscoveryNodesForScope config scope).2 = t at chosen known ⊢
  generalize (s.getDiscoveryNodesForScope config scope).1 = nodes at known ⊢
  obtain ⟨answers, evolved, found⟩ := evolves_visitPlan config scope (nodes.length + 1)
    (QueryPlan.ofClock nodes t.takeSeed.1) [] none t.takeSeed.2 (.inr rfl) known
  refine ⟨answers, fun licence covers => ?_, ?_⟩
  · have seeded : Evolves config licence [] t t.takeSeed.2 := .outside rfl rfl (by simp [takeSeed])
    exact ((chosen licence).trans seeded).trans (evolved licence covers)
  · intro nodes returned u
    simpa using found nodes returned u

theorem evolves_fetchFrom (scopes : List RoutingScopePtr) (s : Session) :
    ∃ answers,
      (∀ licence : Licence, licence.Covers answers →
        Evolves config licence answers s (fetchFrom config scopes s).2) ∧
      ∀ nodes, (fetchFrom config scopes s).1 = .ok nodes → ∀ u, u ∈ nodes ↔ u ∈ listed answers := by
  induction scopes generalizing s with
  | nil => exact ⟨[], fun licence _ => .refl s, by simp [fetchFrom, listed]⟩
  | cons scope rest ih =>
    obtain ⟨answers, evolved, found⟩ := evolves_getNodesForScope config scope s
    simp only [fetchFrom]
    split
    · rename_i error t returned
      rw [returned] at evolved
      exact ⟨answers, evolved, by simp⟩
    · rename_i nodes t returned
      rw [returned] at evolved found
      split
      · exact ⟨answers, evolved, found⟩
      · rename_i none
        have unlisted : ∀ u, u ∉ listed answers := by
          intro u member
          have empty : nodes = [] := by simpa using none
          exact absurd ((found nodes rfl u).mpr member) (by simp [empty])
        obtain ⟨more, evolved', found'⟩ := ih t
        refine ⟨answers ++ more, fun licence covers => ?_, ?_⟩
        · obtain ⟨now, later⟩ := Licence.covers_append.mp covers
          exact (evolved licence now).trans (evolved' licence later)
        · intro nodes returned u
          rw [found' nodes returned u, listed_append, List.mem_append]
          exact (or_iff_right (unlisted u)).symm

theorem fetchFrom_liveNodes (scopes : List RoutingScopePtr) (s : Session) :
    (fetchFrom config scopes s).2.nodes.liveNodes = s.nodes.liveNodes := by
  let discovering : Licence :=
    { reports := fun _ => False, discovers := fun _ => True, commits := fun _ => False
      drops := fun _ => False, plans := fun _ => False }
  obtain ⟨_, evolved, _⟩ := evolves_fetchFrom config scopes s
  obtain ⟨_, _, _, path⟩ := evolved discovering fun _ _ => trivial
  exact (path.invariant (P := fun n : LiveNodes => n.liveNodes = s.nodes.liveNodes)
    (fun act same => (act.liveNodes id).trans same) rfl).1

theorem evolves_updateLiveNodes (s : Session) :
    ∃ answers, ∀ licence : Licence, licence.Covers answers →
      (∀ n : LiveNodes, n.liveNodes = s.nodes.liveNodes → licence.commits n) →
      (∀ u, Unlisted answers u → licence.drops u) →
      Evolves config licence answers s (s.updateLiveNodes config).2 := by
  have unchanged := fetchFrom_liveNodes config config.routingScope.chain s
  obtain ⟨answers, evolved, found⟩ := evolves_fetchFrom config config.routingScope.chain s
  simp only [updateLiveNodes, fetchLiveNodes]
  refine ⟨answers, fun licence covers allowed drops => ?_⟩
  have evolved := evolved licence covers
  split
  · rename_i error t returned
    rw [returned] at evolved
    exact evolved
  · rename_i nodes t returned
    rw [returned] at evolved found unchanged
    split
    · simpa using evolved.trans (evolves_probeDownNodes config licence t)
    · rename_i some
      have nodes_ne : nodes ≠ [] := by simpa using some
      have listed_ne : listed answers ≠ [] := by
        obtain ⟨u, member⟩ := List.exists_mem_of_ne_nil nodes nodes_ne
        exact List.ne_nil_of_mem ((found nodes rfl u).mp member)
      -- The commit names nodes of the answers that came before it.
      obtain ⟨answered, states, traced, path⟩ := evolved
      dsimp only at answered traced path
      have commit : Act config licence answers t.nodes (t.nodes.commit nodes) :=
        .committed nodes nodes_ne (allowed _ unchanged)
          (fun u member => (found nodes rfl u).mp member)
          (fun u _ gone => drops u ⟨listed_ne, fun member => gone ((found nodes rfl u).mpr member)⟩)
      have committed : Evolves config licence answers s (t.act fun n => ((), n.commit nodes)).2 :=
        ⟨by simpa [act] using answered, states ++ [t.nodes.commit nodes], by simp [act, traced],
          path.append (.single commit)⟩
      simpa using committed.trans (evolves_probeDownNodes config licence _)

theorem evolves_checkScopes (scopes : List RoutingScopePtr) (misses : List Bytes) (s : Session) :
    ∃ answers, ∀ licence : Licence, licence.Covers answers →
      Evolves config licence answers s (checkScopes config scopes misses s).2 := by
  induction scopes generalizing misses s with
  | nil => exact ⟨[], fun licence _ => .refl s⟩
  | cons scope rest ih =>
    obtain ⟨answers, evolved, _⟩ := evolves_getNodesForScope config scope s
    simp only [checkScopes]
    split
    · exact ⟨[], fun licence _ => .refl s⟩
    · split
      · rename_i error t returned
        rw [returned] at evolved
        exact ⟨answers, evolved⟩
      · rename_i nodes t returned
        rw [returned] at evolved
        split
        · exact ⟨answers, evolved⟩
        · obtain ⟨more, evolved'⟩ := ih (misses ++ [scope.toString]) t
          refine ⟨answers ++ more, fun licence covers => ?_⟩
          obtain ⟨now, later⟩ := Licence.covers_append.mp covers
          exact (evolved licence now).trans (evolved' licence later)

theorem evolves_checkIfRackDatacenterFeatureIsSupported (s : Session) :
    ∃ answers, ∀ licence : Licence, Evolves config licence answers s
      (s.checkIfRackDatacenterFeatureIsSupported config).2 := by
  have taken (licence : Licence) : Evolves config licence [] s (s.act LiveNodes.nextKnownNode).2 :=
    .act _ s s.nodes.act_nextKnownNode
  simp only [checkIfRackDatacenterFeatureIsSupported]
  generalize s.act LiveNodes.nextKnownNode = result at taken ⊢
  obtain ⟨node, t⟩ := result
  dsimp only at taken ⊢
  split
  · exact ⟨[], taken⟩
  · split
    · rename_i error u answered
      exact ⟨_, fun licence =>
        (taken licence).trans (evolves_getNodesFromEndpoint config licence answered).1⟩
    · rename_i hosts u answered
      have first (licence : Licence) :=
        (taken licence).trans (evolves_getNodesFromEndpoint config licence answered).1
      split
      · rename_i error v answered
        exact ⟨_, fun licence =>
          (first licence).trans (evolves_getNodesFromEndpoint config licence answered).1⟩
      · rename_i hosts v answered
        have second (licence : Licence) :=
          (first licence).trans (evolves_getNodesFromEndpoint config licence answered).1
        split
        · exact ⟨_, second⟩
        · exact ⟨_, second⟩

end Session

/-- What an operation may do that starts from a session: report the node it is
given, report nodes that failed to answer it, replace the live nodes as it found
them, drop what no answer listed. -/
def Operation.licence (config : Config) (operation : Operation) (s : Session) : Licence where
  reports u := ∃ o, operation = .reportNodeResult u o
  discovers u :=
    (operation = .updateLiveNodes ∨ operation = .checkIfRackAndDatacenterSetCorrectly) ∧
      Failing (s.received config operation) u
  commits n := operation = .updateLiveNodes ∧ n.liveNodes = s.nodes.liveNodes
  drops := Unlisted (s.received config operation)
  plans hash := operation = .getQueryPlanNodesForHash hash

/-- Every operation is a path of actions that its licence allows, and the answers
along it are those that discovery was told. An invariant of the actions is thus one
of every run. -/
theorem Session.evolves_perform (config : Config) (s : Session) (operation : Operation) :
    Evolves config (operation.licence config s) (s.received config operation) s
      (s.perform config operation) := by
  have received {answers : List Answer}
      (answered : (s.perform config operation).answers = s.answers ++ answers) :
      s.received config operation = answers := by simp [received, answered]
  let anything : Licence :=
    { reports := fun _ => True, discovers := fun _ => True, commits := fun _ => True
      drops := fun _ => True, plans := fun _ => True }
  cases operation with
  | updateLiveNodes =>
    obtain ⟨answers, evolved⟩ := evolves_updateLiveNodes config s
    have same := received (evolved anything (fun _ _ => trivial) (fun _ _ => trivial)
      fun _ _ => trivial).answered
    rw [same]
    exact evolved _ (fun u failing => ⟨.inl rfl, same ▸ failing⟩) (fun n live => ⟨rfl, live⟩)
      (fun u gone => by simpa [Operation.licence, same] using gone)
  | checkIfRackAndDatacenterSetCorrectly =>
    obtain ⟨answers, evolved⟩ := evolves_checkScopes config config.routingScope.chain [] s
    have same := received (evolved anything fun _ _ => trivial).answered
    rw [same]
    exact evolved _ fun u failing => ⟨.inr rfl, same ▸ failing⟩
  | checkIfRackDatacenterFeatureIsSupported =>
    obtain ⟨answers, evolved⟩ := evolves_checkIfRackDatacenterFeatureIsSupported config s
    rw [received (evolved anything).answered]
    exact evolved _
  | reportNodeResult node o =>
    have evolved (licence : Licence) (allowed : licence.reports node) :=
      evolves_reportNodeResult config licence s node o (.inl allowed)
    rw [received (evolved anything trivial).answered]
    exact evolved _ ⟨o, rfl⟩
  | probeDownNodes =>
    rw [received (evolves_probeDownNodes config anything s).answered]
    exact evolves_probeDownNodes config _ s
  | nextNode =>
    rw [received (evolves_nextNode config anything s).answered]
    exact evolves_nextNode config _ s
  | getQueryPlanNodes =>
    have evolved (licence : Licence) :
        Evolves config licence [] s (s.act (LiveNodes.getQueryPlanNodes config)).2 :=
      .act _ s s.nodes.act_getQueryPlanNodes
    rw [received (evolved anything).answered]
    exact evolved _
  | getQueryPlanNodesForHash hash =>
    have evolved (licence : Licence) (allowed : licence.plans hash) :
        Evolves config licence [] s (s.act (LiveNodes.getQueryPlanNodesForHash config hash)).2 :=
      .act _ s (.planned hash allowed)
    rw [received (evolved anything trivial).answered]
    exact evolved _ rfl

end AlternatorClient
