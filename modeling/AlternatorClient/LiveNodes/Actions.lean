import AlternatorClient.LiveNodes.Discovery
import AlternatorClient.Foundation.Path

/-! What any operation can do to the state. Each of them passes through a path
of actions; invariants are proved for the actions and hold of every run. -/
namespace AlternatorClient
open Foundation

/-- A node of the state that discovery may ask: an initial node or one with a status. -/
def LiveNodes.Known (s : LiveNodes) (u : Url) : Prop := u ∈ s.initialNodes ∨ u ∈ s.healthStore.nodes

def listed (answers : List Answer) : List Url :=
  answers.flatMap fun answer => answer.result.toOption.getD []

theorem listed_append (first second : List Answer) :
    listed (first ++ second) = listed first ++ listed second := List.flatMap_append

theorem listed_cons (answer : Answer) (rest : List Answer) :
    listed (answer :: rest) = answer.result.toOption.getD [] ++ listed rest := rfl

/-- A request to the node came to an error, which discovery reports. -/
def Failing (answers : List Answer) (node : Url) : Prop :=
  ∃ answer ∈ answers, (∃ scope, answer.endpoint = Session.localNodesEndpoint scope node) ∧
    ∃ error, answer.result = .error error

theorem failing_append {first second : List Answer} {node : Url} :
    Failing (first ++ second) node ↔ Failing first node ∨ Failing second node := by
  simp [Failing, or_and_right, exists_or]

/-- Nodes were listed and this one was not, so a refresh that was told the answers
removes it. -/
def Unlisted (answers : List Answer) (node : Url) : Prop :=
  listed answers ≠ [] ∧ node ∉ listed answers

/-- What an operation may do: report nodes, report known ones that it asked, replace
the live nodes of some states and drop some of them, plan for hashes. -/
structure Licence where
  reports : Url → Prop
  discovers : Url → Prop
  commits : LiveNodes → Prop
  drops : Url → Prop
  plans : Int64 → Prop

/-- A licence to report every node that failed to answer. -/
def Licence.Covers (licence : Licence) (answers : List Answer) : Prop :=
  ∀ node, Failing answers node → licence.discovers node

theorem Licence.covers_append {licence : Licence} {first second : List Answer} :
    licence.Covers (first ++ second) ↔ licence.Covers first ∧ licence.Covers second := by
  simp only [Covers, failing_append, or_imp, forall_and]

/-- One action of an operation with a licence that was told the answers. -/
inductive Act (config : Config) (licence : Licence) (answers : List Answer) (s : LiveNodes) :
    LiveNodes → Prop
  | marked (now : Int) : Act config licence answers s (s.markActivity config now).1
  | observed (node : Url) (o : NodeHealthObservation)
      (source : licence.reports node ∨ licence.discovers node ∧ s.Known node) :
      Act config licence answers s (s.observe node o)
  | probed (report : Url × NodeHealthObservation) (down : report.1 ∈ s.getDownNodes) :
      Act config licence answers s (Session.probed s report)
  | committed (nodes : List Url) (some : nodes ≠ []) (allowed : licence.commits s)
      (named : nodes ⊆ listed answers)
      (dropped : ∀ u ∈ s.liveNodes, u ∉ nodes → licence.drops u) :
      Act config licence answers s (s.commit nodes)
  | counted (i j k : UInt64) :
      Act config licence answers s
        { s with nextNodeIndex := i, quarantinePlanIndex := j, quarantineNodeIndex := k }
  | planned (hash : Int64) (allowed : licence.plans hash) :
      Act config licence answers s (s.getQueryPlanNodesForHash config hash).2

section
variable {config : Config} {licence : Licence} {answers : List Answer} {s t : LiveNodes}

theorem Act.mono {more : List Answer} (within : listed answers ⊆ listed more)
    (act : Act config licence answers s t) :
    Act config licence more s t := by
  cases act with
  | marked now => exact .marked now
  | observed node o source => exact .observed node o source
  | probed report down => exact .probed report down
  | committed nodes some allowed named dropped =>
    exact .committed nodes some allowed (fun u member => within (named member)) dropped
  | counted i j k => exact .counted i j k
  | planned hash allowed => exact .planned hash allowed

/-- Only a refresh changes which nodes there are, and it takes them from the answers
it received. Every other action moves nodes from one state to another at most. -/
theorem Act.nodes_cases (act : Act config licence answers s t) :
    (t.initialNodes = s.initialNodes ∧ t.liveNodes = s.liveNodes ∧
      t.healthStore.nodes = s.healthStore.nodes) ∨
    ∃ nodes, licence.commits s ∧ nodes ⊆ listed answers ∧ t = s.commit nodes := by
  cases act with
  | marked now =>
    obtain ⟨nextUpdate, marked⟩ := s.markActivity_eq config now
    exact .inl (by simp [marked])
  | observed node o source => exact .inl (by simp)
  | probed report down => exact .inl (by simp [Session.probed])
  | committed nodes some allowed named dropped => exact .inr ⟨nodes, allowed, named, rfl⟩
  | counted i j k => exact .inl ⟨rfl, rfl, rfl⟩
  | planned hash allowed =>
    obtain ⟨held, plan, node, planned⟩ := s.getQueryPlanNodesForHash_eq config hash
    exact .inl (by simp [planned])

theorem Act.initialNodes (act : Act config licence answers s t) :
    t.initialNodes = s.initialNodes := by
  rcases act.nodes_cases with ⟨same, _⟩ | ⟨nodes, _, _, rfl⟩
  · exact same
  · obtain ⟨held, committed⟩ := s.commit_eq nodes
    rw [committed]

theorem Act.liveNodes (act : Act config licence answers s t) (never : ¬ licence.commits s) :
    t.liveNodes = s.liveNodes := by
  rcases act.nodes_cases with ⟨_, same, _⟩ | ⟨nodes, allowed, _⟩
  · exact same
  · exact absurd allowed never

end

/-- A session became another by actions, while discovery received the answers. The
states in between are those its trace gained, so an invariant of the actions holds
of them too. -/
structure Evolves (config : Config) (licence : Licence) (answers : List Answer) (s t : Session) :
    Prop where
  answered : t.answers = s.answers ++ answers
  path : ∃ states, t.trace = s.trace ++ states ∧
    Path (Act config licence answers) s.nodes states t.nodes

section
variable {config : Config} {licence : Licence} {s t u : Session} {answers more : List Answer}

theorem Evolves.refl (s : Session) : Evolves config licence [] s s :=
  ⟨by simp, [], by simp, .refl _⟩

/-- Requests, the clock and seeds are not part of the state. -/
theorem Evolves.outside (same : t.nodes = s.nodes) (trace : t.trace = s.trace)
    (answered : t.answers = s.answers ++ answers) : Evolves config licence answers s t :=
  ⟨answered, [], by simp [trace], same ▸ .refl _⟩

theorem Evolves.trans (first : Evolves config licence answers s t)
    (second : Evolves config licence more t u) : Evolves config licence (answers ++ more) s u := by
  obtain ⟨answered, states, traced, path⟩ := first
  obtain ⟨answered', states', traced', path'⟩ := second
  refine ⟨by simp [answered', answered], states ++ states', by simp [traced', traced], ?_⟩
  refine (path.mono fun act => act.mono ?_).append (path'.mono fun act => act.mono ?_)
  · simp [listed_append]
  · simp [listed_append]

theorem Evolves.act {α : Type} (f : LiveNodes → α × LiveNodes) (s : Session)
    (step : Act config licence [] s.nodes (f s.nodes).2) :
    Evolves config licence [] s (s.act f).2 :=
  ⟨by simp [Session.act], [(f s.nodes).2], rfl, .single step⟩

end

namespace Session
variable (config : Config) (licence : Licence)

theorem evolves_markActivity (s : Session) :
    Evolves config licence [] s (s.markActivity config) := by
  have read : Evolves config licence [] s { s with clock := fun n => s.clock (n + 1) } :=
    .outside rfl rfl (by simp)
  exact read.trans (.act _ _ (.marked _))

theorem evolves_reportNodeResult (s : Session) (node : Url) (o : NodeHealthObservation)
    (source : licence.reports node ∨ licence.discovers node ∧ s.nodes.Known node) :
    Evolves config licence [] s (s.reportNodeResult config node o) := by
  refine (evolves_markActivity config licence s).trans (.act _ _ (.observed node o ?_))
  obtain ⟨nextUpdate, marked⟩ := s.nodes.markActivity_eq config (s.clock 0)
  simp only [markActivity, Session.act, marked]
  exact source

/-- The candidates of a probe have different texts, so each of them is still
Down when its turn comes. -/
theorem path_probeCandidates (candidates : List Url) (nodes : LiveNodes) (wire : Wire)
    (enabled : nodes.healthStore.config.disabled = false)
    (ascending : Ascending Url.toString candidates)
    (down : ∀ u ∈ candidates, u ∈ nodes.getDownNodes) :
    let result := NodeHealthStore.probeCandidates probe candidates nodes.healthStore wire
    Path (Act config licence []) nodes (probedStates nodes result.1)
      { nodes with healthStore := result.2.1 } := by
  induction candidates generalizing nodes wire with
  | nil => exact .refl _
  | cons node rest ih =>
    obtain ⟨before, ascending⟩ := List.pairwise_cons.mp ascending
    obtain ⟨isDown, down⟩ := List.forall_mem_cons.mp down
    simp only [NodeHealthStore.probeCandidates]
    split
    · exact ih nodes wire enabled ascending down
    · rename_i status found
      have others : ∀ u ∈ rest,
          u ∈ (probed nodes (node, (probe node status wire).1)).getDownNodes := by
        intro u member
        exact (NodeHealthStore.mem_getDownNodes_reportNodeResult (before u member).ne' _).mpr
          (down u member)
      have continued := ih (probed nodes (node, (probe node status wire).1))
        (probe node status wire).2
        (by simpa [probed] using enabled) ascending others
      exact .step (.probed _ isDown) continued

theorem evolves_probeDownNodes (s : Session) : Evolves config licence [] s s.probeDownNodes.2 := by
  refine ⟨by simp [probeDownNodes], _, rfl, ?_⟩
  cases disabled : s.nodes.healthStore.config.disabled with
  | true =>
    simp only [probeDownNodes, NodeHealthStore.probeDownNodes, disabled, if_true]
    exact .refl _
  | false =>
    simp only [probeDownNodes, NodeHealthStore.probeDownNodes, disabled, Bool.false_eq_true,
      if_false]
    refine path_probeCandidates config licence _ s.nodes s.wire disabled ?_ fun u member => member
    simp only [NodeHealthStore.getDownNodes, disabled, Bool.false_eq_true, if_false]
    exact s.nodes.healthStore.getNodesByState_ascending .down

theorem evolves_takeCandidate (candidates : List Url) (s : Session) :
    Evolves config licence [] s (s.takeCandidate candidates).2 := by
  unfold takeCandidate
  split
  · exact .refl s
  · exact .act _ s (.counted _ s.nodes.quarantinePlanIndex s.nodes.quarantineNodeIndex)

end Session

namespace LiveNodes
variable {config : Config} {licence : Licence} {answers : List Answer}

theorem act_shouldTryQuarantinedNode (b : Bool) (s : LiveNodes) :
    Act config licence answers s (s.shouldTryQuarantinedNode config b).2 := by
  obtain ⟨plan, tried⟩ := s.shouldTryQuarantinedNode_eq config b
  rw [tried]
  exact .counted s.nextNodeIndex plan s.quarantineNodeIndex

theorem act_nextQuarantinedNode (s : LiveNodes) :
    Act config licence answers s s.nextQuarantinedNode.2 := by
  obtain ⟨node, taken⟩ := s.nextQuarantinedNode_eq
  rw [taken]
  exact .counted s.nextNodeIndex s.quarantinePlanIndex node

theorem act_nextKnownNode (s : LiveNodes) : Act config licence answers s s.nextKnownNode.2 := by
  obtain ⟨next, taken⟩ := s.nextKnownNode_eq
  rw [taken]
  exact .counted next s.quarantinePlanIndex s.quarantineNodeIndex

theorem act_getQueryPlanNodes (s : LiveNodes) :
    Act config licence answers s (s.getQueryPlanNodes config).2 := by
  obtain ⟨plan, node, taken⟩ := s.getQueryPlanNodes_eq config
  rw [taken]
  exact .counted s.nextNodeIndex plan node

end LiveNodes
end AlternatorClient
