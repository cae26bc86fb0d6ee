import AlternatorClient.LiveNodes.Threads

/-! A thread that is never interrupted runs the operations as they are written
for one thread: the same results and the same state at the end. -/
namespace AlternatorClient
open Foundation Program

/-- What threads see of a session in which nobody holds `mutex_`. -/
def Session.shared (s : Session) : Shared := ⟨s.nodes, s.wire, s.clock, s.seeds, false⟩

/-- Alone, the call does what the function does to the session. -/
def Alone {α : Type} (p : Call α) (f : Session → α × Session) : Prop :=
  ∀ s, p.runAlone s.shared = some ((f s).1, (f s).2.shared)

namespace Alone
variable {α β : Type} {config : Config}

theorem bind {p : Call α} {q : α → Call β} {f : Session → α × Session}
    {g : α → Session → β × Session} (first : Alone p f) (second : ∀ a, Alone (q a) (g a)) :
    Alone (p >>= q) fun s => g (f s).1 (f s).2 := by
  intro s
  rw [runAlone_bind, first s]
  exact second (f s).1 (f s).2

theorem done (a : α) : Alone (.done a) fun s => (a, s) := fun _ => rfl

theorem congr {p : Call α} {f g : Session → α × Session} (alone : Alone p f)
    (same : ∀ s, (g s).1 = (f s).1 ∧ (g s).2.shared = (f s).2.shared) : Alone p g := by
  intro s
  rw [alone s, (same s).1, (same s).2]

theorem ite {c : Prop} [Decidable c] {p q : Call α} {f g : Session → α × Session}
    (yes : c → Alone p f) (no : ¬c → Alone q g) :
    Alone (if c then p else q) fun s => if c then f s else g s := by
  intro s
  split
  · exact yes ‹c› s
  · exact no ‹¬c› s

theorem atomically (f : LiveNodes → α × LiveNodes) :
    Alone (Call.atomically f) fun s => s.act f := fun _ => rfl

theorem locked (f : LiveNodes → α × LiveNodes) : Alone (Call.locked f) fun s => s.act f :=
  fun _ => rfl

theorem read (f : LiveNodes → α) : Alone (Call.read f) fun s => (f s.nodes, s) := fun _ => rfl

theorem markActivity : Alone (Call.markActivity config) fun s => ((), s.markActivity config) :=
  fun _ => rfl

theorem reportToStore (node : Url) (o : NodeHealthObservation) :
    Alone (Call.reportToStore node o) fun s =>
      ((), { s with nodes := Session.probed s.nodes (node, o) }) := fun _ => rfl

/-- `observe`, with the test of the status as the threads make it. -/
theorem observe_eq_if (node : Url) (o : NodeHealthObservation) (s : LiveNodes) :
    s.observe node o =
      if ((Session.probed s (node, o)).healthStore.getNodeStatus node).any
          fun status => status.state = .quarantined then
        Session.probed s (node, o)
      else (Session.probed s (node, o)).removeQuarantineHashAssignmentsForNode node := by
  simp only [LiveNodes.observe, Session.probed]
  split
  · rename_i found
    simp [found]
  · rename_i status found
    by_cases quarantined : status.state = .quarantined <;> simp [found, quarantined]

theorem reportNodeResult (node : Url) (o : NodeHealthObservation) :
    Alone (Call.reportNodeResult config node o) fun s =>
      ((), s.reportNodeResult config node o) := by
  refine congr (bind markActivity fun _ => bind (reportToStore node o) fun _ => bind (read _)
    fun status => ite (fun _ => done ()) fun _ => locked _) ?_
  intro s
  refine ⟨rfl, ?_⟩
  simp only [Session.reportNodeResult, Session.act, observe_eq_if]
  cases ((Session.probed (s.markActivity config).nodes (node, o)).healthStore.getNodeStatus
    node).any fun status => decide (status.state = .quarantined) with
  | true => rfl
  | false => rfl

theorem probe (node : Url) (status : NodeHealthStatus) :
    Alone (Call.probe node) fun s =>
      ((Session.probe node status s.wire).1,
        { s with wire := (Session.probe node status s.wire).2 }) := by
  intro s
  simp only [Call.probe, Session.probe, Wire.get, runAlone_bind, Call.get, runAlone_act,
    Option.bind_some, Session.shared]
  cases s.wire.answer 0 (node.withPathAndQuery (bytes "/localnodes")) with
  | ok response => rfl
  | error what => rfl

theorem probeCandidates (nodes : List Url) :
    Alone (Call.probeCandidates nodes) fun s =>
      let (reported, store, wire) :=
        NodeHealthStore.probeCandidates Session.probe nodes s.nodes.healthStore s.wire
      (NodeHealthStore.responsive reported,
        { s with nodes := { s.nodes with healthStore := store }, wire := wire }) := by
  induction nodes with
  | nil => exact done []
  | cons node rest ih =>
    intro s
    simp only [Call.probeCandidates, NodeHealthStore.probeCandidates, runAlone_bind, read _ s,
      Option.bind_some]
    cases found : s.nodes.healthStore.getNodeStatus node with
    | none => exact ih s
    | some status =>
      simp only [Option.isNone_some, Bool.false_eq_true, if_false, runAlone_bind, probe node status s,
        Option.bind_some]
      generalize Session.probe node status s.wire = probed
      obtain ⟨observation, wire⟩ := probed
      simp only [reportToStore node observation _, Option.bind_some, ih _, Session.probed]
      by_cases success : observation = .success <;>
        simp [success, NodeHealthStore.responsive, Session.shared]

theorem probeDownNodes : Alone Call.probeDownNodes Session.probeDownNodes := by
  intro s
  simp only [Call.probeDownNodes, Session.probeDownNodes, NodeHealthStore.probeDownNodes,
    runAlone_bind, read _ s, Option.bind_some]
  by_cases disabled : s.nodes.healthStore.config.disabled
  · simp [disabled, NodeHealthStore.responsive, Session.shared]
  · simp only [disabled, Bool.false_eq_true, if_false, runAlone_bind, read _ s, Option.bind_some]
    exact probeCandidates _ s

theorem shouldTryQuarantinedNode (b : Bool) :
    Alone (Call.shouldTryQuarantinedNode config b) fun s =>
      s.act (LiveNodes.shouldTryQuarantinedNode config b) := by
  intro s
  simp only [Call.shouldTryQuarantinedNode, Session.act, LiveNodes.shouldTryQuarantinedNode,
    runAlone_bind, read _ s, Option.bind_some]
  split
  · rfl
  · split
    · rfl
    · rfl

theorem nextQuarantinedNode :
    Alone Call.nextQuarantinedNode fun s => s.act LiveNodes.nextQuarantinedNode := by
  intro s
  simp only [Call.nextQuarantinedNode, Session.act, LiveNodes.nextQuarantinedNode, runAlone_bind,
    read _ s, Option.bind_some]
  split <;> rfl

theorem takeCandidate (candidates : List Url) :
    Alone (Call.takeCandidate candidates) (Session.takeCandidate candidates) := by
  intro s
  simp only [Call.takeCandidate, Session.takeCandidate]
  split <;> rfl

theorem candidatesOrProbe (active : List Url) :
    Alone (Call.candidatesOrProbe active) fun s =>
      if active.isEmpty then (s.probeDownNodes.2.nodes.getActiveNodes, s.probeDownNodes.2)
      else (active, s) :=
  ite (fun _ => bind probeDownNodes fun _ => read LiveNodes.getActiveNodes) fun _ => done active

theorem chooseNode (candidates : List Url) (tried : Bool) :
    Alone (Call.chooseNode candidates tried) fun s =>
      if tried then
        let (quarantined, s) := s.act LiveNodes.nextQuarantinedNode
        if !quarantined.empty then (quarantined, s) else s.takeCandidate candidates
      else s.takeCandidate candidates := by
  have alone := @bind _ _ _ _ _ _ nextQuarantinedNode fun quarantined =>
    @ite _ ((!quarantined.empty) = true) _ _ _ _ _ (fun _ => done quarantined)
      fun _ => takeCandidate candidates
  exact ite (fun _ => alone) fun _ => takeCandidate candidates

theorem nextNode : Alone (Call.nextNode config) (Session.nextNode config) := by
  have alone := @bind _ _ _ _ _ _ (@markActivity config) fun _ =>
    bind (read LiveNodes.getActiveNodes) fun active =>
      bind (candidatesOrProbe active) fun candidates =>
        bind (@shouldTryQuarantinedNode config candidates.isEmpty) (chooseNode candidates)
  refine alone.congr fun s => ?_
  simp only [Session.nextNode]
  by_cases none : (s.markActivity config).nodes.getActiveNodes.isEmpty
  · simp only [none, if_true, and_self]
  · simp only [none, Bool.false_eq_true, if_false, and_self]

theorem getQueryPlanNodes :
    Alone (Call.getQueryPlanNodes config) fun s => s.act (LiveNodes.getQueryPlanNodes config) := by
  intro s
  simp only [Call.getQueryPlanNodes, runAlone_bind, read _ _, Option.bind_some,
    shouldTryQuarantinedNode _ _, Session.act, LiveNodes.getQueryPlanNodes]
  split
  · simp only [runAlone_bind]
    rw [nextQuarantinedNode _]
    rfl
  · rfl

theorem sampleQuarantinedNodeForHash (hash : Int64) (active : List Url) :
    Alone (Call.sampleQuarantinedNodeForHash config hash active) fun s =>
      s.act (LiveNodes.sampleQuarantinedNodeForHash config hash active) := by
  intro s
  simp only [Call.sampleQuarantinedNodeForHash, runAlone_bind, shouldTryQuarantinedNode _ _,
    Option.bind_some, Session.act, LiveNodes.sampleQuarantinedNodeForHash]
  split
  · simp only [runAlone_bind]
    rw [read _ _, Option.bind_some]
    split
    · rfl
    · simp only [Call.quarantineTicket, runAlone_bind]
      rw [atomically _ _, Option.bind_some]
      simp only [Session.act]
      generalize quarantinedNodeIsFirstForHash _ active hash = first
      cases first with
      | error error => rfl
      | ok first =>
        cases first with
        | false => rfl
        | true => rfl
  · rfl

theorem sticky_eq (hash : Int64) (active : List Url) (s : LiveNodes) :
    s.stickyQuarantinedNodeForHash config hash active =
      match Call.heldAssignment hash active s.getQuarantinedNodes s with
      | (some result, s) => (result, s)
      | (none, s) => s.sampleQuarantinedNodeForHash config hash active := by
  simp only [LiveNodes.stickyQuarantinedNodeForHash, Call.heldAssignment]
  cases s.quarantineByHash.lookup hash.toInt with
  | none => rfl
  | some entry =>
    by_cases member : entry.2 ∈ s.getQuarantinedNodes
    · simp only [member, if_true]
      cases quarantinedNodeIsFirstForHash entry.2 active hash with
      | error error => rfl
      | ok first => cases first <;> rfl
    · simp only [member, if_false]

theorem stickyQuarantinedNodeForHash (hash : Int64) (active : List Url) :
    Alone (Call.stickyQuarantinedNodeForHash config hash active) fun s =>
      s.act (LiveNodes.stickyQuarantinedNodeForHash config hash active) := by
  intro s
  simp only [Call.stickyQuarantinedNodeForHash, runAlone_bind, read _ _, Option.bind_some,
    locked _ _, Session.act, sticky_eq]
  generalize Call.heldAssignment hash active s.nodes.getQuarantinedNodes s.nodes = held
  obtain ⟨returned, nodes⟩ := held
  cases returned with
  | some result => rfl
  | none => exact sampleQuarantinedNodeForHash hash active _

theorem getQueryPlanNodesForHash (hash : Int64) :
    Alone (Call.getQueryPlanNodesForHash config hash) fun s =>
      s.act (LiveNodes.getQueryPlanNodesForHash config hash) := by
  intro s
  simp only [Call.getQueryPlanNodesForHash, runAlone_bind, read _ _, Option.bind_some,
    stickyQuarantinedNodeForHash _ _ _, Session.act, LiveNodes.getQueryPlanNodesForHash]
  split <;> rename_i sticky <;> simp [sticky, Except.map, Session.shared]

theorem nextKnownNode : Alone Call.nextKnownNode fun s => s.act LiveNodes.nextKnownNode := by
  intro s
  simp only [Call.nextKnownNode, runAlone_bind]
  rw [locked _ _, Option.bind_some, takeCandidate _ _]
  simp only [Session.act, LiveNodes.nextKnownNode, Session.takeCandidate]
  by_cases none : s.nodes.getNodes.isEmpty
  · simp only [none, if_true, Session.shared]
  · simp only [none, Bool.false_eq_true, if_false, Session.shared]

theorem getNodesFromEndpoint (endpoint : Url) :
    Alone (Call.getNodesFromEndpoint config endpoint) (Session.getNodesFromEndpoint config endpoint) :=
  fun _ => rfl

theorem visitPlan (scope : RoutingScopePtr) (fuel : Nat) (plan : QueryPlan) (discovered : List Url)
    (lastError : Option Error) :
    Alone (Call.visitPlan config scope fuel plan discovered lastError)
      (Session.visitPlan config scope fuel plan discovered lastError) := by
  induction fuel generalizing plan discovered lastError with
  | zero => exact done _
  | succ fuel ih =>
    intro s
    simp only [Call.visitPlan, Session.visitPlan]
    cases plan.next with
    | error error => rfl
    | ok next =>
      obtain ⟨node, after⟩ := next
      by_cases empty : node.empty
      · simp only [empty, if_true, pure_eq, runAlone_done]
      · simp only [empty, Bool.false_eq_true, if_false, runAlone_bind, getNodesFromEndpoint _ _,
          Option.bind_some]
        generalize s.getNodesFromEndpoint config (Session.localNodesEndpoint scope node) = answered
        obtain ⟨result, t⟩ := answered
        cases result with
        | error error =>
          simp only [runAlone_bind, reportNodeResult _ _ _, Option.bind_some, ih _ _ _ _]
        | ok nodes =>
          simp only
          split
          · exact ih _ _ _ t
          · split
            · rfl
            · exact ih _ _ _ t

theorem getDiscoveryNodesForScope (scope : RoutingScopePtr) :
    Alone (Call.getDiscoveryNodesForScope config scope)
      (Session.getDiscoveryNodesForScope config scope) :=
  ite (fun _ => read LiveNodes.initialNodes) fun _ => getQueryPlanNodes

theorem takeSeed : Alone Call.takeSeed Session.takeSeed := fun _ => rfl

theorem getNodesForScope (scope : RoutingScopePtr) :
    Alone (Call.getNodesForScope config scope) (Session.getNodesForScope config scope) := by
  intro s
  simp only [Call.getNodesForScope, runAlone_bind, getDiscoveryNodesForScope _ _,
    Option.bind_some, takeSeed _, visitPlan _ _ _ _ _ _, Session.getNodesForScope]

theorem fetchFrom (scopes : List RoutingScopePtr) :
    Alone (Call.fetchFrom config scopes) (Session.fetchFrom config scopes) := by
  induction scopes with
  | nil => exact done _
  | cons scope rest ih =>
    intro s
    simp only [Call.fetchFrom, Session.fetchFrom, runAlone_bind, getNodesForScope _ _,
      Option.bind_some]
    generalize s.getNodesForScope config scope = fetched
    obtain ⟨result, t⟩ := fetched
    cases result with
    | error error => rfl
    | ok nodes =>
      simp only
      split
      · rfl
      · exact ih t

theorem runAlone_addNodes (nodes : List Url) (t : Shared) :
    (Call.addNodes nodes).runAlone t =
      some ((), { t with nodes := { t.nodes with
        healthStore := nodes.foldl NodeHealthStore.addNode t.nodes.healthStore } }) := by
  induction nodes generalizing t with
  | nil => rfl
  | cons node rest ih => exact ih _

theorem runAlone_removeNodes (nodes : List Url) (t : Shared) :
    (Call.removeNodes nodes).runAlone t =
      some ((), { t with nodes := { t.nodes with
        healthStore := nodes.foldl NodeHealthStore.removeNode t.nodes.healthStore } }) := by
  induction nodes generalizing t with
  | nil => rfl
  | cons node rest ih => exact ih _

theorem removeAssignments (nodes : List Url) :
    Alone (Call.removeAssignments nodes) fun s =>
      ((), { s with
        nodes := nodes.foldl (fun s node => s.removeQuarantineHashAssignmentsForNode node)
          s.nodes }) := by
  induction nodes with
  | nil => exact done ()
  | cons node rest ih =>
    intro s
    simp only [Call.removeAssignments, Call.removeQuarantineHashAssignmentsForNode, runAlone_bind]
    rw [locked _ _, Option.bind_some, ih _]
    rfl

/-- The locked section of a refresh, run by one thread alone: statuses first come,
then go, and the live nodes are replaced as a whole. -/
theorem runAlone_replaceLiveNodes (newNodes : List Url) (s : Session) :
    (Call.replaceLiveNodes newNodes).runAlone s.shared =
      let removed := s.nodes.liveNodes.filter fun node => decide (node ∉ newNodes)
      some (removed, { s.shared with nodes := { s.nodes with
        healthStore := removed.foldl NodeHealthStore.removeNode
          (newNodes.foldl NodeHealthStore.addNode s.nodes.healthStore)
        liveNodes := sortAndDedupeNodes newNodes } }) := by
  have taken : Call.lock.runAlone s.shared = some ((), { s.shared with held := true }) := rfl
  simp only [Call.replaceLiveNodes, runAlone_bind, taken, runAlone_addNodes, Option.bind_some]
  rw [Call.read, runAlone_look, Option.bind_some, runAlone_removeNodes]
  rfl

theorem updateLiveNodes :
    Alone (Call.updateLiveNodes config) (Session.updateLiveNodes config) := by
  intro s
  simp only [Call.updateLiveNodes, Call.fetchLiveNodes, Session.updateLiveNodes,
    Session.fetchLiveNodes, runAlone_bind, fetchFrom _ _, Option.bind_some]
  generalize s.fetchFrom config config.routingScope.chain = fetched
  obtain ⟨result, t⟩ := fetched
  cases result with
  | error error => rfl
  | ok newNodes =>
    simp only
    split
    · simp only [runAlone_bind, probeDownNodes _, Option.bind_some, pure_eq, runAlone_done]
    · have committed := removeAssignments
        (t.nodes.liveNodes.filter fun node => decide (node ∉ newNodes))
        { t with nodes := { t.nodes with
          healthStore := (t.nodes.liveNodes.filter fun node => decide (node ∉ newNodes)).foldl
            NodeHealthStore.removeNode
            (newNodes.foldl NodeHealthStore.addNode t.nodes.healthStore)
          liveNodes := sortAndDedupeNodes newNodes } }
      simp only [runAlone_bind, runAlone_replaceLiveNodes, Option.bind_some]
      refine (congrArg (Option.bind · _) committed).trans ?_
      simp only [Option.bind_some]
      exact congrArg (Option.bind · _) (probeDownNodes _)

theorem checkScopes (scopes : List RoutingScopePtr) (misses : List Bytes) :
    Alone (Call.checkScopes config scopes misses) (Session.checkScopes config scopes misses) := by
  induction scopes generalizing misses with
  | nil => exact done _
  | cons scope rest ih =>
    intro s
    simp only [Call.checkScopes, Session.checkScopes]
    split
    · rfl
    · simp only [runAlone_bind, getNodesForScope _ _, Option.bind_some]
      generalize s.getNodesForScope config scope = fetched
      obtain ⟨result, t⟩ := fetched
      cases result with
      | error error => rfl
      | ok nodes =>
        simp only
        split
        · rfl
        · exact ih _ t

theorem checkIfRackDatacenterFeatureIsSupported :
    Alone (Call.checkIfRackDatacenterFeatureIsSupported config)
      (Session.checkIfRackDatacenterFeatureIsSupported config) := by
  intro s
  simp only [Call.checkIfRackDatacenterFeatureIsSupported, runAlone_bind, nextKnownNode _,
    Option.bind_some, Session.checkIfRackDatacenterFeatureIsSupported]
  split
  · rfl
  · simp only [runAlone_bind, getNodesFromEndpoint _ _, Option.bind_some]
    generalize Session.getNodesFromEndpoint config _ _ = fake
    obtain ⟨result, t⟩ := fake
    cases result with
    | error error => rfl
    | ok hosts =>
      simp only [runAlone_bind, getNodesFromEndpoint _ _, Option.bind_some]
      generalize Session.getNodesFromEndpoint config _ t = plain
      obtain ⟨result, t⟩ := plain
      cases result with
      | error error => rfl
      | ok all =>
        simp only
        split <;> rfl

end Alone

/-- What an operation returns to a caller that is alone. -/
def Session.reply (config : Config) (s : Session) : Operation → Reply
  | .updateLiveNodes => .ofExcept (fun _ => .unit) (s.updateLiveNodes config).1
  | .reportNodeResult _ _ => .unit
  | .probeDownNodes => .urls s.probeDownNodes.1
  | .nextNode => .url (s.nextNode config).1
  | .getQueryPlanNodes => .urls (s.act (LiveNodes.getQueryPlanNodes config)).1
  | .getQueryPlanNodesForHash hash =>
    .ofExcept .urls (s.act (LiveNodes.getQueryPlanNodesForHash config hash)).1
  | .checkIfRackAndDatacenterSetCorrectly =>
    .ofExcept (fun _ => .unit) (s.checkIfRackAndDatacenterSetCorrectly config).1
  | .checkIfRackDatacenterFeatureIsSupported =>
    .ofExcept .answer (s.checkIfRackDatacenterFeatureIsSupported config).1

/-- The operation that ran, in a session: what comes out and what is left. -/
theorem Alone.map {α : Type} {p : Call α} {f : Session → α × Session} (alone : Alone p f)
    (g : α → Reply) (s : Session) :
    (g <$> p).runAlone s.shared = some (g (f s).1, (f s).2.shared) := by
  rw [map_eq, runAlone_bind, alone s]
  rfl

/-- Uninterrupted, the call of every public operation comes to its end without
waiting, and agrees with the operation as it is written for one thread. -/
theorem call_alone (config : Config) (operation : Operation) (s : Session) :
    (operation.call config).runAlone s.shared =
      some (s.reply config operation, (s.perform config operation).shared) := by
  cases operation with
  | updateLiveNodes => exact Alone.updateLiveNodes.map _ s
  | reportNodeResult node o => exact (Alone.reportNodeResult node o).map _ s
  | probeDownNodes => exact Alone.probeDownNodes.map _ s
  | nextNode => exact Alone.nextNode.map _ s
  | getQueryPlanNodes => exact Alone.getQueryPlanNodes.map _ s
  | getQueryPlanNodesForHash hash => exact (Alone.getQueryPlanNodesForHash hash).map _ s
  | checkIfRackAndDatacenterSetCorrectly => exact (Alone.checkScopes _ _).map _ s
  | checkIfRackDatacenterFeatureIsSupported =>
    exact Alone.checkIfRackDatacenterFeatureIsSupported.map _ s

end AlternatorClient
