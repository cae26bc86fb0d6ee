import AlternatorClient.LiveNodes.Threads
import AlternatorClient.LiveNodes.InStep
import AlternatorClient.Foundation.Monitor

/-! `mutex_` and what it protects. Only a refresh adds and removes statuses and
replaces the live nodes, and it does both under the mutex; the reports, probes
and plans of other threads run in between. -/
namespace AlternatorClient
open Foundation Program

/-- What any action but the section of a refresh keeps. -/
structure LiveNodes.Keeps (counted : Prop) (before after : LiveNodes) : Prop where
  live : after.liveNodes = before.liveNodes
  statuses : after.healthStore.nodes = before.healthStore.nodes
  ticket : counted → after.nextNodeIndex = before.nextNodeIndex

/-- A region that waits for `mutex_` at most and leaves it alone, with the nodes
that it protects. If `counted`, the round robin does not move either. -/
structure Mild (counted : Prop) (ready : Shared → Bool) (update : Shared → Shared) : Prop where
  waits : ∀ s : Shared, s.held = false → ready s = true
  held : ∀ s : Shared, (update s).held = s.held
  nodes : ∀ s : Shared, s.nodes.Keeps counted (update s).nodes
  wire : ∀ (s : Shared) n, ∃ m, (update s).wire.answer n = s.wire.answer m

/-- Every answer that is still to come lists nodes of a kind only. -/
def Answers (config : Config) (kind : Url → Prop) (s : Shared) : Prop :=
  ∀ n endpoint nodes, Call.nodesOfResponse config endpoint (s.wire.answer n endpoint) = .ok nodes →
    ∀ u ∈ nodes, kind u

theorem Mild.answers {counted : Prop} {config : Config} {kind : Url → Prop} {ready : Shared → Bool}
    {update : Shared → Shared} (mild : Mild counted ready update) {s : Shared}
    (answers : Answers config kind s) : Answers config kind (update s) := by
  intro n endpoint nodes read
  obtain ⟨m, same⟩ := mild.wire s n
  exact answers m endpoint nodes (same ▸ read)

theorem Mild.weaken {counted : Prop} {ready : Shared → Bool} {update : Shared → Shared}
    (mild : Mild counted ready update) : Mild False ready update :=
  ⟨mild.waits, mild.held, fun s => ⟨(mild.nodes s).live, (mild.nodes s).statuses, False.elim⟩,
    mild.wire⟩

/-- The call takes no part in a refresh; its result is as it should be. -/
abbrev Call.Apart {α : Type} (counted : Prop) (config : Config) (kind : Url → Prop)
    (post : α → Prop) (p : Call α) : Prop :=
  p.Every (Mild counted) (Answers config kind) post

namespace Call.Apart
variable {α : Type} {counted : Prop} {config : Config} {kind : Url → Prop} {post : α → Prop}

theorem weaken {p : Call α} (apart : Apart counted config kind post p) :
    Apart False config kind (fun _ => True) p :=
  apart.mono Mild.weaken (fun _ => id) fun _ _ => trivial

theorem pure (a : α) : Apart counted config kind (fun _ => True) (.done a) := .done trivial

theorem atomically {f : LiveNodes → α × LiveNodes} (keeps : ∀ s : LiveNodes, s.Keeps counted (f s).2) :
    Apart counted config kind (fun _ => True) (Call.atomically f) :=
  .act ⟨fun _ _ => rfl, fun _ => rfl, fun s => keeps s.nodes, fun _ n => ⟨n, rfl⟩⟩
    fun _ _ => trivial

theorem locked {f : LiveNodes → α × LiveNodes} (keeps : ∀ s : LiveNodes, s.Keeps counted (f s).2) :
    Apart counted config kind (fun _ => True) (Call.locked f) :=
  .await ⟨fun s free => by simp [free], fun _ => rfl, fun s => keeps s.nodes, fun _ n => ⟨n, rfl⟩⟩
    fun _ _ _ => trivial

theorem read {f : LiveNodes → α} : Apart counted config kind (fun _ => True) (Call.read f) :=
  .act ⟨fun _ _ => rfl, fun _ => rfl, fun _ => ⟨rfl, rfl, fun _ => rfl⟩, fun _ n => ⟨n, rfl⟩⟩
    fun _ _ => trivial

theorem now : Apart counted config kind (fun _ => True) Call.now :=
  .act ⟨fun _ _ => rfl, fun _ => rfl, fun _ => ⟨rfl, rfl, fun _ => rfl⟩, fun _ n => ⟨n, rfl⟩⟩
    fun _ _ => trivial

theorem takeSeed : Apart counted config kind (fun _ => True) Call.takeSeed :=
  .act ⟨fun _ _ => rfl, fun _ => rfl, fun _ => ⟨rfl, rfl, fun _ => rfl⟩, fun _ n => ⟨n, rfl⟩⟩
    fun _ _ => trivial

theorem get (url : Url) :
    Apart counted config kind (fun response => ∀ nodes,
      Call.nodesOfResponse config url response = .ok nodes → ∀ u ∈ nodes, kind u) (Call.get url) :=
  .act ⟨fun _ _ => rfl, fun _ => rfl, fun _ => ⟨rfl, rfl, fun _ => rfl⟩, fun _ n => ⟨n + 1, rfl⟩⟩
    fun _ answers => answers 0 url

theorem markActivity :
    Apart counted config kind (fun _ => True) (Call.markActivity config) := by
  refine now.bind fun time _ => locked fun s => ?_
  obtain ⟨nextUpdate, marked⟩ := s.markActivity_eq config time
  rw [marked]
  exact ⟨rfl, rfl, fun _ => rfl⟩

theorem removeQuarantineHashAssignmentsForNode (node : Url) :
    Apart counted config kind (fun _ => True)
      (Call.removeQuarantineHashAssignmentsForNode node) :=
  locked fun _ => ⟨rfl, rfl, fun _ => rfl⟩

theorem reportToStore (node : Url) (o : NodeHealthObservation) :
    Apart counted config kind (fun _ => True) (Call.reportToStore node o) :=
  atomically fun s => ⟨rfl, s.healthStore.nodes_reportNodeResult node o, fun _ => rfl⟩

theorem reportNodeResult (node : Url) (o : NodeHealthObservation) :
    Apart counted config kind (fun _ => True) (Call.reportNodeResult config node o) := by
  refine markActivity.bind fun _ _ => (reportToStore node o).bind fun _ _ => read.bind fun _ _ => ?_
  exact .ite (fun _ => pure ()) fun _ => removeQuarantineHashAssignmentsForNode node

theorem probe (node : Url) : Apart counted config kind (fun _ => True) (Call.probe node) := by
  refine (get _).bind fun response _ => ?_
  cases response with
  | ok response => exact pure _
  | error what => exact pure _

theorem probeCandidates (nodes : List Url) :
    Apart counted config kind (fun _ => True) (Call.probeCandidates nodes) := by
  induction nodes with
  | nil => exact pure _
  | cons node rest ih =>
    refine read.bind fun _ _ => .ite (fun _ => ih) fun _ => ?_
    refine (probe node).bind fun o _ => (reportToStore node o).bind fun _ _ => ?_
    exact ih.bind fun _ _ => pure _

theorem probeDownNodes : Apart counted config kind (fun _ => True) Call.probeDownNodes :=
  read.bind fun _ _ => .ite (fun _ => pure _) fun _ => read.bind fun _ _ => probeCandidates _

theorem shouldTryQuarantinedNode (b : Bool) :
    Apart counted config kind (fun _ => True) (Call.shouldTryQuarantinedNode config b) := by
  refine read.bind fun _ _ => .ite (fun _ => pure _) fun _ => .ite (fun _ => pure _) fun _ => ?_
  exact (atomically fun _ => ⟨rfl, rfl, fun _ => rfl⟩).bind fun _ _ => pure _

theorem quarantineTicket : Apart counted config kind (fun _ => True) Call.quarantineTicket :=
  atomically fun _ => ⟨rfl, rfl, fun _ => rfl⟩

theorem takeCandidate (candidates : List Url) :
    Apart False config kind (fun _ => True) (Call.takeCandidate candidates) :=
  .ite (fun _ => pure _) fun _ => atomically fun _ => ⟨rfl, rfl, False.elim⟩

theorem nextQuarantinedNode :
    Apart counted config kind (fun _ => True) Call.nextQuarantinedNode :=
  read.bind fun _ _ => .ite (fun _ => pure _) fun _ => quarantineTicket.bind fun _ _ => pure _

theorem candidatesOrProbe (active : List Url) :
    Apart counted config kind (fun _ => True) (Call.candidatesOrProbe active) :=
  .ite (fun _ => probeDownNodes.bind fun _ _ => read) fun _ => pure _

theorem nextNode : Apart False config kind (fun _ => True) (Call.nextNode config) := by
  refine markActivity.bind fun _ _ => read.bind fun _ _ => (candidatesOrProbe _).bind
    fun candidates _ => (shouldTryQuarantinedNode _).bind fun _ _ => ?_
  refine .ite (fun _ => nextQuarantinedNode.bind fun _ _ => ?_) fun _ => takeCandidate candidates
  exact .ite (fun _ => pure _) fun _ => takeCandidate candidates

theorem getQueryPlanNodes :
    Apart counted config kind (fun _ => True) (Call.getQueryPlanNodes config) := by
  refine read.bind fun _ _ => (shouldTryQuarantinedNode _).bind fun _ _ => ?_
  exact .ite (fun _ => nextQuarantinedNode.bind fun _ _ => pure _) fun _ => pure _

theorem keeps_heldAssignment (hash : Int64) (active quarantined : List Url) (s : LiveNodes) :
    s.Keeps counted (Call.heldAssignment hash active quarantined s).2 := by
  simp only [Call.heldAssignment]
  repeat' split
  all_goals exact ⟨rfl, rfl, fun _ => rfl⟩

theorem sampleQuarantinedNodeForHash (hash : Int64) (active : List Url) :
    Apart counted config kind (fun _ => True)
      (Call.sampleQuarantinedNodeForHash config hash active) := by
  refine (shouldTryQuarantinedNode _).bind fun _ _ => .ite (fun _ => ?_) fun _ => pure _
  refine read.bind fun _ _ => .ite (fun _ => pure _) fun _ => quarantineTicket.bind fun _ _ => ?_
  dsimp only
  split
  · exact pure _
  · exact pure _
  · exact locked fun _ => ⟨rfl, rfl, fun _ => rfl⟩

theorem stickyQuarantinedNodeForHash (hash : Int64) (active : List Url) :
    Apart counted config kind (fun _ => True)
      (Call.stickyQuarantinedNodeForHash config hash active) := by
  refine read.bind fun _ _ => (locked (keeps_heldAssignment hash _ _)).bind fun returned _ => ?_
  cases returned with
  | some result => exact pure _
  | none => exact sampleQuarantinedNodeForHash hash active

theorem getQueryPlanNodesForHash (hash : Int64) :
    Apart counted config kind (fun _ => True) (Call.getQueryPlanNodesForHash config hash) :=
  read.bind fun _ _ => (stickyQuarantinedNodeForHash hash _).bind fun _ _ => pure _

theorem nextKnownNode : Apart False config kind (fun _ => True) Call.nextKnownNode :=
  (locked fun _ => ⟨rfl, rfl, fun _ => rfl⟩).bind fun nodes _ => takeCandidate nodes

def Fetched (kind : Url → Prop) (result : Except Error (List Url)) : Prop :=
  ∀ nodes, result = .ok nodes → ∀ u ∈ nodes, kind u

theorem getNodesFromEndpoint (endpoint : Url) :
    Apart counted config kind (Fetched kind) (Call.getNodesFromEndpoint config endpoint) :=
  (get endpoint).bind fun _ answered => .done answered

theorem fetched_concludeScope {discovered : List Url} (lastError : Option Error)
    (known : ∀ u ∈ discovered, kind u) :
    Fetched kind (Session.concludeScope discovered lastError) := fun _ concluded u member =>
  known u ((Session.mem_concludeScope concluded u).mp member)

theorem visitPlan (scope : RoutingScopePtr) (fuel : Nat) (plan : QueryPlan) {discovered : List Url}
    (lastError : Option Error) (known : ∀ u ∈ discovered, kind u) :
    Apart counted config kind (Fetched kind)
      (Call.visitPlan config scope fuel plan discovered lastError) := by
  induction fuel generalizing plan discovered lastError with
  | zero => exact .done (fetched_concludeScope lastError known)
  | succ fuel ih =>
    rw [Call.visitPlan]
    cases plan.next with
    | error error => exact .done fun nodes returned => by simp at returned
    | ok next =>
      obtain ⟨node, after⟩ := next
      refine .ite (fun _ => .done (fetched_concludeScope lastError known)) fun _ => ?_
      refine (getNodesFromEndpoint _).bind fun answered told => ?_
      cases answered with
      | error error =>
        exact (reportNodeResult node _).bind fun _ _ => ih after (some error) known
      | ok nodes =>
        refine .ite (fun _ => ih after lastError known) fun _ => ?_
        refine .ite (fun _ => .done told) fun _ => ih after lastError fun u member => ?_
        exact (List.mem_append.mp member).elim (known u) (told nodes rfl u)

theorem getNodesForScope (scope : RoutingScopePtr) :
    Apart counted config kind (Fetched kind) (Call.getNodesForScope config scope) := by
  have asked : Apart counted config kind (fun _ => True)
      (Call.getDiscoveryNodesForScope config scope) :=
    .ite (fun _ => read) fun _ => getQueryPlanNodes
  exact asked.bind fun _ _ => takeSeed.bind fun _ _ => visitPlan scope _ _ none (by simp)

theorem fetchFrom (scopes : List RoutingScopePtr) :
    Apart counted config kind (Fetched kind) (Call.fetchFrom config scopes) := by
  induction scopes with
  | nil => exact .done fun nodes returned => by simp_all
  | cons scope rest ih =>
    refine (getNodesForScope scope).bind fun result told => ?_
    cases result with
    | error error => exact .done told
    | ok nodes => exact .ite (fun _ => .done told) fun _ => ih

theorem removeAssignments (nodes : List Url) :
    Apart counted config kind (fun _ => True) (Call.removeAssignments nodes) := by
  induction nodes with
  | nil => exact pure ()
  | cons node rest ih =>
    exact (removeQuarantineHashAssignmentsForNode node).bind fun _ _ => ih

theorem checkScopes (scopes : List RoutingScopePtr) (misses : List Bytes) :
    Apart counted config kind (fun _ => True) (Call.checkScopes config scopes misses) := by
  induction scopes generalizing misses with
  | nil => exact pure _
  | cons scope rest ih =>
    refine .ite (fun _ => pure _) fun _ => (getNodesForScope scope).bind fun result _ => ?_
    cases result with
    | error error => exact pure _
    | ok nodes => exact .ite (fun _ => pure _) fun _ => ih _

theorem checkIfRackDatacenterFeatureIsSupported :
    Apart False config kind (fun _ => True)
      (Call.checkIfRackDatacenterFeatureIsSupported config) := by
  refine nextKnownNode.bind fun _ _ => .ite (fun _ => pure _) fun _ => ?_
  refine (getNodesFromEndpoint _).bind fun fake _ => ?_
  cases fake with
  | error error => exact pure _
  | ok hosts =>
    refine (getNodesFromEndpoint _).bind fun plain _ => ?_
    cases plain with
    | error error => exact pure _
    | ok all => exact .ite (fun _ => pure _) fun _ => pure _

theorem map {p : Call α} (apart : Apart counted config kind post p) (f : α → Reply) :
    Apart counted config kind (fun _ => True) (f <$> p) := by
  rw [map_eq]
  exact apart.bind fun _ _ => pure _

end Call.Apart
end AlternatorClient
