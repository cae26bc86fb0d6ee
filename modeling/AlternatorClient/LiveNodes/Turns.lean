import AlternatorClient.LiveNodes.Consistency
import AlternatorClient.LiveNodes.Rotation

/-! The round robin of `NextNode` shared by threads. The counter is one atomic
word, so as long as the health of the nodes stays what it is the Active nodes
are handed out in turn, whichever threads ask and however they are interleaved. -/
namespace AlternatorClient
open Foundation Program

def Shared.ticket (s : Shared) : UInt64 := s.nodes.nextNodeIndex

def followingTicket (ticket : UInt64) : UInt64 := ticket + 1

/-- What a ticket is good for: with the counter at `ticket`, the node at that place
of the cycle through the active nodes. -/
def ticketNode (active : List Url) (ticket : UInt64) : Reply := .url (cyclic active {} ticket.toNat)

def Reply.names (active : List Url) : Reply → Bool
  | .url u => decide (u ∈ active)
  | _ => false

/-- The health of the nodes is what it was. -/
def Shared.Calm (active quarantined : List Url) (s : Shared) : Prop :=
  s.nodes.getActiveNodes = active ∧ s.nodes.getQuarantinedNodes = quarantined

section
variable {α β : Type} {config : Config} {active quarantined : List Url}

theorem Call.Apart.leaves {p : Call α} {post : α → Prop}
    (apart : Call.Apart True config (fun _ => True) post p) : p.Leaves Shared.ticket :=
  apart.mono (fun mild s _ => (mild.nodes s).ticket trivial) (fun _ _ _ _ _ _ _ _ => trivial)
    fun _ _ => trivial

theorem leaves_act {f : Shared → α × Shared} (keeps : ∀ s, (f s).2.ticket = s.ticket) :
    (act f).Leaves Shared.ticket :=
  .act (fun s _ => keeps s) fun _ _ => trivial

theorem leaves_lock : Call.lock.Leaves Shared.ticket := .await (fun _ _ => rfl) fun _ _ _ => trivial

theorem leaves_addNodes (nodes : List Url) : (Call.addNodes nodes).Leaves Shared.ticket := by
  induction nodes with
  | nil => exact .done trivial
  | cons node rest ih => exact Every.bind (leaves_act fun _ => rfl) fun _ _ => ih

theorem leaves_removeNodes (nodes : List Url) : (Call.removeNodes nodes).Leaves Shared.ticket := by
  induction nodes with
  | nil => exact .done trivial
  | cons node rest ih => exact Every.bind (leaves_act fun _ => rfl) fun _ _ => ih

theorem leaves_updateLiveNodes : (Call.updateLiveNodes config).Leaves Shared.ticket := by
  have probing : (Call.probeDownNodes >>= fun _ =>
      .done (.ok () : Except Error Unit)).Leaves Shared.ticket :=
    (@Call.Apart.probeDownNodes True config _).leaves.bind fun _ _ => .done trivial
  have replacing : ∀ nodes, (Call.replaceLiveNodes nodes).Leaves Shared.ticket := by
    intro nodes
    refine leaves_lock.bind fun _ _ => ?_
    refine (leaves_addNodes nodes).bind fun _ _ => (leaves_act fun _ => rfl).bind fun _ _ => ?_
    refine (leaves_removeNodes _).bind fun _ _ => (leaves_act fun _ => rfl).bind fun _ _ => ?_
    exact (leaves_act fun _ => rfl).bind fun _ _ => .done trivial
  refine (@Call.Apart.fetchFrom True config _ _).leaves.bind fun result _ => ?_
  cases result with
  | error error => exact .done trivial
  | ok newNodes =>
    refine .ite (fun _ => probing) fun _ => (replacing newNodes).bind fun removed _ => ?_
    exact (@Call.Apart.removeAssignments True config _ removed).leaves.bind fun _ _ => probing

/-- Only `NextNode` and the check of the feature take turns. -/
theorem leaves_call {operation : Operation} (other : operation ≠ .nextNode)
    (unchecked : operation ≠ .checkIfRackDatacenterFeatureIsSupported) :
    (operation.call config).Leaves Shared.ticket := by
  cases operation with
  | updateLiveNodes =>
    rw [Operation.call, map_eq]
    exact leaves_updateLiveNodes.bind fun _ _ => .done trivial
  | reportNodeResult node o =>
    exact (@Call.Apart.reportNodeResult True config _ node o |>.map _).leaves
  | probeDownNodes => exact (@Call.Apart.probeDownNodes True config _ |>.map _).leaves
  | nextNode => exact absurd rfl other
  | getQueryPlanNodes => exact (@Call.Apart.getQueryPlanNodes True config _ |>.map _).leaves
  | getQueryPlanNodesForHash hash =>
    exact (@Call.Apart.getQueryPlanNodesForHash True config _ hash |>.map _).leaves
  | checkIfRackAndDatacenterSetCorrectly =>
    exact (@Call.Apart.checkScopes True config _ _ _ |>.map _).leaves
  | checkIfRackDatacenterFeatureIsSupported => exact absurd rfl unchecked

abbrev Takes (active quarantined : List Url) (p : Call Reply) : Prop :=
  p.Draws (Shared.Calm active quarantined) (Reply.names active) Shared.ticket followingTicket
    (ticketNode active)

theorem takes_read {f : LiveNodes → α} {p : α → Call Reply} {a : α}
    (looked : ∀ s : Shared, s.Calm active quarantined → f s.nodes = a)
    (rest : Takes active quarantined (p a)) : Takes active quarantined (Call.read f >>= p) :=
  .wait (fun _ _ _ => rfl) fun s calm _ => by
    have found := looked s calm
    subst found
    exact rest

theorem takes_takeCandidate (some : active ≠ []) :
    Takes active quarantined (Call.takeCandidate active >>= fun u => .done (.url u)) := by
  rw [Call.takeCandidate, List.isEmpty_eq_false_iff.mpr some]
  exact .draw (fun _ _ _ => rfl) fun _ _ _ => rfl

/-- A Quarantined node is sampled, or there is none to name and a turn is taken. -/
theorem takes_chooseNode (some : active ≠ []) (apart : ∀ q ∈ quarantined, q ∉ active) (tried : Bool) :
    Takes active quarantined (Call.chooseNode active tried >>= fun u => .done (.url u)) := by
  have regular := @takes_takeCandidate active quarantined some
  cases tried with
  | false => exact regular
  | true =>
    simp only [Call.chooseNode, if_true, bind_bind, Call.nextQuarantinedNode]
    refine takes_read (fun s calm => calm.2) ?_
    split
    · rw [pure_eq, done_bind]
      simpa using regular
    · rename_i sampled
      rw [bind_bind]
      refine (@Call.Apart.quarantineTicket True {} _).leaves.draws fun index => ?_
      simp only [pure_eq, done_bind]
      split
      · have member := apart _ (getD_mod_mem (by simpa using sampled) index.toNat)
        exact .pass (decide_eq_false member)
      · exact regular

theorem takes_nextNode (some : active ≠ []) (apart : ∀ q ∈ quarantined, q ∉ active) :
    Takes active quarantined (Operation.nextNode.call config) := by
  simp only [Operation.call, map_eq, Call.nextNode, bind_bind]
  refine (@Call.Apart.markActivity True config _).leaves.draws fun _ => ?_
  refine takes_read (fun s calm => calm.1) ?_
  simp only [Call.candidatesOrProbe, List.isEmpty_eq_false_iff.mpr some, Bool.false_eq_true,
    if_false, pure_eq, done_bind]
  exact (@Call.Apart.shouldTryQuarantinedNode True config _ false).leaves.draws fun tried =>
    takes_chooseNode some apart tried

end

theorem iterate_ticket (ticket : UInt64) (k : Nat) :
    followingTicket^[k] ticket = ticket + UInt64.ofNat k := by
  induction k with
  | zero => simp
  | succ k ih => rw [Function.iterate_succ_apply', ih, followingTicket, UInt64.ofNat_add,
      UInt64.ofNat_one, UInt64.add_assoc]

end AlternatorClient
