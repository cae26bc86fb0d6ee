import AlternatorClient.LiveNodes.Background
import AlternatorClient.LiveNodes.Scopes

/-! What the background thread does to its own schedule. A refresh whose every
request is answered with a list leaves it alone; one that reports a failing node
goes through `ReportNodeResult` and so counts as activity of a caller. -/
namespace AlternatorClient
open Foundation

def LiveNodes.schedule (s : LiveNodes) : Int × Int := (s.nextUpdate, s.lastActivity)

theorem LiveNodes.new_schedule {hosts : List Bytes} {config : Config} {now : Int} {s : LiveNodes}
    (built : new hosts config now = .ok s) (positive : config.idleNodesListUpdatePeriod > 0) :
    s.lastActivity = timePointMin ∧
      s.nextUpdate = addPeriod now config.idleNodesListUpdatePeriod := by
  simp only [new, positive, if_true] at built
  split at built
  · contradiction
  · split at built
    · contradiction
    · cases built
      exact ⟨rfl, rfl⟩

theorem LiveNodes.observe_schedule (node : Url) (o : NodeHealthObservation) (s : LiveNodes) :
    (s.observe node o).schedule = s.schedule := by
  obtain ⟨held, observed⟩ := s.observe_eq node o
  rw [observed]
  rfl

/-- Discovery received lists only. An error would be reported as a result of the
node, and a report marks activity. -/
def Fine (answers : List Answer) : Prop := ∀ answer ∈ answers, ∃ nodes, answer.result = .ok nodes

namespace Session
variable {config : Config} {s t u : Session}

/-- From one session to another the schedule moved only if a request failed. -/
def Calm (s t : Session) : Prop :=
  ∃ answers, t.answers = s.answers ++ answers ∧
    (Fine answers → t.nodes.schedule = s.nodes.schedule)

theorem Calm.of_eq (answers : t.answers = s.answers)
    (same : t.nodes.schedule = s.nodes.schedule) : Calm s t :=
  ⟨[], by simp [answers], fun _ => same⟩

theorem Calm.trans (first : Calm s t) (second : Calm t u) : Calm s u := by
  obtain ⟨answers, logged, same⟩ := first
  obtain ⟨more, logged', same'⟩ := second
  refine ⟨answers ++ more, by rw [logged', logged, List.append_assoc], fun fine => ?_⟩
  obtain ⟨fine, fine'⟩ := List.forall_mem_append.mp fine
  exact (same' fine').trans (same fine)

theorem calm_getNodesFromEndpoint {endpoint : Url} {result : Except Error (List Url)}
    (answered : s.getNodesFromEndpoint config endpoint = (result, t)) : Calm s t := by
  obtain ⟨same, _, logged⟩ := getNodesFromEndpoint_frame answered
  exact ⟨_, logged, fun _ => by rw [same]⟩

/-- The handler of a failed request marks activity, after the failure is logged. -/
theorem calm_failed {endpoint node : Url} {error : Error} {o : NodeHealthObservation}
    (answered : s.getNodesFromEndpoint config endpoint = (.error error, t)) :
    Calm s (t.reportNodeResult config node o) := by
  obtain ⟨_, _, logged⟩ := getNodesFromEndpoint_frame answered
  refine ⟨_, logged, fun fine => ?_⟩
  obtain ⟨nodes, found⟩ := fine _ (List.mem_singleton.mpr rfl)
  contradiction

theorem calm_visitPlan (scope : RoutingScopePtr) (fuel : Nat) (plan : QueryPlan)
    (discovered : List Url) (last : Option Error) (s : Session) :
    Calm s (visitPlan config scope fuel plan discovered last s).2 := by
  induction fuel generalizing plan discovered last s with
  | zero => exact .of_eq rfl rfl
  | succ fuel ih =>
    have turn := turn_visitPlan config scope fuel plan discovered last s
    generalize visitPlan config scope (fuel + 1) plan discovered last s = result at turn ⊢
    cases turn with
    | concluded done => exact .of_eq rfl rfl
    | oversized large error => exact .of_eq rfl rfl
    | nothing node after perm t answered =>
      exact (calm_getNodesFromEndpoint answered).trans (ih after discovered last t)
    | list node after perm t nodes some plain answered => exact calm_getNodesFromEndpoint answered
    | merged node after perm t nodes cluster answered =>
      exact (calm_getNodesFromEndpoint answered).trans (ih after (discovered ++ nodes) last t)
    | failed node after perm t error answered =>
      exact (calm_failed answered).trans (ih after discovered (.some error) _)

theorem calm_getNodesForScope (scope : RoutingScopePtr) (s : Session) :
    Calm s (s.getNodesForScope config scope).2 := by
  have chosen : Calm s (s.getDiscoveryNodesForScope config scope).2 := by
    simp only [getDiscoveryNodesForScope]
    split
    · exact .of_eq rfl rfl
    · obtain ⟨plan, node, same⟩ := s.nodes.getQueryPlanNodes_eq config
      exact .of_eq rfl (by simp [act, same, LiveNodes.schedule])
  have seeded : Calm (s.getDiscoveryNodesForScope config scope).2
      (s.getDiscoveryNodesForScope config scope).2.takeSeed.2 := .of_eq rfl rfl
  exact (chosen.trans seeded).trans (calm_visitPlan scope _ _ _ _ _)

theorem calm_fetchFrom (scopes : List RoutingScopePtr) (s : Session) :
    Calm s (fetchFrom config scopes s).2 := by
  induction scopes generalizing s with
  | nil => exact .of_eq rfl rfl
  | cons scope rest ih =>
    have asked := @calm_getNodesForScope config scope s
    simp only [fetchFrom]
    split
    · rename_i error t returned
      rwa [returned] at asked
    · rename_i nodes t returned
      rw [returned] at asked
      split
      · exact asked
      · exact asked.trans (ih t)

theorem calm_probeDownNodes (s : Session) : Calm s s.probeDownNodes.2 := .of_eq rfl rfl

theorem calm_updateLiveNodes (s : Session) : Calm s (s.updateLiveNodes config).2 := by
  have fetched := @calm_fetchFrom config config.routingScope.chain s
  simp only [updateLiveNodes, fetchLiveNodes]
  split
  · rename_i error t returned
    rwa [returned] at fetched
  · rename_i nodes t returned
    rw [returned] at fetched
    split
    · exact fetched.trans (calm_probeDownNodes t)
    · obtain ⟨held, committed⟩ := t.nodes.commit_eq nodes
      have committed : Calm t (t.act fun n => ((), n.commit nodes)).2 :=
        .of_eq rfl (by simp [act, committed, LiveNodes.schedule])
      exact (fetched.trans committed).trans (calm_probeDownNodes _)

/-- A refresh that received lists only leaves the schedule alone. -/
theorem updateLiveNodes_schedule (fine : Fine (s.received config .updateLiveNodes)) :
    (s.updateLiveNodes config).2.nodes.schedule = s.nodes.schedule := by
  obtain ⟨answers, logged, same⟩ := @calm_updateLiveNodes config s
  have all : s.received config .updateLiveNodes = answers := by
    simp [received, perform, logged]
  exact same (all ▸ fine)

theorem reportNodeResult_schedule (node : Url) (o : NodeHealthObservation) (s : Session) :
    (s.reportNodeResult config node o).nodes.schedule =
      (s.nodes.markActivity config (s.clock 0)).1.schedule :=
  LiveNodes.observe_schedule node o _

section
variable {node : Url} (cluster : config.routingScope = .cluster)
  (only : s.nodes.initialNodes = [node]) (present : node.empty = false)
include cluster only present

theorem updateLiveNodes_failed {error : Error}
    (asked : s.takeSeed.2.getNodesFromEndpoint config (localNodesEndpoint .cluster node) =
      (.error error, t)) :
    s.updateLiveNodes config =
      (.error error, t.reportNodeResult config node (discoveryObservation error)) := by
  have chosen : (s.getDiscoveryNodesForScope config .cluster).1 = [node] := only
  have visited : visitNodes config .cluster [node] [] none s.takeSeed.2 =
      (.error error, t.reportNodeResult config node (discoveryObservation error)) := by
    simp [visitNodes, asked, concludeScope]
  have reached := (getNodesForScope_singleton chosen present).trans visited
  rw [updateLiveNodes_cluster cluster, reached]

theorem updateLiveNodes_none
    (asked : s.takeSeed.2.getNodesFromEndpoint config (localNodesEndpoint .cluster node) =
      (.ok [], t)) :
    s.updateLiveNodes config = (.ok (), t.probeDownNodes.2) := by
  have chosen : (s.getDiscoveryNodesForScope config .cluster).1 = [node] := only
  have visited : visitNodes config .cluster [node] [] none s.takeSeed.2 = (.ok [], t) := by
    simp [visitNodes, asked, concludeScope]
  have reached := (getNodesForScope_singleton chosen present).trans visited
  rw [updateLiveNodes_cluster cluster, reached]
  rfl

theorem fine_none
    (asked : s.takeSeed.2.getNodesFromEndpoint config (localNodesEndpoint .cluster node) =
      (.ok [], t)) :
    Fine (s.received config .updateLiveNodes) := by
  obtain ⟨_, _, logged⟩ := getNodesFromEndpoint_frame asked
  have all : s.received config .updateLiveNodes = [⟨localNodesEndpoint .cluster node, .ok []⟩] := by
    simp only [received, perform, updateLiveNodes_none cluster only present asked, probeDownNodes,
      logged]
    exact List.drop_left
  rw [all]
  exact List.forall_mem_singleton.mpr ⟨[], rfl⟩

theorem doWork_failed {error : Error}
    (asked : s.takeSeed.2.getNodesFromEndpoint config (localNodesEndpoint .cluster node) =
      (.error error, t)) (shouldProbeDown : Bool) :
    (Background.doWork config true shouldProbeDown s).nodes.nextUpdate =
        (t.nodes.markActivity config (t.clock 0)).1.nextUpdate ∧
      (Background.doWork config true shouldProbeDown s).nodes.lastActivity =
        (t.nodes.markActivity config (t.clock 0)).1.lastActivity := by
  simp only [Background.doWork, if_true, updateLiveNodes_failed cluster only present asked]
  exact Prod.ext_iff.mp (reportNodeResult_schedule node _ t)

end

end Session

namespace Background
variable {config : Config} {s t : Background} {event : ThreadEvent} {constructed : Int}

/-- The time the next refresh counts from: the last one, or the construction. -/
def origin (constructed : Int) (s : Background) : Int := s.refreshes.getLast?.getD constructed

/-- If the event is a refresh, all its requests are answered with status 200 and a valid list. -/
def Answered (config : Config) (s : Background) (event : ThreadEvent) : Prop :=
  event = .work → ∀ shouldProbeDown, s.thread = .working true shouldProbeDown →
    Fine (s.session.received config .updateLiveNodes)

/-- If the event is a timeout that begins a refresh, the refresh after it can be given a
time: its time point does not overflow. -/
def Schedulable (config : Config) (s : Background) (event : ThreadEvent) : Prop :=
  event = .timeout → s.stopping = false → s.session.nodes.refreshDue (s.session.clock 0) = true →
    InReach (s.session.clock 0) config.idleNodesListUpdatePeriod

abbrev idlePeriod (config : Config) : Int := config.idleNodesListUpdatePeriod * 1000000

/-- The client is on its idle schedule: nobody has marked activity, the next refresh
is due one idle period after the last, and no two have been closer than that. -/
structure Idle (config : Config) (constructed : Int) (s : Background) : Prop where
  unmarked : s.session.nodes.lastActivity = timePointMin
  scheduled : s.nextUpdate = s.origin constructed + idlePeriod config
  spaced : (constructed :: s.refreshes).IsChain
    fun earlier later => earlier + idlePeriod config ≤ later

theorem Idle.of_eq (idle : s.Idle config constructed) (refreshes : t.refreshes = s.refreshes)
    (same : t.session.nodes.schedule = s.session.nodes.schedule) : t.Idle config constructed := by
  obtain ⟨update, activity⟩ := Prod.ext_iff.mp same
  refine ⟨activity.trans idle.unmarked, ?_, refreshes ▸ idle.spaced⟩
  rw [origin, refreshes]
  exact update.trans idle.scheduled

theorem scheduleNextRefresh_idle {nodes : LiveNodes}
    (unmarked : nodes.lastActivity = timePointMin)
    (positive : config.idleNodesListUpdatePeriod > 0) (now : Int) :
    nodes.scheduleNextRefresh config now =
      { nodes with nextUpdate := addPeriod now config.idleNodesListUpdatePeriod } := by
  have interval : nodes.refreshIntervalForNow config now = config.idleNodesListUpdatePeriod := by
    simp [LiveNodes.refreshIntervalForNow, unmarked, positive]
  rw [LiveNodes.scheduleNextRefresh, interval, if_neg (by omega)]

theorem idle_decideWork (positive : config.idleNodesListUpdatePeriod > 0)
    (idle : s.Idle config constructed) (running : s.stopping = false)
    (schedulable : s.Schedulable config .timeout) :
    (s.decideWork config).Idle config constructed := by
  obtain ⟨_, ⟨⟨finite, passed⟩, _, begun, nodes⟩ | ⟨_, _, begun, nodes⟩⟩ :=
    decideWork_cases config s
  · have reach := schedulable rfl running (LiveNodes.refreshDue_iff.mpr ⟨finite, passed⟩)
    rw [scheduleNextRefresh_idle idle.unmarked positive, addPeriod_eq positive reach] at nodes
    refine ⟨?_, ?_, ?_⟩
    · rw [nodes]
      exact idle.unmarked
    · rw [nextUpdate, nodes, origin, begun]
      simp
    · rw [begun, ← List.cons_append, List.isChain_append]
      refine ⟨idle.spaced, .singleton _, ?_⟩
      intro earlier last later first
      have counted : earlier = s.origin constructed := by
        rw [List.getLast?_cons, Option.mem_some_iff] at last
        exact last.symm
      have begins : s.session.clock 0 = later := by simpa using first
      rw [counted, ← begins, ← idle.scheduled]
      exact passed
  · exact idle.of_eq begun (by rw [nodes])

theorem doWork_schedule {shouldUpdate shouldProbeDown : Bool}
    (working : s.thread = .working shouldUpdate shouldProbeDown)
    (answered : s.Answered config .work) :
    (doWork config shouldUpdate shouldProbeDown s.session).nodes.schedule =
      s.session.nodes.schedule := by
  cases shouldUpdate with
  | false =>
    cases shouldProbeDown with
    | true => rfl
    | false => rfl
  | true =>
    have refreshed := Session.updateLiveNodes_schedule (answered rfl shouldProbeDown working)
    simp only [doWork, if_true]
    split
    · exact refreshed
    · split
      · exact refreshed
      · exact refreshed

theorem step_work {shouldUpdate shouldProbeDown : Bool} {reaches : Thread → Bool}
    (working : s.thread = .working shouldUpdate shouldProbeDown) :
    ∃ t, Step config s reaches .work t ∧
      t.session = doWork config shouldUpdate shouldProbeDown s.session ∧
      t.refreshes = s.refreshes :=
  ⟨_, .work working, rfl, rfl⟩

theorem idle_step {reaches : Thread → Bool} (positive : config.idleNodesListUpdatePeriod > 0)
    (idle : s.Idle config constructed) (own : event.own = true) (answered : s.Answered config event)
    (schedulable : s.Schedulable config event)
    (stepped : Step config s reaches event t) : t.Idle config constructed := by
  cases stepped with
  | start => exact idle.of_eq rfl rfl
  | stop => contradiction
  | join => contradiction
  | mark => contradiction
  | notify => contradiction
  | enter => exact idle.of_eq rfl rfl
  | read => exact idle.of_eq rfl rfl
  | wait chosen => exact idle.of_eq rfl rfl
  | wakeParked parked => exact idle.of_eq rfl rfl
  | wakeWaiting waiting => exact idle.of_eq rfl rfl
  | timeout waiting due =>
    cases stopping : s.stopping with
    | true => exact idle.of_eq rfl rfl
    | false => exact idle_decideWork positive idle stopping schedulable
  | work working => exact idle.of_eq rfl (doWork_schedule working answered)

end Background

/-- Background work whose refreshes are all answered is no activity: left alone,
the client stays on the idle period, whatever the probes of down nodes find, as long as
no time point overflows. -/
theorem background_idle {config : Config} {hosts : List Bytes} {constructed : Int}
    {nodes : LiveNodes} {session : Session} {reaches : Thread → Bool} {states : List Background}
    {final : Background} (built : LiveNodes.new hosts config constructed = .ok nodes)
    (held : session.nodes = nodes) (positive : config.idleNodesListUpdatePeriod > 0)
    (reach : InReach constructed config.idleNodesListUpdatePeriod)
    (run : Background.Run config reaches
      (fun s event => event.own = true ∧ s.Answered config event ∧ s.Schedulable config event)
      { session := session } states final) :
    ∀ s ∈ final :: states, s.session.nodes.lastActivity = timePointMin ∧
      s.nextUpdate = s.origin constructed + config.idleNodesListUpdatePeriod * 1000000 ∧
      (constructed :: s.refreshes).IsChain
        fun earlier later => earlier + config.idleNodesListUpdatePeriod * 1000000 ≤ later := by
  have start : Background.Idle config constructed { session := session } := by
    obtain ⟨unmarked, scheduled⟩ := LiveNodes.new_schedule built positive
    refine ⟨by rw [held, unmarked], ?_, .singleton _⟩
    rw [Background.nextUpdate, held, scheduled, addPeriod_eq positive reach]
    rfl
  have idle : ∀ s ∈ final :: states, s.Idle config constructed := by
    refine List.forall_mem_cons.mpr (run.invariant ?_ start)
    rintro s t ⟨event, ⟨own, answered, schedulable⟩, stepped⟩ idle
    exact Background.idle_step positive idle own answered schedulable stepped
  intro s reached
  exact ⟨(idle s reached).unmarked, (idle s reached).scheduled, (idle s reached).spaced⟩

def Session.minute (wire : Wire) : Session where
  nodes :=
    { initialNodes := [({} : Config).nodeUrl (bytes "a")]
      liveNodes := [({} : Config).nodeUrl (bytes "a")]
      healthStore := NodeHealthStore.new {} [({} : Config).nodeUrl (bytes "a")]
      nextUpdate := milliseconds 60000, lastActivity := timePointMin }
  wire := wire
  clock := fun _ => milliseconds 60000
  seeds := fun _ => 0

/-- The thread of the client has just begun the first refresh, at the end of its
first idle period, and scheduled the second. -/
def Background.minute (wire : Wire) : Background where
  session :=
    { Session.minute wire with
      nodes := { (Session.minute wire).nodes with nextUpdate := milliseconds 120000 }
      trace := [{ (Session.minute wire).nodes with nextUpdate := milliseconds 120000 }] }
  thread := .working true false
  nextDownProbe := milliseconds 90000
  backgroundStarted := true
  refreshes := [milliseconds 60000]

theorem Background.run_minute {condition : Background → ThreadEvent → Prop} (wire : Wire)
    (allowed : ∀ s event, event ≠ .work → event.own = true →
      s.session.clock 0 = milliseconds 60000 → condition s event) :
    ∃ states, Background.Run {} Thread.blocked condition { session := .minute wire } states
      (.minute wire) := by
  have run : Background.Run {} Thread.blocked condition { session := .minute wire } _ _ :=
    .step ⟨.start, allowed _ _ (by decide) rfl rfl, .start rfl rfl⟩ <|
    .step ⟨.enter, allowed _ _ (by decide) rfl rfl, .enter rfl⟩ <|
    .step ⟨.read, allowed _ _ (by decide) rfl rfl, .read rfl⟩ <|
    .step ⟨.wait, allowed _ _ (by decide) rfl rfl, .wait rfl⟩ <|
    .step ⟨.timeout, allowed _ _ (by decide) rfl rfl,
      .timeout rfl (le_refl (milliseconds 60000))⟩ <|
    .refl _
  exact ⟨_, run⟩

/-- One host that answers its first refresh with an empty list: nothing is replaced
and no activity marked, and the next refresh is due a minute later. -/
theorem background_idle_once :
    ∃ session states final,
      LiveNodes.new [bytes "a"] {} 0 = .ok session.nodes ∧
      Background.Run {} Thread.blocked
        (fun s event => event.own = true ∧ s.Answered {} event ∧ s.Schedulable {} event)
        { session := session } states final ∧
      final.thread = .looping ∧ final.refreshes = [milliseconds 60000] ∧
      final.nextUpdate = milliseconds 60000 + milliseconds 60000 := by
  let wire : Wire := ⟨fun _ _ => .ok ⟨200, bytes "[]"⟩⟩
  obtain ⟨states, run⟩ := @Background.run_minute
    (fun s event => event.own = true ∧ s.Answered {} event ∧ s.Schedulable {} event) wire (by
      intro s event other own clock
      refine ⟨own, fun working => absurd working other, fun _ _ _ => ?_⟩
      rw [clock]
      constructor <;> decide)
  have fine : Fine ((Background.minute wire).session.received {} .updateLiveNodes) :=
    Session.fine_none rfl rfl (by decide) rfl
  have run := run.append (.single ⟨.work, ⟨rfl, fun _ _ _ => fine, by simp [Background.Schedulable]⟩,
    .work rfl⟩)
  have built : LiveNodes.new [bytes "a"] {} 0 = .ok (Session.minute wire).nodes := rfl
  have reach : InReach 0 ({} : Config).idleNodesListUpdatePeriod := by constructor <;> decide
  obtain ⟨_, scheduled, _⟩ := background_idle built rfl (by decide) reach run _ List.mem_cons_self
  exact ⟨_, _, _, built, run, rfl, rfl, scheduled⟩

/-- One host, one refresh that cannot connect: the client of nobody is active
from then on, and refreshes again after the active period. -/
theorem failed_refresh_marks_activity :
    ∃ session states final,
      LiveNodes.new [bytes "a"] {} 0 = .ok session.nodes ∧
      Background.Run {} Thread.blocked (fun _ event => event.own = true) { session := session }
        states final ∧
      final.refreshes = [milliseconds 60000] ∧
      final.session.nodes.lastActivity = milliseconds 60000 ∧
      final.nextUpdate = milliseconds 61000 := by
  let wire : Wire := ⟨fun _ _ => .error (bytes "refused")⟩
  obtain ⟨states, run⟩ := @Background.run_minute (fun _ event => event.own = true) wire
    fun _ _ _ own _ => own
  obtain ⟨update, activity⟩ := @Session.doWork_failed {} (Background.minute wire).session _ _ rfl rfl
    (by decide) _ rfl false
  obtain ⟨final, stepped, worked, kept⟩ := @Background.step_work {} (Background.minute wire) true
    false Thread.blocked rfl
  refine ⟨_, _, final, rfl, run.append (.single ⟨.work, rfl, stepped⟩), kept, ?_, ?_⟩
  · rw [worked]
    exact activity
  · rw [Background.nextUpdate, worked]
    exact update

end AlternatorClient
