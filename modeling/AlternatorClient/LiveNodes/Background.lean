import AlternatorClient.LiveNodes.Discovery
import AlternatorClient.Foundation.Path
import Mathlib.Data.Int.ConditionallyCompleteOrder

/-! The background thread of `AlternatorLiveNodes`, step by step, among callers
that mark activity, start it and stop it. The schedule is guarded by `mutex_`
and the condition variable by `background_mutex_`, so a call changes the
schedule and notifies in two steps. -/
namespace AlternatorClient
open Foundation

namespace LiveNodes

/-- The period that applies now, in milliseconds; zero is no refresh at all. A
client counts as active for one idle period after its last activity, or for ever if
it has no idle period. -/
def refreshIntervalForNow (config : Config) (now : Int) (s : LiveNodes) : Int :=
  let hasActivity := decide (s.lastActivity ≠ timePointMin)
  let activeEnabled := decide (config.nodesListUpdatePeriod > 0)
  let idleEnabled := decide (config.idleNodesListUpdatePeriod > 0)
  let recentlyActive := hasActivity && (!idleEnabled ||
    decide (count64 (now - s.lastActivity) < milliseconds config.idleNodesListUpdatePeriod))
  if recentlyActive && activeEnabled then config.nodesListUpdatePeriod
  else if idleEnabled then config.idleNodesListUpdatePeriod
  else 0

def scheduleNextRefresh (config : Config) (now : Int) (s : LiveNodes) : LiveNodes :=
  let interval := s.refreshIntervalForNow config now
  if interval ≤ 0 then { s with nextUpdate := timePointMax }
  else { s with nextUpdate := addPeriod now interval }

/-- `should_update`. -/
def refreshDue (now : Int) (s : LiveNodes) : Bool :=
  decide (s.nextUpdate ≠ timePointMax) && decide (now ≥ s.nextUpdate)

theorem refreshDue_iff {now : Int} {s : LiveNodes} :
    s.refreshDue now = true ↔ s.nextUpdate ≠ timePointMax ∧ s.nextUpdate ≤ now := by
  simp [refreshDue]

end LiveNodes

def Session.now (s : Session) : Int × Session :=
  (s.clock 0, { s with clock := fun n => s.clock (n + 1) })

/-- Where the background thread is between the sections it runs under
`background_mutex_`. Calls of other threads come in between. -/
inductive Thread where
  | absent
  /-- It has not taken `background_mutex_` yet. -/
  | spawned
  | looping
  /-- It has read `next_update_` and not yet begun to wait. -/
  | read (nextUpdate : Int)
  /-- In the untimed `wait`. -/
  | parked
  /-- In `wait_until`. -/
  | waiting (wakeAt : Int)
  | working (shouldUpdate shouldProbeDown : Bool)
  | returned
  deriving DecidableEq

namespace Thread

/-- The thread gives `background_mutex_` up while it waits or works. -/
def locks : Thread → Bool
  | .looping | .read _ => true
  | _ => false

def blocked : Thread → Bool
  | .parked | .waiting _ => true
  | _ => false

def deadline : Thread → WithTop Int
  | .waiting wakeAt => wakeAt
  | _ => ⊤

end Thread

/-- The time a time point stands for: `time_point::max()` is never. -/
def moment (t : Int) : WithTop Int := if t = timePointMax then ⊤ else t

/-- A client with its background thread. `refreshes` is not read by the code;
it keeps the times at which the thread began a refresh. -/
structure Background where
  session : Session
  thread : Thread := .absent
  nextDownProbe : Int := 0
  backgroundStarted : Bool := false
  stopping : Bool := false
  /-- Calls that will still notify. -/
  unsent : Nat := 0
  /-- A notification the thread has not processed. -/
  notified : Bool := false
  refreshes : List Int := []

/-- What happens next. The first five are steps of callers, the others of the thread:
it enters the loop, reads the schedule, begins to wait, wakes or times out, and works. -/
inductive ThreadEvent where
  | start
  | stop
  | join
  | mark
  | notify
  | enter
  | read
  | wait
  | wake
  | timeout
  | work
  deriving DecidableEq

def ThreadEvent.own : ThreadEvent → Bool
  | .start | .enter | .read | .wait | .wake | .timeout | .work => true
  | _ => false

namespace Background
variable (config : Config) (s : Background)

abbrev nextUpdate : Int := s.session.nodes.nextUpdate

def Quiet : Prop := s.unsent = 0 ∧ s.notified = false

def probeEnabled : Bool := decide (config.nodeHealth.downNodeProbePeriod > 0)

def untimed (nextUpdate : Int) : Bool :=
  let refreshEnabled := decide (nextUpdate ≠ timePointMax)
  !refreshEnabled && !probeEnabled config

def wakeAt (nextUpdate nextDownProbe : Int) : Int :=
  let refreshEnabled := decide (nextUpdate ≠ timePointMax)
  let wakeAt := if refreshEnabled then nextUpdate else nextDownProbe
  if probeEnabled config && (!refreshEnabled || decide (nextDownProbe < wakeAt)) then nextDownProbe
  else wakeAt

/-- The locked section of `MarkActivity`. Whether it notifies is decided here, but
the notification itself is sent after the section. -/
def mark : Background :=
  let notify := (s.session.nodes.markActivity config (s.session.clock 0)).2
  { s with
    session := s.session.markActivity config
    unsent := if notify then s.unsent + 1 else s.unsent }

/-- From the timeout of `wait_until` to `lock.unlock()`. -/
def decideWork : Background :=
  let (now, session) := s.session.now
  let shouldUpdate := session.nodes.refreshDue now
  let shouldProbeDown := probeEnabled config && decide (now ≥ s.nextDownProbe)
  { s with
    session :=
      if shouldUpdate then
        (session.act fun nodes => ((), nodes.scheduleNextRefresh config now)).2
      else session
    nextDownProbe :=
      if shouldProbeDown then addPeriod now config.nodeHealth.downNodeProbePeriod
      else s.nextDownProbe
    thread := .working shouldUpdate shouldProbeDown
    notified := false
    refreshes := if shouldUpdate then s.refreshes ++ [now] else s.refreshes }

/-- What is decided at a timeout: a refresh exactly when one is due at the reading
of the clock, and with it the time of the next. -/
theorem decideWork_cases : ∃ shouldProbeDown,
    ((s.nextUpdate ≠ timePointMax ∧ s.nextUpdate ≤ s.session.clock 0) ∧
      (s.decideWork config).thread = .working true shouldProbeDown ∧
      (s.decideWork config).refreshes = s.refreshes ++ [s.session.clock 0] ∧
      (s.decideWork config).session.nodes =
        s.session.nodes.scheduleNextRefresh config (s.session.clock 0)) ∨
    (¬ (s.nextUpdate ≠ timePointMax ∧ s.nextUpdate ≤ s.session.clock 0) ∧
      (s.decideWork config).thread = .working false shouldProbeDown ∧
      (s.decideWork config).refreshes = s.refreshes ∧
      (s.decideWork config).session.nodes = s.session.nodes) := by
  refine ⟨probeEnabled config && decide (s.session.clock 0 ≥ s.nextDownProbe), ?_⟩
  rw [← LiveNodes.refreshDue_iff]
  cases due : s.session.nodes.refreshDue (s.session.clock 0) with
  | true =>
    left
    simp [decideWork, Session.now, Session.act, due]
  | false =>
    right
    simp [decideWork, Session.now, due]

/-- The body of the `try`; what it throws is swallowed. -/
def doWork (shouldUpdate shouldProbeDown : Bool) (s : Session) : Session :=
  let (result, s) := if shouldUpdate then s.updateLiveNodes config else (.ok (), s)
  match result with
  | .error _ => s
  | .ok () => if shouldProbeDown then s.probeDownNodes.2 else s

/-- One step. A notification sent while the thread is where `reaches` says is
kept for it; a wait may also end for no reason. -/
inductive Step (reaches : Thread → Bool) : ThreadEvent → Background → Prop
  | start (free : s.thread.locks = false) (first : s.backgroundStarted = false) :
      Step reaches .start
        { s with thread := .spawned, backgroundStarted := true, stopping := false }
  | stop (free : s.thread.locks = false) (started : s.backgroundStarted = true) :
      Step reaches .stop { s with stopping := true, unsent := s.unsent + 1 }
  | join (ended : s.thread = .returned) :
      Step reaches .join
        { s with thread := .absent, backgroundStarted := false, stopping := false }
  | mark : Step reaches .mark (s.mark config)
  | notify (owed : 0 < s.unsent) :
      Step reaches .notify
        { s with unsent := s.unsent - 1, notified := s.notified || reaches s.thread }
  | enter (fresh : s.thread = .spawned) :
      Step reaches .enter
        { s with
          session := s.session.now.2
          thread := .looping
          nextDownProbe := addPeriod s.session.now.1 config.nodeHealth.downNodeProbePeriod }
  | read (head : s.thread = .looping) :
      Step reaches .read
        { s with thread := if s.stopping then .returned else .read s.nextUpdate }
  | wait {nextUpdate : Int} (chosen : s.thread = .read nextUpdate) :
      Step reaches .wait
        { s with
          thread :=
            if untimed config nextUpdate then .parked
            else .waiting (wakeAt config nextUpdate s.nextDownProbe) }
  -- `wait` with a predicate goes back to waiting unless `stopping_` is set
  | wakeParked (parked : s.thread = .parked) :
      Step reaches .wake
        { s with thread := if s.stopping then .looping else .parked, notified := false }
  | wakeWaiting {wakeAt : Int} (waiting : s.thread = .waiting wakeAt) :
      Step reaches .wake { s with thread := .looping, notified := false }
  | timeout {wakeAt : Int} (waiting : s.thread = .waiting wakeAt)
      (due : wakeAt ≤ s.session.clock 0) :
      Step reaches .timeout
        (if s.stopping then { s with thread := .looping, notified := false }
          else s.decideWork config)
  -- a failing request marks activity and notifies, while the thread is not waiting
  | work {shouldUpdate shouldProbeDown : Bool}
      (working : s.thread = .working shouldUpdate shouldProbeDown) :
      Step reaches .work
        { s with
          session := doWork config shouldUpdate shouldProbeDown s.session
          thread := .looping }

/-- A run whose every step meets a condition on the state it starts from, with
the states it passes. -/
abbrev Run (reaches : Thread → Bool) (condition : Background → ThreadEvent → Prop) :
    Background → List Background → Background → Prop :=
  Path fun s t => ∃ event, condition s event ∧ Step config s reaches event t

end Background
end AlternatorClient
