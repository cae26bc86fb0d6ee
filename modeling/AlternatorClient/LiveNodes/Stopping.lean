import AlternatorClient.LiveNodes.Background

/-! `Stop` against the background thread: the flag is set under the mutex that the
thread holds from reading it to waiting, and the notification follows, so a thread that
waits is woken; it goes round the loop once more and begins no refresh. -/
namespace AlternatorClient
open Foundation

def ThreadEvent.byThread : ThreadEvent → Bool
  | .enter | .read | .wait | .wake | .timeout | .work => true
  | _ => false

/-- How many steps a thread takes at most until it sees that it is to stop. -/
def Thread.left : Thread → Nat
  | .absent | .returned => 0
  | .looping => 1
  | .read _ => 3
  | .spawned | .parked | .waiting _ | .working _ _ => 2

namespace Background

/-- What `Stop` relies on: while it is stopping, the thread has not read a time that
it could still wait for, and if it waits it will be woken. -/
structure Stoppable (s : Background) : Prop where
  present : s.backgroundStarted = true → s.thread ≠ .absent
  started : s.stopping = true → s.backgroundStarted = true
  unread : s.stopping = true → ∀ nextUpdate, s.thread ≠ .read nextUpdate
  woken : s.stopping = true → s.thread.blocked = true → 0 < s.unsent ∨ s.notified = true

/-- A step before the thread is joined, with the count of the thread's own steps. -/
def Counted (config : Config) (before after : Background × Nat) : Prop :=
  ∃ event, event ≠ .join ∧ Step config before.1 Thread.blocked event after.1 ∧
    after.2 = before.2 + if event.byThread then 1 else 0

section
variable {config : Config} {s t : Background} {event : ThreadEvent}

theorem stoppable_step (stoppable : s.Stoppable) (stepped : Step config s Thread.blocked event t) :
    t.Stoppable := by
  obtain ⟨present, started, unread, woken⟩ := stoppable
  cases stepped with
  | start free first =>
    constructor
    · intro _ absent
      contradiction
    · intro stopping
      contradiction
    · intro stopping
      contradiction
    · intro stopping
      contradiction
  | stop free first =>
    constructor
    · exact present
    · exact fun _ => first
    · intro _ nextUpdate reading
      rw [show s.thread = .read nextUpdate from reading] at free
      contradiction
    · exact fun _ _ => .inl (Nat.succ_pos _)
  | join ended =>
    constructor
    · intro stillStarted
      contradiction
    · intro stopping
      contradiction
    · intro stopping
      contradiction
    · intro stopping
      contradiction
  | mark =>
    refine ⟨present, started, unread, fun stopping blocked => ?_⟩
    rcases woken stopping blocked with owed | notified
    · left
      simp only [mark]
      split <;> omega
    · exact .inr notified
  | notify owed =>
    refine ⟨present, started, unread, fun _ blocked => .inr ?_⟩
    simp only [show s.thread.blocked = true from blocked, Bool.or_true]
  | enter fresh =>
    constructor
    · intro _ absent
      contradiction
    · exact started
    · intro stopping nextUpdate reading
      contradiction
    · intro stopping blocked
      contradiction
  | read head =>
    constructor
    · intro _ absent
      simp only at absent
      split at absent <;> contradiction
    · exact started
    · intro stopping nextUpdate
      simp [show s.stopping = true from stopping]
    · intro stopping blocked
      simp [show s.stopping = true from stopping, Thread.blocked] at blocked
  | @wait nextUpdate chosen =>
    constructor
    · intro _ absent
      simp only at absent
      split at absent <;> contradiction
    · exact started
    · exact fun stopping => absurd chosen (unread stopping nextUpdate)
    · exact fun stopping => absurd chosen (unread stopping nextUpdate)
  | wakeParked parked =>
    constructor
    · intro _ absent
      simp only at absent
      split at absent <;> contradiction
    · exact started
    · intro stopping nextUpdate
      simp [show s.stopping = true from stopping]
    · intro stopping blocked
      simp [show s.stopping = true from stopping, Thread.blocked] at blocked
  | wakeWaiting waiting =>
    refine ⟨fun _ => by simp, started, fun _ => by simp, fun _ blocked => ?_⟩
    contradiction
  | timeout waiting due =>
    split
    · refine ⟨fun _ => by simp, started, fun _ => by simp, fun _ blocked => ?_⟩
      contradiction
    · rename_i going
      exact ⟨fun _ => by simp [decideWork], started, fun _ => by simp [decideWork],
        fun _ blocked => by contradiction⟩
  | work working =>
    refine ⟨fun _ => by simp, started, fun _ => by simp, fun _ blocked => ?_⟩
    contradiction

/-- Once it is to stop, each step of the thread brings it nearer to its end. -/
theorem stopping_step (stoppable : s.Stoppable) (stopping : s.stopping = true)
    (unjoined : event ≠ .join) (stepped : Step config s Thread.blocked event t) :
    t.stopping = true ∧ t.refreshes = s.refreshes ∧
      t.thread.left + (if event.byThread then 1 else 0) ≤ s.thread.left := by
  cases stepped with
  | start free first =>
    rw [stoppable.started stopping] at first
    contradiction
  | stop => exact ⟨rfl, rfl, le_rfl⟩
  | join => contradiction
  | mark => exact ⟨stopping, rfl, le_rfl⟩
  | notify owed => exact ⟨stopping, rfl, le_rfl⟩
  | enter fresh => simp [stopping, fresh, Thread.left, ThreadEvent.byThread]
  | read head => simp [stopping, head, Thread.left, ThreadEvent.byThread]
  | @wait nextUpdate chosen => exact absurd chosen (stoppable.unread stopping nextUpdate)
  | wakeParked parked => simp [stopping, parked, Thread.left, ThreadEvent.byThread]
  | wakeWaiting waiting => simp [stopping, waiting, Thread.left, ThreadEvent.byThread]
  | timeout waiting due => simp [stopping, waiting, Thread.left, ThreadEvent.byThread]
  | work working => simp [stopping, working, Thread.left, ThreadEvent.byThread]

theorem left_le_two (stoppable : s.Stoppable) (stopping : s.stopping = true) :
    s.thread.left ≤ 2 := by
  cases at_ : s.thread with
  | read nextUpdate => exact absurd at_ (stoppable.unread stopping nextUpdate)
  | _ => simp [Thread.left]

/-- A thread that has not returned has a step to take, and if it waits it is woken. -/
theorem Stoppable.goesOn (stoppable : s.Stoppable) (stopping : s.stopping = true) :
    s.thread = .returned ∨
      (∃ event t, event.byThread = true ∧ Step config s Thread.blocked event t) ∧
        (s.thread.blocked = true → 0 < s.unsent ∨ s.notified = true) := by
  have woken := stoppable.woken stopping
  cases at_ : s.thread with
  | absent => exact absurd at_ (stoppable.present (stoppable.started stopping))
  | spawned => exact .inr ⟨⟨.enter, _, rfl, .enter at_⟩, at_ ▸ woken⟩
  | looping => exact .inr ⟨⟨.read, _, rfl, .read at_⟩, at_ ▸ woken⟩
  | read nextUpdate => exact absurd at_ (stoppable.unread stopping nextUpdate)
  | parked => exact .inr ⟨⟨.wake, _, rfl, .wakeParked at_⟩, at_ ▸ woken⟩
  | waiting wakeAt => exact .inr ⟨⟨.wake, _, rfl, .wakeWaiting at_⟩, at_ ▸ woken⟩
  | working shouldUpdate shouldProbeDown =>
    exact .inr ⟨⟨.work, _, rfl, .work at_⟩, at_ ▸ woken⟩
  | returned => exact .inl rfl

end

/-- A thread that `Stop` was called for ends after two steps of its own at most: it
begins no refresh, and as long as it waits a notification is owed to it or has come. -/
theorem stop_ends_the_thread (config : Config) (session : Session) {states : List Background}
    {s t : Background} {counted : List (Background × Nat)} {n : Nat}
    (run : Run config Thread.blocked (fun _ _ => True) { session := session } states s)
    (stopping : s.stopping = true) (further : Path (Counted config) (s, 0) counted (t, n)) :
    n ≤ 2 ∧ t.stopping = true ∧ t.refreshes = s.refreshes ∧
      (t.thread = .returned ∨
        (∃ event u, event.byThread = true ∧ Step config t Thread.blocked event u) ∧
          (t.thread.blocked = true → 0 < t.unsent ∨ t.notified = true)) := by
  have start : ({ session := session } : Background).Stoppable := by
    constructor <;> intro never <;> contradiction
  have stoppable : s.Stoppable :=
    (Path.invariant (fun ⟨_, _, stepped⟩ holds => stoppable_step holds stepped) run start).1
  have bounded := left_le_two stoppable stopping
  have kept := (Path.invariant (P := fun after : Background × Nat => after.1.Stoppable ∧
    after.1.stopping = true ∧ after.1.refreshes = s.refreshes ∧
      after.1.thread.left + after.2 ≤ s.thread.left) ?_ further
      ⟨stoppable, stopping, rfl, le_rfl⟩).1
  · obtain ⟨stoppable', stopping', same, count⟩ := kept
    exact ⟨by omega, stopping', same, stoppable'.goesOn stopping'⟩
  · rintro ⟨a, i⟩ ⟨b, j⟩ ⟨event, unjoined, stepped, count⟩ ⟨stoppable, stopping, same, before⟩
    obtain ⟨stopping', same', nearer⟩ := stopping_step stoppable stopping unjoined stepped
    simp only at count before nearer ⊢
    exact ⟨stoppable_step stoppable stepped, stopping', same'.trans same, by omega⟩

/-- A thread that waits for its next refresh is stopped: it is notified, wakes and
returns. -/
theorem stop_ends_a_waiting_thread :
    let nodes : LiveNodes :=
      { initialNodes := [], liveNodes := [], healthStore := NodeHealthStore.new {} []
        nextUpdate := milliseconds 60000, lastActivity := timePointMin }
    let session := Session.still nodes ⟨fun _ _ => .ok {}⟩
    ∃ states s counted t,
      Run {} Thread.blocked (fun _ _ => True) { session := session } states s ∧
      s.thread.blocked = true ∧ Path (Counted {}) (s, 0) counted (t, 2) ∧
      t.thread = .returned ∧ t.refreshes = s.refreshes := by
  intro nodes session
  obtain ⟨states, s, wakeAt, run, waits, stopping, unsent⟩ : ∃ states s wakeAt,
      Run {} Thread.blocked (fun _ _ => True) { session := session } states s ∧
        s.thread = .waiting wakeAt ∧ s.stopping = true ∧ 0 < s.unsent := by
    refine ⟨_, _, _, .step ⟨_, trivial, .start rfl rfl⟩ (.step ⟨_, trivial, .enter rfl⟩
      (.step ⟨_, trivial, .read rfl⟩ (.step ⟨_, trivial, .wait rfl⟩
        (.single ⟨_, trivial, .stop ?_ rfl⟩)))), rfl, rfl, ?_⟩
    · decide
    · exact Nat.succ_pos _
  have further : Path (Counted {}) (s, 0) _ (_, 2) :=
    .step (b := (_, 0)) ⟨.notify, by decide, .notify unsent, rfl⟩
      (.step (b := (_, 1)) ⟨.wake, by decide, .wakeWaiting waits, rfl⟩
        (.single ⟨.read, by decide, .read rfl, rfl⟩))
  obtain ⟨-, -, same, -⟩ := stop_ends_the_thread {} session run stopping further
  refine ⟨states, s, _, _, run, by rw [waits]; rfl, further, ?_, same⟩
  simp [stopping]

end Background
end AlternatorClient
