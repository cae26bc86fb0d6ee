import AlternatorClient.LiveNodes.Rearming

/-! Notifications that come too early. A condition variable keeps nothing for a
thread that does not wait yet, and `MarkActivity` notifies without
`background_mutex_`: between the reading of `next_update_` and the wait a
notification is lost, and with it the change it told of. -/
namespace AlternatorClient
open Foundation

namespace Background
variable {config : Config} {s t u : Background} {event : ThreadEvent} {nextUpdate : Int}

/-- A thread that has read `nextUpdate` will wake in time for what the schedule
has become: the schedule was not brought forward, or a probe comes before it. -/
def Covered (config : Config) (nextUpdate : Int) (s : Background) : Prop :=
  moment nextUpdate ≤ moment s.nextUpdate ∨
    probeEnabled config = true ∧ (s.nextDownProbe : WithTop Int) ≤ moment s.nextUpdate

/-- No notification of a change the thread has not read is sent in front of the
wait, unless another one is still owed. -/
def Delivered (config : Config) (s : Background) (event : ThreadEvent) : Prop :=
  event = .notify → ∀ nextUpdate, s.thread = .read nextUpdate →
    Covered config nextUpdate s ∨ 1 < s.unsent

/-- What the thread knows where notifications can be lost: the time it waits for is
not later than that of the next refresh, or a notification is still to come. -/
def Informed (config : Config) (s : Background) : Prop :=
  match s.thread with
  | .read nextUpdate => s.unsent = 0 → Covered config nextUpdate s
  | .waiting wakeAt => s.Quiet → (wakeAt : WithTop Int) ≤ moment s.nextUpdate
  | _ => True

/-- A timed wait is for the refresh read about or for the probe, whichever is first. -/
theorem wakeAt_eq (timed : untimed config nextUpdate = false) (nextDownProbe : Int) :
    (wakeAt config nextUpdate nextDownProbe : WithTop Int) =
      min (moment nextUpdate) (if probeEnabled config then (nextDownProbe : WithTop Int) else ⊤) := by
  simp only [untimed] at timed
  cases probes : probeEnabled config with
  | false =>
    have finite : nextUpdate ≠ timePointMax := by simpa [probes] using timed
    simp [wakeAt, moment, finite, probes]
  | true =>
    by_cases never : nextUpdate = timePointMax
    · simp [wakeAt, moment, never, probes]
    · simp only [wakeAt, moment, never, probes, ne_eq, not_false_eq_true, decide_true, if_true,
        if_false, Bool.not_true, Bool.false_or, Bool.true_and, decide_eq_true_eq]
      rw [← WithTop.coe_min]
      split
      · rw [min_eq_right (by omega)]
      · rw [min_eq_left (by omega)]

/-- The thread is covered exactly if the wait it is about to begin ends in time. -/
theorem covered_iff (timed : untimed config nextUpdate = false) :
    Covered config nextUpdate s ↔
      (wakeAt config nextUpdate s.nextDownProbe : WithTop Int) ≤ moment s.nextUpdate := by
  rw [wakeAt_eq timed, min_le_iff, Covered]
  cases probeEnabled config with
  | true => simp
  | false =>
    simp only [Bool.false_eq_true, if_false, false_and, or_false, top_le_iff, iff_self_or]
    intro never
    exact never ▸ le_top

theorem Informed.of_eq (informed : s.Informed config) (thread : t.thread = s.thread)
    (same : t.nextUpdate = s.nextUpdate) (probe : t.nextDownProbe = s.nextDownProbe)
    (notified : t.notified = s.notified) (more : s.unsent ≤ t.unsent) : t.Informed config := by
  simp only [Informed, Covered, Quiet, thread, same, probe, notified] at informed ⊢
  split
  · rename_i nextUpdate at_
    simp only [at_] at informed
    exact fun sent => informed (by omega)
  · rename_i wakeAt at_
    simp only [at_] at informed
    exact fun quiet => informed ⟨by omega, quiet.2⟩
  · trivial

/-- A thread that is still owed a notification need not know of the activity yet: it
will be woken, and then it reads the time anew. -/
theorem Informed.of_owed (owed : 0 < s.unsent) : s.Informed config := by
  simp only [Informed, Quiet]
  split
  · intro sent
    omega
  · rintro ⟨sent, _⟩
    omega
  · trivial

theorem informed_step (informed : s.Informed config) (delivered : s.Delivered config event)
    (stepped : Step config s Thread.blocked event t) : t.Informed config := by
  cases stepped with
  | start => trivial
  | stop => exact .of_owed (Nat.succ_pos _)
  | join => trivial
  | mark =>
    obtain ⟨thread, notified, ⟨same, more⟩ | ⟨-, owed⟩⟩ := mark_cases config s
    · exact informed.of_eq thread same rfl notified more
    · exact .of_owed (owed ▸ Nat.succ_pos _)
  | notify owed =>
    simp only [Informed]
    split
    · rename_i nextUpdate at_
      intro sent
      exact (delivered rfl nextUpdate at_).resolve_right (by omega)
    · rename_i wakeAt at_
      rintro ⟨-, processed⟩
      simp [at_, Thread.blocked] at processed
    · trivial
  | enter => trivial
  | read =>
    simp only [Informed]
    cases s.stopping with
    | true => trivial
    | false => exact fun _ => .inl (le_refl _)
  | wait chosen =>
    rename_i nextUpdate
    simp only [Informed, chosen] at informed
    cases timed : untimed config nextUpdate with
    | true => trivial
    | false => exact fun quiet => (covered_iff timed).mp (informed quiet.1)
  | wakeParked parked =>
    cases s.stopping with
    | true => trivial
    | false => trivial
  | wakeWaiting => trivial
  | timeout =>
    cases s.stopping with
    | true => trivial
    | false => trivial
  | work => trivial

/-- Only a waiting thread has a notification to process, and before the start
there is no thread. -/
structure Attentive (s : Background) : Prop where
  blocked : s.notified = true → s.thread.blocked = true
  absent : s.backgroundStarted = false → s.thread = .absent

theorem Attentive.deaf (attentive : s.Attentive) (running : s.thread.blocked = false) :
    s.notified = false := by
  by_contra notified
  have blocked := attentive.blocked (by simpa using notified)
  simp [running] at blocked

theorem Attentive.started (attentive : s.Attentive) (present : s.thread ≠ .absent) :
    s.backgroundStarted = true := by
  by_contra unstarted
  exact present (attentive.absent (by simpa using unstarted))

/-- A step of a thread that is there and leaves it with nothing to process. -/
theorem Attentive.of_deaf (started : t.backgroundStarted = true) (deaf : t.notified = false) :
    t.Attentive := by
  constructor
  · simp [deaf]
  · simp [started]

theorem attentive_step (attentive : s.Attentive) (stepped : Step config s Thread.blocked event t) :
    t.Attentive := by
  cases stepped with
  | start free first =>
    have absent := attentive.absent first
    exact .of_deaf rfl (attentive.deaf (by simp [absent, Thread.blocked]))
  | stop => exact ⟨attentive.blocked, attentive.absent⟩
  | join ended =>
    constructor
    · simp [attentive.deaf (by simp [ended, Thread.blocked])]
    · exact fun _ => rfl
  | mark => exact ⟨attentive.blocked, attentive.absent⟩
  | notify =>
    constructor
    · intro notified
      rcases (Bool.or_eq_true _ _).mp notified with earlier | now
      · exact attentive.blocked earlier
      · exact now
    · exact attentive.absent
  | enter fresh =>
    exact .of_deaf (attentive.started (by simp [fresh]))
      (attentive.deaf (by simp [fresh, Thread.blocked]))
  | read head =>
    exact .of_deaf (attentive.started (by simp [head]))
      (attentive.deaf (by simp [head, Thread.blocked]))
  | wait chosen =>
    exact .of_deaf (attentive.started (by simp [chosen]))
      (attentive.deaf (by simp [chosen, Thread.blocked]))
  | wakeParked parked => exact .of_deaf (attentive.started (by simp [parked])) rfl
  | wakeWaiting waiting => exact .of_deaf (attentive.started (by simp [waiting])) rfl
  | timeout waiting =>
    have started := attentive.started (by simp [waiting])
    cases s.stopping with
    | true => exact .of_deaf started rfl
    | false => exact .of_deaf started rfl
  | work working =>
    exact .of_deaf (attentive.started (by simp [working]))
      (attentive.deaf (by simp [working, Thread.blocked]))

/-- The wait that follows a lost notification ends too late. -/
theorem late_of_lost {wakeAt : Int} (attentive : s.Attentive)
    (lost : ¬ s.Delivered config .notify) (notified : Step config s Thread.blocked .notify t)
    (waited : Step config t Thread.blocked .wait u) (waiting : u.thread = .waiting wakeAt) :
    u.Quiet ∧ ¬ (wakeAt : WithTop Int) ≤ moment u.nextUpdate := by
  simp only [Delivered, forall_const, not_forall, not_or] at lost
  obtain ⟨nextUpdate, chosen, uncovered, last⟩ := lost
  have deaf := attentive.deaf (by simp [chosen, Thread.blocked])
  cases notified with
  | notify owed =>
    cases waited with
    | wait chosen' =>
      obtain rfl := Thread.read.inj (chosen.symm.trans chosen')
      cases timed : untimed config nextUpdate with
      | true => simp [timed] at waiting
      | false =>
        simp only [timed, Bool.false_eq_true, if_false, Thread.waiting.injEq] at waiting
        subst waiting
        refine ⟨⟨?_, ?_⟩, fun early => uncovered ((covered_iff timed).mpr early)⟩
        · dsimp only
          omega
        · simp [deaf, chosen, Thread.blocked]

end Background

/-- Wherever no notification of an unread change falls in front of the wait, the
thread in its timed wait with nothing left to process wakes no later than the
next refresh is due; and wherever one does, the timed wait that follows ends
too late. -/
theorem timed_wait_informed (config : Config) (session : Session) :
    (∀ states final,
      Background.Run config Thread.blocked (Background.Delivered config) { session := session }
        states final →
      ∀ s ∈ final :: states, ∀ wakeAt, s.thread = .waiting wakeAt → s.Quiet →
        (wakeAt : WithTop Int) ≤ moment s.nextUpdate) ∧
    ∀ states s t u wakeAt,
      Background.Run config Thread.blocked (fun _ _ => True) { session := session } states s →
      ¬ s.Delivered config .notify → Background.Step config s Thread.blocked .notify t →
      Background.Step config t Thread.blocked .wait u → u.thread = .waiting wakeAt →
        u.Quiet ∧ ¬ (wakeAt : WithTop Int) ≤ moment u.nextUpdate := by
  constructor
  · intro states final run s reached wakeAt waiting quiet
    have informed : ∀ s ∈ final :: states, s.Informed config := by
      refine List.forall_mem_cons.mpr (run.invariant ?_ trivial)
      rintro s t ⟨event, delivered, stepped⟩ informed
      exact Background.informed_step informed delivered stepped
    have here := informed s reached
    simp only [Background.Informed, waiting] at here
    exact here quiet
  · intro states s t u wakeAt run lost notified waited waiting
    have attentive : s.Attentive := by
      refine (run.invariant ?_ ⟨by simp, fun _ => rfl⟩).1
      rintro s t ⟨event, -, stepped⟩ attentive
      exact Background.attentive_step attentive stepped
    exact Background.late_of_lost attentive lost notified waited waiting

/-- A client with the default periods. Marked and notified before its thread
reads the schedule, it waits for the activity; marked and notified after the
reading, it waits for the probe. -/
theorem timed_wait_informed_marked :
    let nodes : LiveNodes :=
      { initialNodes := [], liveNodes := [], healthStore := NodeHealthStore.new {} []
        nextUpdate := milliseconds 60000, lastActivity := timePointMin }
    let session := Session.still nodes ⟨fun _ _ => .ok {}⟩
    (∃ states final,
      Background.Run {} Thread.blocked (Background.Delivered {}) { session := session }
        states final ∧
      final.thread = .waiting (milliseconds 1000) ∧ final.Quiet ∧
      (milliseconds 1000 : WithTop Int) ≤ moment final.nextUpdate) ∧
    ∃ states s t u,
      Background.Run {} Thread.blocked (fun _ _ => True) { session := session } states s ∧
      Background.Step {} s Thread.blocked .notify t ∧
      Background.Step {} t Thread.blocked .wait u ∧
      u.thread = .waiting (milliseconds 30000) ∧ u.Quiet ∧
      ¬ (milliseconds 30000 : WithTop Int) ≤ moment u.nextUpdate := by
  intro nodes session
  have quiet {s : Background} {event : ThreadEvent} (other : event ≠ .notify) :
      Background.Delivered {} s event := fun notified => absurd notified other
  constructor
  · have run : Background.Run {} Thread.blocked (Background.Delivered {})
        { session := session } _ _ :=
      .step ⟨.start, quiet (by decide), .start rfl rfl⟩ <|
      .step ⟨.enter, quiet (by decide), .enter rfl⟩ <|
      .step ⟨.mark, quiet (by decide), .mark⟩ <|
      .step ⟨.notify, fun _ _ reading => Thread.noConfusion reading, .notify (by decide)⟩ <|
      .step ⟨.read, quiet (by decide), .read rfl⟩ <|
      .step ⟨.wait, quiet (by decide), .wait rfl⟩ <|
      .refl _
    exact ⟨_, _, run, rfl, ⟨rfl, rfl⟩,
      (timed_wait_informed {} session).1 _ _ run _ List.mem_cons_self _ rfl ⟨rfl, rfl⟩⟩
  · have run : Background.Run {} Thread.blocked (fun _ _ => True) { session := session } _ _ :=
      .step ⟨.start, trivial, .start rfl rfl⟩ <|
      .step ⟨.enter, trivial, .enter rfl⟩ <|
      .step ⟨.read, trivial, .read rfl⟩ <|
      .step ⟨.mark, trivial, .mark⟩ <|
      .refl _
    obtain ⟨processed, late⟩ := (timed_wait_informed {} session).2 _ _ _ _ (milliseconds 30000) run
      (by
        intro delivered
        have covered := delivered rfl (milliseconds 60000) rfl
        simp only [Background.Covered] at covered
        revert covered
        decide)
      (.notify (by decide)) (.wait rfl) rfl
    exact ⟨_, _, _, _, run, .notify (by decide), .wait rfl, rfl, processed, late⟩

/-- The default configuration, an activity between the reading of the schedule
and the wait: the refresh is due after a second, the thread sleeps for thirty. -/
theorem early_notification_lost :
    ∃ nodes session states final,
      LiveNodes.new [bytes "a"] {} 0 = .ok nodes ∧ session.nodes = nodes ∧
      ({} : Config).idleNodesListUpdatePeriod > 0 ∧
      Background.Run {} Thread.blocked (fun _ _ => True) { session := session } states final ∧
      final.thread = .waiting (milliseconds 30000) ∧ final.Quiet ∧
      final.nextUpdate = milliseconds 1000 ∧
      ¬ (milliseconds 30000 : WithTop Int) ≤ moment final.nextUpdate := by
  let nodes : LiveNodes :=
    { initialNodes := [({} : Config).nodeUrl (bytes "a")]
      liveNodes := [({} : Config).nodeUrl (bytes "a")]
      healthStore := NodeHealthStore.new {} [({} : Config).nodeUrl (bytes "a")]
      nextUpdate := milliseconds 60000, lastActivity := timePointMin }
  have run : Background.Run {} Thread.blocked (fun _ _ => True)
      { session := .still nodes ⟨fun _ _ => .ok {}⟩ } _ _ :=
    .step ⟨.start, trivial, .start rfl rfl⟩ <|
    .step ⟨.enter, trivial, .enter rfl⟩ <|
    .step ⟨.read, trivial, .read rfl⟩ <|
    .step ⟨.mark, trivial, .mark⟩ <|
    .step ⟨.notify, trivial, .notify (by decide)⟩ <|
    .step ⟨.wait, trivial, .wait rfl⟩ <|
    .refl _
  exact ⟨nodes, _, _, _, rfl, rfl, by decide, run, rfl, ⟨rfl, rfl⟩, rfl, by decide⟩

end AlternatorClient
