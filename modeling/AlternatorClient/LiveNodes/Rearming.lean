import AlternatorClient.LiveNodes.Background

/-! Whether the background thread wakes in time for the next refresh. In the
timed wait every notification sends it back to read `next_update_`. The untimed
wait looks at `stopping_` only, so it must not be given anything to hear. -/
namespace AlternatorClient
open Foundation

namespace Background
variable {config : Config} {s t : Background} {event : ThreadEvent}

/-- The thread is in the untimed wait or on its way there. -/
def Parks (config : Config) (s : Background) : Prop :=
  s.thread = .parked ∨ ∃ nextUpdate, s.thread = .read nextUpdate ∧ untimed config nextUpdate = true

/-- No activity that could bring a refresh forward falls into the untimed wait. -/
def Heard (config : Config) (s : Background) (event : ThreadEvent) : Prop :=
  event = .mark → config.nodesListUpdatePeriod > 0 → ¬ s.Parks config

theorem not_parks {wakeAt : Int} (waiting : s.thread = .waiting wakeAt) : ¬ s.Parks config := by
  rintro (parked | ⟨nextUpdate, read, _⟩)
  · simp [waiting] at parked
  · simp [waiting] at read

/-- What the thread knows about the schedule where it is: that the time it has read,
and waits for, is not past the next refresh unless it is about to be told, and in
the untimed wait that no refresh is scheduled. -/
def Armed (config : Config) (s : Background) : Prop :=
  match s.thread with
  | .read nextUpdate =>
    (s.Quiet → s.nextUpdate = nextUpdate) ∧
      (untimed config nextUpdate = true → s.nextUpdate = timePointMax)
  | .parked => s.nextUpdate = timePointMax
  | .waiting wakeAt => s.Quiet → wakeAt ≤ s.nextUpdate ∨ s.nextUpdate = timePointMax
  | _ => True

theorem untimed_iff {nextUpdate : Int} :
    untimed config nextUpdate = true ↔
      nextUpdate = timePointMax ∧ config.nodeHealth.downNodeProbePeriod ≤ 0 := by
  simp [untimed, probeEnabled]

theorem wakeAt_le {nextUpdate : Int} (finite : nextUpdate ≠ timePointMax) (nextDownProbe : Int) :
    wakeAt config nextUpdate nextDownProbe ≤ nextUpdate := by
  simp only [wakeAt, finite, ne_eq, not_false_eq_true, decide_true, if_true, Bool.not_true,
    Bool.false_or]
  split
  · rename_i earlier
    simp only [Bool.and_eq_true, decide_eq_true_eq] at earlier
    exact earlier.2.le
  · exact le_refl _

/-- A mark leaves the schedule as it is or owes a notification. -/
theorem mark_cases (config : Config) (s : Background) :
    (s.mark config).thread = s.thread ∧ (s.mark config).notified = s.notified ∧
      ((s.mark config).nextUpdate = s.nextUpdate ∧ s.unsent ≤ (s.mark config).unsent ∨
        config.nodesListUpdatePeriod > 0 ∧ (s.mark config).unsent = s.unsent + 1) := by
  refine ⟨rfl, rfl, ?_⟩
  simp only [mark, nextUpdate, Session.markActivity, Session.act, LiveNodes.markActivity]
  split
  · rename_i positive
    split
    · exact .inr ⟨positive, rfl⟩
    · refine .inl ⟨rfl, ?_⟩
      split <;> omega
  · exact .inl ⟨rfl, by simp⟩

/-- Where the thread and the schedule are unchanged, nothing may become quiet. -/
theorem Armed.of_eq (armed : s.Armed config) (thread : t.thread = s.thread)
    (same : t.nextUpdate = s.nextUpdate) (quiet : t.Quiet → s.Quiet) : t.Armed config := by
  simp only [Armed, thread, same] at armed ⊢
  cases at_ : s.thread with
  | read nextUpdate =>
    simp only [at_] at armed
    exact ⟨fun now => armed.1 (quiet now), armed.2⟩
  | parked =>
    simp only [at_] at armed
    exact armed
  | waiting wakeAt =>
    simp only [at_] at armed
    exact fun now => armed (quiet now)
  | _ => trivial

/-- Marks from outside the untimed wait keep the thread armed. -/
theorem armed_mark (armed : s.Armed config) (heard : s.Heard config .mark) :
    (s.mark config).Armed config := by
  obtain ⟨thread, notified, ⟨same, more⟩ | ⟨positive, owed⟩⟩ := mark_cases config s
  · apply armed.of_eq thread same
    rintro ⟨sent, processed⟩
    exact ⟨by omega, notified ▸ processed⟩
  · have timed := heard rfl positive
    have unquiet : ¬ (s.mark config).Quiet := by
      rintro ⟨sent, _⟩
      omega
    simp only [Armed, thread]
    split
    · rename_i nextUpdate at_
      constructor
      · exact fun quiet => absurd quiet unquiet
      · exact fun untimed => absurd (.inr ⟨nextUpdate, at_, untimed⟩) timed
    · rename_i at_
      exact absurd (.inl at_) timed
    · exact fun quiet => absurd quiet unquiet
    · trivial

theorem armed_wait {nextUpdate : Int} (armed : s.Armed config)
    (chosen : s.thread = .read nextUpdate) :
    Armed config
      { s with
        thread :=
          if untimed config nextUpdate then .parked
          else .waiting (wakeAt config nextUpdate s.nextDownProbe) } := by
  simp only [Armed, chosen] at armed
  obtain ⟨current, never⟩ := armed
  cases untimed : untimed config nextUpdate with
  | true => exact never untimed
  | false =>
    intro quiet
    obtain rfl := current quiet
    by_cases finite : s.nextUpdate = timePointMax
    · exact .inr finite
    · exact .inl (wakeAt_le finite s.nextDownProbe)

theorem armed_step (armed : s.Armed config) (heard : s.Heard config event)
    (stepped : Step config s (fun _ => true) event t) : t.Armed config := by
  cases stepped with
  | start => trivial
  | stop =>
    refine armed.of_eq rfl rfl ?_
    rintro ⟨sent, _⟩
    exact absurd sent (Nat.succ_ne_zero _)
  | join => trivial
  | mark => exact armed_mark armed heard
  | notify =>
    refine armed.of_eq rfl rfl ?_
    rintro ⟨_, processed⟩
    simp at processed
  | enter => trivial
  | read =>
    simp only [Armed]
    cases s.stopping with
    | true => trivial
    | false => exact ⟨fun _ => rfl, fun untimed => (untimed_iff.mp untimed).1⟩
  | wait chosen => exact armed_wait armed chosen
  | wakeParked parked =>
    simp only [Armed, parked] at armed ⊢
    cases s.stopping with
    | true => trivial
    | false => exact armed
  | wakeWaiting => trivial
  | timeout =>
    cases s.stopping with
    | true => trivial
    | false => trivial
  | work => trivial

/-- A quiet thread is armed for the next refresh. -/
theorem Armed.deadline_le (armed : s.Armed config) (blocked : s.thread.blocked = true)
    (quiet : s.Quiet) : s.thread.deadline ≤ moment s.nextUpdate := by
  simp only [Armed] at armed
  cases at_ : s.thread with
  | parked =>
    simp only [at_] at armed
    simp [moment, armed]
  | waiting wakeAt =>
    simp only [at_] at armed
    simp only [Thread.deadline, moment]
    split
    · exact le_top
    · rename_i finite
      exact WithTop.coe_le_coe.mpr ((armed quiet).resolve_right finite)
  | _ => simp [at_, Thread.blocked] at blocked

/-- A timeout at the time of the next refresh begins it. -/
theorem timeout_refreshes {reaches : Thread → Bool} (stepped : Step config s reaches .timeout t)
    (running : s.stopping = false) (finite : s.nextUpdate ≠ timePointMax)
    (passed : s.nextUpdate ≤ s.session.clock 0) :
    ∃ shouldProbeDown, t.thread = .working true shouldProbeDown := by
  cases stepped with
  | timeout waiting due =>
    rw [running, if_neg (by simp)]
    obtain ⟨shouldProbeDown, ⟨_, refreshing, _⟩ | ⟨early, _⟩⟩ := decideWork_cases config s
    · exact ⟨shouldProbeDown, refreshing⟩
    · exact absurd ⟨finite, passed⟩ early

end Background

/-- Wherever every notification reaches the thread and no activity falls into
its untimed wait, it is armed for the next refresh when it waits and has nothing
left to process, and begins that refresh when it times out at its time. -/
theorem background_rearms {config : Config} {session : Session} {states : List Background}
    {final : Background}
    (run : Background.Run config (fun _ => true) (Background.Heard config) { session := session }
      states final) :
    ∀ s ∈ final :: states, s.thread.blocked = true → s.Quiet →
      s.thread.deadline ≤ moment s.nextUpdate ∧
      (s.nextUpdate ≠ timePointMax → s.nextUpdate ≤ s.session.clock 0 → s.stopping = false →
        (∃ t, Background.Step config s (fun _ => true) .timeout t) ∧
        ∀ t, Background.Step config s (fun _ => true) .timeout t →
          ∃ shouldProbeDown, t.thread = .working true shouldProbeDown) := by
  have armed : ∀ s ∈ final :: states, s.Armed config := by
    refine List.forall_mem_cons.mpr (run.invariant ?_ trivial)
    rintro s t ⟨event, heard, stepped⟩ armed
    exact Background.armed_step armed heard stepped
  intro s reached blocked quiet
  have deadline := (armed s reached).deadline_le blocked quiet
  refine ⟨deadline, fun finite passed running => ⟨?_, fun t stepped => ?_⟩⟩
  · cases at_ : s.thread with
    | waiting wakeAt =>
      rw [at_, moment, if_neg finite] at deadline
      have due : wakeAt ≤ s.nextUpdate := WithTop.coe_le_coe.mp deadline
      exact ⟨_, .timeout at_ (due.trans passed)⟩
    | parked => simp [at_, Thread.deadline, moment, finite] at deadline
    | _ => simp [at_, Thread.blocked] at blocked
  · exact Background.timeout_refreshes stepped running finite passed

/-- A client with the default periods, marked while its thread waits: the thread
is woken and waits again, for the activity this time. -/
theorem background_rearms_marked :
    ∃ session states final,
      Background.Run {} (fun _ => true) (Background.Heard {}) { session := session } states final ∧
      final.thread = .waiting (milliseconds 1000) ∧ final.Quiet ∧
      final.thread.deadline ≤ moment final.nextUpdate := by
  let nodes : LiveNodes :=
    { initialNodes := [], liveNodes := [], healthStore := NodeHealthStore.new {} []
      nextUpdate := milliseconds 60000, lastActivity := timePointMin }
  have deaf {s : Background} {event : ThreadEvent} (other : event ≠ .mark) :
      Background.Heard {} s event := fun marked => absurd marked other
  have run : Background.Run {} (fun _ => true) (Background.Heard {})
      { session := .still nodes ⟨fun _ _ => .ok {}⟩ } _ _ :=
    .step ⟨.start, deaf (by decide), .start rfl rfl⟩ <|
    .step ⟨.enter, deaf (by decide), .enter rfl⟩ <|
    .step ⟨.read, deaf (by decide), .read rfl⟩ <|
    .step ⟨.wait, deaf (by decide), .wait rfl⟩ <|
    .step ⟨.mark, fun _ _ => Background.not_parks rfl, .mark⟩ <|
    .step ⟨.notify, deaf (by decide), .notify (by decide)⟩ <|
    .step ⟨.wake, deaf (by decide), .wakeWaiting rfl⟩ <|
    .step ⟨.read, deaf (by decide), .read rfl⟩ <|
    .step ⟨.wait, deaf (by decide), .wait rfl⟩ <|
    .refl _
  exact ⟨_, _, _, run, rfl, ⟨rfl, rfl⟩,
    (background_rearms run _ List.mem_cons_self rfl ⟨rfl, rfl⟩).1⟩

/-- Without an idle refresh and without probes the thread waits untimed, and an
activity does not get it out of there: the refresh it schedules is never begun. -/
theorem parked_ignores_activity :
    let config : Config :=
      { idleNodesListUpdatePeriod := 0, nodeHealth := { downNodeProbePeriod := 0 } }
    ∃ nodes session states final,
      LiveNodes.new [bytes "a"] config 0 = .ok nodes ∧ session.nodes = nodes ∧
      Background.Run config (fun _ => true) (fun _ _ => True) { session := session } states final ∧
      final.thread = .parked ∧ final.Quiet ∧ final.nextUpdate = milliseconds 1000 ∧
      ¬ final.thread.deadline ≤ moment final.nextUpdate := by
  intro config
  let nodes : LiveNodes :=
    { initialNodes := [config.nodeUrl (bytes "a")], liveNodes := [config.nodeUrl (bytes "a")]
      healthStore := NodeHealthStore.new config.nodeHealth [config.nodeUrl (bytes "a")]
      nextUpdate := timePointMax, lastActivity := timePointMin }
  have run : Background.Run config (fun _ => true) (fun _ _ => True)
      { session := .still nodes ⟨fun _ _ => .ok {}⟩ } _ _ :=
    .step ⟨.start, trivial, .start rfl rfl⟩ <|
    .step ⟨.enter, trivial, .enter rfl⟩ <|
    .step ⟨.read, trivial, .read rfl⟩ <|
    .step ⟨.wait, trivial, .wait rfl⟩ <|
    .step ⟨.mark, trivial, .mark⟩ <|
    .step ⟨.notify, trivial, .notify (by decide)⟩ <|
    .step ⟨.wake, trivial, .wakeParked rfl⟩ <|
    .refl _
  exact ⟨nodes, _, _, _, rfl, rfl, run, rfl, ⟨rfl, rfl⟩, rfl, WithTop.not_top_le_coe _⟩

end AlternatorClient
