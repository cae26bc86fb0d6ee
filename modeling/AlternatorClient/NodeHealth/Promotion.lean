import AlternatorClient.NodeHealth.History

/-! When a node leaves quarantine. The `Success` that ends a Down period is
counted, but the count is compared with the threshold only at the next one, so
a threshold of one takes two. -/
namespace AlternatorClient
open Foundation

/-- Some observation since the Down period ended completed `successes`
consecutive `Success`es, the ending one counted. -/
def Completed (successes : Nat) (after : List NodeHealthObservation) : Prop :=
  ∃ counted, counted <+: .success :: after ∧ successes ≤ successRun counted

/-- In every run a Quarantined node is below the threshold, and a node that has
left Down is Active exactly from the observation on that completes the count. -/
structure PromotesOnTime (config : NodeHealthStoreConfig) : Prop where
  below : ∀ initialNodes calls node status,
    ((NodeHealthStore.new config initialNodes).run calls).getNodeStatus node = some status →
    status.state = .quarantined →
    status.consecutiveSuccesses.toNat < max 1 config.quarantineSuccessThreshold.toNat
  promoted : ∀ initialNodes calls node history status before after,
    NodeHealthStore.historyOf config initialNodes calls node = some history →
    ((NodeHealthStore.new config initialNodes).run calls).getNodeStatus node = some status →
    LastDown (max 1 config.consecutiveServerErrorThreshold.toNat) history before after →
    (status.state = .active ↔ Completed (max 1 config.quarantineSuccessThreshold.toNat) after)

theorem successRun_pos {counted : List NodeHealthObservation} (some : 0 < successRun counted) :
    ∃ earlier, counted = earlier ++ [.success] := by
  rcases List.eq_nil_or_concat counted with rfl | ⟨earlier, last, rfl⟩
  · simp [successRun, List.rtakeWhile] at some
  · cases last with
    | success => exact ⟨earlier, List.concat_eq_append⟩
    | serverError => simp [List.concat_eq_append, successRun_failure] at some
    | connectionFailure => simp [List.concat_eq_append, successRun_failure] at some

/-- From two on the ending `Success` cannot complete the count, and the code's
condition is the count itself. -/
theorem completed_iff_promoted {S : Nat} (several : 2 ≤ S) (after : List NodeHealthObservation) :
    Completed S after ↔ Promoted S after := by
  constructor
  · rintro ⟨counted, within, long⟩
    obtain ⟨earlier, rfl⟩ := successRun_pos (by omega : 0 < successRun counted)
    cases earlier with
    | nil =>
      rw [successRun_success] at long
      simp [successRun] at long
      omega
    | cons first a =>
      obtain ⟨b, split⟩ := within
      obtain ⟨rfl, rest⟩ := List.cons.inj split
      exact ⟨a, b, by simp [← rest], long⟩
  · rintro ⟨a, b, rfl, long⟩
    exact ⟨.success :: a ++ [.success], ⟨b, by simp⟩, long⟩

section
variable {E S : Nat} {history before after : List NodeHealthObservation} {status : NodeHealthStatus}

theorem Explains.below (explained : Explains E S history status) (several : 2 ≤ S)
    (quarantined : status.state = .quarantined) : status.consecutiveSuccesses.toNat < S := by
  cases explained with
  | down => contradiction
  | active => contradiction
  | quarantined up before after ended waiting errors successes counted run short =>
    have : max 1 (S - 1) = S - 1 := by omega
    simp only
    omega

theorem Explains.active_iff (explained : Explains E S history status) (several : 2 ≤ S)
    (ended : LastDown E history before after) :
    status.state = .active ↔ Completed S after := by
  have up : ¬ IsDown E history := by
    rw [ended.split]
    exact ended.last after List.prefix_rfl
  rw [explained.stateOf.active, completed_iff_promoted several, recovered_iff ended]
  constructor
  · rintro ⟨_, never | promoted⟩
    · exact absurd ended.everDown never
    · exact promoted
  · intro promoted
    exact ⟨up, .inr promoted⟩

end

/-- A refused connection and one answer, whatever the thresholds. -/
theorem reconnected_status (config : NodeHealthStoreConfig) (enabled : config.disabled = false)
    (node : Url) :
    ((NodeHealthStore.new config [node]).run
      [.reportNodeResult node .connectionFailure, .reportNodeResult node .success]).getNodeStatus
        node = some ⟨.quarantined, 0, 1⟩ := by
  have history : NodeHealthStore.historyOf config [node]
      [.reportNodeResult node .connectionFailure, .reportNodeResult node .success] node =
        some [.connectionFailure, .success] := by
    simp [NodeHealthStore.historyOf, NodeHealthStore.historyFrom, NodeHealthStore.remember,
      NodeHealthStore.apply, NodeHealthStore.reportsFor]
  rw [getNodeStatus_run config enabled, history]
  rfl

/-- One answer completes a count of one, and leaves the node in quarantine. -/
theorem not_promotesOnTime {config : NodeHealthStoreConfig} (enabled : config.disabled = false)
    (single : config.quarantineSuccessThreshold < 2) : ¬ PromotesOnTime config := by
  intro onTime
  have late := onTime.below _ _ _ _ (reconnected_status config enabled {}) rfl
  have threshold : config.quarantineSuccessThreshold.toNat < 2 := UInt32.lt_iff_toNat_lt.mp single
  change 1 < _ at late
  omega

/-- Promotion is on time, in every run, exactly for a threshold of two or more. The
success that ends Down counts without being compared, so a threshold of one takes
two. -/
theorem promotesOnTime_iff (config : NodeHealthStoreConfig) (enabled : config.disabled = false) :
    PromotesOnTime config ↔ 2 ≤ config.quarantineSuccessThreshold := by
  constructor
  · intro onTime
    by_contra single
    exact not_promotesOnTime enabled (UInt32.not_le.mp single) onTime
  · intro several
    have several : 2 ≤ max 1 config.quarantineSuccessThreshold.toNat :=
      (UInt32.le_iff_toNat_le.mp several).trans (Nat.le_max_right _ _)
    constructor
    · intro initialNodes calls node status present quarantined
      rw [getNodeStatus_run config enabled] at present
      obtain ⟨history, -, rfl⟩ := Option.map_eq_some_iff.mp present
      exact (explains_statusAfter config history).below several quarantined
    · intro initialNodes calls node history status before after observed present ended
      rw [getNodeStatus_run config enabled, observed] at present
      obtain rfl := Option.some.inj present
      exact (explains_statusAfter config history).active_iff several ended

theorem promotesOnTime_default : PromotesOnTime {} :=
  (promotesOnTime_iff {} rfl).mpr (by decide)

/-- With a threshold of one the node that has answered once is still in quarantine. -/
theorem single_success_waits :
    let config : NodeHealthStoreConfig := { quarantineSuccessThreshold := 1 }
    let node : Url := { scheme := bytes "http", host := bytes "a", port := 8000 }
    ((NodeHealthStore.new config [node]).run
        [.reportNodeResult node .connectionFailure, .reportNodeResult node .success]).getNodeStatus
          node = some ⟨.quarantined, 0, 1⟩ ∧
      ¬ PromotesOnTime config :=
  ⟨reconnected_status _ rfl _, not_promotesOnTime rfl (by decide)⟩

end AlternatorClient
