import AlternatorClient.NodeHealth
import Mathlib.Data.List.DropRight
import Mathlib.Data.List.Induction

/-! What the state of a node says about its past. Down, never Down and promoted
are read off the list of observations alone; the counters of the code are then
shown to keep exactly what the list determines, and not to wrap while it counts. -/
namespace AlternatorClient
open Foundation

/-- The observations after the most recent `Success`, or all of them if there was
none. -/
def sinceSuccess (history : List NodeHealthObservation) : List NodeHealthObservation :=
  history.rtakeWhile (· ≠ .success)

def successRun (history : List NodeHealthObservation) : Nat :=
  (history.rtakeWhile (· = .success)).length

def IsDown (errors : Nat) (history : List NodeHealthObservation) : Prop :=
  .connectionFailure ∈ sinceSuccess history ∨ errors ≤ (sinceSuccess history).count .serverError

def EverDown (errors : Nat) (history : List NodeHealthObservation) : Prop :=
  ∃ earlier, earlier <+: history ∧ IsDown errors earlier

/-- The most recent Down period ended with the `Success` between the two parts. -/
structure LastDown (errors : Nat) (history before after : List NodeHealthObservation) : Prop where
  split : history = before ++ .success :: after
  down : IsDown errors before
  last : ∀ later, later <+: after → ¬ IsDown errors (before ++ .success :: later)

/-- Some `Success` after the ending one completed a long enough run, in which
the ending one may take part. -/
def Promoted (successes : Nat) (after : List NodeHealthObservation) : Prop :=
  ∃ a b, after = a ++ .success :: b ∧ successes ≤ successRun (.success :: a ++ [.success])

def Recovered (errors successes : Nat) (history : List NodeHealthObservation) : Prop :=
  ∃ before after, LastDown errors history before after ∧ Promoted successes after

theorem sinceSuccess_success (history : List NodeHealthObservation) :
    sinceSuccess (history ++ [.success]) = [] := by
  simp [sinceSuccess]

theorem sinceSuccess_failure {o : NodeHealthObservation} (failure : o ≠ .success)
    (history : List NodeHealthObservation) :
    sinceSuccess (history ++ [o]) = sinceSuccess history ++ [o] := by
  simp [sinceSuccess, failure]

theorem successRun_success (history : List NodeHealthObservation) :
    successRun (history ++ [.success]) = successRun history + 1 := by
  simp [successRun]

theorem successRun_failure {o : NodeHealthObservation} (failure : o ≠ .success)
    (history : List NodeHealthObservation) : successRun (history ++ [o]) = 0 := by
  simp [successRun, failure]

section
variable {E S : Nat} {h before after : List NodeHealthObservation} {o : NodeHealthObservation}

theorem not_isDown_nil (positive : 0 < E) : ¬ IsDown E [] := by
  simp [IsDown, sinceSuccess]
  omega

theorem not_isDown_success (positive : 0 < E) : ¬ IsDown E (h ++ [.success]) := by
  simp [IsDown, sinceSuccess_success]
  omega

theorem isDown_connectionFailure : IsDown E (h ++ [.connectionFailure]) :=
  .inl (by simp [sinceSuccess_failure])

theorem isDown_serverError :
    IsDown E (h ++ [.serverError]) ↔
      .connectionFailure ∈ sinceSuccess h ∨ E ≤ (sinceSuccess h).count .serverError + 1 := by
  simp [IsDown, sinceSuccess_failure]

theorem IsDown.failure (down : IsDown E h) (failure : o ≠ .success) : IsDown E (h ++ [o]) := by
  cases o with
  | success => contradiction
  | connectionFailure => exact isDown_connectionFailure
  | serverError =>
    apply isDown_serverError.mpr
    rcases down with refused | many
    · exact .inl refused
    · exact .inr (Nat.le_succ_of_le many)

theorem everDown_concat : EverDown E (h ++ [o]) ↔ EverDown E h ∨ IsDown E (h ++ [o]) := by
  simp only [EverDown, List.prefix_concat_iff, or_and_right, exists_or, exists_eq_left]
  exact or_comm

theorem IsDown.lastDown (positive : 0 < E) (down : IsDown E h) :
    LastDown E (h ++ [.success]) h [] := by
  refine ⟨rfl, down, ?_⟩
  intro later within
  rw [List.prefix_nil.mp within]
  exact not_isDown_success positive

theorem LastDown.concat (ended : LastDown E h before after) (up : ¬ IsDown E (h ++ [o])) :
    LastDown E (h ++ [o]) before (after ++ [o]) := by
  have split : h ++ [o] = before ++ .success :: (after ++ [o]) := by simp [ended.split]
  refine ⟨split, ended.down, ?_⟩
  intro later within
  rcases List.prefix_concat_iff.mp within with rfl | within
  · rwa [← split]
  · exact ended.last later within

theorem LastDown.everDown (ended : LastDown E h before after) : EverDown E h :=
  ⟨before, ⟨_, ended.split.symm⟩, ended.down⟩

/-- A Down prefix of a history in which the last Down period has ended lies
within that period. -/
theorem LastDown.length_le (ended : LastDown E h before after)
    {earlier rest : List NodeHealthObservation}
    (split : h = earlier ++ rest) (down : IsDown E earlier) : earlier.length ≤ before.length := by
  by_contra longer
  obtain ⟨later, rfl⟩ : before ++ [.success] <+: earlier := by
    have within : before ++ [.success] <+: h := ⟨after, by simp [ended.split]⟩
    apply List.prefix_of_prefix_length_le within ⟨rest, split.symm⟩
    simpa [Nat.succ_le_iff] using longer
  have continued : after = later ++ rest := by simpa [ended.split] using split
  exact ended.last later ⟨rest, continued.symm⟩ (by simpa using down)

theorem LastDown.unique {before' after' : List NodeHealthObservation}
    (ended : LastDown E h before after)
    (ended' : LastDown E h before' after') : before = before' ∧ after = after' := by
  have size : before.length = before'.length :=
    le_antisymm (ended'.length_le ended.split ended.down) (ended.length_le ended'.split ended'.down)
  obtain ⟨same, rest⟩ := List.append_inj (ended.split.symm.trans ended'.split) size
  exact ⟨same, (List.cons.inj rest).2⟩

theorem recovered_iff (ended : LastDown E h before after) : Recovered E S h ↔ Promoted S after := by
  constructor
  · rintro ⟨before', after', ended', promoted⟩
    rwa [(ended.unique ended').2]
  · intro promoted
    exact ⟨before, after, ended, promoted⟩

theorem not_promoted_nil : ¬ Promoted S [] := by
  rintro ⟨a, b, split, _⟩
  simp at split

theorem promoted_concat :
    Promoted S (after ++ [o]) ↔
      Promoted S after ∨ o = .success ∧ S ≤ successRun (.success :: after) + 1 := by
  rw [← successRun_success]
  constructor
  · rintro ⟨a, b, split, long⟩
    rcases List.eq_nil_or_concat b with rfl | ⟨b, last, rfl⟩
    · obtain ⟨rfl, ended⟩ := List.append_inj' split rfl
      cases ended
      exact .inr ⟨rfl, long⟩
    · obtain ⟨rfl, _⟩ : after = a ++ .success :: b ∧ [o] = [last] :=
        List.append_inj' (by simp [split]) rfl
      exact .inl ⟨a, b, rfl, long⟩
  · rintro (⟨a, b, rfl, long⟩ | ⟨rfl, long⟩)
    · exact ⟨a, b ++ [o], by simp, long⟩
    · exact ⟨after, [], rfl, long⟩

end

/-- What the status of a node keeps of its history. While the node is not Down
both counters are exact; a Down node may hold any counters. -/
inductive Explains (E S : Nat) (h : List NodeHealthObservation) : NodeHealthStatus → Prop
  | down (down : IsDown E h) (errors successes : UInt32) : Explains E S h ⟨.down, errors, successes⟩
  | active (up : ¬ IsDown E h) (healthy : ¬ EverDown E h ∨ Recovered E S h)
      (errors successes : UInt32)
      (counted : errors.toNat = (sinceSuccess h).count .serverError) :
      Explains E S h ⟨.active, errors, successes⟩
  | quarantined (up : ¬ IsDown E h) (before after : List NodeHealthObservation)
      (ended : LastDown E h before after) (waiting : ¬ Promoted S after) (errors successes : UInt32)
      (counted : errors.toNat = (sinceSuccess h).count .serverError)
      (run : successes.toNat = successRun (.success :: after))
      (short : successes.toNat ≤ max 1 (S - 1)) :
      Explains E S h ⟨.quarantined, errors, successes⟩

theorem healthy_concat {E S : Nat} {h : List NodeHealthObservation} {o : NodeHealthObservation}
    (healthy : ¬ EverDown E h ∨ Recovered E S h) (up : ¬ IsDown E (h ++ [o])) :
    ¬ EverDown E (h ++ [o]) ∨ Recovered E S (h ++ [o]) := by
  rcases healthy with never | ⟨before, after, ended, promoted⟩
  · left
    intro ever
    rcases everDown_concat.mp ever with earlier | now
    · exact never earlier
    · exact up now
  · exact .inr ⟨before, after ++ [o], ended.concat up, promoted_concat.mpr (.inl promoted)⟩

section
variable {config : NodeHealthStoreConfig} {E S : Nat} {h : List NodeHealthObservation}
  {status : NodeHealthStatus}
  (errorThreshold : config.consecutiveServerErrorThreshold.toNat = E)
  (successThreshold : config.quarantineSuccessThreshold.toNat = S) (positive : 0 < E)

include positive in
theorem explains_fresh : Explains E S [] (NodeHealthStore.freshStatus config) := by
  refine .active (not_isDown_nil positive) (.inl ?_) _ _ rfl
  rintro ⟨earlier, within, down⟩
  rw [List.prefix_nil.mp within] at down
  exact not_isDown_nil positive down

include positive successThreshold in
theorem Explains.success (explained : Explains E S h status) :
    Explains E S (h ++ [.success]) (status.observe config .success) := by
  have up : ¬ IsDown E (h ++ [.success]) := not_isDown_success positive
  have cleared : (0 : UInt32).toNat = (sinceSuccess (h ++ [.success])).count .serverError := by
    simp [sinceSuccess_success]
  cases explained with
  | down down errors successes =>
    refine .quarantined up h [] (down.lastDown positive) not_promoted_nil 0 1 cleared ?_ (by simp)
    simp [successRun, List.rtakeWhile]
  | active _ healthy errors successes _ => exact .active up (healthy_concat healthy up) _ _ cleared
  | quarantined _ before after ended waiting errors successes _ run short =>
    -- The counter stays below the threshold in quarantine, so adding one cannot wrap.
    have exact : (successes + 1).toNat = successes.toNat + 1 := by
      have bound := config.quarantineSuccessThreshold.toNat_lt
      rw [UInt32.toNat_add, UInt32.toNat_one, Nat.mod_eq_of_lt]
      omega
    have reached : config.quarantineSuccessThreshold ≤ successes + 1 ↔
        S ≤ successRun (.success :: after) + 1 := by
      rw [UInt32.le_iff_toNat_le, exact, successThreshold, run]
    have extended : successRun (.success :: (after ++ [.success])) = successes.toNat + 1 := by
      rw [run, ← successRun_success]
      rfl
    simp only [NodeHealthStatus.observe]
    split
    · rename_i enough
      refine .active up (.inr ⟨before, after ++ [.success], ended.concat up, ?_⟩) _ _ cleared
      exact promoted_concat.mpr (.inr ⟨rfl, reached.mp enough⟩)
    · rename_i few
      rw [reached] at few
      refine .quarantined up before (after ++ [.success]) (ended.concat up) ?_ 0 _ cleared ?_ ?_
      · intro promoted
        rcases promoted_concat.mp promoted with earlier | ⟨_, enough⟩
        · exact waiting earlier
        · exact few enough
      · rw [exact, extended]
      · rw [exact]
        omega

include errorThreshold in
theorem Explains.serverError (explained : Explains E S h status) :
    Explains E S (h ++ [.serverError]) (status.observe config .serverError) := by
  have bound := config.consecutiveServerErrorThreshold.toNat_lt
  have failure : NodeHealthObservation.serverError ≠ .success := by decide
  -- One more error is counted exactly, because a node that is not Down has fewer than the threshold.
  have counts {errors : UInt32} (up : ¬ IsDown E h)
      (counted : errors.toNat = (sinceSuccess h).count .serverError) :
      (errors + 1).toNat = (sinceSuccess (h ++ [.serverError])).count .serverError ∧
      (config.consecutiveServerErrorThreshold ≤ errors + 1 ↔ IsDown E (h ++ [.serverError])) := by
    simp only [IsDown, not_or, not_le] at up
    have exact : (errors + 1).toNat = errors.toNat + 1 := by
      rw [UInt32.toNat_add, UInt32.toNat_one, Nat.mod_eq_of_lt]
      omega
    rw [isDown_serverError, UInt32.le_iff_toNat_le, exact, counted, errorThreshold,
      sinceSuccess_failure failure]
    simp [up.1]
  cases explained with
  | down down errors successes =>
    simp only [NodeHealthStatus.observe, ite_self]
    exact .down (down.failure failure) _ _
  | active up healthy errors successes counted =>
    obtain ⟨exact, reached⟩ := counts up counted
    simp only [NodeHealthStatus.observe]
    split
    · rename_i enough
      exact .down (reached.mp enough) _ _
    · rename_i few
      have up' := mt reached.mpr few
      exact .active up' (healthy_concat healthy up') _ _ exact
  | quarantined up before after ended waiting errors successes counted run short =>
    obtain ⟨exact, reached⟩ := counts up counted
    simp only [NodeHealthStatus.observe]
    split
    · rename_i enough
      exact .down (reached.mp enough) _ _
    · rename_i few
      have up' := mt reached.mpr few
      refine .quarantined up' before (after ++ [.serverError]) (ended.concat up') ?_ _ 0 exact ?_
        (by simp)
      · intro promoted
        rcases promoted_concat.mp promoted with earlier | ⟨success, _⟩
        · exact waiting earlier
        · exact failure success
      · rw [← List.cons_append, successRun_failure failure]
        rfl

include errorThreshold successThreshold positive in
/-- The step: what the switch does to the counters and the state. -/
theorem Explains.observe (explained : Explains E S h status) (o : NodeHealthObservation) :
    Explains E S (h ++ [o]) (status.observe config o) := by
  cases o with
  | success => exact explained.success successThreshold positive
  | serverError => exact explained.serverError errorThreshold
  | connectionFailure => exact .down isDown_connectionFailure _ _

include errorThreshold successThreshold positive in
/-- The run: a fresh status that saw a history explains it. -/
theorem explains_history (h : List NodeHealthObservation) :
    Explains E S h
      (h.foldl (fun status o => status.observe config o) (NodeHealthStore.freshStatus config)) := by
  induction h using List.reverseRecOn with
  | nil => exact explains_fresh positive
  | append_singleton earlier o ih =>
    rw [List.foldl_concat]
    exact ih.observe errorThreshold successThreshold positive o

end

/-- Down, else Active if never Down or promoted since, else Quarantined. -/
structure StateOf (E S : Nat) (h : List NodeHealthObservation)
    (state : NodeHealthState) : Prop where
  down : state = .down ↔ IsDown E h
  active : state = .active ↔ ¬ IsDown E h ∧ (¬ EverDown E h ∨ Recovered E S h)
  quarantined : state = .quarantined ↔ ¬ IsDown E h ∧ ¬ (¬ EverDown E h ∨ Recovered E S h)

theorem Explains.stateOf {E S : Nat} {h : List NodeHealthObservation} {status : NodeHealthStatus}
    (explained : Explains E S h status) : StateOf E S h status.state := by
  cases explained with
  | down down => constructor <;> simp [down]
  | active up healthy => constructor <;> simp [up, healthy]
  | quarantined up before after ended waiting =>
    have unhealthy : ¬ (¬ EverDown E h ∨ Recovered E S h) := by
      rintro (never | recovered)
      · exact never ended.everDown
      · exact waiting ((recovered_iff ended).mp recovered)
    constructor <;> simp only [up, unhealthy] <;> simp

end AlternatorClient
