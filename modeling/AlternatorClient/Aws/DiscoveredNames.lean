import AlternatorClient.Aws.DiscoverySettles

/-! Which names discovery leaves in the metadata, whatever the interleaving: those that
were configured, set, or answered for the very table, and for every table that was
answered one. A table whose name is known is not looked up again. -/
namespace AlternatorClient
open Foundation

theorem PartitionKeyMetadata.getPartitionKeyName_set (metadata : PartitionKeyMetadata)
    (table keyName tableName : Bytes) :
    (metadata.setPartitionKeyName table keyName).getPartitionKeyName tableName =
      if table = tableName then keyName else metadata.getPartitionKeyName tableName := by
  simp only [getPartitionKeyName, setPartitionKeyName, OrderedMap.lookup_assign, eq_comm]
  split
  · rfl
  · rfl

namespace Aws

/-- A helper with the steps that were taken. The code does not keep these. -/
structure Log where
  helper : DynamoDBHelper
  events : List DiscoveryEvent := []

/-- A name for the table was set, or an attempt for it returned it. -/
def Given (events : List DiscoveryEvent) (tableName keyName : Bytes) : Prop :=
  .setPartitionKeyName tableName keyName ∈ events ∨ .attempt tableName (.ok keyName) ∈ events

theorem Given.later {events more : List DiscoveryEvent} {tableName keyName : Bytes}
    (given : Given events tableName keyName) : Given (events ++ more) tableName keyName :=
  given.imp (List.mem_append_left _) (List.mem_append_left _)

namespace Log

abbrev Run (config : Config) : Log → List Log → Log → Prop :=
  Path fun a b => ∃ event, DynamoDBHelper.Step config a.helper event b.helper ∧
    b.events = a.events ++ [event]

variable {config : Config} {partitionKeys : PartitionKeyMetadata} {s t : DynamoDBHelper}
  {event : DiscoveryEvent} {events : List DiscoveryEvent} {tableName keyName : Bytes}

/-- Every name has an origin, also those that workers are about to store. -/
structure Sourced (partitionKeys : PartitionKeyMetadata) (s : DynamoDBHelper)
    (events : List DiscoveryEvent) : Prop where
  known : ∀ tableName keyName, s.partitionKeys.getPartitionKeyName tableName = keyName →
    keyName ≠ [] →
      keyName = partitionKeys.getPartitionKeyName tableName ∨ Given events tableName keyName
  storing : ∀ worker ∈ s.running, ∀ keyName, worker.phase = .storing keyName →
    keyName ≠ [] ∧ .attempt worker.tableName (.ok keyName) ∈ events

/-- A worker stores a name that the attempt before returned for its table. -/
theorem nextPhase_storing {attempt : Nat} {result : Except Unit Bytes}
    (stores : nextPhase config attempt result = .storing keyName) :
    result = .ok keyName ∧ keyName ≠ [] := by
  cases result with
  | error error => contradiction
  | ok answered =>
    simp only [nextPhase] at stores
    split at stores
    · rename_i some
      cases stores
      exact ⟨rfl, by simpa using some⟩
    · split at stores <;> contradiction

theorem firstPhase_ne_storing : firstPhase config tableName ≠ .storing keyName := by
  simp only [firstPhase]
  split
  · simp
  · split <;> simp

/-- The metadata changes in two ways only: the caller names a partition key, or a
worker that has found one stores it. -/
theorem names_step (stepped : DynamoDBHelper.Step config s event t) :
    t.partitionKeys = s.partitionKeys ∨
      (∃ table keyName, event = .setPartitionKeyName table keyName ∧
        t.partitionKeys = s.partitionKeys.setPartitionKeyName table keyName) ∨
      ∃ table keyName, event = .store table ∧ ⟨table, .storing keyName⟩ ∈ s.running ∧
        t.partitionKeys = s.partitionKeys.setPartitionKeyName table keyName := by
  cases stepped with
  | insert turn =>
    split
    · exact .inl rfl
    · exact .inl rfl
  | @store before after table keyName turn =>
    exact .inr (.inr ⟨table, keyName, rfl, by simp [turn], rfl⟩)
  | setPartitionKeyName table keyName => exact .inr (.inl ⟨table, keyName, rfl, rfl⟩)
  | _ => exact .inl rfl

/-- What a step does to the workers that are about to store a name. -/
theorem storing_step (stepped : DynamoDBHelper.Step config s event t) :
    ∀ worker ∈ t.running, ∀ keyName, worker.phase = .storing keyName → worker ∈ s.running ∨
      keyName ≠ [] ∧ event = .attempt worker.tableName (.ok keyName) := by
  cases stepped with
  | insert turn =>
    split
    · exact fun _ member _ _ => .inl member
    · exact fun _ member _ _ => .inl member
  | spawn turn =>
    intro worker member keyName stores
    rcases List.mem_append.mp member with earlier | new
    · exact .inl earlier
    · rw [List.mem_singleton.mp new] at stores
      exact absurd stores firstPhase_ne_storing
  | attempt turn result =>
    rw [turn]
    refine DynamoDBHelper.forall_turn.mpr ⟨fun keyName stores => .inr ?_, fun worker member _ _ => ?_⟩
    · obtain ⟨rfl, some⟩ := nextPhase_storing stores
      exact ⟨some, rfl⟩
    · exact .inl (by simp at member ⊢; tauto)
  | store turn =>
    rw [turn]
    refine DynamoDBHelper.forall_turn.mpr ⟨fun keyName stores => ?_, fun worker member _ _ => ?_⟩
    · contradiction
    · exact .inl (by simp at member ⊢; tauto)
  | erase turn =>
    rw [turn]
    exact fun worker member _ _ => .inl (by simp at member ⊢; tauto)
  | _ => exact fun _ member _ _ => .inl member

theorem sourced_step (sourced : Sourced partitionKeys s events)
    (stepped : DynamoDBHelper.Step config s event t) :
    Sourced partitionKeys t (events ++ [event]) := by
  have last : event ∈ events ++ [event] := by simp
  constructor
  · intro tableName keyName is some
    rcases names_step stepped with same | ⟨table, name, rfl, set⟩ | ⟨table, name, rfl, ran, set⟩
    · rw [same] at is
      exact (sourced.known tableName keyName is some).imp id Given.later
    · rw [set, PartitionKeyMetadata.getPartitionKeyName_set] at is
      split at is
      · rename_i here
        subst here is
        exact .inr (.inl last)
      · exact (sourced.known tableName keyName is some).imp id Given.later
    · rw [set, PartitionKeyMetadata.getPartitionKeyName_set] at is
      split at is
      · rename_i here
        subst here is
        exact .inr (.inr (List.mem_append_left _ (sourced.storing _ ran name rfl).2))
      · exact (sourced.known tableName keyName is some).imp id Given.later
  · intro worker member keyName stores
    rcases storing_step stepped worker member keyName stores with earlier | ⟨some, rfl⟩
    · obtain ⟨some, answered⟩ := sourced.storing worker earlier keyName stores
      exact ⟨some, List.mem_append_left _ answered⟩
    · exact ⟨some, last⟩

/-- A table has a name, or a worker of it is about to store one. -/
def Named (s : DynamoDBHelper) (tableName : Bytes) : Prop :=
  s.partitionKeys.getPartitionKeyName tableName ≠ [] ∨
    ∃ keyName, ⟨tableName, .storing keyName⟩ ∈ s.running

theorem named_set {running : List Worker} {table keyName : Bytes} (named : Named s tableName)
    (given : table = tableName → keyName ≠ [])
    (kept : ∀ name, ⟨tableName, .storing name⟩ ∈ s.running → table ≠ tableName →
      ⟨tableName, .storing name⟩ ∈ running) :
    Named { s with
      partitionKeys := s.partitionKeys.setPartitionKeyName table keyName
      running := running } tableName := by
  by_cases here : table = tableName
  · left
    rw [PartitionKeyMetadata.getPartitionKeyName_set, if_pos here]
    exact given here
  · rcases named with known | ⟨name, storing⟩
    · left
      rw [PartitionKeyMetadata.getPartitionKeyName_set, if_neg here]
      exact known
    · exact .inr ⟨name, kept name storing here⟩

/-- Only an empty name that is set takes a table's name away. -/
theorem named_step (sourced : Sourced partitionKeys s events) (named : Named s tableName)
    (kept : event ≠ .setPartitionKeyName tableName [])
    (stepped : DynamoDBHelper.Step config s event t) : Named t tableName := by
  cases stepped with
  | insert turn =>
    split
    · exact named
    · exact named
  | spawn turn => exact named.imp_right fun ⟨name, storing⟩ => ⟨name, List.mem_append_left _ storing⟩
  | attempt turn result =>
    refine named.imp_right fun ⟨name, storing⟩ => ⟨name, ?_⟩
    simp only [turn, List.mem_append, List.mem_cons, Worker.mk.injEq, reduceCtorEq, and_false,
      false_or] at storing ⊢
    tauto
  | @store before after table keyName turn =>
    refine named_set named (fun _ => ?_) fun name storing here => ?_
    · exact (sourced.storing ⟨table, .storing keyName⟩ (by simp [turn]) keyName rfl).1
    · simp only [turn, List.mem_append, List.mem_cons, Worker.mk.injEq] at storing ⊢
      tauto
  | erase turn =>
    refine named.imp_right fun ⟨name, storing⟩ => ⟨name, ?_⟩
    simp only [turn, List.mem_append, List.mem_cons, Worker.mk.injEq, reduceCtorEq, and_false,
      false_or] at storing ⊢
    exact storing
  | setPartitionKeyName table keyName =>
    refine named_set named (fun here empty => kept ?_) fun _ storing _ => storing
    rw [here, empty]
  | _ => exact named

theorem named_given (some : keyName ≠ []) (stepped : DynamoDBHelper.Step config s event t)
    (given : Given [event] tableName keyName) : Named t tableName := by
  rcases given with set | answered
  · cases List.mem_singleton.mp set
    cases stepped
    left
    rwa [PartitionKeyMetadata.getPartitionKeyName_set, if_pos rfl]
  · cases List.mem_singleton.mp answered
    cases stepped with
    | attempt turn =>
      refine .inr ⟨keyName, List.mem_append_right _ ?_⟩
      simp [nextPhase, some]

/-- A table that was given a name, and from which none was taken away, is named. -/
def Remembered (partitionKeys : PartitionKeyMetadata) (s : DynamoDBHelper)
    (events : List DiscoveryEvent) : Prop :=
  ∀ tableName keyName, keyName ≠ [] →
    (keyName = partitionKeys.getPartitionKeyName tableName ∨ Given events tableName keyName) →
      .setPartitionKeyName tableName [] ∉ events → Named s tableName

theorem remembered_step (sourced : Sourced partitionKeys s events)
    (remembered : Remembered partitionKeys s events)
    (stepped : DynamoDBHelper.Step config s event t) :
    Remembered partitionKeys t (events ++ [event]) := by
  intro tableName keyName some origin kept
  obtain ⟨before, now⟩ := not_or.mp (mt List.mem_append.mpr kept)
  have earlier (origin : keyName = partitionKeys.getPartitionKeyName tableName ∨
      Given events tableName keyName) : Named t tableName :=
    named_step sourced (remembered tableName keyName some origin before)
      (fun cleared => now (List.mem_singleton.mpr cleared.symm)) stepped
  rcases origin with configured | set | answered
  · exact earlier (.inl configured)
  · rcases List.mem_append.mp set with before | last
    · exact earlier (.inr (.inl before))
    · exact named_given some stepped (.inl last)
  · rcases List.mem_append.mp answered with before | last
    · exact earlier (.inr (.inr before))
    · exact named_given some stepped (.inr last)

end Log

namespace Log
variable {config : Config} {partitionKeys : PartitionKeyMetadata} {s t : DynamoDBHelper}
  {event : DiscoveryEvent} {events : List DiscoveryEvent} {tableName : Bytes}

/-- The table has a name, and no call that missed it and no worker is at it. -/
structure Settled (s : DynamoDBHelper) (tableName : Bytes) : Prop where
  known : s.partitionKeys.getPartitionKeyName tableName ≠ []
  checking : ∀ call ∈ s.calls, call.tableName = tableName → call.phase = .checking
  idle : ∀ worker ∈ s.running, worker.tableName ≠ tableName

theorem settled_step (settled : Settled s tableName)
    (kept : event ≠ .setPartitionKeyName tableName [])
    (stepped : DynamoDBHelper.Step config s event t) :
    Settled t tableName ∧ ∀ result, event ≠ .attempt tableName result := by
  obtain ⟨known, checking, idle⟩ := settled
  cases stepped with
  | trigger table =>
    refine ⟨⟨known, fun call member named => ?_, idle⟩, by simp⟩
    rcases List.mem_append.mp member with earlier | new
    · exact checking call earlier named
    · rw [List.mem_singleton.mp new]
  | @check before after table turn =>
    rw [turn, DynamoDBHelper.forall_turn] at checking
    refine ⟨⟨known, ?_, idle⟩, by simp⟩
    split
    · exact checking.2
    · rename_i missed
      refine DynamoDBHelper.forall_turn.mpr ⟨?_, checking.2⟩
      rintro rfl
      simp [known] at missed
  | @insert before after table turn =>
    rw [turn, DynamoDBHelper.forall_turn] at checking
    split
    · exact ⟨⟨known, checking.2, idle⟩, by simp⟩
    · refine ⟨⟨known, DynamoDBHelper.forall_turn.mpr ⟨fun named => ?_, checking.2⟩, idle⟩, by simp⟩
      exact absurd (checking.1 named) (by simp)
  | @spawn before after table turn =>
    rw [turn, DynamoDBHelper.forall_turn] at checking
    refine ⟨⟨known, checking.2, fun worker member named => ?_⟩, by simp⟩
    rcases List.mem_append.mp member with earlier | new
    · exact idle worker earlier named
    · rw [List.mem_singleton.mp new] at named
      exact absurd (checking.1 named) (by simp)
  | spawnFailed turn =>
    rw [turn, DynamoDBHelper.forall_turn] at checking
    refine ⟨⟨known, DynamoDBHelper.forall_turn.mpr ⟨fun named => ?_, checking.2⟩, idle⟩, by simp⟩
    exact absurd (checking.1 named) (by simp)
  | undo turn =>
    rw [turn, DynamoDBHelper.forall_turn] at checking
    exact ⟨⟨known, checking.2, idle⟩, by simp⟩
  | @attempt before after table attempt turn result =>
    rw [turn, DynamoDBHelper.forall_turn] at idle
    refine ⟨⟨known, checking, DynamoDBHelper.forall_turn.mpr idle⟩, fun other same => ?_⟩
    cases same
    exact idle.1 rfl
  | @store before after table keyName turn =>
    rw [turn, DynamoDBHelper.forall_turn] at idle
    refine ⟨⟨?_, checking, DynamoDBHelper.forall_turn.mpr idle⟩, by simp⟩
    rwa [PartitionKeyMetadata.getPartitionKeyName_set, if_neg idle.1]
  | erase turn =>
    rw [turn, DynamoDBHelper.forall_turn] at idle
    exact ⟨⟨known, checking, idle.2⟩, by simp⟩
  | setPartitionKeyName table keyName =>
    refine ⟨⟨?_, checking, idle⟩, by simp⟩
    rw [PartitionKeyMetadata.getPartitionKeyName_set]
    split
    · rename_i here
      intro empty
      exact kept (by rw [here, empty])
    · exact known
  | wait => exact ⟨⟨known, checking, idle⟩, by simp⟩

end Log

end Aws
end AlternatorClient
