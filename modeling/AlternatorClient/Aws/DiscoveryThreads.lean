import AlternatorClient.Aws.PartitionKeyDiscovery
import Mathlib.Data.Finset.Card
import Mathlib.Data.Finset.Dedup

/-! The thread objects that discovery leaves behind. A worker that ends takes its
table out of `in_progress`, and its thread object stays in `workers` until
`WaitForPartitionKeyDiscovery`, so a table that is looked up again gets another. -/
namespace AlternatorClient
open Foundation

namespace Aws

def DiscoveryEvent.requested : DiscoveryEvent → Finset Bytes
  | .trigger tableName => {tableName}
  | _ => ∅

/-- A helper with every table that a lookup was requested for. The code does not
keep these. -/
structure Requests where
  helper : DynamoDBHelper
  tables : Finset Bytes := ∅

namespace Requests
variable {config : Config} {condition : DynamoDBHelper → DiscoveryEvent → Prop}
  {s t : DynamoDBHelper} {event : DiscoveryEvent} {tableName : Bytes} {a b : Requests}

/-- The interleavings whose every step meets a condition on the state it starts from. -/
abbrev Run (config : Config) (condition : DynamoDBHelper → DiscoveryEvent → Prop) :
    Requests → List Requests → Requests → Prop :=
  Path fun a b => ∃ event, condition a.helper event ∧
    DynamoDBHelper.Step config a.helper event b.helper ∧ b.tables = a.tables ∪ event.requested

/-- A worker is started only for a table that no thread object is kept of. -/
def FirstThread (s : DynamoDBHelper) (event : DiscoveryEvent) : Prop :=
  ∀ tableName, event = .spawn tableName true → tableName ∉ s.discovery.workers

def called (calls : List Call) : List Bytes := calls.map Call.tableName

theorem called_turn {before after : List Call} (call : Call) :
    called (before ++ after) ⊆ called (before ++ call :: after) := by
  intro table member
  simp only [called, List.map_append, List.map_cons, List.mem_append, List.mem_cons] at member ⊢
  tauto

/-- Each step calls for the tables it found there and for those it requests. -/
theorem called_step (stepped : DynamoDBHelper.Step config s event t) :
    ∀ table ∈ called t.calls, table ∈ called s.calls ∨ table ∈ event.requested := by
  intro table member
  cases stepped with
  | trigger requested => simpa [called, DiscoveryEvent.requested] using member
  | check turn =>
    left
    rw [turn]
    dsimp only at member
    split at member
    · exact called_turn _ member
    · simpa [called] using member
  | insert turn =>
    left
    rw [turn]
    split at member
    · exact called_turn _ member
    · simpa [called] using member
  | spawn turn =>
    left
    rw [turn]
    exact called_turn _ member
  | spawnFailed turn =>
    left
    simpa [turn, called] using member
  | undo turn =>
    left
    rw [turn]
    exact called_turn _ member
  | attempt | store | erase | setPartitionKeyName | wait => exact .inl member

/-- A thread object is kept of every worker that a call could start. -/
theorem workers_step (stepped : DynamoDBHelper.Step config s event t) :
    t.discovery.workers = s.discovery.workers ∨ t.discovery.workers = [] ∨
      ∃ table ∈ called s.calls, event = .spawn table true ∧
        t.discovery.workers = s.discovery.workers ++ [table] := by
  cases stepped with
  | @spawn before after table turn =>
    refine .inr (.inr ⟨table, ?_, rfl, rfl⟩)
    simp [turn, called]
  | insert turn =>
    left
    split
    · rfl
    · rfl
  | wait => exact .inr (.inl rfl)
  | _ => exact .inl rfl

/-- Only requested tables are worked on, and there is one thread object for each. -/
structure Tidy (a : Requests) : Prop where
  called : ∀ table ∈ called a.helper.calls, table ∈ a.tables
  workers : ∀ table ∈ a.helper.discovery.workers, table ∈ a.tables
  nodup : a.helper.discovery.workers.Nodup

theorem Tidy.length_le (tidy : a.Tidy) : a.helper.discovery.workers.length ≤ a.tables.card := by
  rw [← List.toFinset_card_of_nodup tidy.nodup]
  apply Finset.card_le_card
  intro table member
  exact tidy.workers table (List.mem_toFinset.mp member)

theorem tidy_step (tidy : a.Tidy) (first : FirstThread a.helper event)
    (stepped : DynamoDBHelper.Step config a.helper event b.helper)
    (requests : b.tables = a.tables ∪ event.requested) : b.Tidy := by
  have grown : a.tables ⊆ b.tables := requests ▸ Finset.subset_union_left
  have called : ∀ table ∈ called b.helper.calls, table ∈ b.tables := by
    intro table member
    rcases called_step stepped table member with earlier | requested
    · exact grown (tidy.called table earlier)
    · exact requests ▸ Finset.mem_union_right _ requested
  obtain same | none | ⟨table, turn, rfl, more⟩ := workers_step stepped
  · exact ⟨called, same ▸ fun table member => grown (tidy.workers table member), same ▸ tidy.nodup⟩
  · exact ⟨called, by simp [none], by simp [none]⟩
  · refine ⟨called, ?_, ?_⟩
    · rw [more]
      intro other member
      rcases List.mem_append.mp member with earlier | new
      · exact grown (tidy.workers other earlier)
      · exact List.mem_singleton.mp new ▸ grown (tidy.called table turn)
    · rw [more, List.nodup_append_comm]
      exact List.nodup_cons.mpr ⟨first table rfl, tidy.nodup⟩

end Requests

/-- Wherever a worker is started only for a table that no thread object is kept
of, there are never more thread objects than requested tables. -/
theorem workers_le_tables {config : Config} {partitionKeys : PartitionKeyMetadata}
    {states : List Requests} {final : Requests}
    (run : Requests.Run config Requests.FirstThread
      { helper := { partitionKeys := partitionKeys } } states final) :
    ∀ s ∈ final :: states, s.helper.discovery.workers.length ≤ s.tables.card := by
  have tidy : ∀ s ∈ final :: states, s.Tidy := by
    refine List.forall_mem_cons.mpr (run.invariant ?_ ⟨?_, ?_, List.nodup_nil⟩)
    · rintro a b ⟨event, first, stepped, requests⟩ tidy
      exact Requests.tidy_step tidy first stepped requests
    · intro table member
      contradiction
    · intro table member
      contradiction
  intro s reached
  exact (tidy s reached).length_le

section
variable {config : Config} {partitionKeys : PartitionKeyMetadata} {tableName : Bytes}
  {condition : DynamoDBHelper → DiscoveryEvent → Prop}

/-- A helper between lookups: no call is under way, no worker runs and no table is
marked, though threads of earlier workers may still wait to be joined. -/
def DynamoDBHelper.idle (partitionKeys : PartitionKeyMetadata) (workers : List Bytes) :
    DynamoDBHelper :=
  { partitionKeys := partitionKeys, discovery := { workers := workers } }

/-- The condition is about the start of workers only. -/
def AboutSpawns (condition : DynamoDBHelper → DiscoveryEvent → Prop) : Prop :=
  ∀ s event, (∀ table, event ≠ .spawn table true) → condition s event

theorem Requests.quiet {s t : DynamoDBHelper} {event : DiscoveryEvent} {tables : Finset Bytes}
    {states : List Requests} {final : Requests} (allowed : condition s event)
    (stepped : DynamoDBHelper.Step config s event t) (quiet : event.requested = ∅)
    (rest : Requests.Run config condition ⟨t, tables⟩ states final) :
    Requests.Run config condition ⟨s, tables⟩ (⟨t, tables⟩ :: states) final :=
  .step ⟨event, allowed, stepped, by rw [quiet, Finset.union_empty]⟩ rest

/-- A worker whose lookup throws takes its table back and leaves its thread object. -/
theorem worker_fails (others : AboutSpawns condition) (workers : List Bytes)
    (tables : Finset Bytes) :
    ∃ states, Requests.Run config condition
      ⟨{ partitionKeys := partitionKeys, discovery := ⟨{tableName}, workers⟩,
         running := [⟨tableName, firstPhase config tableName⟩] }, tables⟩ states
      ⟨.idle partitionKeys workers, tables⟩ := by
  let last (phase : WorkerPhase) : DynamoDBHelper :=
    { partitionKeys := partitionKeys, discovery := ⟨{tableName}, workers⟩,
      running := [⟨tableName, phase⟩] }
  have erased : DynamoDBHelper.Step config (last .erasing) (.erase tableName)
      (.idle partitionKeys workers) := by
    have step := @DynamoDBHelper.Step.erase config (last .erasing) [] [] tableName rfl
    simpa [last, DynamoDBHelper.idle] using step
  have ending : ∃ states, Requests.Run config condition ⟨last .erasing, tables⟩ states
      ⟨.idle partitionKeys workers, tables⟩ :=
    ⟨_, Requests.quiet (others _ _ (by simp)) erased rfl (.refl _)⟩
  simp only [firstPhase]
  split
  · exact ending
  · split
    · have thrown : DynamoDBHelper.Step config (last (.attempting 1))
          (.attempt tableName (.error ())) (last .erasing) :=
        @DynamoDBHelper.Step.attempt config (last (.attempting 1)) [] [] tableName 1 rfl (.error ())
      obtain ⟨states, run⟩ := ending
      exact ⟨_, Requests.quiet (others _ _ (by simp)) thrown rfl run⟩
    · exact ending

/-- A request for a table without a key whose lookup throws leaves a thread object. -/
theorem lookup_fails (others : AboutSpawns condition) (named : tableName ≠ [])
    (unknown : partitionKeys.getPartitionKeyName tableName = []) {workers : List Bytes}
    (allowed : ∀ s : DynamoDBHelper, s.discovery.workers = workers →
      condition s (.spawn tableName true))
    (tables : Finset Bytes) :
    ∃ states, Requests.Run config condition ⟨.idle partitionKeys workers, tables⟩ states
      ⟨.idle partitionKeys (workers ++ [tableName]), tables ∪ {tableName}⟩ := by
  let calling (inProgress : Finset Bytes) (phase : CallPhase) : DynamoDBHelper :=
    { partitionKeys := partitionKeys, discovery := ⟨inProgress, workers⟩,
      calls := [⟨tableName, phase⟩] }
  have checked : DynamoDBHelper.Step config (calling ∅ .checking) (.check tableName)
      (calling ∅ .inserting) := by
    have step := @DynamoDBHelper.Step.check config (calling ∅ .checking) [] [] tableName rfl
    simpa [calling, named, unknown] using step
  have inserted : DynamoDBHelper.Step config (calling ∅ .inserting) (.insert tableName)
      (calling {tableName} .spawning) := by
    have step := @DynamoDBHelper.Step.insert config (calling ∅ .inserting) [] [] tableName rfl
    simpa [calling] using step
  have spawned := @DynamoDBHelper.Step.spawn config (calling {tableName} .spawning)
    [] [] tableName rfl
  obtain ⟨states, failing⟩ := @worker_fails config partitionKeys tableName _ others
    (workers ++ [tableName]) (tables ∪ {tableName})
  have working := Requests.quiet (allowed _ rfl) spawned rfl failing
  have served := Requests.quiet (others _ _ (by simp)) checked rfl
    (Requests.quiet (others _ _ (by simp)) inserted rfl working)
  exact ⟨_, .step ⟨.trigger tableName, others _ _ (by simp), .trigger tableName, rfl⟩ served⟩

/-- Any number of failing lookups of one table leaves that many thread objects. -/
theorem workers_accumulate (named : tableName ≠ [])
    (unknown : partitionKeys.getPartitionKeyName tableName = []) (n : Nat) :
    ∃ states tables, tables ⊆ {tableName} ∧
      Requests.Run config (fun _ _ => True) { helper := .idle partitionKeys [] } states
        ⟨.idle partitionKeys (List.replicate n tableName), tables⟩ := by
  induction n with
  | zero => exact ⟨[], ∅, Finset.empty_subset _, .refl _⟩
  | succ n ih =>
    obtain ⟨states, tables, only, run⟩ := ih
    obtain ⟨more, again⟩ := @lookup_fails config partitionKeys tableName (fun _ _ => True)
      (fun _ _ _ => trivial) named unknown (List.replicate n tableName) (fun _ _ => trivial) tables
    refine ⟨states ++ more, _, Finset.union_subset only (Finset.Subset.refl _), ?_⟩
    rw [List.replicate_succ']
    exact run.append again

end

/-- Lookups of two tables, both of which fail: each leaves a thread object behind,
and two tables were requested. -/
theorem workers_le_tables_two :
    ∃ states final,
      Requests.Run {} Requests.FirstThread { helper := { partitionKeys := ⟨.empty⟩ } }
        states final ∧
      final.helper.discovery.workers = [bytes "orders", bytes "items"] ∧
      final.helper.discovery.workers.length ≤ final.tables.card := by
  have others : AboutSpawns Requests.FirstThread :=
    fun s event other table spawned => absurd spawned (other table)
  obtain ⟨states, orders⟩ := @lookup_fails {} ⟨.empty⟩ (bytes "orders") _ others (by decide) rfl []
    (by
      intro s kept table spawned
      simp [kept])
    ∅
  obtain ⟨more, items⟩ := @lookup_fails {} ⟨.empty⟩ (bytes "items") _ others (by decide) rfl
    [bytes "orders"]
    (by
      intro s kept table spawned
      obtain ⟨rfl, -⟩ := DiscoveryEvent.spawn.inj spawned
      rw [kept]
      decide)
    (∅ ∪ {bytes "orders"})
  have run := orders.append items
  exact ⟨_, _, run, rfl, workers_le_tables run _ List.mem_cons_self⟩

/-- Two requests for one table whose lookups throw: each starts a worker, as the
table is erased in between, and neither of the threads is joined. -/
theorem failed_lookup_accumulates :
    ∃ states final,
      Requests.Run {} (fun _ _ => True) { helper := { partitionKeys := ⟨.empty⟩ } } states final ∧
      final.helper.running = [] ∧
      final.helper.discovery.workers = [bytes "orders", bytes "orders"] ∧
      final.tables ⊆ {bytes "orders"} ∧
      ¬ final.helper.discovery.workers.length ≤ final.tables.card := by
  obtain ⟨states, tables, only, run⟩ :=
    @workers_accumulate {} ⟨.empty⟩ (bytes "orders") (by decide) rfl 2
  refine ⟨states, _, run, rfl, rfl, only, ?_⟩
  have one := Finset.card_le_card only
  rw [Finset.card_singleton] at one
  simp only [DynamoDBHelper.idle, List.length_replicate]
  omega

end Aws
end AlternatorClient
