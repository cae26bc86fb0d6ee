import AlternatorClient.Config
import AlternatorClient.Foundation.Path
import AlternatorClient.KeyRouteAffinity
import Mathlib.Data.Finset.Basic
import Mathlib.Data.List.Count

/-! How `DynamoDBHelper` looks up partition keys in the background. Any number
of calls of `TriggerPartitionKeyDiscovery` and of its workers take turns; each
critical section is one step. The pauses between attempts are left out. -/
namespace AlternatorClient
open Foundation

def PartitionKeyMetadata.setPartitionKeyName (metadata : PartitionKeyMetadata)
    (tableName partitionKeyName : Bytes) : PartitionKeyMetadata :=
  ⟨metadata.partitionKeyByTable.assign tableName partitionKeyName⟩

namespace Aws

/-- Where a call of `TriggerPartitionKeyDiscovery` is between its critical sections;
it may be overtaken by other calls and by workers at each of these points. -/
inductive CallPhase where
  | checking
  | inserting
  | spawning
  /-- The worker could not be started. -/
  | undoing
  deriving DecidableEq

/-- Where a worker is in `UpdatePartitionKeyName`. It ends by storing the name it
found and erasing its table, or by erasing the table alone. -/
inductive WorkerPhase where
  /-- `DiscoverPartitionKeyName`, for the given attempt. -/
  | attempting (attempt : Nat)
  | storing (keyName : Bytes)
  | erasing
  deriving DecidableEq

structure Call where
  tableName : Bytes
  phase : CallPhase
  deriving DecidableEq

structure Worker where
  tableName : Bytes
  phase : WorkerPhase
  deriving DecidableEq

/-- `workers` has one entry for each thread object: the table it was started for. -/
structure PartitionKeyDiscoveryState where
  inProgress : Finset Bytes := ∅
  workers : List Bytes := []

/-- A helper as far as discovery goes, with the calls and the workers under way. -/
structure DynamoDBHelper where
  partitionKeys : PartitionKeyMetadata
  discovery : PartitionKeyDiscoveryState := {}
  calls : List Call := []
  running : List Worker := []

/-- A call registered its table and has not yet passed it to a worker or erased it. -/
def CallPhase.holds : CallPhase → Bool
  | .spawning | .undoing => true
  | _ => false

@[simp] theorem CallPhase.holds_checking : CallPhase.checking.holds = false := rfl
@[simp] theorem CallPhase.holds_inserting : CallPhase.inserting.holds = false := rfl
@[simp] theorem CallPhase.holds_spawning : CallPhase.spawning.holds = true := rfl
@[simp] theorem CallPhase.holds_undoing : CallPhase.undoing.holds = true := rfl

/-- Where the worker of a table begins `UpdatePartitionKeyName`: without a table
name, or without a single attempt to make, it has nothing to ask. -/
def firstPhase (config : Config) (tableName : Bytes) : WorkerPhase :=
  if tableName.isEmpty then .erasing
  else if 1 ≤ config.keyRouteAffinity.partitionKeyDiscoveryAttempts.toNat then .attempting 1
  else .erasing

def nextPhase (config : Config) (attempt : Nat) : Except Unit Bytes → WorkerPhase
  | .error _ => .erasing
  | .ok keyName =>
    if !keyName.isEmpty then .storing keyName
    else if attempt = config.keyRouteAffinity.partitionKeyDiscoveryAttempts.toNat then .erasing
    else .attempting (attempt + 1)

inductive DiscoveryEvent where
  | trigger (tableName : Bytes)
  | check (tableName : Bytes)
  | insert (tableName : Bytes)
  | spawn (tableName : Bytes) (started : Bool)
  | undo (tableName : Bytes)
  | attempt (tableName : Bytes) (result : Except Unit Bytes)
  | store (tableName : Bytes)
  | erase (tableName : Bytes)
  | setPartitionKeyName (tableName partitionKeyName : Bytes)
  | wait

namespace DynamoDBHelper
variable (config : Config) (s : DynamoDBHelper)

/-- One step, of any call or worker or of a caller of the two other methods. -/
inductive Step : DiscoveryEvent → DynamoDBHelper → Prop
  | trigger (tableName : Bytes) :
      Step (.trigger tableName) { s with calls := s.calls ++ [⟨tableName, .checking⟩] }
  | check {before after : List Call} {tableName : Bytes}
      (turn : s.calls = before ++ ⟨tableName, .checking⟩ :: after) :
      Step (.check tableName)
        { s with
          calls :=
            if tableName.isEmpty || !(s.partitionKeys.getPartitionKeyName tableName).isEmpty then
              before ++ after
            else before ++ ⟨tableName, .inserting⟩ :: after }
  | insert {before after : List Call} {tableName : Bytes}
      (turn : s.calls = before ++ ⟨tableName, .inserting⟩ :: after) :
      Step (.insert tableName)
        (if tableName ∈ s.discovery.inProgress then { s with calls := before ++ after }
          else
            { s with
              calls := before ++ ⟨tableName, .spawning⟩ :: after
              discovery :=
                { s.discovery with inProgress := insert tableName s.discovery.inProgress } })
  | spawn {before after : List Call} {tableName : Bytes}
      (turn : s.calls = before ++ ⟨tableName, .spawning⟩ :: after) :
      Step (.spawn tableName true)
        { s with
          calls := before ++ after
          running := s.running ++ [⟨tableName, firstPhase config tableName⟩]
          discovery := { s.discovery with workers := s.discovery.workers ++ [tableName] } }
  | spawnFailed {before after : List Call} {tableName : Bytes}
      (turn : s.calls = before ++ ⟨tableName, .spawning⟩ :: after) :
      Step (.spawn tableName false) { s with calls := before ++ ⟨tableName, .undoing⟩ :: after }
  | undo {before after : List Call} {tableName : Bytes}
      (turn : s.calls = before ++ ⟨tableName, .undoing⟩ :: after) :
      Step (.undo tableName)
        { s with
          calls := before ++ after
          discovery :=
            { s.discovery with inProgress := s.discovery.inProgress.erase tableName } }
  | attempt {before after : List Worker} {tableName : Bytes} {attempt : Nat}
      (turn : s.running = before ++ ⟨tableName, .attempting attempt⟩ :: after)
      (result : Except Unit Bytes) :
      Step (.attempt tableName result)
        { s with running := before ++ ⟨tableName, nextPhase config attempt result⟩ :: after }
  | store {before after : List Worker} {tableName keyName : Bytes}
      (turn : s.running = before ++ ⟨tableName, .storing keyName⟩ :: after) :
      Step (.store tableName)
        { s with
          partitionKeys := s.partitionKeys.setPartitionKeyName tableName keyName
          running := before ++ ⟨tableName, .erasing⟩ :: after }
  | erase {before after : List Worker} {tableName : Bytes}
      (turn : s.running = before ++ ⟨tableName, .erasing⟩ :: after) :
      Step (.erase tableName)
        { s with
          running := before ++ after
          discovery :=
            { s.discovery with inProgress := s.discovery.inProgress.erase tableName } }
  | setPartitionKeyName (tableName partitionKeyName : Bytes) :
      Step (.setPartitionKeyName tableName partitionKeyName)
        { s with
          partitionKeys := s.partitionKeys.setPartitionKeyName tableName partitionKeyName }
  -- `WaitForPartitionKeyDiscovery` takes the threads it joins out of the vector
  | wait : Step .wait { s with discovery := { s.discovery with workers := [] } }

abbrev Run : DynamoDBHelper → List DynamoDBHelper → DynamoDBHelper → Prop :=
  Path fun s t => ∃ event, Step config s event t

/-- The calls between their insert and their spawn or its undo. -/
def holding (tableName : Bytes) : Nat :=
  s.calls.countP fun call => decide (call.tableName = tableName) && call.phase.holds

def lookups (tableName : Bytes) : Nat :=
  s.running.countP fun worker => decide (worker.tableName = tableName)

/-- A table is registered for one call or one worker. -/
def Accounted : Prop :=
  ∀ tableName, s.holding tableName + s.lookups tableName =
    if tableName ∈ s.discovery.inProgress then 1 else 0

variable {config s} {t : DynamoDBHelper} {event : DiscoveryEvent} {tableName : Bytes}

theorem countP_turn {α : Type} (p : α → Bool) (before after : List α) (a : α) :
    (before ++ a :: after).countP p = (before ++ after).countP p + if p a then 1 else 0 := by
  simp only [List.countP_append, List.countP_cons]
  omega

theorem accounted_step (accounted : s.Accounted) (stepped : Step config s event t) :
    t.Accounted := by
  intro tableName
  have held := accounted tableName
  cases stepped with
  | trigger table => simpa [holding, lookups] using held
  | check turn =>
    simp only [holding, lookups, turn, countP_turn] at held ⊢
    split
    · simpa using held
    · simpa [countP_turn] using held
  | @insert before after table turn =>
    simp only [holding, lookups, turn, countP_turn] at held ⊢
    split
    · simpa using held
    · rename_i fresh
      by_cases same : table = tableName
      · subst same
        simp only [countP_turn, fresh, if_false, Finset.mem_insert_self, if_true, decide_true,
          Bool.true_and, CallPhase.holds_spawning, CallPhase.holds_inserting, Bool.false_eq_true]
          at held ⊢
        omega
      · simpa [countP_turn, same, Ne.symm same] using held
  | @spawn before after table turn =>
    simp only [holding, lookups, turn, countP_turn] at held ⊢
    by_cases same : table = tableName
    · subst same
      simp only [decide_true, Bool.true_and, CallPhase.holds_spawning, if_true, List.countP_append,
        List.countP_nil] at held ⊢
      omega
    · simpa [same] using held
  | spawnFailed turn =>
    simp only [holding, lookups, turn, countP_turn] at held ⊢
    simpa using held
  | @undo before after table turn =>
    simp only [holding, lookups, turn, countP_turn] at held ⊢
    by_cases same : table = tableName
    · subst same
      simp only [decide_true, Bool.true_and, CallPhase.holds_undoing, if_true,
        Finset.notMem_erase, if_false] at held ⊢
      split at held
      · omega
      · omega
    · simpa [same, Ne.symm same] using held
  | attempt turn =>
    simp only [holding, lookups, turn, countP_turn] at held ⊢
    exact held
  | store turn =>
    simp only [holding, lookups, turn, countP_turn] at held ⊢
    exact held
  | @erase before after table turn =>
    simp only [holding, lookups, turn, countP_turn] at held ⊢
    by_cases same : table = tableName
    · subst same
      simp only [decide_true, if_true, Finset.notMem_erase, if_false] at held ⊢
      split at held
      · omega
      · omega
    · simpa [same, Ne.symm same] using held
  | setPartitionKeyName => exact held
  | wait => exact held

/-- The registration of a table can be given up from here. -/
def Releasable (config : Config) (s : DynamoDBHelper) (tableName : Bytes) : Prop :=
  ∃ states t, Run config s states t ∧ tableName ∉ t.discovery.inProgress

theorem Releasable.step (stepped : Step config s event t) (later : t.Releasable config tableName) :
    s.Releasable config tableName := by
  obtain ⟨states, final, run, free⟩ := later
  exact ⟨_, final, .step ⟨event, stepped⟩ run, free⟩

theorem releasable_undoing {before after : List Call}
    (turn : s.calls = before ++ ⟨tableName, .undoing⟩ :: after) :
    s.Releasable config tableName :=
  .step (.undo turn) ⟨[], _, .refl _, Finset.notMem_erase _ _⟩

theorem releasable_erasing {before after : List Worker}
    (turn : s.running = before ++ ⟨tableName, .erasing⟩ :: after) :
    s.Releasable config tableName :=
  .step (.erase turn) ⟨[], _, .refl _, Finset.notMem_erase _ _⟩

/-- A call that marked the table can release it in every case, also when the worker
could not be started. -/
theorem releasable_call {call : Call} (member : call ∈ s.calls)
    (named : call.tableName = tableName) (holds : call.phase.holds = true) :
    s.Releasable config tableName := by
  obtain ⟨before, after, turn⟩ := List.append_of_mem member
  obtain ⟨table, phase⟩ := call
  obtain rfl : table = tableName := named
  cases phase with
  | checking => contradiction
  | inserting => contradiction
  | spawning => exact .step (.spawnFailed turn) (releasable_undoing rfl)
  | undoing => exact releasable_undoing turn

/-- A running worker can release its table in every case: an attempt that throws
ends the lookup, and the table is erased. -/
theorem releasable_worker {worker : Worker} (member : worker ∈ s.running)
    (named : worker.tableName = tableName) : s.Releasable config tableName := by
  obtain ⟨before, after, turn⟩ := List.append_of_mem member
  obtain ⟨table, phase⟩ := worker
  obtain rfl : table = tableName := named
  cases phase with
  | attempting attempt =>
    exact .step (.attempt turn (.error ())) (releasable_erasing rfl)
  | storing keyName => exact .step (.store turn) (releasable_erasing rfl)
  | erasing => exact releasable_erasing turn

theorem releasable_registered (accounted : s.Accounted)
    (registered : tableName ∈ s.discovery.inProgress) : s.Releasable config tableName := by
  have one := accounted tableName
  rw [if_pos registered] at one
  by_cases idle : s.holding tableName = 0
  · have some : 0 < s.lookups tableName := by omega
    obtain ⟨worker, member, named⟩ := List.countP_pos_iff.mp some
    exact releasable_worker member (by simpa using named)
  · obtain ⟨call, member, found⟩ := List.countP_pos_iff.mp (Nat.pos_of_ne_zero idle)
    simp only [Bool.and_eq_true, decide_eq_true_eq] at found
    exact releasable_call member found.1 found.2

end DynamoDBHelper

/-- Whatever the interleaving, a table has at most one worker, and is registered
exactly while one call or one worker has it; whoever has it can give it up, also
after a spawn that failed or an attempt that threw. -/
theorem discovery_single {config : Config} {partitionKeys : PartitionKeyMetadata}
    {states : List DynamoDBHelper} {final : DynamoDBHelper}
    (run : DynamoDBHelper.Run config { partitionKeys := partitionKeys } states final) :
    ∀ s ∈ final :: states, ∀ tableName, s.lookups tableName ≤ 1 ∧
      (tableName ∈ s.discovery.inProgress ↔
        s.holding tableName = 1 ∧ s.lookups tableName = 0 ∨
          s.holding tableName = 0 ∧ s.lookups tableName = 1) ∧
      (tableName ∈ s.discovery.inProgress → s.Releasable config tableName) := by
  have accounted : ∀ s ∈ final :: states, s.Accounted := by
    refine List.forall_mem_cons.mpr (run.invariant ?_ fun tableName => rfl)
    rintro s t ⟨event, stepped⟩ accounted
    exact DynamoDBHelper.accounted_step accounted stepped
  intro s reached tableName
  have sum := accounted s reached tableName
  refine ⟨?_, ?_, DynamoDBHelper.releasable_registered (accounted s reached)⟩
  · split at sum
    · omega
    · omega
  · constructor
    · intro registered
      rw [if_pos registered] at sum
      omega
    · intro one
      by_contra free
      rw [if_neg free] at sum
      omega

/-- Two calls for one table: the second finds it registered, and the worker the
first one started is the only one. -/
theorem discovery_single_twice :
    ∃ states final, DynamoDBHelper.Run {} { partitionKeys := ⟨.empty⟩ } states final ∧
      final.calls = [] ∧ final.discovery.workers = [bytes "orders"] ∧
      final.lookups (bytes "orders") = 1 ∧ bytes "orders" ∈ final.discovery.inProgress ∧
      final.Releasable {} (bytes "orders") := by
  have run : DynamoDBHelper.Run {} { partitionKeys := ⟨.empty⟩ } _ _ :=
    .step ⟨_, .trigger (bytes "orders")⟩ <|
    .step ⟨_, .trigger (bytes "orders")⟩ <|
    .step ⟨_, @DynamoDBHelper.Step.check _ _ [] _ _ rfl⟩ <|
    .step ⟨_, @DynamoDBHelper.Step.check _ _ [_] [] _ rfl⟩ <|
    .step ⟨_, @DynamoDBHelper.Step.insert _ _ [] _ _ rfl⟩ <|
    .step ⟨_, @DynamoDBHelper.Step.insert _ _ [_] [] _ rfl⟩ <|
    .step ⟨_, @DynamoDBHelper.Step.spawn _ _ [] [] _ rfl⟩ <|
    .refl _
  obtain ⟨_, registered, releasable⟩ := discovery_single run _ List.mem_cons_self (bytes "orders")
  have member := registered.mpr (.inr ⟨rfl, rfl⟩)
  exact ⟨_, _, run, rfl, rfl, rfl, member, releasable member⟩

end Aws
end AlternatorClient
