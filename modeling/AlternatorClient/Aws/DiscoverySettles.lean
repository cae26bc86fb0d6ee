import AlternatorClient.Aws.PartitionKeyDiscovery
import Mathlib.Algebra.Order.BigOperators.Group.List

/-! Discovery comes to rest: calls and workers have a bounded number of steps to take,
and the destructor, which joins the thread objects it took, outlives every worker. An
attempt is one step here; that `DescribeTable` returns is up to the SDK. -/
namespace AlternatorClient
open Foundation

namespace Aws

/-- The steps of the calls and the workers themselves. -/
def DiscoveryEvent.own : DiscoveryEvent → Bool
  | .trigger _ | .setPartitionKeyName _ _ | .wait => false
  | _ => true

def WorkerPhase.left (attempts : Nat) : WorkerPhase → Nat
  | .attempting attempt => attempts - attempt + 3
  | .storing _ => 2
  | .erasing => 1

/-- How many steps a call and the worker it starts have left at most. -/
def CallPhase.left (attempts : Nat) : CallPhase → Nat
  | .checking => attempts + 5
  | .inserting => attempts + 4
  | .spawning => attempts + 3
  | .undoing => 1

def WorkerPhase.Within (attempts : Nat) : WorkerPhase → Prop
  | .attempting attempt => 1 ≤ attempt ∧ attempt ≤ attempts
  | _ => True

theorem WorkerPhase.Within.left_le {attempts : Nat} {phase : WorkerPhase}
    (within : phase.Within attempts) : phase.left attempts ≤ attempts + 2 := by
  cases phase with
  | attempting attempt =>
    simp only [Within, left] at within ⊢
    omega
  | storing => simp only [left]; omega
  | erasing => simp only [left]; omega

theorem CallPhase.left_le {attempts : Nat} {phase : CallPhase} :
    phase.left attempts ≤ attempts + 5 := by
  cases phase <;> simp only [left] <;> omega

def lookupAttempts (config : Config) : Nat :=
  config.keyRouteAffinity.partitionKeyDiscoveryAttempts.toNat

section
variable {config : Config} {tableName : Bytes} {attempt : Nat} {result : Except Unit Bytes}

theorem firstPhase_within : (firstPhase config tableName).Within (lookupAttempts config) := by
  simp only [firstPhase]
  split
  · trivial
  · split
    · rename_i some
      exact ⟨le_rfl, some⟩
    · trivial

theorem firstPhase_left :
    (firstPhase config tableName).left (lookupAttempts config) ≤ lookupAttempts config + 2 := by
  simp only [firstPhase]
  split
  · simp only [WorkerPhase.left]
    omega
  · split
    · rename_i some
      simp only [WorkerPhase.left, lookupAttempts] at some ⊢
      omega
    · simp only [WorkerPhase.left]
      omega

/-- After an attempt the worker is nearer to its end, and not past the last attempt. -/
theorem nextPhase_nearer (within : (WorkerPhase.attempting attempt).Within (lookupAttempts config)) :
    (nextPhase config attempt result).Within (lookupAttempts config) ∧
      (nextPhase config attempt result).left (lookupAttempts config) + 1 ≤
        (WorkerPhase.attempting attempt).left (lookupAttempts config) := by
  cases result with
  | error => exact ⟨trivial, by simp only [nextPhase, WorkerPhase.left]; omega⟩
  | ok keyName =>
    simp only [nextPhase]
    split
    · exact ⟨trivial, by simp only [WorkerPhase.left]; omega⟩
    · split
      · exact ⟨trivial, by simp only [WorkerPhase.left]; omega⟩
      · rename_i more
        simp only [WorkerPhase.Within, WorkerPhase.left, lookupAttempts] at within more ⊢
        omega

end

namespace DynamoDBHelper

/-- The steps that the calls and the workers under way have left at most. -/
def left (attempts : Nat) (s : DynamoDBHelper) : Nat :=
  (s.calls.map fun call => call.phase.left attempts).sum +
    (s.running.map fun worker => worker.phase.left attempts).sum

/-- Every worker that still asks is within the configured number of attempts; it
bounds the steps that are left. -/
def Within (attempts : Nat) (s : DynamoDBHelper) : Prop :=
  ∀ worker ∈ s.running, worker.phase.Within attempts

variable {config : Config} {s t : DynamoDBHelper} {event : DiscoveryEvent} {tableName : Bytes}

theorem sum_turn {α : Type} (f : α → Nat) (before after : List α) (a : α) :
    ((before ++ a :: after).map f).sum = ((before ++ after).map f).sum + f a := by
  simp only [List.map_append, List.map_cons, List.sum_append, List.sum_cons]
  omega

theorem left_le (within : s.Within (lookupAttempts config)) :
    s.left (lookupAttempts config) ≤
      s.calls.length * (lookupAttempts config + 5) +
        s.running.length * (lookupAttempts config + 2) := by
  have calls := List.sum_le_card_nsmul
    (s.calls.map fun call => call.phase.left (lookupAttempts config))
    (lookupAttempts config + 5) (by simp [CallPhase.left_le])
  have running := List.sum_le_card_nsmul
    (s.running.map fun worker => worker.phase.left (lookupAttempts config))
    (lookupAttempts config + 2) (by
      simp only [List.mem_map]
      rintro _ ⟨worker, member, rfl⟩
      exact (within worker member).left_le)
  rw [List.length_map, nsmul_eq_mul, Nat.cast_id] at calls running
  exact Nat.add_le_add calls running

theorem forall_turn {α : Type} {P : α → Prop} {before after : List α} {a : α} :
    (∀ x ∈ before ++ a :: after, P x) ↔ P a ∧ ∀ x ∈ before ++ after, P x := by
  simp only [List.mem_append, List.mem_cons]
  constructor
  · exact fun all => ⟨all a (.inr (.inl rfl)), fun x member => all x (by tauto)⟩
  · rintro ⟨one, others⟩ x (earlier | rfl | later)
    · exact others x (.inl earlier)
    · exact one
    · exact others x (.inr later)

theorem within_step (within : s.Within (lookupAttempts config))
    (stepped : Step config s event t) : t.Within (lookupAttempts config) := by
  cases stepped with
  | insert turn =>
    split
    · exact within
    · exact within
  | spawn turn =>
    intro worker member
    rcases List.mem_append.mp member with earlier | new
    · exact within worker earlier
    · rw [List.mem_singleton.mp new]
      exact firstPhase_within
  | attempt turn result =>
    simp only [Within, turn, forall_turn] at within ⊢
    exact ⟨(nextPhase_nearer within.1).1, within.2⟩
  | store turn =>
    simp only [Within, turn, forall_turn] at within ⊢
    exact ⟨trivial, within.2⟩
  | erase turn =>
    simp only [Within, turn, forall_turn] at within
    exact within.2
  | _ => exact within

/-- A step of a call or a worker brings the helper nearer to rest; only a request
takes it further away. -/
theorem left_step (within : s.Within (lookupAttempts config))
    (stepped : Step config s event t) (unrequested : ∀ tableName, event ≠ .trigger tableName) :
    t.left (lookupAttempts config) + (if event.own then 1 else 0) ≤
      s.left (lookupAttempts config) := by
  cases stepped with
  | trigger tableName => exact absurd rfl (unrequested tableName)
  | check turn =>
    simp only [left, turn, sum_turn, DiscoveryEvent.own, if_true, CallPhase.left]
    split
    · omega
    · simp only [sum_turn]
      omega
  | insert turn =>
    simp only [DiscoveryEvent.own, if_true]
    split
    · simp only [left, turn, sum_turn, CallPhase.left]
      omega
    · simp only [left, turn, sum_turn, CallPhase.left]
      omega
  | @spawn before after table turn =>
    have new := @firstPhase_left config table
    simp only [left, turn, DiscoveryEvent.own, if_true, CallPhase.left,
      List.map_append, List.map_cons, List.map_nil, List.sum_append, List.sum_cons, List.sum_nil]
    omega
  | spawnFailed turn =>
    simp only [left, turn, sum_turn, DiscoveryEvent.own, if_true, CallPhase.left]
    omega
  | undo turn =>
    simp only [left, turn, sum_turn, DiscoveryEvent.own, if_true, CallPhase.left]
    omega
  | @attempt before after table attempt turn result =>
    have nearer := @nextPhase_nearer config attempt result
      (within ⟨table, .attempting attempt⟩ (by simp [turn]))
    simp only [left, turn, sum_turn, DiscoveryEvent.own, if_true]
    omega
  | store turn =>
    simp only [left, turn, sum_turn, DiscoveryEvent.own, if_true, WorkerPhase.left]
    omega
  | erase turn =>
    simp only [left, turn, sum_turn, DiscoveryEvent.own, if_true, WorkerPhase.left]
    omega
  | setPartitionKeyName => exact le_rfl
  | wait => exact le_rfl

theorem own_step_of_call {call : Call} (member : call ∈ s.calls) :
    ∃ event t, event.own = true ∧ Step config s event t := by
  obtain ⟨before, after, turn⟩ := List.append_of_mem member
  obtain ⟨table, phase⟩ := call
  cases phase with
  | checking => exact ⟨_, _, rfl, .check turn⟩
  | inserting => exact ⟨_, _, rfl, .insert turn⟩
  | spawning => exact ⟨_, _, rfl, .spawn turn⟩
  | undoing => exact ⟨_, _, rfl, .undo turn⟩

theorem own_step_of_worker {worker : Worker} (member : worker ∈ s.running) :
    ∃ event t, event.own = true ∧ Step config s event t := by
  obtain ⟨before, after, turn⟩ := List.append_of_mem member
  obtain ⟨table, phase⟩ := worker
  cases phase with
  | attempting attempt => exact ⟨_, _, rfl, .attempt turn (.error ())⟩
  | storing keyName => exact ⟨_, _, rfl, .store turn⟩
  | erasing => exact ⟨_, _, rfl, .erase turn⟩

/-- A helper with no calls and no workers under way has no table registered. -/
theorem registered_none (accounted : s.Accounted) (called : s.calls = []) (ran : s.running = []) :
    s.discovery.inProgress = ∅ := by
  apply Finset.eq_empty_of_forall_notMem
  intro tableName registered
  have one := accounted tableName
  simp [holding, lookups, called, ran, registered] at one

/-- A step other than a request, with the count of the steps of calls and workers. -/
def Counted (config : Config) (before after : DynamoDBHelper × Nat) : Prop :=
  ∃ event, (∀ tableName, event ≠ .trigger tableName) ∧ Step config before.1 event after.1 ∧
    after.2 = before.2 + if event.own then 1 else 0

end DynamoDBHelper

/-- From any state of any interleaving, and without further requests, the calls and the
workers take a bounded number of steps, whatever the attempts answer. As long as one is
under way it has a step to take, and when none is, no table is registered. -/
theorem discovery_settles {config : Config} {partitionKeys : PartitionKeyMetadata}
    {states : List DynamoDBHelper} {s t : DynamoDBHelper}
    {counted : List (DynamoDBHelper × Nat)} {n : Nat}
    (run : DynamoDBHelper.Run config { partitionKeys := partitionKeys } states s)
    (further : Path (DynamoDBHelper.Counted config) (s, 0) counted (t, n)) :
    n ≤ s.calls.length * (lookupAttempts config + 5) +
        s.running.length * (lookupAttempts config + 2) ∧
      (t.calls = [] ∧ t.running = [] ∧ t.discovery.inProgress = ∅ ∨
        ∃ event u, event.own = true ∧ DynamoDBHelper.Step config t event u) := by
  obtain ⟨accounted, within⟩ := (Path.invariant (P := fun s : DynamoDBHelper =>
    s.Accounted ∧ s.Within (lookupAttempts config))
    (fun ⟨_, stepped⟩ ⟨accounted, within⟩ =>
      ⟨DynamoDBHelper.accounted_step accounted stepped, DynamoDBHelper.within_step within stepped⟩)
    run ⟨fun _ => rfl, fun _ never => absurd never List.not_mem_nil⟩).1
  have bound := DynamoDBHelper.left_le within
  have kept := (Path.invariant (P := fun after : DynamoDBHelper × Nat =>
    after.1.Accounted ∧ after.1.Within (lookupAttempts config) ∧
      after.1.left (lookupAttempts config) + after.2 ≤ s.left (lookupAttempts config)) ?_ further
      ⟨accounted, within, le_rfl⟩).1
  · obtain ⟨accounted, -, count⟩ := kept
    refine ⟨by omega, ?_⟩
    cases called : t.calls with
    | cons call calls =>
      exact .inr (DynamoDBHelper.own_step_of_call (called ▸ List.mem_cons_self))
    | nil =>
      cases ran : t.running with
      | cons worker running =>
        exact .inr (DynamoDBHelper.own_step_of_worker (ran ▸ List.mem_cons_self))
      | nil => exact .inl ⟨rfl, rfl, DynamoDBHelper.registered_none accounted called ran⟩
  · rintro ⟨a, i⟩ ⟨b, j⟩ ⟨event, unrequested, stepped, count⟩ ⟨accounted, within, before⟩
    have nearer := DynamoDBHelper.left_step within stepped unrequested
    simp only at count before nearer ⊢
    exact ⟨DynamoDBHelper.accounted_step accounted stepped,
      DynamoDBHelper.within_step within stepped, by omega⟩

/-- A call, the worker it starts and a lookup that answers: six steps, and rest. -/
theorem discovery_settles_orders :
    ∃ states s counted t,
      DynamoDBHelper.Run {} { partitionKeys := ⟨.empty⟩ } states s ∧ s.calls.length = 1 ∧
      Path (DynamoDBHelper.Counted {}) (s, 0) counted (t, 6) ∧
      6 ≤ lookupAttempts {} + 5 ∧ t.calls = [] ∧ t.running = [] ∧ t.discovery.inProgress = ∅ := by
  have run : DynamoDBHelper.Run {} { partitionKeys := ⟨.empty⟩ } _ _ :=
    .single ⟨_, .trigger (bytes "orders")⟩
  have further : Path (DynamoDBHelper.Counted {})
      ({ partitionKeys := ⟨.empty⟩, calls := [⟨bytes "orders", .checking⟩] }, 0) _ (_, 6) :=
    .step (b := (_, 1)) ⟨_, by simp, @DynamoDBHelper.Step.check _ _ [] [] _ rfl, rfl⟩ <|
    .step (b := (_, 2)) ⟨_, by simp, @DynamoDBHelper.Step.insert _ _ [] [] _ rfl, rfl⟩ <|
    .step (b := (_, 3)) ⟨_, by simp, @DynamoDBHelper.Step.spawn _ _ [] [] _ rfl, rfl⟩ <|
    .step (b := (_, 4))
      ⟨_, by simp, @DynamoDBHelper.Step.attempt _ _ [] [] _ 1 rfl (.ok (bytes "id")), rfl⟩ <|
    .step (b := (_, 5)) ⟨_, by simp, @DynamoDBHelper.Step.store _ _ [] [] _ _ rfl, rfl⟩ <|
    .single ⟨_, by simp, @DynamoDBHelper.Step.erase _ _ [] [] _ rfl, rfl⟩
  obtain ⟨bound, -⟩ := discovery_settles run further
  exact ⟨_, _, _, _, run, rfl, further, by simpa using bound, rfl, rfl, rfl⟩

/-- `WaitForPartitionKeyDiscovery` in the destructor, while no call is under way: the
workers go on, and the thread objects it took are joined in their order. -/
structure Teardown where
  helper : DynamoDBHelper
  joining : List Bytes

/-- The destructor has taken the thread objects out of the vector. -/
def DynamoDBHelper.destroy (s : DynamoDBHelper) : Teardown where
  helper := { s with discovery := { s.discovery with workers := [] } }
  joining := s.discovery.workers

namespace Teardown

/-- A worker starts when the one before it of its table has ended, so of the thread
objects of a table only the last can have a worker to wait for. -/
inductive Step (config : Config) (a : Teardown) : Teardown → Prop
  | work {event : DiscoveryEvent} {t : DynamoDBHelper} (own : event.own = true)
      (stepped : DynamoDBHelper.Step config a.helper event t) :
      Step config a { a with helper := t }
  | join {tableName : Bytes} {rest : List Bytes} (turn : a.joining = tableName :: rest)
      (ended : tableName ∈ rest ∨ a.helper.lookups tableName = 0) :
      Step config a { a with joining := rest }

def Counted (config : Config) (before after : Teardown × Nat) : Prop :=
  Step config before.1 after.1 ∧ after.2 = before.2 + 1

/-- The workers that still run are those of thread objects to be joined. -/
structure Joinable (config : Config) (a : Teardown) : Prop where
  uncalled : a.helper.calls = []
  accounted : a.helper.Accounted
  within : a.helper.Within (lookupAttempts config)
  joined : ∀ worker ∈ a.helper.running, worker.tableName ∈ a.joining

variable {config : Config} {a b : Teardown} {s t : DynamoDBHelper} {event : DiscoveryEvent}

/-- Without a call, a step leaves workers of tables that had one. -/
theorem workers_left (uncalled : s.calls = []) (own : event.own = true)
    (stepped : DynamoDBHelper.Step config s event t) :
    t.calls = [] ∧ (∀ tableName, event ≠ .trigger tableName) ∧
      ∀ worker ∈ t.running, ∃ earlier ∈ s.running, earlier.tableName = worker.tableName := by
  cases stepped with
  | check turn | insert turn | spawn turn | spawnFailed turn | undo turn =>
    simp [uncalled] at turn
  | @attempt before after table attempt turn result =>
    refine ⟨uncalled, by simp, ?_⟩
    rw [turn]
    exact DynamoDBHelper.forall_turn.mpr ⟨⟨_, List.mem_append_right _ List.mem_cons_self, rfl⟩,
      fun worker member => ⟨worker, by simp at member ⊢; tauto, rfl⟩⟩
  | store turn =>
    refine ⟨uncalled, by simp, ?_⟩
    rw [turn]
    exact DynamoDBHelper.forall_turn.mpr ⟨⟨_, List.mem_append_right _ List.mem_cons_self, rfl⟩,
      fun worker member => ⟨worker, by simp at member ⊢; tauto, rfl⟩⟩
  | erase turn =>
    refine ⟨uncalled, by simp, ?_⟩
    rw [turn]
    exact fun worker member => ⟨worker, by simp at member ⊢; tauto, rfl⟩
  | trigger | setPartitionKeyName | wait => contradiction

/-- The worker's steps and the joins that are left. -/
def left (config : Config) (a : Teardown) : Nat :=
  a.joining.length + a.helper.left (lookupAttempts config)

theorem joinable_step (joinable : a.Joinable config) (stepped : Step config a b) :
    b.Joinable config ∧ b.left config + 1 ≤ a.left config := by
  obtain ⟨uncalled, accounted, within, joined⟩ := joinable
  cases stepped with
  | work own stepped =>
    obtain ⟨uncalled', unrequested, earlier⟩ := workers_left uncalled own stepped
    have nearer := DynamoDBHelper.left_step within stepped unrequested
    refine ⟨⟨uncalled', DynamoDBHelper.accounted_step accounted stepped,
      DynamoDBHelper.within_step within stepped, fun worker member => ?_⟩, ?_⟩
    · obtain ⟨before, ran, same⟩ := earlier worker member
      exact same ▸ joined before ran
    · rw [own, if_pos rfl] at nearer
      simp only [left]
      omega
  | @join table rest turn ended =>
    refine ⟨⟨uncalled, accounted, within, fun worker member => ?_⟩, ?_⟩
    · have named := joined worker member
      rw [turn] at named
      rcases List.mem_cons.mp named with same | later
      · rcases ended with again | none
        · exact same ▸ again
        · have running : 0 < a.helper.lookups table :=
            List.countP_pos_iff.mpr ⟨worker, member, by simp [same]⟩
          omega
      · exact later
    · simp only [left, turn, List.length_cons]
      omega

/-- As long as a thread is to be joined, a worker goes on or a thread can be joined. -/
theorem goesOn (config : Config) (a : Teardown) : a.joining = [] ∨ ∃ b, Step config a b := by
  cases turn : a.joining with
  | nil => exact .inl rfl
  | cons table rest =>
    right
    cases ran : a.helper.running with
    | cons worker running =>
      obtain ⟨event, t, own, stepped⟩ :=
        @DynamoDBHelper.own_step_of_worker config _ _ (ran ▸ List.mem_cons_self)
      exact ⟨_, .work own stepped⟩
    | nil => exact ⟨_, .join turn (.inr (by simp [DynamoDBHelper.lookups, ran]))⟩

end Teardown

/-- A worker's thread object is in the vector until the destructor takes it. -/
theorem DynamoDBHelper.kept_step {config : Config} {s t : DynamoDBHelper} {event : DiscoveryEvent}
    (kept : ∀ worker ∈ s.running, worker.tableName ∈ s.discovery.workers) (untaken : event ≠ .wait)
    (stepped : DynamoDBHelper.Step config s event t) :
    ∀ worker ∈ t.running, worker.tableName ∈ t.discovery.workers := by
  cases stepped with
  | insert turn =>
    split
    · exact kept
    · exact kept
  | spawn turn =>
    intro worker member
    rcases List.mem_append.mp member with earlier | new
    · exact List.mem_append_left _ (kept worker earlier)
    · rw [List.mem_singleton.mp new]
      exact List.mem_append_right _ (List.mem_singleton.mpr rfl)
  | attempt turn result =>
    rw [turn, forall_turn] at kept
    exact forall_turn.mpr kept
  | store turn =>
    rw [turn, forall_turn] at kept
    exact forall_turn.mpr kept
  | erase turn =>
    rw [turn, forall_turn] at kept
    exact kept.2
  | wait => contradiction
  | _ => exact kept

/-- Whatever calls and workers did before, the destructor comes to its end, in a bounded
number of steps of the workers and of joins, and when it does no worker that could use
the helper runs. -/
theorem destructor_outlives_workers {config : Config} {partitionKeys : PartitionKeyMetadata}
    {states : List DynamoDBHelper} {s : DynamoDBHelper} {counted : List (Teardown × Nat)}
    {t : Teardown} {n : Nat}
    (run : Path (fun s t => ∃ event, event ≠ .wait ∧ DynamoDBHelper.Step config s event t)
      { partitionKeys := partitionKeys } states s)
    (uncalled : s.calls = []) (torn : Path (Teardown.Counted config) (s.destroy, 0) counted (t, n)) :
    n ≤ s.discovery.workers.length + s.running.length * (lookupAttempts config + 2) ∧
      (t.joining = [] → t.helper.running = [] ∧ t.helper.discovery.inProgress = ∅) ∧
      (t.joining = [] ∨ ∃ u, Teardown.Step config t u) := by
  obtain ⟨accounted, within, kept⟩ := (Path.invariant (P := fun s : DynamoDBHelper =>
    s.Accounted ∧ s.Within (lookupAttempts config) ∧
      ∀ worker ∈ s.running, worker.tableName ∈ s.discovery.workers)
    (fun ⟨_, untaken, stepped⟩ ⟨accounted, within, kept⟩ =>
      ⟨DynamoDBHelper.accounted_step accounted stepped, DynamoDBHelper.within_step within stepped,
        DynamoDBHelper.kept_step kept untaken stepped⟩)
    run ⟨fun _ => rfl, fun _ never => absurd never List.not_mem_nil,
      fun _ never => absurd never List.not_mem_nil⟩).1
  have bound := DynamoDBHelper.left_le within
  have start : s.destroy.left config =
      s.discovery.workers.length + s.left (lookupAttempts config) := rfl
  have along := (Path.invariant (P := fun after : Teardown × Nat =>
    after.1.Joinable config ∧ after.1.left config + after.2 ≤ s.destroy.left config) ?_ torn
    ⟨⟨uncalled, accounted, within, kept⟩, le_rfl⟩).1
  · obtain ⟨joinable, count⟩ := along
    refine ⟨?_, fun joined => ?_, Teardown.goesOn config t⟩
    · rw [uncalled, List.length_nil, Nat.zero_mul] at bound
      omega
    · have ran : t.helper.running = [] := by
        apply List.eq_nil_iff_forall_not_mem.mpr
        intro worker member
        have named := joinable.joined worker member
        simp [joined] at named
      exact ⟨ran, DynamoDBHelper.registered_none joinable.accounted joinable.uncalled ran⟩
  · rintro ⟨a, i⟩ ⟨b, j⟩ ⟨stepped, count⟩ ⟨joinable, before⟩
    obtain ⟨joinable', nearer⟩ := Teardown.joinable_step joinable stepped
    simp only at count before nearer ⊢
    exact ⟨joinable', by omega⟩

/-- The lookup of a worker throws while the destructor waits for it: the worker
erases its table and ends, and the destructor joins it. -/
theorem destructor_outlives_orders :
    ∃ states s counted t,
      Path (fun s t => ∃ event, event ≠ .wait ∧ DynamoDBHelper.Step {} s event t)
        { partitionKeys := ⟨.empty⟩ } states s ∧
      s.calls = [] ∧ s.running.length = 1 ∧ s.discovery.workers = [bytes "orders"] ∧
      Path (Teardown.Counted {}) (s.destroy, 0) counted (t, 3) ∧
      t.helper.running = [] ∧ t.helper.discovery.inProgress = ∅ := by
  have run : Path (fun s t => ∃ event, event ≠ .wait ∧ DynamoDBHelper.Step {} s event t)
      { partitionKeys := ⟨.empty⟩ } _
      { partitionKeys := ⟨.empty⟩, running := [⟨bytes "orders", .attempting 1⟩],
        discovery := ⟨{bytes "orders"}, [bytes "orders"]⟩ } :=
    .step ⟨_, by simp, .trigger (bytes "orders")⟩ <|
    .step ⟨_, by simp, @DynamoDBHelper.Step.check _ _ [] [] _ rfl⟩ <|
    .step ⟨_, by simp, @DynamoDBHelper.Step.insert _ _ [] [] _ rfl⟩ <|
    .single ⟨_, by simp, @DynamoDBHelper.Step.spawn _ _ [] [] _ rfl⟩
  have torn : Path (Teardown.Counted {}) (DynamoDBHelper.destroy
      { partitionKeys := ⟨.empty⟩, running := [⟨bytes "orders", .attempting 1⟩],
        discovery := ⟨{bytes "orders"}, [bytes "orders"]⟩ }, 0) _ (_, 3) :=
    .step (b := (_, 1)) ⟨.work rfl
      (@DynamoDBHelper.Step.attempt _ _ [] [] _ 1 rfl (.error ())), rfl⟩ <|
    .step (b := (_, 2)) ⟨.work rfl (@DynamoDBHelper.Step.erase _ _ [] [] _ rfl), rfl⟩ <|
    .single ⟨.join rfl (.inr rfl), rfl⟩
  obtain ⟨-, ended, -⟩ := destructor_outlives_workers run rfl torn
  obtain ⟨none, free⟩ := ended rfl
  exact ⟨_, _, _, _, run, rfl, rfl, rfl, torn, none, free⟩

end Aws
end AlternatorClient
