import AlternatorClient.LiveNodes.Discovery
import AlternatorClient.KeyRouteAffinity.Voting

/-! The plans `DynamoDBHelper` makes for writes, and what a rejected batch leaves
behind. `QueryPlanForBatchWrite` asks its source for nodes before it notices
that no operation has a usable key; the default plan then asks again. -/
namespace AlternatorClient
open Foundation

/-- `QueryPlan::FromNodesSource`; the clock supplies the seed. -/
def QueryPlan.fromNodesSource {σ : Type} (source : NodesSource σ) (seedFromClock : Int64) (s : σ) :
    Except Error QueryPlan × σ :=
  match source.getQueryPlanNodes s with
  | (.error error, s) => (.error error, s)
  | (.ok nodes, s) => (.ok (QueryPlan.ofClock nodes seedFromClock), s)

namespace Aws

/-- The `catch (const std::invalid_argument&)` of both planners. -/
def orDefaultQueryPlan {σ : Type} (nodes : NodesSource σ) (seedFromClock : Int64) :
    Except Error QueryPlan × σ → Except Error QueryPlan × σ
  | (.error (.invalidArgument _), s) => QueryPlan.fromNodesSource nodes seedFromClock s
  | result => result

/-- `NewPartitionKeyQueryPlan`; the discovery it may trigger runs elsewhere. -/
def newPartitionKeyQueryPlan {σ : Type} (nodes : NodesSource σ) (partitionKeys : PartitionKeyMetadata)
    (seedFromClock : Int64) (values : AttributeMap) (tableName : Bytes) (s : σ) :
    Except Error QueryPlan × σ :=
  if (partitionKeys.getPartitionKeyName tableName).isEmpty then
    QueryPlan.fromNodesSource nodes seedFromClock s
  else
    orDefaultQueryPlan nodes seedFromClock
      (queryPlanForPartitionKey nodes s values tableName partitionKeys)

def newBatchWriteQueryPlan {σ : Type} (nodes : NodesSource σ) (partitionKeys : PartitionKeyMetadata)
    (seedFromClock : Int64) (operations : List BatchWriteOperation) (s : σ) :
    Except Error QueryPlan × σ :=
  orDefaultQueryPlan nodes seedFromClock (queryPlanForBatchWrite nodes s operations partitionKeys)

end Aws

/-- No operation has a known key name and a value for it. -/
def Unusable (metadata : PartitionKeyMetadata) (operations : List BatchWriteOperation) : Prop :=
  ∀ operation ∈ operations,
    partitionKeyValue operation.values operation.tableName metadata = none

theorem Unusable.hashes {metadata : PartitionKeyMetadata} {operations : List BatchWriteOperation}
    (unusable : Unusable metadata operations) : batchWriteHashes metadata operations = [] := by
  rw [batchWriteHashes_eq, List.filterMap_eq_nil_iff]
  intro operation member
  rw [unusable operation member, Option.map_none]

/-- Without a hash nothing is voted for, whatever the candidates. -/
theorem select_rejected {metadata : PartitionKeyMetadata} {operations : List BatchWriteOperation}
    (unusable : Unusable metadata operations) (candidates : List Url) :
    ∃ what, selectBatchWritePreferredNodesForCandidates candidates operations metadata =
      .error (.invalidArgument what) := by
  cases candidates with
  | nil => exact ⟨_, rfl⟩
  | cons node rest => exact ⟨_, select_unusable (List.cons_ne_nil node rest) unusable.hashes⟩

theorem batchWritePlan_unusable {metadata : PartitionKeyMetadata}
    {operations : List BatchWriteOperation} (unusable : Unusable metadata operations)
    (active offered : List Url) :
    ∃ what, batchWritePlan active offered operations metadata = .error (.invalidArgument what) := by
  simp only [batchWritePlan]
  split
  · obtain ⟨what, selected⟩ := select_rejected unusable offered
    exact ⟨what, by rw [selected]⟩
  · obtain ⟨what, selected⟩ := select_rejected unusable (sortAndDedupeNodes active)
    exact ⟨what, by rw [selected]⟩

namespace LiveNodes
variable {config : Config} {s : LiveNodes} {metadata : PartitionKeyMetadata}
  {operations : List BatchWriteOperation}

/-- A plan without a quarantined node to sample changes nothing. -/
theorem getQueryPlanNodes_idle (none : s.getQuarantinedNodes = []) :
    (s.getQueryPlanNodes config).2 = s := by
  simp [getQueryPlanNodes, shouldTryQuarantinedNode, none]

theorem uint64_succ_ne (n : UInt64) : n + 1 ≠ n := by
  intro same
  have wrapped := congrArg UInt64.toNat same
  have range := n.toNat_lt
  rw [UInt64.toNat_add, UInt64.toNat_one] at wrapped
  omega

/-- With one, a plan moves one of the two sampling counters. -/
theorem getQueryPlanNodes_moves (some : s.getQuarantinedNodes ≠ []) :
    (s.getQueryPlanNodes config).2 ≠ s := by
  have quarantined : s.getQuarantinedNodes.isEmpty = false := List.isEmpty_eq_false_iff.mpr some
  cases active : s.getActiveNodes.isEmpty with
  | true =>
    have moved : (s.getQueryPlanNodes config).2.quarantineNodeIndex = s.quarantineNodeIndex + 1 := by
      simp [getQueryPlanNodes, shouldTryQuarantinedNode, nextQuarantinedNode, quarantined, active]
    intro same
    rw [same] at moved
    exact uint64_succ_ne _ moved.symm
  | false =>
    have moved : (s.getQueryPlanNodes config).2.quarantinePlanIndex = s.quarantinePlanIndex + 1 := by
      have counted : (s.shouldTryQuarantinedNode config false).2 =
          { s with quarantinePlanIndex := s.quarantinePlanIndex + 1 } := by
        simp [shouldTryQuarantinedNode, quarantined]
      obtain ⟨node, taken⟩ := (s.shouldTryQuarantinedNode config false).2.nextQuarantinedNode_eq
      simp only [getQueryPlanNodes, active]
      split
      · rw [taken, counted]
      · rw [counted]
    intro same
    rw [same] at moved
    exact uint64_succ_ne _ moved.symm

/-- A batch without a usable key is rejected once the source has been asked. -/
theorem queryPlanForBatchWrite_unusable (unusable : Unusable metadata operations) :
    (∃ what, (queryPlanForBatchWrite (source config) s operations metadata).1 =
      .error (.invalidArgument what)) ∧
      (queryPlanForBatchWrite (source config) s operations metadata).2 =
        (s.getQueryPlanNodes config).2 := by
  have asked : queryPlanNodesForHashes (source config) (batchWriteHashes metadata operations) s =
      (.ok (s.getQueryPlanNodes config).1, (s.getQueryPlanNodes config).2) := by
    rw [unusable.hashes]
    rfl
  simp only [queryPlanForBatchWrite, asked, and_true]
  exact batchWritePlan_unusable unusable _ _

theorem newBatchWriteQueryPlan_unusable (unusable : Unusable metadata operations) (seed : Int64) :
    (Aws.newBatchWriteQueryPlan (source config) metadata seed operations s).2 =
      ((s.getQueryPlanNodes config).2.getQueryPlanNodes config).2 := by
  obtain ⟨⟨what, rejected⟩, left⟩ := @queryPlanForBatchWrite_unusable config s _ _ unusable
  have result : queryPlanForBatchWrite (source config) s operations metadata =
      (.error (.invalidArgument what), (s.getQueryPlanNodes config).2) := Prod.ext rejected left
  rw [Aws.newBatchWriteQueryPlan, result]
  rfl

/-- The batch is rejected, the state is as it was, and the plan that replaces
it samples the quarantine once. -/
structure RejectedCleanly (config : Config) (metadata : PartitionKeyMetadata)
    (operations : List BatchWriteOperation) (seed : Int64) (s : LiveNodes) : Prop where
  rejected : ∃ what, (queryPlanForBatchWrite (source config) s operations metadata).1 =
    .error (.invalidArgument what)
  untouched : (queryPlanForBatchWrite (source config) s operations metadata).2 = s
  sampledOnce : (Aws.newBatchWriteQueryPlan (source config) metadata seed operations s).2 =
    (s.getQueryPlanNodes config).2

/-- A batch without a usable key leaves no trace exactly while nothing is
quarantined; else it has sampled the quarantine before it is rejected. -/
theorem rejectedCleanly_iff (unusable : Unusable metadata operations) (seed : Int64) :
    RejectedCleanly config metadata operations seed s ↔ s.getQuarantinedNodes = [] := by
  obtain ⟨rejected, left⟩ := @queryPlanForBatchWrite_unusable config s _ _ unusable
  have replaced := @newBatchWriteQueryPlan_unusable config s _ _ unusable seed
  constructor
  · intro clean
    by_contra some
    have untouched := clean.untouched
    rw [left] at untouched
    exact getQueryPlanNodes_moves some untouched
  · intro none
    have idle := @getQueryPlanNodes_idle config s none
    refine ⟨rejected, ?_, ?_⟩
    · rw [left, idle]
    · rw [replaced, idle, idle]

def keylessBatch : List BatchWriteOperation := [.put (bytes "orders") .empty]

theorem keylessBatch_unusable : Unusable ⟨.empty⟩ keylessBatch := by
  intro operation member
  obtain rfl := List.mem_singleton.mp member
  rfl

/-- With both nodes active there is nothing to sample, and the rejected batch leaves
no trace. -/
theorem rejectedCleanly_fresh :
    LiveNodes.new [bytes "a", bytes "b"] {} 0 = .ok Session.couple.nodes ∧
      RejectedCleanly {} ⟨.empty⟩ keylessBatch 0 Session.couple.nodes :=
  ⟨rfl, (rejectedCleanly_iff keylessBatch_unusable 0).mpr (by decide +kernel)⟩

def oneQuarantined : LiveNodes :=
  (Session.couple.nodes.observe (({} : Config).nodeUrl (bytes "b")) .connectionFailure).observe
    (({} : Config).nodeUrl (bytes "b")) .success

/-- A batch without a usable key while a node is quarantined: the rejected batch
counts as one plan and the default plan that replaces it as another. -/
theorem rejected_batch_counts_twice :
    LiveNodes.new [bytes "a", bytes "b"] {} 0 = .ok Session.couple.nodes ∧
      oneQuarantined.quarantinePlanIndex = 0 ∧
      (queryPlanForBatchWrite (source {}) oneQuarantined keylessBatch
        ⟨.empty⟩).2.quarantinePlanIndex = 1 ∧
      (Aws.newBatchWriteQueryPlan (source {}) ⟨.empty⟩ 0 keylessBatch
        oneQuarantined).2.quarantinePlanIndex = 2 ∧
      ¬ RejectedCleanly {} ⟨.empty⟩ keylessBatch 0 oneQuarantined := by
  have before : oneQuarantined.quarantinePlanIndex = 0 := by decide +kernel
  have after : (queryPlanForBatchWrite (source {}) oneQuarantined keylessBatch
      ⟨.empty⟩).2.quarantinePlanIndex = 1 := by decide +kernel
  refine ⟨rfl, before, after, by decide +kernel, ?_⟩
  intro clean
  rw [clean.untouched, before] at after
  contradiction

end LiveNodes
end AlternatorClient
