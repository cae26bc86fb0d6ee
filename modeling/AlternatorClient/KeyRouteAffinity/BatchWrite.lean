import AlternatorClient.KeyRouteAffinity.Canonical
import AlternatorClient.Foundation.Tally

/-! Key-route affinity for batch writes. Every operation whose partition key is
known votes for the affinity node of its hash; the voted nodes go first. -/
namespace AlternatorClient
open Foundation

structure BatchWriteOperation where
  tableName : Bytes
  values : AttributeMap

namespace BatchWriteOperation

def put (tableName : Bytes) (item : AttributeMap) : BatchWriteOperation := ⟨tableName, item⟩

def delete (tableName : Bytes) (key : AttributeMap) : BatchWriteOperation := ⟨tableName, key⟩

end BatchWriteOperation

def batchWriteHashes (metadata : PartitionKeyMetadata) : List BatchWriteOperation → List Int64
  | [] => []
  | operation :: rest =>
    let keyName := metadata.getPartitionKeyName operation.tableName
    if keyName.isEmpty then batchWriteHashes metadata rest
    else
      match operation.values.lookup keyName with
      | none => batchWriteHashes metadata rest
      | some (_, value) => value.hash :: batchWriteHashes metadata rest

/-- The loop of `QueryPlanNodesForHashes`. Every hash asks the source in the state
that the ones before it have left. -/
def appendNodesForHashes {σ : Type} (nodes : NodesSource σ) :
    List Int64 → List Url → σ → Except Error (List Url) × σ
  | [], out, s => (.ok out, s)
  | hash :: rest, out, s =>
    match nodes.getQueryPlanNodesForHash hash s with
    | (.error error, s) => (.error error, s)
    | (.ok offered, s) => appendNodesForHashes nodes rest (appendMissingNodes out offered) s

def queryPlanNodesForHashes {σ : Type} (nodes : NodesSource σ) (hashes : List Int64) (s : σ) :
    Except Error (List Url) × σ :=
  match appendNodesForHashes nodes hashes [] s with
  | (.error error, s) => (.error error, s)
  | (.ok out, s) => if out.isEmpty then nodes.getQueryPlanNodes s else (.ok out, s)

def affinityNodes {σ : Type} (nodes : NodesSource σ) (s : σ) : Except Error (List Url) × σ :=
  let activeNodes := nodes.getActiveNodes s
  if !activeNodes.isEmpty then (.ok (sortAndDedupeNodes activeNodes), s)
  else nodes.getQueryPlanNodes s

/-- The loop over the operations. A vote for the empty node is not counted. -/
def countVotes (candidateNodes : List Url) (metadata : PartitionKeyMetadata) :
    List BatchWriteOperation → OrderedMap Url.toString Int32 →
    Except Error (OrderedMap Url.toString Int32)
  | [], votes => .ok votes
  | operation :: rest, votes =>
    let keyName := metadata.getPartitionKeyName operation.tableName
    if keyName.isEmpty then countVotes candidateNodes metadata rest votes
    else
      match operation.values.lookup keyName with
      | none => countVotes candidateNodes metadata rest votes
      | some (_, value) =>
        match firstNodeWithSeed candidateNodes value.hash with
        | .error error => .error error
        | .ok node =>
          countVotes candidateNodes metadata rest (if !node.empty then vote votes node else votes)

def selectBatchWritePreferredNodesForCandidates (candidateNodes : List Url)
    (operations : List BatchWriteOperation) (metadata : PartitionKeyMetadata) :
    Except Error (List Url) :=
  if candidateNodes.isEmpty then
    .error (.invalidArgument (bytes "batch write request does not have candidate nodes"))
  else
    match countVotes candidateNodes metadata operations .empty with
    | .error error => .error error
    | .ok votes =>
      if votes.entries.isEmpty then
        .error (.invalidArgument (bytes "batch write request does not have usable preferred nodes"))
      else
        let preferredNodes := (votes.entries.filter fun entry => 0 < entry.2).map Prod.fst
        .ok (sortOn (voteKey (votesOf votes) Url.toString) preferredNodes)

def selectBatchWritePreferredNodes {σ : Type} (nodes : NodesSource σ) (s : σ)
    (operations : List BatchWriteOperation) (metadata : PartitionKeyMetadata) :
    Except Error (List Url) × σ :=
  match affinityNodes nodes s with
  | (.error error, s) => (.error error, s)
  | (.ok candidateNodes, s) =>
    (selectBatchWritePreferredNodesForCandidates candidateNodes operations metadata, s)

/-- `QueryPlanForBatchWrite` once the source has been asked. -/
def batchWritePlan (activeNodes queryPlanNodes : List Url) (operations : List BatchWriteOperation)
    (metadata : PartitionKeyMetadata) : Except Error QueryPlan :=
  if activeNodes.isEmpty then
    match selectBatchWritePreferredNodesForCandidates queryPlanNodes operations metadata with
    | .error error => .error error
    | .ok preferredNodes => .ok (QueryPlan.withPreferredNodes queryPlanNodes preferredNodes)
  else
    let activeNodes := sortAndDedupeNodes activeNodes
    let orderedNodes := nodesMissingFrom queryPlanNodes activeNodes
    match selectBatchWritePreferredNodesForCandidates activeNodes operations metadata with
    | .error error => .error error
    | .ok preferredNodes =>
      let orderedNodes := appendMissingNodes orderedNodes preferredNodes
      .ok (QueryPlan.fromOrderedNodes (appendMissingNodes orderedNodes activeNodes))

def queryPlanForBatchWrite {σ : Type} (nodes : NodesSource σ) (s : σ)
    (operations : List BatchWriteOperation) (metadata : PartitionKeyMetadata) :
    Except Error QueryPlan × σ :=
  let activeNodes := nodes.getActiveNodes s
  match queryPlanNodesForHashes nodes (batchWriteHashes metadata operations) s with
  | (.error error, s) => (.error error, s)
  | (.ok queryPlanNodes, s) => (batchWritePlan activeNodes queryPlanNodes operations metadata, s)

/-- The operations with a known key, by the hash of its value. Both loops of
the source skip the others. -/
theorem batchWriteHashes_eq (metadata : PartitionKeyMetadata)
    (operations : List BatchWriteOperation) :
    batchWriteHashes metadata operations =
      operations.filterMap fun operation =>
        (partitionKeyValue operation.values operation.tableName metadata).map
          AttributeValue.hash := by
  induction operations with
  | nil => rfl
  | cons operation rest ih =>
    simp only [batchWriteHashes, List.filterMap_cons, partitionKeyValue, ih]
    split
    · rfl
    · cases operation.values.lookup (metadata.getPartitionKeyName operation.tableName) with
      | none => rfl
      | some entry => rfl

/-- One vote for each hash, cast for its affinity node; a hash whose draw finds no
node has none. -/
def countHashes (candidateNodes : List Url) : List Int64 → OrderedMap Url.toString Int32 →
    Except Error (OrderedMap Url.toString Int32)
  | [], votes => .ok votes
  | hash :: rest, votes =>
    match firstNodeWithSeed candidateNodes hash with
    | .error error => .error error
    | .ok node => countHashes candidateNodes rest (if !node.empty then vote votes node else votes)

theorem countVotes_eq (candidateNodes : List Url) (metadata : PartitionKeyMetadata)
    (operations : List BatchWriteOperation) (votes : OrderedMap Url.toString Int32) :
    countVotes candidateNodes metadata operations votes =
      countHashes candidateNodes (batchWriteHashes metadata operations) votes := by
  induction operations generalizing votes with
  | nil => rfl
  | cons operation rest ih =>
    simp only [countVotes, batchWriteHashes]
    split
    · exact ih votes
    · cases operation.values.lookup (metadata.getPartitionKeyName operation.tableName) with
      | none => exact ih votes
      | some entry =>
        simp only [countHashes]
        cases firstNodeWithSeed candidateNodes entry.2.hash with
        | error error => rfl
        | ok node => exact ih _

end AlternatorClient
