import AlternatorClient.Aws.QueryPlans
import AlternatorClient.KeyRouteAffinity.WriteOptions

/-! The typed writes of `DynamoDBHelper`: how the key of a request of the SDK
becomes the key that is hashed. Strings and numbers pass through `c_str()` on
the way and end at their first zero byte; byte buffers are copied by length. -/
namespace AlternatorClient.Aws
open Foundation

namespace Model

/-- `Aws::DynamoDB::Model::AttributeValue`, by `GetType` and what the getter of
that type returns. `other` stands for the seven types that cannot be a key. -/
inductive AttributeValue where
  | string (value : Bytes)
  | number (value : Bytes)
  | byteBuffer (value : Bytes)
  | other
  deriving DecidableEq, Repr

abbrev AttributeMap := OrderedMap (fun name : Bytes => name) AttributeValue

/-- What the plans read of `PutItemRequest`, `UpdateItemRequest` and
`DeleteItemRequest`; `values` is `GetItem` of a put and `GetKey` of the others. -/
structure WriteItemRequest where
  tableName : Bytes
  values : AttributeMap
  updateExpression : Bytes := []
  conditionExpression : Bytes := []
  expected : List Bytes := []
  returnValues : ReturnValues := .notSet
  attributeUpdates : List AttributeUpdate := []

/-- `WriteRequest`, with the values of the parts that have been set. -/
structure WriteRequest where
  putRequest : Option AttributeMap := none
  deleteRequest : Option AttributeMap := none

abbrev BatchWriteItemRequest := OrderedMap (fun table : Bytes => table) (List WriteRequest)

end Model

def toAttributeValue : Model.AttributeValue → Except Error AttributeValue
  | .string value => .ok (.ofString (cStr value))
  | .number value => .ok (.ofNumber (cStr value))
  | .byteBuffer value => .ok (.ofBinary value)
  | .other =>
    .error (.invalidArgument (bytes "unsupported DynamoDB partition-key attribute type"))

def keyOnly (keyName : Bytes) (key : AttributeValue) : AttributeMap := .assign .empty keyName key

def partitionKeyOnlyAttributeMap (values : Model.AttributeMap) (keyName : Bytes) :
    Except Error AttributeMap :=
  match values.lookup (cStr keyName) with
  | none => .ok .empty
  | some (_, value) => (toAttributeValue value).map (keyOnly keyName)

def putItemOptions (request : Model.WriteItemRequest) : WriteOperationOptions :=
  { hasConditionExpression := !request.conditionExpression.isEmpty
    hasExpected := !request.expected.isEmpty
    returnValues := request.returnValues }

def deleteItemOptions (request : Model.WriteItemRequest) : WriteOperationOptions :=
  putItemOptions request

def updateItemOptions (request : Model.WriteItemRequest) : WriteOperationOptions :=
  { hasUpdateExpression := !request.updateExpression.isEmpty
    hasConditionExpression := !request.conditionExpression.isEmpty
    hasExpected := !request.expected.isEmpty
    returnValues := request.returnValues
    attributeUpdates := request.attributeUpdates }

section
variable {σ : Type} (nodes : NodesSource σ) (mode : KeyRouteAffinityMode)
  (partitionKeys : PartitionKeyMetadata) (seedFromClock : Int64)

def partitionKeyQueryPlanFor (values : Model.AttributeMap) (tableName : Bytes) (s : σ) :
    Except Error QueryPlan × σ :=
  let table := cStr tableName
  let keyName := partitionKeys.getPartitionKeyName table
  let unkeyed := newPartitionKeyQueryPlan nodes partitionKeys seedFromClock .empty table
  if keyName.isEmpty then unkeyed s
  else
    match partitionKeyOnlyAttributeMap values keyName with
    | .error (.invalidArgument _) => unkeyed s
    | .error error => (.error error, s)
    | .ok key =>
      match newPartitionKeyQueryPlan nodes partitionKeys seedFromClock key table s with
      | (.error (.invalidArgument _), s) => unkeyed s
      | result => result

/-- A write whose options ask for affinity is planned by its key. -/
def writeItemQueryPlanFor (kind : WriteOperationKind) (options : WriteOperationOptions)
    (request : Model.WriteItemRequest) (s : σ) : Except Error QueryPlan × σ :=
  if !shouldUseKeyRouteAffinity mode kind options then
    QueryPlan.fromNodesSource nodes seedFromClock s
  else
    partitionKeyQueryPlanFor nodes partitionKeys seedFromClock request.values request.tableName s

def putItemQueryPlanFor (request : Model.WriteItemRequest) (s : σ) : Except Error QueryPlan × σ :=
  writeItemQueryPlanFor nodes mode partitionKeys seedFromClock .putItem (putItemOptions request)
    request s

def updateItemQueryPlanFor (request : Model.WriteItemRequest) (s : σ) :
    Except Error QueryPlan × σ :=
  writeItemQueryPlanFor nodes mode partitionKeys seedFromClock .updateItem
    (updateItemOptions request) request s

def deleteItemQueryPlanFor (request : Model.WriteItemRequest) (s : σ) :
    Except Error QueryPlan × σ :=
  writeItemQueryPlanFor nodes mode partitionKeys seedFromClock .deleteItem
    (deleteItemOptions request) request s

/-- The plan of a single write of each kind. -/
def itemQueryPlanFor (request : Model.WriteItemRequest) (s : σ) :
    WriteOperationKind → Except Error QueryPlan × σ
  | .putItem => putItemQueryPlanFor nodes mode partitionKeys seedFromClock request s
  | .updateItem => updateItemQueryPlanFor nodes mode partitionKeys seedFromClock request s
  | .deleteItem => deleteItemQueryPlanFor nodes mode partitionKeys seedFromClock request s

end

def itemOptions (request : Model.WriteItemRequest) : WriteOperationKind → WriteOperationOptions
  | .putItem => putItemOptions request
  | .updateItem => updateItemOptions request
  | .deleteItem => deleteItemOptions request

section
variable {σ : Type} (nodes : NodesSource σ) {mode : KeyRouteAffinityMode}
  (partitionKeys : PartitionKeyMetadata) (seedFromClock : Int64)
  {request : Model.WriteItemRequest} {kind : WriteOperationKind}

theorem writeItemQueryPlanFor_affine {options : WriteOperationOptions}
    (affine : shouldUseKeyRouteAffinity mode kind options = true) (s : σ) :
    writeItemQueryPlanFor nodes mode partitionKeys seedFromClock kind options request s =
      partitionKeyQueryPlanFor nodes partitionKeys seedFromClock request.values request.tableName
        s := by
  rw [writeItemQueryPlanFor, affine]
  rfl

theorem itemQueryPlanFor_affine
    (affine : shouldUseKeyRouteAffinity mode kind (itemOptions request kind) = true) (s : σ) :
    itemQueryPlanFor nodes mode partitionKeys seedFromClock request s kind =
      partitionKeyQueryPlanFor nodes partitionKeys seedFromClock request.values request.tableName
        s := by
  cases kind with
  | putItem => exact writeItemQueryPlanFor_affine nodes partitionKeys seedFromClock affine s
  | updateItem => exact writeItemQueryPlanFor_affine nodes partitionKeys seedFromClock affine s
  | deleteItem => exact writeItemQueryPlanFor_affine nodes partitionKeys seedFromClock affine s

end

/-- `AddBatchWriteOperation`: nothing is added for a key that is missing or of
an unsupported type. -/
def batchWriteOperation (tableName keyName : Bytes) (values : Model.AttributeMap) :
    List BatchWriteOperation :=
  match partitionKeyOnlyAttributeMap values keyName with
  | .error _ => []
  | .ok key => if key.entries.isEmpty then [] else [.put tableName key]

/-- A write that is both or neither of a put and a delete is passed over. -/
def batchWriteOperationOf (tableName keyName : Bytes) (write : Model.WriteRequest) :
    List BatchWriteOperation :=
  match write.putRequest, write.deleteRequest with
  | some item, none => batchWriteOperation tableName keyName item
  | none, some key => batchWriteOperation tableName keyName key
  | _, _ => []

/-- The iteration of `BatchWriteOperationsFor` for one table. Where the key of the
table is not known a single write without values stands for all of its writes, which
makes the batch fall back. -/
def tableOperations (partitionKeys : PartitionKeyMetadata) (table : Bytes)
    (writes : List Model.WriteRequest) : List BatchWriteOperation :=
  let tableName := cStr table
  let keyName := partitionKeys.getPartitionKeyName tableName
  if keyName.isEmpty then if writes.isEmpty then [] else [.put tableName .empty]
  else writes.flatMap (batchWriteOperationOf tableName keyName)

def batchWriteOperationsFor (partitionKeys : PartitionKeyMetadata)
    (request : Model.BatchWriteItemRequest) : List BatchWriteOperation :=
  request.entries.flatMap fun entry => tableOperations partitionKeys entry.1 entry.2

def batchWriteItemQueryPlanFor {σ : Type} (nodes : NodesSource σ) (mode : KeyRouteAffinityMode)
    (partitionKeys : PartitionKeyMetadata) (seedFromClock : Int64)
    (request : Model.BatchWriteItemRequest) (s : σ) : Except Error QueryPlan × σ :=
  if !shouldUseKeyRouteAffinity mode .putItem {} then
    QueryPlan.fromNodesSource nodes seedFromClock s
  else
    let operations := batchWriteOperationsFor partitionKeys request
    if operations.isEmpty then QueryPlan.fromNodesSource nodes seedFromClock s
    else newBatchWriteQueryPlan nodes partitionKeys seedFromClock operations s

/-- The key with all the bytes the SDK sends for it. -/
def Model.AttributeValue.sent : Model.AttributeValue → Option AlternatorClient.AttributeValue
  | .string value => some (.ofString value)
  | .number value => some (.ofNumber value)
  | .byteBuffer value => some (.ofBinary value)
  | .other => none

/-- A text without a zero byte, or a byte buffer. -/
def Model.AttributeValue.ZeroFree : Model.AttributeValue → Prop
  | .string value => 0 ∉ value
  | .number value => 0 ∉ value
  | .byteBuffer _ => True
  | .other => True

/-- The partition key of the table is known and the values hold it. -/
structure HoldsKey (partitionKeys : PartitionKeyMetadata) (tableName : Bytes)
    (values : Model.AttributeMap) (value : Model.AttributeValue) : Prop where
  named : partitionKeys.getPartitionKeyName (cStr tableName) ≠ []
  held : ∃ name,
    values.lookup (cStr (partitionKeys.getPartitionKeyName (cStr tableName))) = some (name, value)

/-- The hash that a single typed write is planned by. -/
def typedHash (partitionKeys : PartitionKeyMetadata) (values : Model.AttributeMap)
    (tableName : Bytes) : Except Error Int64 :=
  (partitionKeyOnlyAttributeMap values
    (partitionKeys.getPartitionKeyName (cStr tableName))).bind fun key =>
      hashPartitionKey key (cStr tableName) partitionKeys

/-- The hashes that one write of a batch votes by. -/
def writeHashes (partitionKeys : PartitionKeyMetadata) (tableName : Bytes)
    (write : Model.WriteRequest) : List Int64 :=
  batchWriteHashes partitionKeys (batchWriteOperationOf (cStr tableName)
    (partitionKeys.getPartitionKeyName (cStr tableName)) write)

theorem toAttributeValue_eq_iff {value : Model.AttributeValue} {key : AttributeValue}
    (sent : value.sent = some key) : toAttributeValue value = .ok key ↔ value.ZeroFree := by
  cases value with
  | string text =>
    obtain rfl := Option.some.inj sent
    simp [toAttributeValue, AttributeValue.ofString, cStr_eq_self_iff, Model.AttributeValue.ZeroFree]
  | number text =>
    obtain rfl := Option.some.inj sent
    simp [toAttributeValue, AttributeValue.ofNumber, cStr_eq_self_iff, Model.AttributeValue.ZeroFree]
  | byteBuffer buffer =>
    obtain rfl := Option.some.inj sent
    simp [toAttributeValue, Model.AttributeValue.ZeroFree]
  | other => contradiction

@[simp] theorem lookup_keyOnly (keyName : Bytes) (key : AttributeValue) :
    (keyOnly keyName key).lookup keyName = some (keyName, key) := by
  rw [keyOnly, OrderedMap.lookup_assign, if_pos rfl]
  rfl

section
variable {partitionKeys : PartitionKeyMetadata} {tableName : Bytes} {values : Model.AttributeMap}
  {value : Model.AttributeValue} {key : AttributeValue}

theorem HoldsKey.keyOnly (holds : HoldsKey partitionKeys tableName values value)
    (converted : toAttributeValue value = .ok key) :
    partitionKeyOnlyAttributeMap values (partitionKeys.getPartitionKeyName (cStr tableName)) =
      .ok (Aws.keyOnly (partitionKeys.getPartitionKeyName (cStr tableName)) key) := by
  obtain ⟨name, held⟩ := holds.held
  simp only [partitionKeyOnlyAttributeMap, held, converted]
  rfl

theorem HoldsKey.hashPartitionKey (holds : HoldsKey partitionKeys tableName values value)
    (key : AttributeValue) :
    hashPartitionKey (Aws.keyOnly (partitionKeys.getPartitionKeyName (cStr tableName)) key)
      (cStr tableName) partitionKeys = .ok key.hash := by
  apply hashPartitionKey_ok
  simp [partitionKeyValue, holds.named]

theorem HoldsKey.typedHash (holds : HoldsKey partitionKeys tableName values value)
    (converted : toAttributeValue value = .ok key) :
    typedHash partitionKeys values tableName = .ok key.hash := by
  rw [Aws.typedHash, holds.keyOnly converted]
  exact holds.hashPartitionKey key

/-- Over live nodes the fallback of `NewPartitionKeyQueryPlan` cannot fail. -/
theorem newPartitionKeyQueryPlan_not_invalid (config : Config)
    (partitionKeys : PartitionKeyMetadata) (seed : Int64) (values : AttributeMap) (table : Bytes)
    (s : LiveNodes) (what : Bytes) :
    (newPartitionKeyQueryPlan (LiveNodes.source config) partitionKeys seed values table s).1 ≠
      .error (.invalidArgument what) := by
  have default : ∀ s, (QueryPlan.fromNodesSource (LiveNodes.source config) seed s).1 ≠
      .error (.invalidArgument what) := by
    intro s invalid
    contradiction
  simp only [newPartitionKeyQueryPlan]
  split
  · exact default s
  · unfold orDefaultQueryPlan
    split
    · exact default _
    · rename_i valid
      intro invalid
      exact valid what _ (Prod.ext invalid rfl)

/-- The typed write is planned as the helper plans the key. -/
theorem HoldsKey.queryPlan (holds : HoldsKey partitionKeys tableName values value)
    (converted : toAttributeValue value = .ok key) (config : Config) (seed : Int64)
    (s : LiveNodes) :
    partitionKeyQueryPlanFor (LiveNodes.source config) partitionKeys seed values tableName s =
      newPartitionKeyQueryPlan (LiveNodes.source config) partitionKeys seed
        (Aws.keyOnly (partitionKeys.getPartitionKeyName (cStr tableName)) key) (cStr tableName)
        s := by
  have valid := newPartitionKeyQueryPlan_not_invalid config partitionKeys seed
    (Aws.keyOnly (partitionKeys.getPartitionKeyName (cStr tableName)) key) (cStr tableName) s
  simp only [partitionKeyQueryPlanFor, List.isEmpty_eq_false_iff.mpr holds.named,
    holds.keyOnly converted, Bool.false_eq_true, if_false]
  split
  · rename_i what _ invalid
    exact absurd (congrArg Prod.fst invalid) (valid what)
  · rfl

/-- The values that a write of a batch puts or deletes by. -/
def Model.WriteRequest.Writes (write : Model.WriteRequest) (values : Model.AttributeMap) : Prop :=
  write.putRequest = some values ∧ write.deleteRequest = none ∨
    write.putRequest = none ∧ write.deleteRequest = some values

theorem HoldsKey.writeHashes (holds : HoldsKey partitionKeys tableName values value)
    (converted : toAttributeValue value = .ok key) {write : Model.WriteRequest}
    (writes : write.Writes values) : writeHashes partitionKeys tableName write = [key.hash] := by
  have operation : batchWriteOperationOf (cStr tableName)
      (partitionKeys.getPartitionKeyName (cStr tableName)) write =
        [.put (cStr tableName)
          (Aws.keyOnly (partitionKeys.getPartitionKeyName (cStr tableName)) key)] := by
    rcases writes with ⟨put, delete⟩ | ⟨put, delete⟩
    · simp only [batchWriteOperationOf, put, delete, batchWriteOperation, holds.keyOnly converted]
      rfl
    · simp only [batchWriteOperationOf, put, delete, batchWriteOperation, holds.keyOnly converted]
      rfl
  simp [Aws.writeHashes, operation, batchWriteHashes, BatchWriteOperation.put, holds.named]

end

/-- A batch votes by the hashes of its writes, table by table. -/
theorem batchWriteHashes_request (partitionKeys : PartitionKeyMetadata)
    (request : Model.BatchWriteItemRequest) :
    batchWriteHashes partitionKeys (batchWriteOperationsFor partitionKeys request) =
      request.entries.flatMap fun entry =>
        if (partitionKeys.getPartitionKeyName (cStr entry.1)).isEmpty then []
        else entry.2.flatMap (writeHashes partitionKeys entry.1) := by
  simp only [batchWriteOperationsFor, batchWriteHashes_eq, List.filterMap_flatMap]
  congr 1
  funext entry
  simp only [tableOperations]
  split
  · rename_i unnamed
    split
    · rfl
    · simp only [BatchWriteOperation.put, List.filterMap_cons, partitionKeyValue, unnamed, if_true]
      rfl
  · rw [List.filterMap_flatMap]
    congr 1
    funext write
    rw [writeHashes, batchWriteHashes_eq]

/-- Every typed path hashes a key as it is sent, and plans as the helper does. -/
structure RoutedAsSent (value : Model.AttributeValue) (key : AttributeValue) : Prop where
  hashed : ∀ partitionKeys tableName values, HoldsKey partitionKeys tableName values value →
    typedHash partitionKeys values tableName = .ok key.hash
  planned : ∀ config mode partitionKeys seed request kind s,
    HoldsKey partitionKeys request.tableName request.values value →
    shouldUseKeyRouteAffinity mode kind (itemOptions request kind) = true →
    itemQueryPlanFor (LiveNodes.source config) mode partitionKeys seed request s kind =
      newPartitionKeyQueryPlan (LiveNodes.source config) partitionKeys seed
        (keyOnly (partitionKeys.getPartitionKeyName (cStr request.tableName)) key)
        (cStr request.tableName) s
  batch : ∀ partitionKeys request,
    batchWriteHashes partitionKeys (batchWriteOperationsFor partitionKeys request) =
      request.entries.flatMap fun entry =>
        if (partitionKeys.getPartitionKeyName (cStr entry.1)).isEmpty then []
        else entry.2.flatMap (writeHashes partitionKeys entry.1)
  batched : ∀ partitionKeys tableName values write,
    HoldsKey partitionKeys tableName values value → write.Writes values →
    writeHashes partitionKeys tableName write = [key.hash]

/-- The key that is hashed is the key that is sent exactly for byte buffers and
for texts without a zero byte, and then every path routes it so. -/
theorem routedAsSent_of_zeroFree {value : Model.AttributeValue} {key : AttributeValue}
    (sent : value.sent = some key) :
    (toAttributeValue value = .ok key ↔ value.ZeroFree) ∧
      (value.ZeroFree → RoutedAsSent value key) := by
  refine ⟨toAttributeValue_eq_iff sent, ?_⟩
  intro free
  have converted := (toAttributeValue_eq_iff sent).mpr free
  constructor
  · intro partitionKeys tableName values holds
    exact holds.typedHash converted
  · intro config mode partitionKeys seed request kind s holds affine
    rw [itemQueryPlanFor_affine (LiveNodes.source config) partitionKeys seed affine]
    exact holds.queryPlan converted config seed s
  · exact batchWriteHashes_request
  · intro partitionKeys tableName values write holds writes
    exact holds.writeHashes converted writes

theorem routedAsSent_orders :
    (Model.AttributeValue.string (bytes "orders")).sent = some (.ofString (bytes "orders")) ∧
      RoutedAsSent (.string (bytes "orders")) (.ofString (bytes "orders")) :=
  ⟨rfl, (routedAsSent_of_zeroFree rfl).2 (by decide : (0 : UInt8) ∉ bytes "orders")⟩

/-- A table keyed by `id`, and an item whose key has a zero byte in it. -/
def idKeys : PartitionKeyMetadata := ⟨.assign .empty (bytes "orders") (bytes "id")⟩

def zeroItem : Model.AttributeMap := .assign .empty (bytes "id") (.string [97, 0, 98])

theorem zeroItem_holds : HoldsKey idKeys (bytes "orders") zeroItem (.string [97, 0, 98]) where
  named := by decide
  held := ⟨bytes "id", by decide⟩

/-- A text key with a zero byte is hashed as if it ended there, while the SDK sends
all of it, so keys that differ only behind the byte share a node. -/
theorem zero_byte_misroutes :
    typedHash idKeys zeroItem (bytes "orders") = .ok (AttributeValue.ofString [97]).hash ∧
      (AttributeValue.ofString [97]).hash ≠ (AttributeValue.ofString [97, 0, 98]).hash ∧
      ¬ RoutedAsSent (.string [97, 0, 98]) (.ofString [97, 0, 98]) := by
  have hashed : typedHash idKeys zeroItem (bytes "orders") =
      .ok (AttributeValue.ofString [97]).hash := zeroItem_holds.typedHash rfl
  have different : (AttributeValue.ofString [97]).hash ≠
      (AttributeValue.ofString [97, 0, 98]).hash := by decide +kernel
  refine ⟨hashed, different, ?_⟩
  intro routed
  have same := routed.hashed idKeys (bytes "orders") zeroItem zeroItem_holds
  rw [hashed] at same
  exact different (Except.ok.inj same)

end AlternatorClient.Aws
