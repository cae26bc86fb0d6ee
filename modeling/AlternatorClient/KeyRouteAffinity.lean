import AlternatorClient.QueryPlan.Drain
import AlternatorClient.Murmur3
import AlternatorClient.Foundation.OrderedMap

/-! Key-route affinity for single writes: the partition key is resolved and
hashed, the hash seeds the order of the active nodes, and nodes offered beyond
the active ones go first. -/
namespace AlternatorClient
open Foundation

abbrev AttributeMap := OrderedMap (fun name : Bytes => name) AttributeValue

structure PartitionKeyMetadata where
  partitionKeyByTable : OrderedMap (fun table : Bytes => table) Bytes

def PartitionKeyMetadata.getPartitionKeyName (metadata : PartitionKeyMetadata)
    (tableName : Bytes) : Bytes :=
  match metadata.partitionKeyByTable.lookup tableName with
  | none => []
  | some (_, keyName) => keyName

def hashPartitionKey (values : AttributeMap) (tableName : Bytes) (metadata : PartitionKeyMetadata) :
    Except Error Int64 :=
  let keyName := metadata.getPartitionKeyName tableName
  if keyName.isEmpty then
    .error (.invalidArgument (bytes "partition key information not found for table " ++ tableName))
  else
    match values.lookup keyName with
    | none =>
      .error (.invalidArgument (bytes "value for partition key " ++ keyName ++ bytes " not found"))
    | some (_, value) => .ok value.hash

/-- `NodesSource`, as what a plan asks of it. The methods are const, but an
implementation may advance sampling state, so two of them pass a state on. -/
structure NodesSource (σ : Type) where
  getActiveNodes : σ → List Url
  getQueryPlanNodes : σ → Except Error (List Url) × σ
  getQueryPlanNodesForHash : Int64 → σ → Except Error (List Url) × σ

/-- The base class: every plan is the active nodes. -/
def NodesSource.ofActiveNodes {σ : Type} (getActiveNodes : σ → List Url) : NodesSource σ where
  getActiveNodes := getActiveNodes
  getQueryPlanNodes s := (.ok (getActiveNodes s), s)
  getQueryPlanNodesForHash _ s := (.ok (getActiveNodes s), s)

def appendMissingNodes (out nodes : List Url) : List Url :=
  appendFresh (fun node => !node.empty) out nodes

def nodesMissingFrom (nodes present : List Url) : List Url :=
  appendFresh (fun node => !node.empty && !decide (node ∈ present)) [] nodes

/-- The last lines of `QueryPlanForPartitionKey`: offered nodes that are not
active, then the seeded order of the active ones. -/
def affinityPlan (activeNodes queryPlanNodes : List Url) (seed : Int64) : Except Error QueryPlan :=
  if activeNodes.isEmpty then .ok (QueryPlan.withSortedSeed queryPlanNodes seed)
  else
    let activeNodes := sortAndDedupeNodes activeNodes
    let orderedNodes := nodesMissingFrom queryPlanNodes activeNodes
    match drainPlan (QueryPlan.withSortedSeed activeNodes seed) with
    | .error error => .error error
    | .ok drained => .ok (QueryPlan.fromOrderedNodes (appendMissingNodes orderedNodes drained))

def queryPlanForPartitionKey {σ : Type} (nodes : NodesSource σ) (s : σ) (values : AttributeMap)
    (tableName : Bytes) (metadata : PartitionKeyMetadata) : Except Error QueryPlan × σ :=
  match hashPartitionKey values tableName metadata with
  | .error error => (.error error, s)
  | .ok seed =>
    let activeNodes := nodes.getActiveNodes s
    match nodes.getQueryPlanNodesForHash seed s with
    | (.error error, s) => (.error error, s)
    | (.ok queryPlanNodes, s) => (affinityPlan activeNodes queryPlanNodes seed, s)

def drainResult (plan : Except Error QueryPlan) : Except Error (List Url) := plan.bind drainPlan

def partitionKeyValue (values : AttributeMap) (tableName : Bytes)
    (metadata : PartitionKeyMetadata) :
    Option AttributeValue :=
  let keyName := metadata.getPartitionKeyName tableName
  if keyName.isEmpty then none else (values.lookup keyName).map Prod.snd

theorem hashPartitionKey_ok {values : AttributeMap} {tableName : Bytes}
    {metadata : PartitionKeyMetadata}
    {value : AttributeValue} (resolved : partitionKeyValue values tableName metadata = some value) :
    hashPartitionKey values tableName metadata = .ok value.hash := by
  simp only [partitionKeyValue] at resolved
  split at resolved
  · contradiction
  · rename_i named
    obtain ⟨⟨name, found⟩, located, rfl⟩ := Option.map_eq_some_iff.mp resolved
    simp [hashPartitionKey, named, located]

theorem queryPlanForPartitionKey_ok {σ : Type} {nodes : NodesSource σ} {s : σ}
    {values : AttributeMap}
    {tableName : Bytes} {metadata : PartitionKeyMetadata} {seed : Int64} {offered : List Url}
    (hashed : hashPartitionKey values tableName metadata = .ok seed)
    (returned : (nodes.getQueryPlanNodesForHash seed s).1 = .ok offered) :
    (queryPlanForPartitionKey nodes s values tableName metadata).1 =
      affinityPlan (nodes.getActiveNodes s) offered seed := by
  simp only [queryPlanForPartitionKey, hashed]
  cases answer : nodes.getQueryPlanNodesForHash seed s with
  | mk result after =>
    rw [answer] at returned
    subst returned
    rfl

end AlternatorClient
