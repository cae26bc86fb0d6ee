import AlternatorClient.Aws.FirstAttempt
import AlternatorClient.Aws.Refinement
import AlternatorClient.Aws.TypedWrites

/-! The SDK clients of a `DynamoDBHelper` and the endpoints they resolve: one
client for each node a plan began with, kept for good, and a client that asks
for the next node when a plan is empty. -/
namespace AlternatorClient.Aws
open Foundation

/-- The two endpoint providers: `AlternatorEndpointProvider` takes the next node at
every resolution, `FixedEndpointProvider` is made for one node and keeps it. -/
inductive EndpointProvider where
  | alternator
  | fixed (node : Url)
  deriving DecidableEq

/-- A client of the SDK, by its identity and its endpoint provider: what else
`NewDynamoDBWithEndpointProvider` passes on is the same for all clients of a helper. -/
structure DynamoDBClient where
  id : Nat
  endpointProvider : EndpointProvider
  deriving DecidableEq

/-- `fixed_clients_` and the number of clients made so far. A client that is kept
for a node resolves that node. -/
structure Clients where
  fixedClients : OrderedMap Url.toString DynamoDBClient := OrderedMap.empty
  made : Nat := 0
  faithful : ∀ entry ∈ fixedClients.entries, entry.2.endpointProvider = .fixed entry.1 := by
    intro entry member
    contradiction

namespace Clients

def newDynamoDBWithEndpointProvider (endpointProvider : EndpointProvider) (clients : Clients) :
    DynamoDBClient × Clients :=
  (⟨clients.made, endpointProvider⟩, { clients with made := clients.made + 1 })

def newDynamoDB (clients : Clients) : DynamoDBClient × Clients :=
  clients.newDynamoDBWithEndpointProvider .alternator

/-- `emplace` on the map of fixed clients, which leaves a client that is kept for
the node already. -/
def keep (node : Url) (id : Nat) (clients : Clients) : Clients :=
  { clients with
    fixedClients := clients.fixedClients.upsert node fun kept => kept.getD ⟨id, .fixed node⟩
    faithful := by
      intro entry member
      rw [OrderedMap.mem_entries, OrderedMap.lookup_upsert] at member
      split at member
      · cases kept : clients.fixedClients.lookup node.toString with
        | none =>
          rw [kept] at member
          cases member
          rfl
        | some found =>
          obtain ⟨first, client⟩ := found
          rw [kept] at member
          cases member
          exact clients.faithful (first, client) (OrderedMap.lookup_mem kept)
      · exact clients.faithful entry (OrderedMap.lookup_mem member) }

def newDynamoDBForNode (node : Url) (clients : Clients) : DynamoDBClient × Clients :=
  match clients.fixedClients.lookup node.toString with
  | some (_, existing) => (existing, clients)
  | none =>
    let (client, clients) := clients.newDynamoDBWithEndpointProvider (.fixed node)
    (client, clients.keep node client.id)

def newDynamoDBForQueryPlan (plan : QueryPlan) (clients : Clients) :
    Except Error DynamoDBClient × Clients :=
  match plan.next with
  | .error error => (.error error, clients)
  | .ok (node, _) =>
    let (client, clients) :=
      if node.empty then clients.newDynamoDB else clients.newDynamoDBForNode node
    (.ok client, clients)

/-- Whichever node a client was first made for, it resolves the text of the node
it is asked for. -/
theorem newDynamoDBForNode_resolves (node : Url) (clients : Clients) :
    ∃ resolved, (clients.newDynamoDBForNode node).1.endpointProvider = .fixed resolved ∧
      resolved.toString = node.toString := by
  rw [newDynamoDBForNode]
  cases found : clients.fixedClients.lookup node.toString with
  | none => exact ⟨node, rfl, rfl⟩
  | some entry =>
    obtain ⟨first, existing⟩ := entry
    have first_key := OrderedMap.lookup_key found
    exact ⟨first, clients.faithful (first, existing) (OrderedMap.lookup_mem found), first_key⟩

end Clients

/-- A host as it stands in an authority: a name or address without the characters
that end it, or an address in brackets. -/
def PlainHost (host : Bytes) : Prop :=
  0 ∉ host ∧
    ((host ≠ [] ∧ host.head? ≠ some (byte '[') ∧ ∀ c ∈ host, c ∉ bytes ":/?") ∨
      ∃ address, host = byte '[' :: (address ++ [byte ']']) ∧ ∀ c ∈ address, c ∉ bytes "]/?")

/-- The constructor of `Aws::Http::URI` from a text, as far as it is documented:
it takes apart scheme, authority and port. -/
structure UriParser where
  parse : Bytes → Uri
  parse_endpoint : ∀ (scheme : Scheme) (host : Bytes) (port : UInt16), PlainHost host → port ≠ 0 →
    parse (scheme.text ++ bytes "://" ++ (host ++ (bytes ":" ++ decimal port.toNat))) =
      { scheme := scheme, host := host, port := port }

/-- The authority of a text up to its port, and what is behind it. -/
def cutHost (rest : Bytes) : Bytes × Bytes :=
  if rest.head? = some (byte '[') then
    (rest.takeWhile (fun c => c ≠ byte ']') ++ bytes "]",
      (rest.dropWhile fun c => c ≠ byte ']').tail)
  else (rest.takeWhile fun c => c ≠ byte ':', rest.dropWhile fun c => c ≠ byte ':')

/-- A reading of texts that consist of scheme, host and port. -/
def parseUri (text : Bytes) : Uri :=
  let secure := (bytes "https://").isPrefixOf text
  let (host, rest) := cutHost (text.drop (if secure then 8 else 7))
  { scheme := if secure then .https else .http
    host := host
    port := (digitsValue 0 rest.tail).toUInt16 }

theorem cutHost_plain {host : Bytes} (plain : PlainHost host) (rest : Bytes) :
    cutHost (host ++ (byte ':' :: rest)) = (host, byte ':' :: rest) := by
  rcases plain.2 with ⟨some, unbracketed, clear⟩ | ⟨address, rfl, clear⟩
  · have stops : ∀ c ∈ host, c ≠ byte ':' := by
      intro c member same
      exact clear c member (same ▸ by decide)
    have head : (host ++ (byte ':' :: rest)).head? ≠ Option.some (byte '[') := by
      rw [List.head?_append_of_ne_nil _ some]
      exact unbracketed
    rw [cutHost, if_neg head, List.takeWhile_append_of_pos (by simpa using stops),
      List.dropWhile_append_of_pos (by simpa using stops)]
    simp
  · have stops : ∀ c ∈ byte '[' :: address, c ≠ byte ']' := by
      intro c member same
      rcases List.mem_cons.mp member with rfl | member
      · exact absurd same (by decide)
      · exact clear c member (same ▸ by decide)
    have closing : bytes "]" = [byte ']'] := by decide
    have shape : byte '[' :: (address ++ [byte ']']) ++ byte ':' :: rest =
        (byte '[' :: address) ++ byte ']' :: byte ':' :: rest := by simp
    rw [shape, cutHost, if_pos (by simp), List.takeWhile_append_of_pos (by simpa using stops),
      List.dropWhile_append_of_pos (by simpa using stops)]
    simp [closing]

/-- A parser that reads an endpoint as `Url::ToString` prints it, and nothing of
what the SDK's own parser accepts besides. -/
def plainUriParser : UriParser where
  parse := parseUri
  parse_endpoint := by
    intro scheme host port plain some
    have insecure : bytes "http" ++ bytes "://" = [104, 116, 116, 112, 58, 47, 47] := by decide
    have secure : bytes "https" ++ bytes "://" = [104, 116, 116, 112, 115, 58, 47, 47] := by decide
    have marker : bytes "https://" = [104, 116, 116, 112, 115, 58, 47, 47] := by decide
    have colon : bytes ":" = [byte ':'] := by decide
    have number : (digitsValue 0 (decimal port.toNat)).toUInt16 = port := by
      rw [digitsValue_decimal]
      simp
    cases scheme with
    | http =>
      simp [parseUri, Scheme.text, insecure, marker, colon, cutHost_plain plain, number]
    | https =>
      simp [parseUri, Scheme.text, secure, marker, colon, cutHost_plain plain, number]

/-- The message of the error that ends an operation without a node. -/
def noAlternatorNodes : Bytes := bytes "no Alternator nodes are available"

/-- `ResolveEndpoint` of both providers. The endpoint goes to the SDK as a text,
which it parses; without a node there is nothing to parse. -/
def EndpointProvider.resolveEndpoint (parser : UriParser) (config : Config) (s : Session) :
    EndpointProvider → Except Bytes Uri × Session
  | .alternator =>
    let (node, s) := s.nextNode config
    (if node.empty then .error noAlternatorNodes else .ok (parser.parse (cStr node.toString)), s)
  | .fixed node =>
    (if node.empty then .error noAlternatorNodes else .ok (parser.parse (cStr node.toString)), s)

/-- A single write, by its kind, with the attempts that the SDK makes for it. -/
structure TypedWrite where
  kind : WriteOperationKind
  request : Model.WriteItemRequest
  seedFromClock : Int64
  attempt : SdkAttempt
  retries : List SdkAttempt := []

/-- The plan of a write, made over the live nodes of a session. -/
def planItem (config : Config) (mode : KeyRouteAffinityMode) (partitionKeys : PartitionKeyMetadata)
    (write : TypedWrite) (s : Session) : Except Error QueryPlan × Session :=
  let (plan, nodes) := itemQueryPlanFor (LiveNodes.source config) mode partitionKeys
    write.seedFromClock write.request s.nodes write.kind
  (plan, { s with nodes := nodes })

/-- The end of a write: the client for its plan and the endpoint, which the SDK
resolves once before it makes its attempts. -/
def sendPlanned {config : HttpConfig} (parser : UriParser) (client : AlternatorHttpClient config)
    (attempt : SdkAttempt) (retries : List SdkAttempt) (plan : QueryPlan) (s : Session)
    (clients : Clients) : Except Error (Except Bytes Account) × Session × Clients :=
  match clients.newDynamoDBForQueryPlan plan with
  | (.error error, clients) => (.error error, s, clients)
  | (.ok dynamoDB, clients) =>
    match dynamoDB.endpointProvider.resolveEndpoint parser config.toConfig s with
    | (.error error, s) => (.ok (.error error), s, clients)
    | (.ok endpoint, s) =>
      let (account, s) := client.operate endpoint attempt retries s
      (.ok (.ok account), s, clients)

/-- `PutItem`, `UpdateItem` and `DeleteItem` of the helper; an exception of the plan
ends the call. -/
def writeItem {config : HttpConfig} (parser : UriParser) (client : AlternatorHttpClient config)
    (mode : KeyRouteAffinityMode) (partitionKeys : PartitionKeyMetadata) (write : TypedWrite)
    (s : Session) (clients : Clients) :
    Except Error (Except Bytes Account) × Session × Clients :=
  let (plan, s) := planItem config.toConfig mode partitionKeys write s
  match plan with
  | .error error => (.error error, s, clients)
  | .ok plan => sendPlanned parser client write.attempt write.retries plan s clients

/-- A node as the configuration makes it, with a host that an authority can hold. -/
structure Url.Addressable (node : Url) : Prop where
  scheme : node.scheme = bytes "http" ∨ node.scheme = bytes "https"
  host : PlainHost (formatHostForAuthority node.host)
  port : node.port ≠ 0
  path : node.path = []
  query : node.query = []

def Url.endpoint (node : Url) : Uri :=
  { scheme := awsScheme node.scheme, host := formatHostForAuthority node.host, port := node.port }

theorem Url.Addressable.present {node : Url} (addressable : Url.Addressable node) :
    node.empty = false := by
  have host := addressable.host
  cases blank : node.host with
  | cons c rest => simp [Url.empty, blank]
  | nil =>
    rw [blank] at host
    rcases host.2 with ⟨some, _⟩ | ⟨address, bracketed, _⟩
    · exact absurd rfl some
    · simp [formatHostForAuthority] at bracketed

theorem text_awsScheme {scheme : Bytes} (known : scheme = bytes "http" ∨ scheme = bytes "https") :
    (awsScheme scheme).text = scheme := by
  rcases known with rfl | rfl
  · decide
  · decide

theorem Scheme.zero_not_mem_text (scheme : Scheme) : 0 ∉ scheme.text := by
  cases scheme with
  | http => decide
  | https => decide

/-- What is printed of a node reads back as the node's endpoint. -/
theorem parse_toString (parser : UriParser) {node : Url} (addressable : Url.Addressable node) :
    parser.parse (cStr node.toString) = Url.endpoint node := by
  have some : node.host ≠ [] := by
    simpa [Url.empty] using addressable.present
  have text : node.toString = (awsScheme node.scheme).text ++ bytes "://" ++
      (formatHostForAuthority node.host ++ (bytes ":" ++ decimal node.port.toNat)) := by
    simp [Url.toString, Url.authority, some, addressable.port, addressable.path, addressable.query,
      text_awsScheme addressable.scheme]
  have clear : 0 ∉ node.toString := by
    have separators : 0 ∉ bytes "://" ∧ 0 ∉ bytes ":" := by decide
    have digits : 0 ∉ decimal node.port.toNat := fun zero =>
      absurd (isDigit_of_mem_decimal zero) (by decide)
    simp [text, Scheme.zero_not_mem_text, separators, digits, addressable.host.1]
  rw [(cStr_eq_self_iff _).mpr clear, text]
  exact parser.parse_endpoint _ _ _ addressable.host addressable.port

/-- What makes a client: `NewDynamoDB`, and `NewDynamoDBForNode`. A query plan comes
down to one of the two. -/
inductive ClientCall where
  | newDynamoDB
  | forNode (node : Url)

def ClientCall.Alike : ClientCall → ClientCall → Prop
  | .forNode u, .forNode v => u.toString = v.toString
  | _, _ => False

namespace Clients

def call (clients : Clients) : ClientCall → DynamoDBClient × Clients
  | .newDynamoDB => clients.newDynamoDB
  | .forNode node => clients.newDynamoDBForNode node

def run : Clients → List ClientCall → List (ClientCall × DynamoDBClient)
  | _, [] => []
  | clients, request :: rest =>
    (request, (clients.call request).1) :: (clients.call request).2.run rest

/-- Every kept client has an identity of its own, below the number of clients made
so far, so that equal identities mean one and the same client. -/
structure Distinct (clients : Clients) : Prop where
  issued : ∀ entry ∈ clients.fixedClients.entries, entry.2.id < clients.made
  apart : ∀ first ∈ clients.fixedClients.entries, ∀ second ∈ clients.fixedClients.entries,
    first.2.id = second.2.id → first = second

/-- The client is kept, and is the one that the call is for. -/
def Holds (clients : Clients) (client : DynamoDBClient) : ClientCall → Prop
  | .newDynamoDB => False
  | .forNode node => ∃ kept, clients.fixedClients.lookup node.toString = some (kept, client)

section
variable {clients : Clients} {client : DynamoDBClient} {request later : ClientCall}

/-- How a call answers: by the client it keeps, or by a new one. -/
inductive Called (clients : Clients) : ClientCall → DynamoDBClient → Clients → Prop
  | kept {node kept : Url} {client : DynamoDBClient}
      (found : clients.fixedClients.lookup node.toString = some (kept, client)) :
      Called clients (.forNode node) client clients
  | loose {client : DynamoDBClient} {after : Clients} (id : client.id = clients.made)
      (made : after.made = clients.made + 1) (same : after.fixedClients = clients.fixedClients) :
      Called clients .newDynamoDB client after
  | added {node : Url} {client : DynamoDBClient} {after : Clients}
      (absent : clients.fixedClients.lookup node.toString = none)
      (id : client.id = clients.made) (made : after.made = clients.made + 1)
      (lookup : ∀ text, after.fixedClients.lookup text =
        if text = node.toString then some (node, client) else clients.fixedClients.lookup text) :
      Called clients (.forNode node) client after

theorem called_call (clients : Clients) (request : ClientCall) :
    Called clients request (clients.call request).1 (clients.call request).2 := by
  cases request with
  | newDynamoDB => exact .loose rfl rfl rfl
  | forNode node =>
    simp only [call, newDynamoDBForNode]
    cases found : clients.fixedClients.lookup node.toString with
    | some entry =>
      obtain ⟨kept, existing⟩ := entry
      exact .kept found
    | none =>
      refine .added found rfl rfl fun text => ?_
      simp only [keep, newDynamoDBWithEndpointProvider, OrderedMap.lookup_upsert, found]
      rfl

variable {after : Clients}

theorem Called.distinct (called : Called clients request client after)
    (distinct : clients.Distinct) : after.Distinct := by
  cases called with
  | kept found => exact distinct
  | loose id made same =>
    refine ⟨?_, same ▸ distinct.apart⟩
    intro entry member
    rw [made]
    exact Nat.lt_succ_of_lt (distinct.issued entry (same ▸ member))
  | @added node client after absent id made lookup =>
    have cases : ∀ entry ∈ after.fixedClients.entries,
        entry = (node, client) ∨ entry ∈ clients.fixedClients.entries := by
      intro entry member
      rw [OrderedMap.mem_entries, lookup] at member
      split at member
      · exact .inl (Option.some.inj member).symm
      · exact .inr (OrderedMap.mem_entries.mpr member)
    constructor
    · intro entry member
      rw [made]
      rcases cases entry member with rfl | old
      · exact id ▸ Nat.lt_succ_self _
      · exact Nat.lt_succ_of_lt (distinct.issued entry old)
    · intro first member second member' same
      rcases cases first member with rfl | old
      · rcases cases second member' with rfl | old'
        · rfl
        · have before := distinct.issued second old'
          rw [← same, id] at before
          exact absurd before (Nat.lt_irrefl _)
      · rcases cases second member' with rfl | old'
        · have before := distinct.issued first old
          rw [same, id] at before
          exact absurd before (Nat.lt_irrefl _)
        · exact distinct.apart first old second old' same

theorem Called.issued (called : Called clients request client after)
    (distinct : clients.Distinct) : client.id < after.made ∧ clients.made ≤ after.made := by
  cases called with
  | kept found => exact ⟨distinct.issued _ (OrderedMap.lookup_mem found), le_rfl⟩
  | loose id made same => omega
  | added absent id made lookup => omega

/-- A client that was given out before stays where it is kept. -/
theorem Called.holds (called : Called clients request client after) {earlier : DynamoDBClient}
    (issued : earlier.id < clients.made) (later : ClientCall) :
    after.Holds earlier later ↔ clients.Holds earlier later := by
  cases later with
  | newDynamoDB => exact Iff.rfl
  | forNode other =>
    cases called with
    | kept found => exact Iff.rfl
    | loose id made same => rw [Holds, Holds, same]
    | @added node client after absent id made lookup =>
      rw [Holds, Holds, lookup]
      split
      · rename_i same
        rw [same, absent]
        constructor
        · rintro ⟨kept, new⟩
          cases new
          omega
        · rintro ⟨kept, old⟩
          contradiction
      · exact Iff.rfl

/-- A call returns a client that was given out before if that one is kept for it. -/
theorem Called.returns (called : Called clients request client after) {earlier : DynamoDBClient}
    (issued : earlier.id < clients.made) : client = earlier ↔ clients.Holds earlier request := by
  cases called with
  | @kept node kept client found =>
    rw [Holds, found]
    constructor
    · rintro rfl
      exact ⟨kept, rfl⟩
    · rintro ⟨_, same⟩
      exact congrArg Prod.snd (Option.some.inj same)
  | loose id made same =>
    refine iff_of_false ?_ (fun alike => alike)
    rintro rfl
    omega
  | added absent id made lookup =>
    rw [Holds, absent]
    refine iff_of_false ?_ ?_
    · rintro rfl
      omega
    · rintro ⟨_, none⟩
      contradiction

/-- What a call returned is kept for the calls that are alike. -/
theorem Called.kept_alike (called : Called clients request client after)
    (distinct : clients.Distinct) (later : ClientCall) :
    after.Holds client later ↔ request.Alike later := by
  have unique : ∀ {node kept other : Url}, after.fixedClients.lookup node.toString =
      some (kept, client) → (after.Holds client (.forNode other) ↔
        node.toString = other.toString) := by
    intro node kept other found
    constructor
    · rintro ⟨also, held⟩
      have same := (called.distinct distinct).apart _ (OrderedMap.lookup_mem found) _
        (OrderedMap.lookup_mem held) rfl
      rw [← OrderedMap.lookup_key found, ← OrderedMap.lookup_key held, same]
    · intro same
      exact ⟨kept, same ▸ found⟩
  cases later with
  | newDynamoDB =>
    cases request with
    | newDynamoDB => exact Iff.rfl
    | forNode node => exact Iff.rfl
  | forNode other =>
    cases called with
    | kept found => exact unique found
    | loose id made same =>
      refine iff_of_false ?_ (fun alike => alike)
      rintro ⟨kept, held⟩
      rw [same] at held
      have before := distinct.issued _ (OrderedMap.lookup_mem held)
      simp only [id] at before
      omega
    | added absent id made lookup => exact unique (by rw [lookup, if_pos rfl])

theorem run_returns {earlier : DynamoDBClient} (calls : List ClientCall)
    (distinct : clients.Distinct) (issued : earlier.id < clients.made) :
    ∀ result ∈ clients.run calls, earlier = result.2 ↔ clients.Holds earlier result.1 := by
  induction calls generalizing clients with
  | nil =>
    intro result member
    contradiction
  | cons request rest ih =>
    have called := called_call clients request
    refine List.forall_mem_cons.mpr ⟨eq_comm.trans (called.returns issued), ?_⟩
    intro result member
    rw [← called.holds issued]
    exact ih (called.distinct distinct) (issued.trans_le (called.issued distinct).2) result member

theorem run_alike (calls : List ClientCall) (distinct : clients.Distinct) :
    (clients.run calls).Pairwise fun first second => first.2 = second.2 ↔ first.1.Alike second.1 := by
  induction calls generalizing clients with
  | nil => exact .nil
  | cons request rest ih =>
    have called := called_call clients request
    refine List.pairwise_cons.mpr ⟨?_, ih (called.distinct distinct)⟩
    intro result member
    rw [← called.kept_alike distinct]
    exact run_returns rest (called.distinct distinct) (called.issued distinct).1 result member

end
end Clients

/-- Over any calls of a helper, the clients of nodes are one for each text that a
node prints as, and are never given out otherwise. -/
theorem clients_one_for_each_node (calls : List ClientCall) :
    (({} : Clients).run calls).Pairwise fun first second =>
      first.2 = second.2 ↔ first.1.Alike second.1 := by
  apply Clients.run_alike
  constructor
  · intro entry member
    contradiction
  · intro first member
    contradiction

end AlternatorClient.Aws
