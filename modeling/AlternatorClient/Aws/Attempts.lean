import AlternatorClient.Aws.HttpClient

/-! One operation of the SDK and its attempts, with both hooks in place:
`MakeRequest` reports the node it sent an attempt to, and the handlers of
`AttachNodeErrorReporter` report the endpoint that was signed whenever the SDK
retries. Both report the same attempt. -/
namespace AlternatorClient.Aws
open Foundation

/-- An endpoint as the SDK has resolved it. Both providers fail for a node
without a host, and the text of a node carries its port. -/
structure ResolvedEndpoint where
  uri : Uri
  named : cStr uri.host ≠ []
  ported : uri.port ≠ 0

/-- The node that the handlers of `AttachNodeErrorReporter` read off the signed
request: the endpoint as the SDK resolved it, which `MakeRequest` may have left for
another node. -/
def signedNode (uri : Uri) : Url :=
  { scheme := uri.scheme.text
    host := cStr uri.host
    port := if uri.port = 0 then (if uri.scheme = .https then 443 else 80) else uri.port }

/-- The retry handler, with the node the signed handler kept. -/
def reportRetry (config : Config) (lastNode : Url) (s : Session) : List Report × Session :=
  if !lastNode.empty then
    ([(lastNode, .serverError)], s.reportNodeResult config lastNode .serverError)
  else ([], s)

/-- One attempt: what others do before it, the header the SDK gives it, and the
answer of the transport to whatever is sent. -/
structure Attempt where
  meanwhile : List Operation := []
  sdkRequest : Option Bytes
  delegate : HttpRequest → Option HttpResponse

def Attempt.request (attempt : Attempt) (endpoint : ResolvedEndpoint) : HttpRequest :=
  { uri := endpoint.uri, sdkRequest := attempt.sdkRequest }

def Attempt.send (config : Config) (endpoint : ResolvedEndpoint) (attempt : Attempt) (s : Session) :
    Exchange × Session :=
  makeRequest config attempt.delegate (attempt.request endpoint) (s.run config attempt.meanwhile)

/-- An attempt as it was sent, what came back, and the reports that the two hooks
made of it. -/
structure Entry where
  request : HttpRequest
  response : Option HttpResponse
  reported : List Report

def Attempt.entry (attempt : Attempt) (exchange : Exchange) (retried : List Report) : Entry :=
  { request := exchange.sent
    response := attempt.delegate exchange.sent
    reported := exchange.reported ++ retried }

abbrev Ledger := List Entry

def Ledger.sent (ledger : Ledger) : List HttpRequest := ledger.map Entry.request

def Ledger.reported (ledger : Ledger) : List Report := ledger.flatMap Entry.reported

/-- The attempts of one operation, the first and its retries. An exception of
`MakeRequest` ends it. -/
def issue (config : Config) (endpoint : ResolvedEndpoint) :
    Attempt → List Attempt → Session → Ledger × Session
  | attempt, [], s =>
    let (exchange, s) := attempt.send config endpoint s
    ([attempt.entry exchange []], s)
  | attempt, next :: rest, s =>
    let (exchange, s) := attempt.send config endpoint s
    match exchange.returned with
    | .error _ => ([attempt.entry exchange []], s)
    | .ok _ =>
      let (retried, s) := reportRetry config (signedNode endpoint.uri) s
      let (ledger, s) := issue config endpoint next rest s
      (attempt.entry exchange retried :: ledger, s)

-- the equations are stated, since Lean is slow to derive them through `send`
theorem issue_nil (config : Config) (endpoint : ResolvedEndpoint) (attempt : Attempt)
    (s : Session) :
    issue config endpoint attempt [] s =
      let (exchange, s) := attempt.send config endpoint s
      ([attempt.entry exchange []], s) := by
  rfl

theorem issue_cons (config : Config) (endpoint : ResolvedEndpoint) (attempt next : Attempt)
    (rest : List Attempt) (s : Session) :
    issue config endpoint attempt (next :: rest) s =
      let (exchange, s) := attempt.send config endpoint s
      match exchange.returned with
      | .error _ => ([attempt.entry exchange []], s)
      | .ok _ =>
        let (retried, s) := reportRetry config (signedNode endpoint.uri) s
        let (ledger, s) := issue config endpoint next rest s
        (attempt.entry exchange retried :: ledger, s) := by
  rfl

/-- The transport's answer can be decoded, whatever was sent. -/
def Attempt.Decodable (config : Config) (attempt : Attempt) : Prop :=
  ∀ request, ∃ response,
    decodeCompressedAwsResponse (attempt.delegate request) config.contentEncodingDecoders =
      .ok response

/-- An endpoint of Alternator that the attempt would stay at. -/
def Attempt.keeps (endpoint : ResolvedEndpoint) (attempt : Attempt) : Bool :=
  isFirstSdkAttempt (attempt.request endpoint) &&
    !sameEndpointHost (cStr endpoint.uri.host) endpointOverrideHost

/-- The node that a rewritten attempt would go to. -/
def Attempt.next (config : Config) (attempt : Attempt) (s : Session) : Url :=
  ((s.run config attempt.meanwhile).nextNode config).1

/-- A node can be found for the attempt: the endpoint is one of Alternator, and
it is kept or `NextNode` has another. -/
def Attempt.finds (config : Config) (endpoint : ResolvedEndpoint) (attempt : Attempt)
    (s : Session) : Bool :=
  isAlternatorEndpoint endpoint.uri (s.run config attempt.meanwhile).nodes config.port &&
    (attempt.keeps endpoint || !(attempt.next config s).empty)

/-- The host of the node that is found reaches the SDK in full: no zero byte
ends it on the way. -/
def Attempt.Spelled (config : Config) (endpoint : ResolvedEndpoint) (attempt : Attempt)
    (s : Session) : Prop :=
  attempt.keeps endpoint ∨ 0 ∉ (attempt.next config s).host

/-- The last attempt finds a node. Every attempt before it finds none, and ends
as the server error that the retry handler takes it for. -/
def OnlyLastFinds (config : Config) (endpoint : ResolvedEndpoint) :
    Attempt → List Attempt → Session → Prop
  | attempt, [], s => attempt.finds config endpoint s ∧ attempt.Spelled config endpoint s
  | attempt, next :: rest, s =>
    (attempt.finds config endpoint s = false ∧
      observationFromHttpResult (attempt.delegate (attempt.request endpoint)) = .serverError) ∧
    OnlyLastFinds config endpoint next rest
      (reportRetry config (signedNode endpoint.uri) (attempt.send config endpoint s).2).2

/-- One report of the attempt: what it came to, charged to the node that it was
sent to. -/
def Entry.Charged (entry : Entry) : Prop :=
  entry.reported.map (fun report => (place report.1, report.2)) =
    [(place (urlFromAwsUri entry.request.uri), observationFromHttpResult entry.response)]

def Ledger.Charged (ledger : Ledger) : Prop := ∀ entry ∈ ledger, entry.Charged

theorem unbracketHost_plain {host : Bytes} (plain : host.head? ≠ some (byte '[')) :
    unbracketHost host = host := by
  simp [unbracketHost, plain]

theorem unbracketHost_bracketed (host : Bytes) :
    unbracketHost (bytes "[" ++ host ++ bytes "]") = host := by
  have opening : bytes "[" = [byte '['] := by decide
  have closing : bytes "]" = [byte ']'] := by decide
  have last : (byte '[' :: (host ++ [byte ']'])).getLast? = some (byte ']') := by
    rw [← List.cons_append, List.getLast?_concat]
  simp [unbracketHost, opening, closing, last]

theorem unbracket_bracket (host : Bytes) :
    unbracketHost (bracketIPv6Host host) = unbracketHost host := by
  simp only [bracketIPv6Host]
  split
  · rename_i colon
    have plain : host.head? ≠ some (byte '[') := by
      simp only [Bool.and_eq_true, Bool.or_eq_true, bne_iff_ne] at colon
      rcases colon.2 with none | other
      · simp [List.isEmpty_iff.mp none]
      · exact other
    rw [unbracketHost_bracketed, unbracketHost_plain plain]
  · rfl

theorem zero_mem_bracketIPv6Host (host : Bytes) : 0 ∈ bracketIPv6Host host ↔ 0 ∈ host := by
  have opening : 0 ∉ bytes "[" := by decide
  have closing : 0 ∉ bytes "]" := by decide
  rw [bracketIPv6Host]
  split
  · simp [opening, closing]
  · rfl

theorem zero_mem_unbracketHost (host : Bytes) : 0 ∈ unbracketHost host ↔ 0 ∈ host := by
  rw [unbracketHost]
  split
  · rename_i bracketed
    simp only [Bool.and_eq_true, decide_eq_true_eq, beq_iff_eq] at bracketed
    obtain ⟨⟨long, first⟩, last⟩ := bracketed
    cases host with
    | nil => contradiction
    | cons c rest =>
      have some : rest ≠ [] := by
        rintro rfl
        simp at long
      rw [List.getLast?_cons_of_ne_nil some, List.getLast?_eq_some_getLast some] at last
      have opening : (0 : UInt8) ≠ c := by
        rw [Option.some.inj first]
        decide
      have closing : (0 : UInt8) ≠ rest.getLast some := by
        rw [Option.some.inj last]
        decide
      have whole := List.dropLast_append_getLast some
      conv_rhs => rw [← whole]
      simp [opening, closing]
  · rfl

/-- A rewritten request goes to the node it was rewritten for, unless a zero byte
ends the host. -/
theorem place_rewritten_iff (request : HttpRequest) (node : Url) :
    place node = place (urlFromAwsUri (rewriteRequestEndpoint request node).uri) ↔
      0 ∉ node.host := by
  simp only [place, urlFromAwsUri, rewriteRequestEndpoint, cStr_cStr, Prod.mk.injEq, and_true]
  constructor
  · intro same
    rw [← zero_mem_unbracketHost, same, zero_mem_unbracketHost]
    exact not_mem_cStr _
  · intro free
    rw [(cStr_eq_self_iff _).mpr (by rwa [zero_mem_bracketIPv6Host]), unbracket_bracket]

/-- What an attempt selects and sends, by whether a node is found. -/
theorem selectAttemptNode_cases (config : Config) (endpoint : ResolvedEndpoint) (attempt : Attempt)
    (s : Session) :
    let (node, sent, _) :=
      selectAttemptNode config (attempt.request endpoint) (s.run config attempt.meanwhile)
    node.empty = !attempt.finds config endpoint s ∧
      if attempt.finds config endpoint s then
        place node = place (urlFromAwsUri sent.uri) ↔ attempt.Spelled config endpoint s
      else sent = attempt.request endpoint := by
  have visible : (urlFromAwsUri endpoint.uri).empty = false := by
    simpa [Url.empty, urlFromAwsUri] using endpoint.named
  have uri : (attempt.request endpoint).uri = endpoint.uri := rfl
  have host : (urlFromAwsUri endpoint.uri).host = cStr endpoint.uri.host := rfl
  simp only [selectAttemptNode, uri, host, Attempt.finds, Attempt.Spelled, Attempt.next]
  rw [← Attempt.keeps]
  split
  · rename_i foreign
    simp only [Bool.not_eq_true'] at foreign
    simp [foreign]
  · rename_i known
    simp only [Bool.not_eq_true', Bool.not_eq_false] at known
    split
    · rename_i first
      simp [known, first, visible, uri]
    · rename_i later
      rw [Bool.not_eq_true] at later
      cases ((s.run config attempt.meanwhile).nextNode config).1.empty with
      | true => simp [known, later]
      | false => simp [known, later, place_rewritten_iff]

/-- Decoding changes the body, and not what is made of the attempt. -/
theorem observation_decoded {response decoded : Option HttpResponse}
    {decoders : List (Option HttpContentEncodingDecoder)}
    (done : decodeCompressedAwsResponse response decoders = .ok decoded) :
    observationFromHttpResult decoded = observationFromHttpResult response := by
  cases response with
  | none =>
    cases done
    rfl
  | some response =>
    simp only [decodeCompressedAwsResponse] at done
    split at done
    · cases done
      rfl
    · split at done
      · cases done
        rfl
      · rename_i header encoded
        cases undone : decodeHttpResponseBody response.body (cStr header) decoders with
        | error error => simp [undone, Except.map] at done
        | ok body =>
          simp only [undone, Except.map] at done
          cases done
          rfl

section
variable {config : Config} {endpoint : ResolvedEndpoint} {attempt : Attempt} {s : Session}

/-- An attempt that finds a node is reported once by `MakeRequest`, as what it
came to; one that does not goes to the endpoint and is not reported. -/
theorem send_reports (decodable : attempt.Decodable config) :
    let exchange := (attempt.send config endpoint s).1
    (∃ response, exchange.returned = .ok response) ∧
    if attempt.finds config endpoint s then
      ∃ node, exchange.reported =
          [(node, observationFromHttpResult (attempt.delegate exchange.sent))] ∧
        (place node = place (urlFromAwsUri exchange.sent.uri) ↔ attempt.Spelled config endpoint s)
    else exchange.reported = [] ∧ exchange.sent = attempt.request endpoint := by
  have selected := selectAttemptNode_cases config endpoint attempt s
  simp only [Attempt.send, makeRequest]
  generalize selectAttemptNode config (attempt.request endpoint)
    (s.run config attempt.meanwhile) = result at selected ⊢
  obtain ⟨node, sent, t⟩ := result
  obtain ⟨empty, goes⟩ := selected
  dsimp only at empty goes ⊢
  split at goes
  · rename_i found
    obtain ⟨response, decoded⟩ := decodable sent
    simp [empty, found, decoded, observation_decoded decoded, goes]
  · rename_i lost
    simp [empty, lost, goes]

theorem place_signed (endpoint : ResolvedEndpoint) :
    place (signedNode endpoint.uri) = place (urlFromAwsUri endpoint.uri) := by
  simp [place, signedNode, urlFromAwsUri, endpoint.ported]

theorem reportRetry_reports (config : Config) (endpoint : ResolvedEndpoint) (s : Session) :
    (reportRetry config (signedNode endpoint.uri) s).1 =
      [(signedNode endpoint.uri, .serverError)] := by
  have visible : (signedNode endpoint.uri).empty = false := by
    simpa [Url.empty, signedNode] using endpoint.named
  simp [reportRetry, visible]

/-- Without a retry there is only what `MakeRequest` reports. -/
theorem charged_last_iff (decodable : attempt.Decodable config) :
    (attempt.entry (attempt.send config endpoint s).1 []).Charged ↔
      attempt.finds config endpoint s ∧ attempt.Spelled config endpoint s := by
  obtain ⟨-, reports⟩ := @send_reports config endpoint attempt s decodable
  rw [Entry.Charged, Attempt.entry, List.append_nil]
  split at reports
  · rename_i found
    obtain ⟨node, reported, goes⟩ := reports
    simp [reported, found, goes]
  · rename_i lost
    simp [reports.1, lost]

/-- The retry handler reports the attempt as well, as a server error of the
endpoint. -/
theorem charged_retried_iff (decodable : attempt.Decodable config) (t : Session) :
    (attempt.entry (attempt.send config endpoint s).1
        (reportRetry config (signedNode endpoint.uri) t).1).Charged ↔
      attempt.finds config endpoint s = false ∧
        observationFromHttpResult (attempt.delegate (attempt.request endpoint)) = .serverError := by
  obtain ⟨-, reports⟩ := @send_reports config endpoint attempt s decodable
  rw [Entry.Charged, Attempt.entry, reportRetry_reports]
  split at reports
  · rename_i found
    obtain ⟨node, reported, -⟩ := reports
    simp [reported, found]
  · rename_i lost
    have uri : (attempt.request endpoint).uri = endpoint.uri := rfl
    simp [reports, lost, uri, place_signed, eq_comm]

end

/-- Both hooks report an attempt that finds a node and is retried, so an operation
is charged attempt by attempt exactly when only its last attempt finds one. -/
theorem charged_iff_only_last_finds (config : Config) (endpoint : ResolvedEndpoint)
    (attempt : Attempt) (retries : List Attempt) (s : Session)
    (decodable : ∀ a ∈ attempt :: retries, a.Decodable config) :
    (issue config endpoint attempt retries s).1.Charged ↔
      OnlyLastFinds config endpoint attempt retries s := by
  induction retries generalizing attempt s with
  | nil =>
    have last := @charged_last_iff config endpoint attempt s (decodable attempt List.mem_cons_self)
    rw [issue_nil, OnlyLastFinds, ← last]
    exact List.forall_mem_singleton
  | cons next rest ih =>
    obtain ⟨first, others⟩ := List.forall_mem_cons.mp decodable
    obtain ⟨⟨response, returned⟩, -⟩ := @send_reports config endpoint attempt s first
    have retried := @charged_retried_iff config endpoint attempt s first
      (attempt.send config endpoint s).2
    rw [issue_cons, OnlyLastFinds, ← retried, ← ih next _ others]
    simp only [returned]
    exact List.forall_mem_cons

/-- Two attempts at the only node, the first of which it answers with an error. -/
def failsOnce : Attempt × Attempt :=
  (⟨[], some (bytes "attempt=1; max=2"), fun _ => some { responseCode := 500 }⟩,
    ⟨[], some (bytes "attempt=2; max=2"), fun _ => some { responseCode := 200 }⟩)

def aloneEndpoint : ResolvedEndpoint := ⟨⟨.http, bytes "a", 8080⟩, by decide, by decide⟩

/-- An operation of one attempt is charged once even though it fails: the retry
handler is not called, and `MakeRequest` has reported the attempt. -/
theorem charged_without_retry :
    let s := Session.alone (bytes "a") []
    LiveNodes.new [bytes "a"] {} 0 = .ok s.nodes ∧
      (issue {} aloneEndpoint failsOnce.1 [] s).1.Charged := by
  intro s
  refine ⟨rfl, (charged_iff_only_last_finds {} aloneEndpoint failsOnce.1 [] s ?_).mpr
    ⟨by decide +kernel, .inl (by decide +kernel)⟩⟩
  intro a member request
  rw [List.mem_singleton.mp member]
  exact ⟨_, rfl⟩

/-- With a retry the node that failed once is reported twice for it, by
`MakeRequest` and by the retry handler, and is that much nearer to Down. -/
theorem charged_twice :
    let s := Session.alone (bytes "a") []
    let a : Url := ({} : Config).nodeUrl (bytes "a")
    let ledger := (issue {} aloneEndpoint failsOnce.1 [failsOnce.2] s).1
    LiveNodes.new [bytes "a"] {} 0 = .ok s.nodes ∧
      ledger.map Entry.reported = [[(a, .serverError), (a, .serverError)], [(a, .success)]] ∧
      ¬ ledger.Charged := by
  intro s a ledger
  have reported : ledger.map Entry.reported =
      [[(a, .serverError), (a, .serverError)], [(a, .success)]] := by decide +kernel
  refine ⟨rfl, reported, ?_⟩
  intro charged
  have single : ∀ reports ∈ ledger.map Entry.reported, reports.length = 1 := by
    intro reports member
    obtain ⟨entry, sent, rfl⟩ := List.mem_map.mp member
    simpa using congrArg List.length (charged entry sent)
  rw [reported] at single
  exact absurd (single _ List.mem_cons_self) (by decide)

end AlternatorClient.Aws
