import AlternatorClient.Aws.Attempts
import AlternatorClient.Aws.Transmissions

/-! Bodies, headers and encodings do not touch the routing: a call of `MakeRequest`
is, for the nodes it selects, what it reports and what it returns, the call of
`Aws.HttpClient`, and so is an operation with all its attempts. -/
namespace AlternatorClient.Aws
open Foundation

namespace StandardHttpResponse

theorem getHeader_copied (headers : Headers) (name : Bytes) :
    Headers.getHeader (headers.entries.foldl (fun headers header =>
      if toLowerAscii header.1 = contentEncodingHeader ∨
          toLowerAscii header.1 = contentLengthHeader then headers
      else Headers.setHeaderValue headers header.1 header.2) OrderedMap.empty) name =
    if toLowerAscii name = contentEncodingHeader ∨ toLowerAscii name = contentLengthHeader then none
    else headers.getHeader name := by
  rw [Headers.getHeader_foldl_set
    (fun name => name = contentEncodingHeader ∨ name = contentLengthHeader) headers.ascending]
  simp only [Headers.getHeader_empty, Option.or_none]
  simp only [Headers.getHeader, OrderedMap.lookup]
  congr
  funext entry
  exact decide_eq_decide.mpr Iff.rfl

/-- A decoded response states the length of its body and no encoding. -/
theorem decodeCompressedAwsResponse_refines (response : Option StandardHttpResponse)
    (decoders : List (Option HttpContentEncodingDecoder)) :
    (decodeCompressedAwsResponse response decoders).map (Option.map routed) =
      Aws.decodeCompressedAwsResponse (response.map routed) decoders := by
  cases response with
  | none => rfl
  | some response =>
    simp only [decodeCompressedAwsResponse, Aws.decodeCompressedAwsResponse, Option.map_some, routed]
    split
    · rfl
    · rename_i delivered
      cases label : response.headers.getHeader contentEncodingHeader with
      | none => simp only [Except.map, Option.map_some, routed, label]
      | some contentEncoding =>
        obtain ⟨folded, foldedLength, _⟩ := folded_names
        have apart : contentEncodingHeader ≠ contentLengthHeader := by decide
        dsimp only
        cases decodeHttpResponseBody response.body (cStr contentEncoding) decoders with
        | error error => rfl
        | ok body =>
          simp only [Except.map, Option.map_some, routed, Headers.getHeader_setHeaderValue,
            getHeader_copied, folded, foldedLength, apart, if_false, true_or, if_true]
          simp only [Bool.not_eq_true] at delivered
          rw [delivered]

end StandardHttpResponse

namespace StandardHttpRequest

theorem routed_rewriteRequestEndpoint (request : StandardHttpRequest) (node : Url) :
    (request.rewriteRequestEndpoint node).routed =
      Aws.rewriteRequestEndpoint request.routed node := by
  have apart : toLowerAscii sdkRequestHeaderName ≠ hostHeader := by decide
  have folded : toLowerAscii hostHeader = hostHeader := by decide
  simp only [routed, getHeader_rewriteRequestEndpoint, apart, if_false, folded, if_true]
  rfl

/-- The selection reads and writes the routing's part of a request only. -/
theorem selectAttemptNode_refines (config : Config) (request : StandardHttpRequest) (s : Session) :
    Aws.selectAttemptNode config request.routed s =
      ((request.selectAttemptNode config s).1, (request.selectAttemptNode config s).2.1.routed,
        (request.selectAttemptNode config s).2.2) := by
  rw [selectAttemptNode, Aws.selectAttemptNode]
  have uri : request.routed.uri = request.uri := rfl
  rw [uri]
  split
  · rfl
  · dsimp only
    split
    · rfl
    · split
      · rw [routed_rewriteRequestEndpoint]
      · rfl

/-- The body can be read, and the compressor takes it. -/
def Readable (config : HttpConfig) (request : StandardHttpRequest) : Prop :=
  ∀ body, request.contentBody = some body →
    body.seekable = true ∧ body.sized = true ∧
      ∃ outcome, config.compress body.content body.content.length = .ok outcome

theorem Readable.compressAwsRequestBody {config : HttpConfig} {request : StandardHttpRequest}
    (readable : request.Readable config) (requestContentEncoding : Bytes) :
    ∃ prepared, request.compressAwsRequestBody config requestContentEncoding = .ok prepared ∧
      prepared.uri = request.uri := by
  rw [StandardHttpRequest.compressAwsRequestBody]
  split
  · exact ⟨request, rfl, rfl⟩
  · rename_i body present
    obtain ⟨seekable, sized, outcome, compress⟩ := readable body present
    split
    · exact ⟨request, rfl, rfl⟩
    · have size : prepareOriginalRequestBodyForReading body = .ok body.content.length := by
        simp [prepareOriginalRequestBodyForReading, rewindForReading, seekable, sized, Except.map]
      simp only [size, compress]
      cases outcome with
      | none => exact ⟨request, by simp [rewindForReading, seekable, Except.map], rfl⟩
      | some compressedBody => exact ⟨_, rfl, rfl⟩

end StandardHttpRequest

namespace AlternatorHttpClient
variable {config : HttpConfig}

/-- One call: the node, the reports, the outcome and the session afterwards are
those of the routing alone, given the same answer. -/
theorem makeRequest_refines (client : AlternatorHttpClient config)
    (delegate : StandardHttpRequest → Option StandardHttpResponse) {request : StandardHttpRequest}
    (readable : request.Readable config) (s : Session) :
    let (sending, t) := client.makeRequest delegate request s
    let (exchange, u) := Aws.makeRequest config.toConfig
      (fun _ => (delegate sending.request).map StandardHttpResponse.routed) request.routed s
    exchange.sent.uri = sending.request.uri ∧ exchange.reported = sending.reported ∧
      exchange.returned = sending.returned.map (Option.map StandardHttpResponse.routed) ∧ u = t := by
  have select := StandardHttpRequest.selected_selectAttemptNode config.toConfig request s
  have refines := StandardHttpRequest.selectAttemptNode_refines config.toConfig request s
  simp only [makeRequest, Aws.makeRequest, refines]
  generalize request.selectAttemptNode config.toConfig s = result at select ⊢
  obtain ⟨node, selected, t⟩ := result
  dsimp only at select ⊢
  split
  · exact ⟨rfl, rfl, rfl, rfl⟩
  · have readable : (client.setAcceptEncoding selected).Readable config := by
      intro body present
      rw [setAcceptEncoding_contentBody, select.contentBody] at present
      exact readable body present
    obtain ⟨prepared, compressed, uri⟩ :=
      readable.compressAwsRequestBody client.requestContentEncoding
    simp only [compressed]
    have sent : (prepared.optimizeRequestHeaders (buildHeaderOptimizationPolicy config)).uri =
        selected.uri := by
      rw [StandardHttpRequest.optimizeRequestHeaders_uri, uri, setAcceptEncoding_uri]
    generalize prepared.optimizeRequestHeaders (buildHeaderOptimizationPolicy config) = final at sent ⊢
    rw [conclude]
    have decoded := StandardHttpResponse.decodeCompressedAwsResponse_refines (delegate final)
      config.contentEncodingDecoders
    cases outcome : StandardHttpResponse.decodeCompressedAwsResponse (delegate final)
        config.contentEncodingDecoders with
    | error error =>
      rw [outcome] at decoded
      simp only [Except.map] at decoded
      rw [← decoded]
      exact ⟨sent.symm, rfl, rfl, rfl⟩
    | ok response =>
      rw [outcome] at decoded
      simp only [Except.map] at decoded
      rw [← decoded]
      exact ⟨sent.symm, rfl, rfl, rfl⟩

end AlternatorHttpClient

/-- One attempt of the SDK, with the request that it builds for it. -/
structure SdkAttempt where
  meanwhile : List Operation := []
  headers : Headers
  contentBody : Option ContentBody := none
  eventStream : Bool := false
  delegate : StandardHttpRequest → Option StandardHttpResponse

def SdkAttempt.request (attempt : SdkAttempt) (endpoint : Uri) : StandardHttpRequest :=
  { uri := endpoint
    headers := attempt.headers
    contentBody := attempt.contentBody
    eventStream := attempt.eventStream }

/-- What an operation has sent, call by call, and what was reported. -/
structure Account where
  sendings : List Sending
  reported : List Report

namespace AlternatorHttpClient
variable {config : HttpConfig}

def send (client : AlternatorHttpClient config) (endpoint : Uri) (attempt : SdkAttempt)
    (s : Session) : Sending × Session :=
  client.makeRequest attempt.delegate (attempt.request endpoint)
    (s.run config.toConfig attempt.meanwhile)

/-- The attempts of one operation as the complete client makes them. -/
def operate (client : AlternatorHttpClient config) (endpoint : Uri) :
    SdkAttempt → List SdkAttempt → Session → Account × Session
  | attempt, [], s =>
    let (sending, s) := client.send endpoint attempt s
    (⟨[sending], sending.reported⟩, s)
  | attempt, next :: rest, s =>
    let (sending, s) := client.send endpoint attempt s
    match sending.returned with
    | .error _ => (⟨[sending], sending.reported⟩, s)
    | .ok _ =>
      let (retried, s) := reportRetry config.toConfig (signedNode endpoint) s
      let (account, s) := client.operate endpoint next rest s
      (⟨sending :: account.sendings, sending.reported ++ retried ++ account.reported⟩, s)

end AlternatorHttpClient

namespace AlternatorHttpClient
variable {config : HttpConfig}

/-- An attempt as the routing sees it: the answer is the one to the request that
the complete client sends. -/
def seen (client : AlternatorHttpClient config) (endpoint : Uri) (attempt : SdkAttempt)
    (s : Session) : Attempt :=
  { meanwhile := attempt.meanwhile
    sdkRequest := attempt.headers.getHeader sdkRequestHeaderName
    delegate := fun _ =>
      (attempt.delegate (client.send endpoint attempt s).1.request).map
        StandardHttpResponse.routed }

/-- The retries after an attempt, each seen from the session it is made in. -/
def seenRetries (client : AlternatorHttpClient config) (endpoint : Uri) :
    SdkAttempt → List SdkAttempt → Session → List Attempt
  | _, [], _ => []
  | attempt, next :: rest, s =>
    let (_, s) := client.send endpoint attempt s
    let (_, s) := reportRetry config.toConfig (signedNode endpoint) s
    client.seen endpoint next s :: client.seenRetries endpoint next rest s

end AlternatorHttpClient

/-- The routing does not read the host header of a request. -/
theorem makeRequest_hostHeader (config : Config) (response : Option HttpResponse)
    (request : HttpRequest) (hostHeader : Option Bytes) (s : Session) :
    let (exchange, t) := makeRequest config (fun _ => response) request s
    let (other, u) := makeRequest config (fun _ => response)
      { request with hostHeader := hostHeader } s
    other.sent.uri = exchange.sent.uri ∧ other.reported = exchange.reported ∧
      other.returned = exchange.returned ∧ u = t := by
  have select : selectAttemptNode config { request with hostHeader := hostHeader } s =
      ((selectAttemptNode config request s).1,
        { (selectAttemptNode config request s).2.1 with
          hostHeader := (selectAttemptNode config
            { request with hostHeader := hostHeader } s).2.1.hostHeader },
        (selectAttemptNode config request s).2.2) := by
    have first : isFirstSdkAttempt { request with hostHeader := hostHeader } =
        isFirstSdkAttempt request := rfl
    simp only [selectAttemptNode, first]
    split
    · rfl
    · split
      · rfl
      · split
        · rfl
        · rfl
  simp only [makeRequest]
  rw [select]
  generalize selectAttemptNode config request s = result
  obtain ⟨node, selected, t⟩ := result
  dsimp only
  split
  · exact ⟨rfl, rfl, rfl, rfl⟩
  · cases decodeCompressedAwsResponse response config.contentEncodingDecoders with
    | error error => exact ⟨rfl, rfl, rfl, rfl⟩
    | ok response => exact ⟨rfl, rfl, rfl, rfl⟩

section
variable {config : HttpConfig} {client : AlternatorHttpClient config} {endpoint : ResolvedEndpoint}

/-- What agrees between a call of the complete client and one of the routing. -/
structure Sending.Matches (sending : Sending) (exchange : Exchange) : Prop where
  uri : exchange.sent.uri = sending.request.uri
  reported : exchange.reported = sending.reported
  returned : exchange.returned = sending.returned.map (Option.map StandardHttpResponse.routed)

theorem send_refines (client : AlternatorHttpClient config) {attempt : SdkAttempt}
    (readable : (attempt.request endpoint.uri).Readable config) (s : Session) :
    let seen := client.seen endpoint.uri attempt s
    (client.send endpoint.uri attempt s).1.Matches (seen.send config.toConfig endpoint s).1 ∧
      (seen.send config.toConfig endpoint s).2 = (client.send endpoint.uri attempt s).2 := by
  obtain ⟨uri, reported, returned, session⟩ := client.makeRequest_refines attempt.delegate readable
    (s.run config.toConfig attempt.meanwhile)
  obtain ⟨otherUri, otherReported, otherReturned, otherSession⟩ := makeRequest_hostHeader
    config.toConfig
    ((attempt.delegate (client.send endpoint.uri attempt s).1.request).map
      StandardHttpResponse.routed)
    (attempt.request endpoint.uri).routed none (s.run config.toConfig attempt.meanwhile)
  exact ⟨⟨otherUri.trans uri, otherReported.trans reported, otherReturned.trans returned⟩,
    otherSession.trans session⟩

/-- A whole operation of the complete client is one of the routing: it goes to the
same endpoints, with the same reports and the same session afterwards. -/
theorem operate_refines (client : AlternatorHttpClient config) (attempt : SdkAttempt)
    (retries : List SdkAttempt)
    (readable : ∀ a ∈ attempt :: retries, (a.request endpoint.uri).Readable config) (s : Session) :
    let (ledger, t) := issue config.toConfig endpoint (client.seen endpoint.uri attempt s)
      (client.seenRetries endpoint.uri attempt retries s) s
    let (account, u) := client.operate endpoint.uri attempt retries s
    ledger.sent.map (fun request => request.uri) =
        account.sendings.map (fun sending => sending.request.uri) ∧
      ledger.reported = account.reported ∧ t = u := by
  induction retries generalizing attempt s with
  | nil =>
    obtain ⟨agrees, session⟩ := send_refines client (readable attempt List.mem_cons_self) s
    rw [AlternatorHttpClient.seenRetries, issue_nil, AlternatorHttpClient.operate]
    dsimp only
    refine ⟨?_, ?_, session⟩
    · simp [Ledger.sent, Attempt.entry, agrees.uri]
    · simp [Ledger.reported, Attempt.entry, agrees.reported]
  | cons next rest ih =>
    obtain ⟨first, others⟩ := List.forall_mem_cons.mp readable
    obtain ⟨agrees, session⟩ := send_refines client first s
    have returned := agrees.returned
    rw [AlternatorHttpClient.operate, AlternatorHttpClient.seenRetries, issue_cons]
    dsimp only
    cases outcome : (client.send endpoint.uri attempt s).1.returned with
    | error error =>
      simp only [outcome, Except.map] at returned
      simp only [returned]
      refine ⟨?_, ?_, session⟩
      · simp [Ledger.sent, Attempt.entry, agrees.uri]
      · simp [Ledger.reported, Attempt.entry, agrees.reported]
    | ok response =>
      obtain ⟨sent, reported, after⟩ := ih next others
        (reportRetry config.toConfig (signedNode endpoint.uri)
          (client.send endpoint.uri attempt s).2).2
      simp only [outcome, Except.map] at returned
      simp only [returned, session]
      refine ⟨?_, ?_, after⟩
      · simp only [Ledger.sent, List.map_cons] at sent ⊢
        rw [sent, Attempt.entry, agrees.uri]
      · simp only [Ledger.reported, List.flatMap_cons] at reported ⊢
        rw [reported, Attempt.entry, agrees.reported]

end

/-- Two attempts with the same body, the first answered by an error. -/
def putTwice : SdkAttempt × SdkAttempt :=
  let attempt (sdkRequest : Bytes) (responseCode : Int) : SdkAttempt :=
    { headers := Headers.setHeaderValue putRequest.headers sdkRequestHeaderName sdkRequest
      contentBody := putRequest.contentBody
      delegate := fun _ => some { responseCode := responseCode } }
  (attempt (bytes "attempt=1; max=2") 500, attempt (bytes "attempt=2; max=2") 200)

theorem operate_refines_twice :
    let s := Session.alone (bytes "a") []
    let a : Url := ({} : Config).nodeUrl (bytes "a")
    let (account, u) :=
      reversingClient.operate aloneEndpoint.uri putTwice.1 [putTwice.2] s
    account.reported = [(a, .serverError), (a, .serverError), (a, .success)] ∧
      let (ledger, t) := issue reversing.toConfig aloneEndpoint
        (reversingClient.seen aloneEndpoint.uri putTwice.1 s)
        (reversingClient.seenRetries aloneEndpoint.uri putTwice.1 [putTwice.2] s) s
      ledger.sent.map (fun request => request.uri) =
          account.sendings.map (fun sending => sending.request.uri) ∧
        ledger.reported = account.reported ∧ t = u := by
  intro s a
  have readable : ∀ attempt ∈ [putTwice.1, putTwice.2],
      (attempt.request aloneEndpoint.uri).Readable reversing := by
    intro attempt member body present
    have same : attempt.contentBody = putRequest.contentBody := by
      simp only [List.mem_cons, List.not_mem_nil, or_false] at member
      rcases member with rfl | rfl
      · rfl
      · rfl
    have stored : attempt.contentBody = some body := present
    rw [same] at stored
    cases stored
    exact ⟨rfl, rfl, _, rfl⟩
  exact ⟨by decide +kernel,
    operate_refines reversingClient putTwice.1 [putTwice.2] readable s⟩

end AlternatorClient.Aws
