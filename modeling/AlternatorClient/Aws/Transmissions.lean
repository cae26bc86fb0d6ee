import AlternatorClient.Aws.Outgoing
import AlternatorClient.HttpCompression.Advertised

/-! One request object that is sent again and again. Every call of `MakeRequest`
may rewrite the endpoint, compress the body and delete headers, and the next one
starts from what is left. -/
namespace AlternatorClient.Aws
open Foundation

/-- A call of `MakeRequest`: what others do before it, and the answer of the transport. -/
structure Transmission where
  meanwhile : List Operation := []
  delegate : StandardHttpRequest → Option StandardHttpResponse

namespace AlternatorHttpClient
variable {config : HttpConfig}

/-- The calls of `MakeRequest` with one request object, exceptions included. -/
def transmit (client : AlternatorHttpClient config) :
    StandardHttpRequest → List Transmission → Session → List Sending
  | _, [], _ => []
  | request, transmission :: rest, s =>
    let (sending, s) := client.makeRequest transmission.delegate request
      (s.run config.toConfig transmission.meanwhile)
    sending :: client.transmit sending.request rest s

/-- What a call keeps of the object holds in every later call. -/
theorem forall_transmit {client : AlternatorHttpClient config} {kept : StandardHttpRequest → Prop}
    {shown : Sending → Prop}
    (step : ∀ delegate request s, kept request →
      kept (client.makeRequest delegate request s).1.request ∧
        shown (client.makeRequest delegate request s).1)
    {request : StandardHttpRequest} (start : kept request) (transmissions : List Transmission)
    (s : Session) : ∀ sending ∈ client.transmit request transmissions s, shown sending := by
  induction transmissions generalizing request s with
  | nil => exact fun _ member => absurd member List.not_mem_nil
  | cons transmission rest ih =>
    have stepped := step transmission.delegate request (s.run config.toConfig transmission.meanwhile) start
    exact List.forall_mem_cons.mpr ⟨stepped.2, ih stepped.1 _⟩

end AlternatorHttpClient

namespace StandardHttpRequest

def Selected (node : Url) (request selected : StandardHttpRequest) : Prop :=
  selected = request ∨ selected = request.rewriteRequestEndpoint node

theorem getHeader_rewriteRequestEndpoint (node : Url) (request : StandardHttpRequest)
    (name : Bytes) :
    (request.rewriteRequestEndpoint node).headers.getHeader name =
      if toLowerAscii name = hostHeader then some (cStr node.authority)
      else request.headers.getHeader name := by
  have folded : toLowerAscii hostHeader = hostHeader := by decide
  simp [rewriteRequestEndpoint, Headers.getHeader_setHeaderValue, folded]

theorem Selected.contentBody {node : Url} {request selected : StandardHttpRequest}
    (select : Selected node request selected) : selected.contentBody = request.contentBody := by
  rcases select with rfl | rfl
  · rfl
  · rfl

theorem Selected.headers {node : Url} {request selected : StandardHttpRequest}
    (select : Selected node request selected) (name : Bytes)
    (other : toLowerAscii name ≠ hostHeader) :
    selected.headers.getHeader name = request.headers.getHeader name := by
  rcases select with rfl | rfl
  · rfl
  · rw [getHeader_rewriteRequestEndpoint, if_neg other]

theorem selected_selectAttemptNode (config : Config) (request : StandardHttpRequest) (s : Session) :
    Selected (request.selectAttemptNode config s).1 request
      (request.selectAttemptNode config s).2.1 := by
  rw [selectAttemptNode]
  split
  · exact .inl rfl
  · dsimp only
    split
    · exact .inl rfl
    · dsimp only
      split
      · exact .inr rfl
      · exact .inl rfl

/-- The body is left alone, or it was not encoded and is now compressed and
labelled, and its signed digest is gone. -/
theorem compressAwsRequestBody_cases {config : HttpConfig} {requestContentEncoding : Bytes}
    {request prepared : StandardHttpRequest}
    (done : request.compressAwsRequestBody config requestContentEncoding = .ok prepared) :
    prepared = request ∨
    ∃ body compressedBody, request.contentBody = some body ∧
      request.headers.getHeader contentEncodingHeader = none ∧
      config.compress body.content body.content.length = .ok (some compressedBody) ∧
      prepared = { request with
        headers :=
          ((request.headers.setHeaderValue contentEncodingHeader
            (cStr requestContentEncoding)).setHeaderValue contentLengthHeader
            (decimal compressedBody.length)).deleteHeader contentSha256Header
        contentBody := some { content := compressedBody } } := by
  rw [compressAwsRequestBody] at done
  split at done
  · cases done
    exact .inl rfl
  · rename_i body present
    split at done
    · cases done
      exact .inl rfl
    · rename_i plain
      have unencoded : request.headers.getHeader contentEncodingHeader = none := by
        simp only [Bool.or_eq_true, not_or, Bool.not_eq_true] at plain
        simpa [Headers.hasHeader] using plain.2
      cases prepare : prepareOriginalRequestBodyForReading body with
      | error error => simp [prepare] at done
      | ok size =>
        have sized : size = body.content.length := by
          simp only [prepareOriginalRequestBodyForReading, rewindForReading] at prepare
          split at prepare
          · contradiction
          · split at prepare
            · contradiction
            · split at prepare
              · cases prepare
                rfl
              · contradiction
        simp only [prepare, sized] at done
        cases compress : config.compress body.content body.content.length with
        | error error => simp [compress] at done
        | ok outcome =>
          cases outcome with
          | none =>
            simp only [compress, rewindForReading] at done
            split at done
            · cases done
              exact .inl rfl
            · contradiction
          | some compressedBody =>
            simp only [compress] at done
            cases done
            exact .inr ⟨body, compressedBody, present, unencoded, compress, rfl⟩

end StandardHttpRequest

namespace AlternatorHttpClient
variable {config : HttpConfig} {client : AlternatorHttpClient config}

theorem setAcceptEncoding_contentBody (request : StandardHttpRequest) :
    (client.setAcceptEncoding request).contentBody = request.contentBody := by
  rw [setAcceptEncoding]
  split
  · rfl
  · rfl

theorem setAcceptEncoding_uri (request : StandardHttpRequest) :
    (client.setAcceptEncoding request).uri = request.uri := by
  rw [setAcceptEncoding]
  split
  · rfl
  · rfl

theorem getHeader_setAcceptEncoding (request : StandardHttpRequest) (name : Bytes) :
    (client.setAcceptEncoding request).headers.getHeader name =
      if client.acceptEncodingValue ≠ [] ∧ toLowerAscii name = acceptEncodingHeader then
        some (cStr client.acceptEncodingValue)
      else request.headers.getHeader name := by
  have folded : toLowerAscii acceptEncodingHeader = acceptEncodingHeader := by decide
  rw [setAcceptEncoding]
  by_cases silent : client.acceptEncodingValue = []
  · simp [silent]
  · simp [silent, Headers.getHeader_setHeaderValue, folded]

/-- How a call of `MakeRequest` leaves the request object: as it came, rewritten but
not sent, or prepared in full and sent. -/
inductive Left (client : AlternatorHttpClient config) (request : StandardHttpRequest) :
    Sending → Prop
  /-- No node: the request goes out as it is. -/
  | foreign {sending : Sending} (lost : sending.node.empty = true)
      (same : sending.request = request) : Left client request sending
  | failed {sending : Sending} {selected : StandardHttpRequest} (unsent : sending.sent = false)
      (select : StandardHttpRequest.Selected sending.node request selected)
      (same : sending.request = client.setAcceptEncoding selected) : Left client request sending
  | sent {sending : Sending} {selected prepared : StandardHttpRequest}
      (select : StandardHttpRequest.Selected sending.node request selected)
      (compressed : (client.setAcceptEncoding selected).compressAwsRequestBody config
        client.requestContentEncoding = .ok prepared)
      (same : sending.request =
        prepared.optimizeRequestHeaders (buildHeaderOptimizationPolicy config)) :
      Left client request sending

theorem conclude_request (config : Config) (node : Url) (request : StandardHttpRequest)
    (response : Option StandardHttpResponse) (s : Session) :
    (conclude config node request response s).1.node = node ∧
      (conclude config node request response s).1.request = request := by
  rw [conclude]
  split
  · exact ⟨rfl, rfl⟩
  · exact ⟨rfl, rfl⟩

theorem left_makeRequest (client : AlternatorHttpClient config)
    (delegate : StandardHttpRequest → Option StandardHttpResponse) (request : StandardHttpRequest)
    (s : Session) : Left client request (client.makeRequest delegate request s).1 := by
  have select := StandardHttpRequest.selected_selectAttemptNode config.toConfig request s
  have lost : (request.selectAttemptNode config.toConfig s).1.empty = true →
      (request.selectAttemptNode config.toConfig s).2.1 = request := by
    rw [StandardHttpRequest.selectAttemptNode]
    intro empty
    split
    · rfl
    · rename_i known
      rw [if_neg known] at empty
      dsimp only at empty ⊢
      split
      · rfl
      · rename_i later
        rw [if_neg later] at empty
        simp only at empty
        simp [empty]
  rw [makeRequest]
  generalize request.selectAttemptNode config.toConfig s = result at select lost
  obtain ⟨node, selected, t⟩ := result
  dsimp only at select lost ⊢
  split
  · rename_i empty
    exact .foreign empty (lost empty)
  · split
    · exact .failed rfl select rfl
    · rename_i prepared compressed
      obtain ⟨sameNode, sameRequest⟩ := conclude_request config.toConfig node
        (prepared.optimizeRequestHeaders (buildHeaderOptimizationPolicy config))
        (delegate (prepared.optimizeRequestHeaders (buildHeaderOptimizationPolicy config))) t
      exact .sent (sameNode.symm ▸ select) compressed sameRequest

end AlternatorHttpClient

theorem folded_names : toLowerAscii contentEncodingHeader = contentEncodingHeader ∧
    toLowerAscii contentLengthHeader = contentLengthHeader ∧
    toLowerAscii contentSha256Header = contentSha256Header := by
  decide

/-- Header optimisation leaves the two headers that say what the body is. -/
def HttpConfig.KeepsFraming (config : HttpConfig) : Prop :=
  (buildHeaderOptimizationPolicy config).enabled = true →
    contentEncodingHeader ∈ (buildHeaderOptimizationPolicy config).allowedHeaders ∧
      contentLengthHeader ∈ (buildHeaderOptimizationPolicy config).allowedHeaders

/-- With a compressor the two are added to any list of allowed headers. -/
theorem HttpConfig.keepsFraming {config : HttpConfig}
    (compressing : config.requestCompressor.isSome = true) : config.KeepsFraming := by
  obtain ⟨foldedEncoding, foldedLength, _⟩ := folded_names
  rw [KeepsFraming, buildHeaderOptimizationPolicy]
  split
  · intro enabled
    contradiction
  · intro _
    simp only [compressing, if_true, normalizeHeaderAllowlist, List.mem_toFinset, List.map_append,
      List.map_cons, foldedEncoding, foldedLength, List.mem_append, List.mem_cons, true_or, or_true,
      and_self]

namespace StandardHttpRequest

/-- What a server makes of the body that has these decoders. -/
def decodedBody (request : StandardHttpRequest)
    (decoders : List (Option HttpContentEncodingDecoder)) : Except Error Bytes :=
  match request.contentBody with
  | none => .ok []
  | some body =>
    decodeHttpResponseBody body.content
      ((request.headers.getHeader contentEncodingHeader).getD []) decoders

/-- The header that frames the body says its length. Compression changes the body,
and has to change the header with it. -/
def Measured (request : StandardHttpRequest) : Prop :=
  ∀ body, request.contentBody = some body →
    request.headers.getHeader contentLengthHeader = some (decimal body.content.length)

/-- The body of a request, with what the headers say about it, as it came or as
compressed once from what came. -/
inductive Carries {config : HttpConfig} (client : AlternatorHttpClient config)
    (original : StandardHttpRequest) (request : StandardHttpRequest) : Prop
  | plain (body : request.contentBody = original.contentBody)
      (encoding : request.headers.getHeader contentEncodingHeader =
        original.headers.getHeader contentEncodingHeader)
      (length : request.headers.getHeader contentLengthHeader =
        original.headers.getHeader contentLengthHeader)
  | compressed {body : ContentBody} {compressedBody : Bytes}
      (present : original.contentBody = some body)
      (unencoded : original.headers.getHeader contentEncodingHeader = none)
      (compress : config.compress body.content body.content.length = .ok (some compressedBody))
      (stored : request.contentBody = some { content := compressedBody })
      (encoding : request.headers.getHeader contentEncodingHeader =
        some (cStr client.requestContentEncoding))
      (length : request.headers.getHeader contentLengthHeader =
        some (decimal compressedBody.length))

variable {config : HttpConfig} {client : AlternatorHttpClient config}
  {original request after : StandardHttpRequest}

theorem Carries.refl (original : StandardHttpRequest) : Carries client original original :=
  .plain rfl rfl rfl

/-- What a request carries is decided by its body, its encoding and its length;
every change to the rest of it, such as a rewritten endpoint, is allowed. -/
theorem Carries.congr (carries : Carries client original request)
    (body : after.contentBody = request.contentBody)
    (encoding : after.headers.getHeader contentEncodingHeader =
      request.headers.getHeader contentEncodingHeader)
    (length : after.headers.getHeader contentLengthHeader =
      request.headers.getHeader contentLengthHeader) : Carries client original after := by
  cases carries with
  | plain sameBody sameEncoding sameLength =>
    exact .plain (body.trans sameBody) (encoding.trans sameEncoding) (length.trans sameLength)
  | compressed present unencoded compress stored labelled measured =>
    exact .compressed present unencoded compress (body.trans stored) (encoding.trans labelled)
      (length.trans measured)

theorem Carries.selected {node : Url} (carries : Carries client original request)
    (select : Selected node request after) : Carries client original after :=
  carries.congr select.contentBody (select.headers _ (by decide)) (select.headers _ (by decide))

theorem Carries.setAcceptEncoding (carries : Carries client original request) :
    Carries client original (client.setAcceptEncoding request) := by
  have encoding : toLowerAscii contentEncodingHeader ≠ acceptEncodingHeader := by decide
  have length : toLowerAscii contentLengthHeader ≠ acceptEncodingHeader := by decide
  apply carries.congr (AlternatorHttpClient.setAcceptEncoding_contentBody request)
  · simp [AlternatorHttpClient.getHeader_setAcceptEncoding, encoding]
  · simp [AlternatorHttpClient.getHeader_setAcceptEncoding, length]

theorem Carries.compressAwsRequestBody (carries : Carries client original request)
    (done : request.compressAwsRequestBody config client.requestContentEncoding = .ok after) :
    Carries client original after := by
  obtain rfl | ⟨body, compressedBody, present, unencoded, compress, rfl⟩ :=
    compressAwsRequestBody_cases done
  · exact carries
  · obtain ⟨foldedEncoding, foldedLength, foldedDigest⟩ := folded_names
    have apart : contentEncodingHeader ≠ contentLengthHeader ∧
        contentEncodingHeader ≠ contentSha256Header ∧
        contentLengthHeader ≠ contentSha256Header := by decide
    cases carries with
    | plain sameBody sameEncoding sameLength =>
      refine .compressed (sameBody ▸ present) (sameEncoding ▸ unencoded) compress rfl ?_ ?_
      · simp [Headers.getHeader_deleteHeader, Headers.getHeader_setHeaderValue, foldedEncoding,
          foldedLength, foldedDigest, apart]
      · simp [Headers.getHeader_deleteHeader, Headers.getHeader_setHeaderValue, foldedLength,
          foldedDigest, apart]
    | compressed _ _ _ _ labelled _ => simp [labelled] at unencoded

theorem Carries.optimizeRequestHeaders (framing : config.KeepsFraming)
    (carries : Carries client original request) :
    Carries client original
      (request.optimizeRequestHeaders (buildHeaderOptimizationPolicy config)) := by
  obtain ⟨foldedEncoding, foldedLength, _⟩ := folded_names
  have kept : ∀ name, (name = contentEncodingHeader ∨ name = contentLengthHeader) →
      (request.optimizeRequestHeaders (buildHeaderOptimizationPolicy config)).headers.getHeader
        name = request.headers.getHeader name := by
    intro name either
    rw [getHeader_optimizeRequestHeaders, if_neg]
    rintro ⟨enabled, forbidden⟩
    obtain ⟨encoding, length⟩ := framing enabled
    rcases either with rfl | rfl
    · exact forbidden (foldedEncoding ▸ encoding)
    · exact forbidden (foldedLength ▸ length)
  exact carries.congr (optimizeRequestHeaders_contentBody _) (kept _ (.inl rfl))
    (kept _ (.inr rfl))

theorem Carries.makeRequest (framing : config.KeepsFraming)
    (carries : Carries client original request)
    (delegate : StandardHttpRequest → Option StandardHttpResponse) (s : Session) :
    Carries client original (client.makeRequest delegate request s).1.request := by
  cases client.left_makeRequest delegate request s with
  | foreign lost same =>
    rw [same]
    exact carries
  | failed unsent select same =>
    rw [same]
    exact (carries.selected select).setAcceptEncoding
  | sent select compressed same =>
    rw [same]
    exact ((carries.selected select).setAcceptEncoding.compressAwsRequestBody
      compressed).optimizeRequestHeaders framing

theorem Carries.measured (carries : Carries client original request)
    (measured : original.Measured) : request.Measured := by
  intro sent stored
  cases carries with
  | plain sameBody _ sameLength =>
    rw [sameLength]
    exact measured sent (sameBody ▸ stored)
  | compressed _ _ _ kept _ length =>
    rw [kept, Option.some.injEq] at stored
    rw [length, ← stored]

end StandardHttpRequest

/-- The decoders undo the compressor under the name that a request states for it. -/
def AlternatorHttpClient.Restores {config : HttpConfig} (client : AlternatorHttpClient config)
    (decoders : List (Option HttpContentEncodingDecoder)) : Prop :=
  ∀ content compressedBody, config.compress content content.length = .ok (some compressedBody) →
    decodeHttpResponseBody compressedBody (cStr client.requestContentEncoding) decoders =
      .ok content

theorem decodeHttpResponseBody_unlabelled (body : Bytes)
    (decoders : List (Option HttpContentEncodingDecoder)) :
    decodeHttpResponseBody body [] decoders = .ok body := rfl

theorem StandardHttpRequest.Carries.decodedBody {config : HttpConfig}
    {client : AlternatorHttpClient config} {original request : StandardHttpRequest}
    {decoders : List (Option HttpContentEncodingDecoder)}
    (carries : Carries client original request) (restores : client.Restores decoders) :
    request.decodedBody decoders = original.decodedBody decoders := by
  cases carries with
  | plain sameBody sameEncoding _ =>
    rw [StandardHttpRequest.decodedBody, StandardHttpRequest.decodedBody, sameBody, sameEncoding]
  | @compressed body compressedBody present unencoded compress stored labelled _ =>
    have plain : original.decodedBody decoders = .ok body.content := by
      simp only [StandardHttpRequest.decodedBody, present, unencoded, Option.getD_none,
        decodeHttpResponseBody_unlabelled]
    rw [plain, StandardHttpRequest.decodedBody, stored, labelled]
    exact restores body.content compressedBody compress

/-- However often a request object is sent, and whatever happens in between, its
body reads back as what the SDK put there, and its length is the one it states. -/
theorem transmitted_body_reads_back {config : HttpConfig} (client : AlternatorHttpClient config)
    (framing : config.KeepsFraming) {decoders : List (Option HttpContentEncodingDecoder)}
    (restores : client.Restores decoders) (request : StandardHttpRequest)
    (transmissions : List Transmission) (s : Session) :
    ∀ sending ∈ client.transmit request transmissions s,
      sending.request.decodedBody decoders = request.decodedBody decoders ∧
        (request.Measured → sending.request.Measured) := by
  refine AlternatorHttpClient.forall_transmit (fun delegate sent t carries => ?_)
    (@StandardHttpRequest.Carries.refl config client request) transmissions s
  have after := carries.makeRequest framing delegate t
  exact ⟨after, after.decodedBody restores, after.measured⟩

/-- A compressor and its decoder: the bytes in the other order. -/
def reversing : HttpConfig :=
  { requestCompressor := some ⟨bytes "x-reverse"⟩
    contentEncodingDecoders := [some ⟨[bytes "x-reverse"], fun body _ => .ok body.reverse⟩]
    headerOptimization := some defaultHeaderOptimization
    compress := fun body _ => .ok (some body.reverse) }

def reversingClient : AlternatorHttpClient reversing :=
  ⟨bytes "x-reverse", bytes "x-reverse", rfl, rfl⟩

theorem reversingClient_restores :
    reversingClient.Restores reversing.contentEncodingDecoders := by
  intro content compressedBody compress
  cases compress
  have single : parseContentEncodings (cStr reversingClient.requestContentEncoding) =
      [bytes "x-reverse"] := by decide
  have other : bytes "x-reverse" ≠ bytes "identity" := by decide
  have entries : buildDecoderEntries reversing.contentEncodingDecoders =
      .ok [⟨bytes "x-reverse", ⟨[bytes "x-reverse"], fun body _ => .ok body.reverse⟩⟩] := rfl
  simp only [decodeHttpResponseBody, single, entries, List.reverse_singleton, undoEncodings,
    findDecoderEntry, other, if_false]
  simp

/-- A request as the SDK builds it, for the endpoint of the override. -/
def putRequest : StandardHttpRequest :=
  { uri := ⟨.http, endpointOverrideHost, 8080⟩
    headers := (Headers.setHeaderValue (Headers.setHeaderValue OrderedMap.empty
      (bytes "Content-Length") (bytes "2")) (bytes "X-Amz-Date") (bytes "20250101T000000Z"))
    contentBody := some { content := bytes "ab" } }

/-- One request object sent twice, as for a retry: the second time its body is
compressed already, is left alone, and reads back the same. -/
theorem transmitted_twice :
    let sendings := reversingClient.transmit putRequest
      [⟨[], fun _ => some { responseCode := 500 }⟩, ⟨[], fun _ => some { responseCode := 200 }⟩]
      (Session.alone (bytes "a") [])
    (sendings.map fun sending => sending.request.contentBody) =
        [some { content := bytes "ba" }, some { content := bytes "ba" }] ∧
      ∀ sending ∈ sendings,
        sending.request.decodedBody reversing.contentEncodingDecoders =
            putRequest.decodedBody reversing.contentEncodingDecoders ∧
          sending.request.Measured := by
  intro sendings
  have measured : putRequest.Measured := by
    intro body present
    cases present
    decide
  refine ⟨by decide +kernel, fun sending member => ?_⟩
  obtain ⟨same, keeps⟩ := transmitted_body_reads_back reversingClient (HttpConfig.keepsFraming rfl)
    reversingClient_restores putRequest _ _ sending member
  exact ⟨same, keeps measured⟩

/-- The headers that `MakeRequest` may set or delete on its own account. -/
def ownHeaders : List Bytes :=
  [hostHeader, acceptEncodingHeader, contentEncodingHeader, contentLengthHeader, contentSha256Header]

def HttpConfig.Forbids (config : HttpConfig) (name : Bytes) : Prop :=
  (buildHeaderOptimizationPolicy config).enabled = true ∧
    toLowerAscii name ∉ (buildHeaderOptimizationPolicy config).allowedHeaders

namespace StandardHttpRequest
variable {config : HttpConfig} {client : AlternatorHttpClient config}
  {original request after : StandardHttpRequest}

/-- Endpoint and host header as they came, or as rewritten for one node. -/
def Addressed (config : HttpConfig) (original request : StandardHttpRequest) : Prop :=
  ∃ address, (∃ node, Selected node original address) ∧ request.uri = address.uri ∧
    (request.headers.getHeader hostHeader = address.headers.getHeader hostHeader ∨
      config.Forbids hostHeader ∧ request.headers.getHeader hostHeader = none)

/-- What a request keeps of the one it was: the address, and the headers of the
SDK less some that header optimisation would delete. -/
structure Inherits (config : HttpConfig) (original request : StandardHttpRequest) : Prop where
  addressed : Addressed config original request
  headers : ∀ name, toLowerAscii name ∉ ownHeaders →
    request.headers.getHeader name = original.headers.getHeader name ∨
      config.Forbids name ∧ request.headers.getHeader name = none

theorem Inherits.refl (config : HttpConfig) (original : StandardHttpRequest) :
    Inherits config original original :=
  ⟨⟨original, ⟨{}, .inl rfl⟩, rfl, .inl rfl⟩, fun _ _ => .inl rfl⟩

theorem Inherits.congr (inherits : Inherits config original request) (uri : after.uri = request.uri)
    (same : ∀ name, toLowerAscii name ∉ ownHeaders ∨ name = hostHeader →
      after.headers.getHeader name = request.headers.getHeader name) :
    Inherits config original after := by
  obtain ⟨⟨address, select, sameUri, host⟩, headers⟩ := inherits
  refine ⟨⟨address, select, uri.trans sameUri, ?_⟩, ?_⟩
  · rwa [same hostHeader (.inr rfl)]
  · intro name foreign
    rw [same name (.inl foreign)]
    exact headers name foreign

theorem Inherits.selected {node : Url} (inherits : Inherits config original request)
    (select : Selected node request after) : Inherits config original after := by
  rcases select with rfl | rfl
  · exact inherits
  · refine ⟨⟨original.rewriteRequestEndpoint node, ⟨node, .inr rfl⟩, rfl, .inl ?_⟩, ?_⟩
    · rw [getHeader_rewriteRequestEndpoint, getHeader_rewriteRequestEndpoint]
      have folded : toLowerAscii hostHeader = hostHeader := by decide
      rw [if_pos folded, if_pos folded]
    · intro name foreign
      have other : toLowerAscii name ≠ hostHeader := by
        intro host
        exact foreign (host ▸ List.mem_cons_self)
      rw [getHeader_rewriteRequestEndpoint, if_neg other]
      exact inherits.headers name foreign

theorem Inherits.setAcceptEncoding (inherits : Inherits config original request) :
    Inherits config original (client.setAcceptEncoding request) := by
  refine inherits.congr (AlternatorHttpClient.setAcceptEncoding_uri request) fun name other => ?_
  rw [AlternatorHttpClient.getHeader_setAcceptEncoding, if_neg]
  rintro ⟨_, accept⟩
  rcases other with foreign | rfl
  · exact foreign (accept ▸ by decide)
  · exact absurd accept (by decide)

theorem Inherits.compressAwsRequestBody (inherits : Inherits config original request)
    (done : request.compressAwsRequestBody config client.requestContentEncoding = .ok after) :
    Inherits config original after := by
  obtain rfl | ⟨body, compressedBody, present, unencoded, compress, rfl⟩ :=
    compressAwsRequestBody_cases done
  · exact inherits
  · obtain ⟨foldedEncoding, foldedLength, foldedDigest⟩ := folded_names
    refine inherits.congr rfl fun name other => ?_
    have apart : toLowerAscii name ≠ contentEncodingHeader ∧
        toLowerAscii name ≠ contentLengthHeader ∧ toLowerAscii name ≠ contentSha256Header := by
      rcases other with foreign | rfl
      · simp only [ownHeaders, List.mem_cons, not_or] at foreign
        exact ⟨foreign.2.2.1, foreign.2.2.2.1, foreign.2.2.2.2.1⟩
      · decide
    simp [Headers.getHeader_deleteHeader, Headers.getHeader_setHeaderValue, foldedEncoding,
      foldedLength, foldedDigest, apart]

theorem Inherits.optimizeRequestHeaders (inherits : Inherits config original request) :
    Inherits config original
      (request.optimizeRequestHeaders (buildHeaderOptimizationPolicy config)) := by
  obtain ⟨⟨address, select, uri, host⟩, headers⟩ := inherits
  refine ⟨⟨address, select, (optimizeRequestHeaders_uri _).trans uri, ?_⟩, ?_⟩
  · rw [getHeader_optimizeRequestHeaders]
    split
    · rename_i forbidden
      exact .inr ⟨forbidden, rfl⟩
    · exact host
  · intro name foreign
    rw [getHeader_optimizeRequestHeaders]
    split
    · rename_i forbidden
      exact .inr ⟨forbidden, rfl⟩
    · exact headers name foreign

end StandardHttpRequest

/-- A request as a node gets it: no header that header optimisation forbids, a
host header that goes with the endpoint, the encodings of the decoders, and the
other headers as the SDK set them. -/
structure StandardHttpRequest.Trimmed {config : HttpConfig} (client : AlternatorHttpClient config)
    (original request : StandardHttpRequest) : Prop where
  forbidden : ∀ name, config.Forbids name → request.headers.getHeader name = none
  addressed : StandardHttpRequest.Addressed config original request
  accepting : client.acceptEncodingValue ≠ [] → ¬ config.Forbids acceptEncodingHeader →
    request.headers.getHeader acceptEncodingHeader = some (cStr client.acceptEncodingValue)
  inherited : ∀ name, toLowerAscii name ∉ ownHeaders → ¬ config.Forbids name →
    request.headers.getHeader name = original.headers.getHeader name

namespace StandardHttpRequest
variable {config : HttpConfig} {client : AlternatorHttpClient config}
  {original request prepared : StandardHttpRequest}

theorem accepting_compressAwsRequestBody {value : Option Bytes}
    (done : request.compressAwsRequestBody config client.requestContentEncoding = .ok prepared)
    (accepting : request.headers.getHeader acceptEncodingHeader = value) :
    prepared.headers.getHeader acceptEncodingHeader = value := by
  obtain rfl | ⟨body, compressedBody, present, unencoded, compress, rfl⟩ :=
    compressAwsRequestBody_cases done
  · exact accepting
  · have apart : toLowerAscii acceptEncodingHeader ≠ toLowerAscii contentEncodingHeader ∧
        toLowerAscii acceptEncodingHeader ≠ toLowerAscii contentLengthHeader ∧
        toLowerAscii acceptEncodingHeader ≠ toLowerAscii contentSha256Header := by decide
    simp [Headers.getHeader_deleteHeader, Headers.getHeader_setHeaderValue, apart, accepting]

theorem Inherits.makeRequest (inherits : Inherits config original request)
    (delegate : StandardHttpRequest → Option StandardHttpResponse) (s : Session) :
    let sending := (client.makeRequest delegate request s).1
    Inherits config original sending.request ∧
      (sending.sent = true → sending.node.empty = false →
        Trimmed client original sending.request) := by
  dsimp only
  cases client.left_makeRequest delegate request s with
  | foreign lost same =>
    refine ⟨?_, fun _ found => ?_⟩
    · rw [same]
      exact inherits
    · rw [lost] at found
      contradiction
  | failed unsent select same =>
    refine ⟨?_, fun sent _ => ?_⟩
    · rw [same]
      exact (inherits.selected select).setAcceptEncoding
    · rw [unsent] at sent
      contradiction
  | sent select compressed same =>
    have kept := ((inherits.selected select).setAcceptEncoding.compressAwsRequestBody
      compressed).optimizeRequestHeaders
    rw [same]
    refine ⟨kept, fun _ _ => ⟨?_, kept.addressed, ?_, ?_⟩⟩
    · intro name forbidden
      exact getHeader_optimizeRequestHeaders.trans (if_pos forbidden)
    · intro advertised allowed
      rw [getHeader_optimizeRequestHeaders.trans (if_neg allowed)]
      apply accepting_compressAwsRequestBody compressed
      have folded : toLowerAscii acceptEncodingHeader = acceptEncodingHeader := by decide
      rw [AlternatorHttpClient.getHeader_setAcceptEncoding, if_pos ⟨advertised, folded⟩]
    · intro name foreign allowed
      rcases kept.headers name foreign with inherited | ⟨forbidden, _⟩
      · exact inherited
      · exact absurd forbidden allowed

end StandardHttpRequest

end AlternatorClient.Aws
