import AlternatorClient.Aws.HttpClient
import AlternatorClient.HttpCompression.Tokens
import Mathlib.Data.Finset.Dedup
import Mathlib.Data.Finset.Empty

/-! What `AlternatorHttpClient` makes of a request before it is sent and of a
response before the SDK gets it: body, headers and the exceptions on the way. The
routing of `Aws.HttpClient` is the same with all of this left out. -/
namespace AlternatorClient.Aws
open Foundation

/-- `Aws::Http::HeaderValueCollection`: one value for each name, which the SDK
folds to lower case. -/
abbrev Headers := OrderedMap toLowerAscii Bytes

namespace Headers

def getHeader (headers : Headers) (name : Bytes) : Option Bytes :=
  (headers.lookup (toLowerAscii name)).map Prod.snd

def hasHeader (headers : Headers) (name : Bytes) : Bool := (headers.getHeader name).isSome

def setHeaderValue (headers : Headers) (name value : Bytes) : Headers :=
  headers.assign (toLowerAscii name) value

def deleteHeader (headers : Headers) (name : Bytes) : Headers := headers.erase (toLowerAscii name)

end Headers

def hostHeader : Bytes := bytes "host"
def sdkRequestHeaderName : Bytes := bytes "amz-sdk-request"
def acceptEncodingHeader : Bytes := bytes "accept-encoding"
def contentEncodingHeader : Bytes := bytes "content-encoding"
def contentLengthHeader : Bytes := bytes "content-length"
def transferEncodingHeader : Bytes := bytes "transfer-encoding"
def contentSha256Header : Bytes := bytes "x-amz-content-sha256"

/-- A stream by what it holds, and by whether `seekg` and `tellg` work on it. -/
structure ContentBody where
  content : Bytes
  seekable : Bool := true
  sized : Bool := true
  deriving DecidableEq

structure StandardHttpRequest where
  uri : Uri
  headers : Headers := OrderedMap.empty
  contentBody : Option ContentBody := none
  eventStream : Bool := false

structure StandardHttpResponse where
  clientError : Bool := false
  responseCode : Int
  headers : Headers := OrderedMap.empty
  body : Bytes := []

structure Credentials where
  accessKeyId : Bytes := []
  secretAccessKey : Bytes := []

structure HeaderOptimizationContext where
  credentialsConfigured : Bool := false
  userAgentConfigured : Bool := false

/-- `HeaderOptimization` is an interface with the one method `AllowedHeaders`, so it
is that function. -/
abbrev HeaderOptimization := HeaderOptimizationContext → List Bytes

def defaultHeaderOptimization : HeaderOptimization := fun context =>
  [bytes "Host", bytes "X-Amz-Target", bytes "Content-Length", bytes "Accept-Encoding",
    bytes "Content-Encoding"] ++
  (if context.credentialsConfigured then [bytes "Authorization", bytes "X-Amz-Date"] else []) ++
  (if context.userAgentConfigured then [bytes "User-Agent"] else [])

def headerAllowlistOptimization (allowedHeaders : List Bytes) : HeaderOptimization :=
  fun _ => allowedHeaders

/-- What `AlternatorHttpClient` is configured by beyond the routing. -/
structure HttpConfig extends Config where
  credentials : Credentials := {}
  userAgent : Bytes := bytes "scylladb-alternator-client-cpp/devel"
  headerOptimization : Option HeaderOptimization := none
  /-- `Compress` of the request compressor, from the body and its size: `none` leaves
  the body alone. -/
  compress : Bytes → Nat → Except Error (Option Bytes) := fun _ _ => .ok none

structure HeaderOptimizationPolicy where
  enabled : Bool := false
  allowedHeaders : Finset Bytes := ∅

def normalizeHeaderAllowlist (headers : List Bytes) : Finset Bytes :=
  (headers.map toLowerAscii).toFinset

def headerOptimizationContextFromConfig (config : HttpConfig) : HeaderOptimizationContext :=
  { credentialsConfigured :=
      !config.credentials.accessKeyId.isEmpty || !config.credentials.secretAccessKey.isEmpty
    userAgentConfigured := !config.userAgent.isEmpty }

def buildHeaderOptimizationPolicy (config : HttpConfig) : HeaderOptimizationPolicy :=
  match config.headerOptimization with
  | none => {}
  | some allowedHeaders =>
    let headers := allowedHeaders (headerOptimizationContextFromConfig config)
    let headers := headers ++
      if config.requestCompressor.isSome then [contentEncodingHeader, contentLengthHeader] else []
    { enabled := true, allowedHeaders := normalizeHeaderAllowlist headers }

namespace StandardHttpRequest

def routed (request : StandardHttpRequest) : HttpRequest :=
  { uri := request.uri
    sdkRequest := request.headers.getHeader sdkRequestHeaderName
    hostHeader := request.headers.getHeader hostHeader }

def rewriteRequestEndpoint (request : StandardHttpRequest) (node : Url) : StandardHttpRequest :=
  { request with
    uri :=
      { scheme := awsScheme node.scheme
        host := cStr (bracketIPv6Host node.host)
        port := node.port }
    headers := request.headers.setHeaderValue hostHeader (cStr node.authority) }

def selectAttemptNode (config : Config) (request : StandardHttpRequest) (s : Session) :
    Url × StandardHttpRequest × Session :=
  if !isAlternatorEndpoint request.uri s.nodes config.port then ({}, request, s)
  else
    let currentNode := urlFromAwsUri request.uri
    if isFirstSdkAttempt request.routed &&
        !sameEndpointHost currentNode.host endpointOverrideHost then
      (currentNode, request, s)
    else
      let (node, s) := s.nextNode config
      (node, if !node.empty then request.rewriteRequestEndpoint node else request, s)

def rewindForReading (body : ContentBody) (description : Bytes) : Except Error Unit :=
  if body.seekable then .ok ()
  else .error (.runtimeError (description ++ bytes " is not seekable"))

def prepareOriginalRequestBodyForReading (body : ContentBody) : Except Error Nat :=
  if !body.seekable then .error (.runtimeError (bytes "HTTP request body is not seekable"))
  else if !body.sized then
    .error (.runtimeError (bytes "HTTP request body size is unavailable"))
  else
    (rewindForReading body (bytes "HTTP request body")).map fun _ => body.content.length

def compressAwsRequestBody (config : HttpConfig) (requestContentEncoding : Bytes)
    (request : StandardHttpRequest) : Except Error StandardHttpRequest :=
  match request.contentBody with
  | none => .ok request
  | some originalBody =>
    if config.requestCompressor.isNone || requestContentEncoding.isEmpty || request.eventStream ||
        request.headers.hasHeader transferEncodingHeader ||
        request.headers.hasHeader contentEncodingHeader then .ok request
    else
      match prepareOriginalRequestBodyForReading originalBody with
      | .error error => .error error
      | .ok originalBodySize =>
        match config.compress originalBody.content originalBodySize with
        | .error error => .error error
        | .ok none =>
          (rewindForReading originalBody (bytes "HTTP request body")).map fun _ => request
        | .ok (some compressedBody) =>
          .ok { request with
            headers :=
              ((request.headers.setHeaderValue contentEncodingHeader
                (cStr requestContentEncoding)).setHeaderValue contentLengthHeader
                (decimal compressedBody.length)).deleteHeader contentSha256Header
            contentBody := some { content := compressedBody } }

-- the names of headers are tokens, of which `c_str()` leaves nothing out
def optimizeRequestHeaders (request : StandardHttpRequest) (policy : HeaderOptimizationPolicy) :
    StandardHttpRequest :=
  if !policy.enabled then request
  else
    { request with
      headers := request.headers.entries.foldl (fun headers header =>
        if toLowerAscii header.1 ∈ policy.allowedHeaders then headers
        else Headers.deleteHeader headers header.1) request.headers }

end StandardHttpRequest

namespace StandardHttpResponse

def routed (response : StandardHttpResponse) : HttpResponse :=
  { clientError := response.clientError
    responseCode := response.responseCode
    contentEncoding := response.headers.getHeader contentEncodingHeader
    body := response.body }

def decodeCompressedAwsResponse (response : Option StandardHttpResponse)
    (contentEncodingDecoders : List (Option HttpContentEncodingDecoder)) :
    Except Error (Option StandardHttpResponse) :=
  match response with
  | none => .ok none
  | some response =>
    if response.clientError then .ok (some response)
    else
      match response.headers.getHeader contentEncodingHeader with
      | none => .ok (some response)
      | some contentEncoding =>
        (decodeHttpResponseBody response.body (cStr contentEncoding) contentEncodingDecoders).map
          fun decodedBody =>
          let copied := response.headers.entries.foldl (fun headers header =>
            if toLowerAscii header.1 = contentEncodingHeader ∨
                toLowerAscii header.1 = contentLengthHeader then headers
            else Headers.setHeaderValue headers header.1 header.2) OrderedMap.empty
          some
            { responseCode := response.responseCode
              headers :=
                Headers.setHeaderValue copied contentLengthHeader (decimal decodedBody.length)
              body := decodedBody }

end StandardHttpResponse

/-- The client, with the two values that its constructor takes from the configuration. -/
structure AlternatorHttpClient (config : HttpConfig) where
  requestContentEncoding : Bytes
  acceptEncodingValue : Bytes
  requestContentEncoding_eq :
    buildRequestContentEncodingValue config.requestCompressor = .ok requestContentEncoding
  acceptEncodingValue_eq :
    buildAcceptEncodingValue config.contentEncodingDecoders = .ok acceptEncodingValue

/-- One call of `MakeRequest`: the node selected, the request object afterwards
and whether the delegate got it, the reports made, and what the caller gets. -/
structure Sending where
  node : Url
  request : StandardHttpRequest
  sent : Bool
  reported : List Report
  returned : Except Error (Option StandardHttpResponse)

namespace AlternatorHttpClient

def new (config : HttpConfig) : Except Error (AlternatorHttpClient config) :=
  match requestEq : buildRequestContentEncodingValue config.requestCompressor with
  | .error error => .error error
  | .ok requestContentEncoding =>
    match acceptEq : buildAcceptEncodingValue config.contentEncodingDecoders with
    | .error error => .error error
    | .ok acceptEncodingValue =>
      .ok ⟨requestContentEncoding, acceptEncodingValue, requestEq, acceptEq⟩

variable {config : HttpConfig}

def setAcceptEncoding (client : AlternatorHttpClient config) (request : StandardHttpRequest) :
    StandardHttpRequest :=
  if client.acceptEncodingValue.isEmpty then request
  else
    { request with
      headers :=
        request.headers.setHeaderValue acceptEncodingHeader (cStr client.acceptEncodingValue) }

/-- What is left of `MakeRequest` once the delegate has answered. -/
def conclude (config : Config) (node : Url) (request : StandardHttpRequest)
    (response : Option StandardHttpResponse) (s : Session) : Sending × Session :=
  match StandardHttpResponse.decodeCompressedAwsResponse response
      config.contentEncodingDecoders with
  | .error error => (⟨node, request, true, [], .error error⟩, s)
  | .ok response =>
    let observation := observationFromHttpResult (response.map StandardHttpResponse.routed)
    (⟨node, request, true, [(node, observation)], .ok response⟩,
      s.reportNodeResult config node observation)

def makeRequest (client : AlternatorHttpClient config)
    (delegate : StandardHttpRequest → Option StandardHttpResponse) (request : StandardHttpRequest)
    (s : Session) : Sending × Session :=
  let (node, request, s) := request.selectAttemptNode config.toConfig s
  if node.empty then (⟨node, request, true, [], .ok (delegate request)⟩, s)
  else
    let request := client.setAcceptEncoding request
    match request.compressAwsRequestBody config client.requestContentEncoding with
    | .error error => (⟨node, request, false, [], .error error⟩, s)
    | .ok request =>
      let request := request.optimizeRequestHeaders (buildHeaderOptimizationPolicy config)
      conclude config.toConfig node request (delegate request) s

end AlternatorHttpClient

namespace Headers
variable {headers : Headers} {name other value : Bytes}

@[simp] theorem getHeader_empty : Headers.getHeader OrderedMap.empty name = none := rfl

theorem getHeader_setHeaderValue :
    (headers.setHeaderValue name value).getHeader other =
      if toLowerAscii other = toLowerAscii name then some value else headers.getHeader other := by
  rw [getHeader, setHeaderValue, OrderedMap.lookup_assign, toLowerAscii_toLowerAscii]
  split
  · rfl
  · rfl

theorem getHeader_deleteHeader :
    (headers.deleteHeader name).getHeader other =
      if toLowerAscii other = toLowerAscii name then none else headers.getHeader other := by
  rw [getHeader, deleteHeader, OrderedMap.lookup_erase]
  split
  · rfl
  · rfl

/-- A loop over a copy of the headers that deletes those it does not keep. -/
theorem getHeader_foldl_delete (kept : Bytes → Prop) [DecidablePred kept]
    (entries : List (Bytes × Bytes)) :
    Headers.getHeader (entries.foldl (fun headers header =>
      if kept (toLowerAscii header.1) then headers
      else Headers.deleteHeader headers header.1) headers) name =
    if ¬ kept (toLowerAscii name) ∧ ∃ entry ∈ entries, toLowerAscii entry.1 = toLowerAscii name
    then none else headers.getHeader name := by
  induction entries generalizing headers with
  | nil => simp
  | cons entry rest ih =>
    rw [List.foldl_cons, ih]
    by_cases same : toLowerAscii entry.1 = toLowerAscii name
    · by_cases keep : kept (toLowerAscii name)
      · simp [same, keep]
      · simp [same, keep, getHeader_deleteHeader]
    · have elsewhere : (∃ header ∈ entry :: rest, toLowerAscii header.1 = toLowerAscii name) ↔
          ∃ header ∈ rest, toLowerAscii header.1 = toLowerAscii name := by
        rw [List.exists_mem_cons_iff]
        exact or_iff_right same
      simp only [elsewhere]
      by_cases keep : kept (toLowerAscii entry.1)
      · simp only [keep, if_true]
      · simp only [keep, if_false, getHeader_deleteHeader, Ne.symm same]

theorem getHeader_eq_none (absent : ∀ entry ∈ headers.entries,
    toLowerAscii entry.1 ≠ toLowerAscii name) : headers.getHeader name = none := by
  rw [getHeader, OrderedMap.lookup, List.find?_eq_none.mpr, Option.map_none]
  intro entry member
  simpa using absent entry member

/-- A loop that copies headers other than the skipped ones, each name once. -/
theorem getHeader_foldl_set (skipped : Bytes → Prop) [DecidablePred skipped]
    {entries : List (Bytes × Bytes)}
    (ascending : Ascending (fun entry : Bytes × Bytes => toLowerAscii entry.1) entries) :
    Headers.getHeader (entries.foldl (fun headers header =>
      if skipped (toLowerAscii header.1) then headers
      else Headers.setHeaderValue headers header.1 header.2) headers) name =
    if skipped (toLowerAscii name) then headers.getHeader name
    else ((entries.find? fun entry => toLowerAscii entry.1 = toLowerAscii name).map Prod.snd).or
      (headers.getHeader name) := by
  induction entries generalizing headers with
  | nil => simp
  | cons entry rest ih =>
    obtain ⟨above, ascending⟩ := List.pairwise_cons.mp ascending
    rw [List.foldl_cons, ih ascending]
    by_cases same : toLowerAscii entry.1 = toLowerAscii name
    · have once : rest.find? (fun entry => toLowerAscii entry.1 = toLowerAscii name) = none := by
        apply List.find?_eq_none.mpr
        intro other member
        simpa using ne_of_gt (same ▸ above other member)
      by_cases skip : skipped (toLowerAscii name)
      · simp [same, skip]
      · simp [same, skip, once, getHeader_setHeaderValue]
    · by_cases skip : skipped (toLowerAscii entry.1)
      · simp [same, skip]
      · simp [same, Ne.symm same, skip, getHeader_setHeaderValue]

end Headers

namespace StandardHttpRequest
variable {request : StandardHttpRequest}

/-- Header optimisation keeps exactly the allowed headers, compared without letter
case, and leaves their values alone; when it is off every header stays. -/
theorem getHeader_optimizeRequestHeaders {policy : HeaderOptimizationPolicy} {name : Bytes} :
    (request.optimizeRequestHeaders policy).headers.getHeader name =
      if policy.enabled ∧ toLowerAscii name ∉ policy.allowedHeaders then none
      else request.headers.getHeader name := by
  rw [optimizeRequestHeaders]
  by_cases enabled : policy.enabled = true
  · simp only [enabled, Bool.not_true, Bool.false_eq_true, if_false, true_and]
    rw [Headers.getHeader_foldl_delete fun name => name ∈ policy.allowedHeaders]
    by_cases present : ∃ entry ∈ request.headers.entries, toLowerAscii entry.1 = toLowerAscii name
    · simp only [present, and_true]
    · simp only [present, and_false, if_false]
      split
      · apply Headers.getHeader_eq_none
        intro entry member same
        exact present ⟨entry, member, same⟩
      · rfl
  · simp [enabled]

@[simp] theorem optimizeRequestHeaders_contentBody (policy : HeaderOptimizationPolicy) :
    (request.optimizeRequestHeaders policy).contentBody = request.contentBody := by
  rw [optimizeRequestHeaders]
  split
  · rfl
  · rfl

@[simp] theorem optimizeRequestHeaders_uri (policy : HeaderOptimizationPolicy) :
    (request.optimizeRequestHeaders policy).uri = request.uri := by
  rw [optimizeRequestHeaders]
  split
  · rfl
  · rfl

end StandardHttpRequest

end AlternatorClient.Aws
