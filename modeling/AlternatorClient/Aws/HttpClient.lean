import AlternatorClient.LiveNodes.Discovery

/-! `AlternatorHttpClient`: which node an attempt of the SDK goes to and what is
reported about it. Of a request the endpoint and two headers are kept; what
`MakeRequest` does to its body and to other headers reports nothing. Hosts and
header values pass between the strings of the SDK and those of the client through
`c_str()`, so a zero byte ends them. -/
namespace AlternatorClient.Aws
open Foundation

inductive Scheme where
  | http
  | https
  deriving DecidableEq, Repr

/-- `Aws::Http::URI`, as far as the client reads it. Path and query stay as they are
when the endpoint is rewritten, so they are left out. -/
structure Uri where
  scheme : Scheme
  host : Bytes
  port : UInt16
  deriving DecidableEq, Repr

structure HttpRequest where
  uri : Uri
  sdkRequest : Option Bytes := none
  hostHeader : Option Bytes := none
  deriving DecidableEq, Repr

structure HttpResponse where
  clientError : Bool := false
  responseCode : Int
  contentEncoding : Option Bytes := none
  body : Bytes := []
  deriving DecidableEq, Repr

def endpointOverrideHost : Bytes := bytes "dynamodb.fake.alternator.cluster.node"

/-- The codes of the SDK's `HttpResponseCode` that stand for no answer at all:
`REQUEST_NOT_MADE` and its two timeouts. -/
def requestNotMade : Int := -1
def networkReadTimeout : Int := 598
def networkConnectTimeout : Int := 599

def awsScheme (scheme : Bytes) : Scheme := if scheme = bytes "https" then .https else .http

def bracketIPv6Host (host : Bytes) : Bytes :=
  if host.contains (byte ':') && (host.isEmpty || host.head? != some (byte '[')) then
    bytes "[" ++ host ++ bytes "]"
  else host

def unbracketHost (host : Bytes) : Bytes :=
  if host.length ≥ 2 && host.head? == some (byte '[') && host.getLast? == some (byte ']') then
    host.tail.dropLast
  else host

def sameEndpointHost (lhs rhs : Bytes) : Bool := unbracketHost lhs = unbracketHost rhs

def isAlternatorEndpoint (uri : Uri) (nodes : LiveNodes) (endpointOverridePort : UInt16) : Bool :=
  let host := cStr uri.host
  (sameEndpointHost host endpointOverrideHost && uri.port == endpointOverridePort) ||
    nodes.getNodes.any fun node => sameEndpointHost host node.host && uri.port == node.port

def Scheme.text : Scheme → Bytes
  | .https => bytes "https"
  | .http => bytes "http"

def urlFromAwsUri (uri : Uri) : Url :=
  { scheme := uri.scheme.text, host := cStr uri.host, port := uri.port }

def rewriteRequestEndpoint (request : HttpRequest) (node : Url) : HttpRequest :=
  { request with
    uri :=
      { scheme := awsScheme node.scheme
        host := cStr (bracketIPv6Host node.host)
        port := node.port }
    hostHeader := some (cStr node.authority) }

def observationFromHttpResult : Option HttpResponse → NodeHealthObservation
  | none => .connectionFailure
  | some response =>
    if response.clientError then .connectionFailure
    else if response.responseCode = requestNotMade ∨ response.responseCode = networkConnectTimeout ∨
        response.responseCode = networkReadTimeout then .connectionFailure
    else if response.responseCode ≥ 500 then .serverError
    else .success

def decodeCompressedAwsResponse (response : Option HttpResponse)
    (contentEncodingDecoders : List (Option HttpContentEncodingDecoder)) :
    Except Error (Option HttpResponse) :=
  match response with
  | none => .ok none
  | some response =>
    if response.clientError then .ok (some response)
    else
      match response.contentEncoding with
      | none => .ok (some response)
      | some contentEncoding =>
        (decodeHttpResponseBody response.body (cStr contentEncoding) contentEncodingDecoders).map
          fun body =>
          some { response with contentEncoding := none, body := body }

def afterMarker (marker : Bytes) : Bytes → Option Bytes
  | [] => if marker.isEmpty then some [] else none
  | c :: rest =>
    if marker.isPrefixOf (c :: rest) then some ((c :: rest).drop marker.length)
    else afterMarker marker rest

def isFirstSdkAttempt (request : HttpRequest) : Bool :=
  match request.sdkRequest with
  | none => false
  | some header =>
    match afterMarker (bytes "attempt=") header with
    | none => false
    | some value => (value.dropWhile fun c => c = byte ' ').head? == some (byte '1')

def selectAttemptNode (config : Config) (request : HttpRequest) (s : Session) :
    Url × HttpRequest × Session :=
  if !isAlternatorEndpoint request.uri s.nodes config.port then ({}, request, s)
  else
    let currentNode := urlFromAwsUri request.uri
    if isFirstSdkAttempt request && !sameEndpointHost currentNode.host endpointOverrideHost then
      (currentNode, request, s)
    else
      let (node, s) := s.nextNode config
      (node, if !node.empty then rewriteRequestEndpoint request node else request, s)

abbrev Report := Url × NodeHealthObservation

/-- One call of `MakeRequest`: the request as the delegate got it, the reports
made, and what the caller gets. -/
structure Exchange where
  sent : HttpRequest
  reported : List Report
  returned : Except Error (Option HttpResponse)

def makeRequest (config : Config) (delegate : HttpRequest → Option HttpResponse)
    (request : HttpRequest)
    (s : Session) : Exchange × Session :=
  let (node, request, s) := selectAttemptNode config request s
  let response := delegate request
  if node.empty then (⟨request, [], .ok response⟩, s)
  else
    match decodeCompressedAwsResponse response config.contentEncodingDecoders with
    | .error error => (⟨request, [], .error error⟩, s)
    | .ok response =>
      (⟨request, [(node, observationFromHttpResult response)], .ok response⟩,
        s.reportNodeResult config node (observationFromHttpResult response))

/-- What tells nodes apart in this layer: the host without brackets, and the port. -/
def place (node : Url) : Bytes × UInt16 := (unbracketHost node.host, node.port)

end AlternatorClient.Aws
