import AlternatorClient.Foundation.Path
import AlternatorClient.Foundation.Pipe
import AlternatorClient.HttpClient.Responses

/-! `CurlHttpClient::Get` without libcurl, cut at its calls of the operating system,
and the exchange that it is one side of. The kernel takes a request and gives a
response in pieces of its own choice, and may interrupt any call; the server reads
and writes at any time. -/
namespace AlternatorClient
open Foundation

structure CurlHttpClient where
  contentEncodingDecoders : List (Option HttpContentEncodingDecoder) := []
  userAgent : Bytes := bytes "scylladb-alternator-client-cpp/devel"

/-- `errno` after a call that failed. -/
inductive Errno where
  | eintr
  | other
  deriving DecidableEq

/-- The descriptor to close; none is `fd_ = -1`. -/
structure FdGuard where
  fd : Option Nat
  deriving DecidableEq

namespace FdGuard

def destroy (guard : FdGuard) : List Nat := guard.fd.toList

/-- `FdGuard(FdGuard&& other)`: the new guard, and what `other` becomes. -/
def move (other : FdGuard) : FdGuard × FdGuard := (⟨other.fd⟩, ⟨none⟩)

end FdGuard

/-- Where a call of `Get` stands: the call of the operating system that it waits
for, or how it ended. -/
inductive Getting (Address : Type) where
  | getaddrinfo
  | socket (address : Address) (rest : List Address)
  | connect (guard : FdGuard) (rest : List Address)
  | send (fd : FdGuard) (sent : Nat)
  | recv (fd : FdGuard) (data : Bytes)
  | returned (result : Except Error HttpResponse)

namespace Getting
variable {Address : Type}

/-- What the guard in scope at a call would close if the call failed: the descriptor
it was given, nothing before one is open. -/
def guarded : Getting Address → List Nat
  | .connect guard _ => guard.destroy
  | .send fd _ => fd.destroy
  | .recv fd _ => fd.destroy
  | _ => []

/-- The loop of `ConnectTcp`, at the head of it: the addresses are tried in the
order in which `getaddrinfo` listed them. -/
def connectTcp : List Address → Getting Address
  | [] => .returned (.error (.runtimeError (bytes "connect failed")))
  | address :: rest => .socket address rest

/-- `getaddrinfo` gives addresses, or the text of `gai_strerror`. -/
def resolved : Except Bytes (List Address) → Getting Address
  | .error message => .returned (.error (.runtimeError message))
  | .ok results => connectTcp results

/-- `socket` gives a descriptor, or a negative number. -/
def opened (rest : List Address) : Option Nat → Getting Address
  | none => connectTcp rest
  | some fd => .connect ⟨some fd⟩ rest

/-- The loop of `SendAll`. -/
def sendAll (data : Bytes) (fd : FdGuard) (sent : Nat) : Getting Address :=
  if sent < data.length then .send fd sent else .recv fd []

/-- `connect` succeeds or not; the guard is returned or destroyed, and what is
closed is listed. -/
def connected (request : Bytes) (guard : FdGuard) (rest : List Address) :
    Bool → Getting Address × List Nat
  | true => (sendAll request guard.move.1 0, guard.move.2.destroy)
  | false => (connectTcp rest, guard.destroy)

/-- What follows a `send`. It may take fewer bytes than it was given, and an
interrupted one is made again from where it was. -/
def sent (request : Bytes) (fd : FdGuard) (sent : Nat) : Except Errno Nat → Getting Address × List Nat
  | .ok n => (sendAll request fd (sent + n), [])
  | .error .eintr => (.send fd sent, [])
  | .error .other => (.returned (.error (.runtimeError (bytes "send failed"))), fd.destroy)

/-- `recv` gives a piece, an empty one at the end of the stream. -/
def received (client : CurlHttpClient) (fd : FdGuard) (data : Bytes) :
    Except Errno Bytes → Getting Address × List Nat
  | .ok buffer =>
    if buffer.isEmpty then
      (.returned (parseHttpResponse data client.contentEncodingDecoders), fd.destroy)
    else (.recv fd (data ++ buffer), [])
  | .error .eintr => (.recv fd data, [])
  | .error .other => (.returned (.error (.runtimeError (bytes "recv failed"))), fd.destroy)

end Getting

namespace CurlHttpClient

def target (url : Url) : Bytes :=
  let path := if url.path.isEmpty then bytes "/" else url.path
  if url.query.isEmpty then path else path ++ bytes "?" ++ url.query

def headerLines (client : CurlHttpClient) (url : Url) (acceptEncodingValue : Bytes) : List Bytes :=
  [bytes "Host: " ++ url.authority, bytes "Connection: close"] ++
    (if acceptEncodingValue.isEmpty then [] else [bytes "Accept-Encoding: " ++ acceptEncodingValue]) ++
    if client.userAgent.isEmpty then [] else [bytes "User-Agent: " ++ client.userAgent]

def requestText (client : CurlHttpClient) (url : Url) (acceptEncodingValue : Bytes) : Bytes :=
  bytes "GET " ++ target url ++ bytes " HTTP/1.1\r\n" ++
    (client.headerLines url acceptEncodingValue).flatMap (fun line => line ++ bytes "\r\n") ++
    bytes "\r\n"

/-- `Get` up to its first call of the operating system: the request that it will
send, or what it throws. -/
def get (client : CurlHttpClient) (url : Url) : Except Error Bytes :=
  if url.scheme ≠ bytes "http" then
    .error (.runtimeError
      (bytes "alternator_client_cpp was built without libcurl support; https is unavailable"))
  else
    (buildAcceptEncodingValue client.contentEncodingDecoders).map fun acceptEncodingValue =>
      client.requestText url acceptEncodingValue

end CurlHttpClient

/-! ### The exchange -/

/-- `sizeof(buffer)` of `ReadAll`. -/
def bufferSize : Nat := 4096

/-- A call of `Get`, the connection, and the descriptors it was given and closed. -/
structure Exchange (Address : Type) where
  client : Getting Address := .getaddrinfo
  requests : Pipe UInt8 := {}
  responses : Pipe UInt8 := {}
  accepted : Bool := false
  opened : List Nat := []
  closed : List Nat := []

/-- What a server may have written and whether it may have hung up, by what it has read. -/
abbrev Conduct := Bytes → Bytes → Bool → Prop

namespace Exchange
variable {Address : Type}

def goOn (exchange : Exchange Address) (after : Getting Address × List Nat) : Exchange Address :=
  { exchange with client := after.1, closed := exchange.closed ++ after.2 }

/-- A call of the operating system comes back, or the server does something. -/
inductive Step (client : CurlHttpClient) (request : Bytes) (conduct : Conduct) :
    Exchange Address → Exchange Address → Prop
  | getaddrinfo {exchange : Exchange Address} (calls : exchange.client = .getaddrinfo)
      (results : Except Bytes (List Address)) :
    Step client request conduct exchange (exchange.goOn (.resolved results, []))
  | socket {exchange : Exchange Address} {address : Address} {rest : List Address}
      (calls : exchange.client = .socket address rest) (fd : Option Nat) :
    Step client request conduct exchange
      ({ exchange with opened := exchange.opened ++ fd.toList }.goOn (.opened rest fd, []))
  | connect {exchange : Exchange Address} {guard : FdGuard} {rest : List Address}
      (calls : exchange.client = .connect guard rest) (succeeds : Bool) :
    Step client request conduct exchange
      ({ exchange with accepted := succeeds }.goOn (Getting.connected request guard rest succeeds))
  | send {exchange : Exchange Address} {fd : FdGuard} {sent n : Nat}
      (calls : exchange.client = .send fd sent) (some : 0 < n) (fits : sent + n ≤ request.length) :
    Step client request conduct exchange
      ({ exchange with requests := exchange.requests.write ((request.drop sent).take n) }.goOn
        (Getting.sent request fd sent (.ok n)))
  | sendFails {exchange : Exchange Address} {fd : FdGuard} {sent : Nat}
      (calls : exchange.client = .send fd sent) (errno : Errno) :
    Step client request conduct exchange
      (exchange.goOn (Getting.sent request fd sent (.error errno)))
  | recv {exchange : Exchange Address} {fd : FdGuard} {data : Bytes} {n : Nat}
      (calls : exchange.client = .recv fd data) (some : 0 < n)
      (fits : n ≤ bufferSize ∧ n ≤ exchange.responses.waiting.length) :
    Step client request conduct exchange
      ({ exchange with responses := exchange.responses.take n }.goOn
        (Getting.received client fd data (.ok (exchange.responses.waiting.take n))))
  | recvEnds {exchange : Exchange Address} {fd : FdGuard} {data : Bytes}
      (calls : exchange.client = .recv fd data) (drained : exchange.responses.waiting = [])
      (closed : exchange.responses.closed = true) :
    Step client request conduct exchange (exchange.goOn (Getting.received client fd data (.ok [])))
  | recvFails {exchange : Exchange Address} {fd : FdGuard} {data : Bytes}
      (calls : exchange.client = .recv fd data) (errno : Errno) :
    Step client request conduct exchange
      (exchange.goOn (Getting.received client fd data (.error errno)))
  | serverReads {exchange : Exchange Address} {n : Nat} (accepted : exchange.accepted = true)
      (some : 0 < n) (fits : n ≤ exchange.requests.waiting.length)
      (may : conduct (exchange.requests.take n).read exchange.responses.written
        exchange.responses.closed) :
    Step client request conduct exchange { exchange with requests := exchange.requests.take n }
  | serverWrites {exchange : Exchange Address} {data : Bytes} (accepted : exchange.accepted = true)
      (some : data ≠ []) (stillOpen : exchange.responses.closed = false)
      (may : conduct exchange.requests.read (exchange.responses.written ++ data) false) :
    Step client request conduct exchange
      { exchange with responses := exchange.responses.write data }
  | serverHangsUp {exchange : Exchange Address} (accepted : exchange.accepted = true)
      (stillOpen : exchange.responses.closed = false)
      (may : conduct exchange.requests.read exchange.responses.written true) :
    Step client request conduct exchange { exchange with responses := exchange.responses.close }

end Exchange
end AlternatorClient
