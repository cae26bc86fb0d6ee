import AlternatorClient.HttpClient.Get

/-! What holds of every exchange, whatever the kernel and the server do: the request
is sent once and in order, what is parsed is all that the server wrote, and every
descriptor is closed once. -/
namespace AlternatorClient
open Foundation

variable {Address : Type} {client : CurlHttpClient} {request : Bytes} {conduct : Conduct}

namespace Exchange

structure Untouched (exchange : Exchange Address) : Prop where
  unaccepted : exchange.accepted = false
  unsent : exchange.requests.written = []
  unread : exchange.responses.read = []

/-- How a call of `Get` can fail before it has a response. -/
inductive Failed (request : Bytes) (exchange : Exchange Address) : Error → Prop
  | unresolved (fresh : exchange.opened = []) (untouched : exchange.Untouched) (message : Bytes) :
    Failed request exchange (.runtimeError message)
  | unconnected (untouched : exchange.Untouched) :
    Failed request exchange (.runtimeError (bytes "connect failed"))
  | unsent (sent : exchange.requests.written <+: request) :
    Failed request exchange (.runtimeError (bytes "send failed"))
  | unreceived (sent : exchange.requests.written = request) :
    Failed request exchange (.runtimeError (bytes "recv failed"))

/-- How a call of `Get` can end: with one of the failures of its system calls, or
with what it makes of the whole answer after the server has closed. -/
inductive Outcome (client : CurlHttpClient) (request : Bytes) (exchange : Exchange Address) :
    Except Error HttpResponse → Prop
  | failed {error : Error} (failed : Failed request exchange error) :
    Outcome client request exchange (.error error)
  | answered (sent : exchange.requests.written = request)
      (closed : exchange.responses.closed = true) :
    Outcome client request exchange
      (parseHttpResponse exchange.responses.written client.contentEncodingDecoders)

/-- What has happened by the time that the client waits for a call. -/
inductive Stands (client : CurlHttpClient) (request : Bytes) (exchange : Exchange Address) :
    Getting Address → Prop
  | getaddrinfo (fresh : exchange.opened = []) (untouched : exchange.Untouched) :
    Stands client request exchange .getaddrinfo
  | socket {address : Address} {rest : List Address} (untouched : exchange.Untouched) :
    Stands client request exchange (.socket address rest)
  | connect {guard : FdGuard} {rest : List Address} (untouched : exchange.Untouched) :
    Stands client request exchange (.connect guard rest)
  | send {fd : FdGuard} {sent : Nat} (accepted : exchange.accepted = true)
      (more : sent < request.length) (written : exchange.requests.written = request.take sent) (unread : exchange.responses.read = []) :
    Stands client request exchange (.send fd sent)
  | recv {fd : FdGuard} (accepted : exchange.accepted = true)
      (written : exchange.requests.written = request) :
    Stands client request exchange (.recv fd exchange.responses.read)
  | returned {result : Except Error HttpResponse} (ended : Outcome client request exchange result) :
    Stands client request exchange (.returned result)

variable {a b exchange : Exchange Address}

theorem Stands.connectTcp (untouched : exchange.Untouched) (addresses : List Address) :
    Stands client request exchange (.connectTcp addresses) := by
  cases addresses with
  | nil => exact .returned (.failed (.unconnected untouched))
  | cons address rest => exact .socket untouched

theorem Stands.sendAll {sent : Nat} (accepted : exchange.accepted = true) (fits : sent ≤ request.length)
    (written : exchange.requests.written = request.take sent)
    (unread : exchange.responses.read = []) (fd : FdGuard) :
    Stands client request exchange (.sendAll request fd sent) := by
  rw [Getting.sendAll]
  split
  · exact .send accepted ‹_› written unread
  · rw [← unread]
    apply Stands.recv accepted
    rw [written, List.take_of_length_le (by omega)]

/-- What a step of the server leaves alone. It needs an accepted connection, takes
back nothing of the request or of what was read, and adds nothing once closed. -/
structure Served (a b : Exchange Address) : Prop where
  accepted : a.accepted = true
  stillAccepted : b.accepted = true
  requested : b.requests.written = a.requests.written
  read : b.responses.read = a.responses.read
  final : a.responses.closed = true → b.responses = a.responses

theorem Served.touched (served : Served a b) : ¬ a.Untouched := by
  intro untouched
  have accepted := served.accepted
  rw [untouched.unaccepted] at accepted
  contradiction

theorem Outcome.served {result : Except Error HttpResponse} (served : Served a b)
    (ended : Outcome client request a result) : Outcome client request b result := by
  cases ended with
  | failed failed =>
    cases failed with
    | unresolved _ untouched => exact absurd untouched served.touched
    | unconnected untouched => exact absurd untouched served.touched
    | unsent sent => exact .failed (.unsent (served.requested ▸ sent))
    | unreceived sent => exact .failed (.unreceived (served.requested.trans sent))
  | answered sent closed =>
    have final := served.final closed
    rw [← final] at closed ⊢
    exact .answered (served.requested.trans sent) closed

theorem Stands.served (served : Served a b) {getting : Getting Address}
    (stands : Stands client request a getting) : Stands client request b getting := by
  cases stands with
  | getaddrinfo _ untouched => exact absurd untouched served.touched
  | socket untouched => exact absurd untouched served.touched
  | connect untouched => exact absurd untouched served.touched
  | send _ more written unread =>
    exact .send served.stillAccepted more (served.requested.trans written) (served.read.trans unread)
  | recv _ written =>
    rw [← served.read]
    exact .recv served.stillAccepted (served.requested.trans written)
  | returned ended => exact .returned (ended.served served)

/-- A step is one of the server, or the client goes on. -/
theorem Step.stands (step : Step client request conduct a b)
    (stands : Stands client request a a.client) : Stands client request b b.client := by
  cases step with
  | getaddrinfo calls results =>
    rw [calls] at stands
    cases stands with
    | getaddrinfo fresh untouched =>
      cases results with
      | error message =>
        apply Stands.returned
        apply Outcome.failed
        apply Failed.unresolved
        · exact fresh
        · exact ⟨untouched.1, untouched.2, untouched.3⟩
      | ok addresses =>
        apply Stands.connectTcp
        exact ⟨untouched.1, untouched.2, untouched.3⟩
  | @socket address rest calls fd =>
    rw [calls] at stands
    cases stands with
    | socket untouched =>
      cases fd with
      | none =>
        apply Stands.connectTcp
        exact ⟨untouched.1, untouched.2, untouched.3⟩
      | some fd => exact .connect ⟨untouched.1, untouched.2, untouched.3⟩
  | @connect guard rest calls succeeds =>
    rw [calls] at stands
    cases stands with
    | connect untouched =>
      cases succeeds with
      | false =>
        apply Stands.connectTcp
        exact ⟨rfl, untouched.2, untouched.3⟩
      | true =>
        apply Stands.sendAll
        · rfl
        · exact Nat.zero_le _
        · exact untouched.unsent
        · exact untouched.unread
  | @send fd sent n calls some fits =>
    rw [calls] at stands
    cases stands with
    | send accepted more written unread =>
      apply Stands.sendAll
      · exact accepted
      · exact fits
      · show (a.requests.write _).written = _
        rw [Pipe.written_write, written, List.take_add]
      · exact unread
  | sendFails calls errno =>
    rw [calls] at stands
    cases stands with
    | send accepted more written unread =>
      cases errno with
      | eintr => exact .send accepted more written unread
      | other => exact .returned (.failed (.unsent (written ▸ List.take_prefix _ _)))
  | @recv fd data n calls some fits =>
    rw [calls] at stands
    cases stands with
    | recv accepted written =>
      have piece : (a.responses.waiting.take n).isEmpty = false := by
        rw [List.isEmpty_eq_false_iff, ← List.length_pos_iff_ne_nil, List.length_take]
        omega
      simp only [goOn, Getting.received, piece, Bool.false_eq_true, if_false]
      exact .recv accepted written
  | recvEnds calls drained closed =>
    rw [calls] at stands
    cases stands with
    | recv accepted written =>
      show Stands client request _ (.returned (parseHttpResponse a.responses.read _))
      rw [a.responses.read_of_drained drained]
      exact .returned (.answered written closed)
  | recvFails calls errno =>
    rw [calls] at stands
    cases stands with
    | recv accepted written =>
      cases errno with
      | eintr => exact .recv accepted written
      | other => exact .returned (.failed (.unreceived written))
  | serverReads accepted some fits may =>
    apply stands.served
    exact ⟨accepted, accepted, a.requests.written_take _, rfl, fun _ => rfl⟩
  | serverWrites accepted some stillOpen may =>
    apply stands.served
    refine ⟨accepted, accepted, rfl, rfl, fun closed => ?_⟩
    rw [stillOpen] at closed
    contradiction
  | serverHangsUp accepted stillOpen may =>
    apply stands.served
    refine ⟨accepted, accepted, rfl, rfl, fun closed => ?_⟩
    rw [stillOpen] at closed
    contradiction

/-! ### Descriptors -/

@[simp] theorem guarded_getaddrinfo : (Getting.getaddrinfo : Getting Address).guarded = [] := rfl

@[simp] theorem guarded_socket (address : Address) (rest : List Address) :
    (Getting.socket address rest).guarded = [] := rfl

@[simp] theorem guarded_connect (guard : FdGuard) (rest : List Address) :
    (Getting.connect guard rest).guarded = guard.destroy := rfl

@[simp] theorem guarded_send (fd : FdGuard) (sent : Nat) :
    (Getting.send fd sent : Getting Address).guarded = fd.destroy := rfl

@[simp] theorem guarded_recv (fd : FdGuard) (data : Bytes) :
    (Getting.recv fd data : Getting Address).guarded = fd.destroy := rfl

@[simp] theorem guarded_returned (result : Except Error HttpResponse) :
    (Getting.returned result : Getting Address).guarded = [] := rfl

@[simp] theorem guarded_connectTcp (addresses : List Address) :
    (Getting.connectTcp addresses).guarded = [] := by
  cases addresses <;> rfl

@[simp] theorem guarded_sendAll (fd : FdGuard) (sent : Nat) :
    (Getting.sendAll request fd sent : Getting Address).guarded = fd.destroy := by
  rw [Getting.sendAll]
  split <;> rfl

/-- The descriptors that are not closed are the one in the guard. -/
def Guarded (exchange : Exchange Address) : Prop :=
  exchange.opened = exchange.closed ++ exchange.client.guarded

theorem Step.guarded (step : Step client request conduct a b) (guarded : a.Guarded) :
    b.Guarded := by
  rw [Guarded] at guarded ⊢
  cases step with
  | getaddrinfo calls results =>
    rw [calls] at guarded
    cases results with
    | error message => simpa [goOn, Getting.resolved] using guarded
    | ok addresses => simpa [goOn, Getting.resolved] using guarded
  | socket calls fd =>
    rw [calls] at guarded
    cases fd with
    | none => simpa [goOn, Getting.opened] using guarded
    | some fd => simpa [goOn, Getting.opened, FdGuard.destroy] using guarded
  | connect calls succeeds =>
    rw [calls] at guarded
    cases succeeds with
    | false => simpa [goOn, Getting.connected] using guarded
    | true => simpa [goOn, Getting.connected, FdGuard.move, FdGuard.destroy] using guarded
  | send calls some fits =>
    rw [calls] at guarded
    simpa [goOn, Getting.sent] using guarded
  | sendFails calls errno =>
    rw [calls] at guarded
    cases errno with
    | eintr => simpa [goOn, Getting.sent] using guarded
    | other => simpa [goOn, Getting.sent] using guarded
  | recv calls some fits =>
    rw [calls] at guarded
    simp only [goOn, Getting.received]
    split <;> simpa using guarded
  | recvEnds calls drained closed =>
    rw [calls] at guarded
    simpa [goOn, Getting.received] using guarded
  | recvFails calls errno =>
    rw [calls] at guarded
    cases errno with
    | eintr => simpa [goOn, Getting.received] using guarded
    | other => simpa [goOn, Getting.received] using guarded
  | serverReads => exact guarded
  | serverWrites => exact guarded
  | serverHangsUp => exact guarded

/-! ### The conduct of the server -/

def Conducted (conduct : Conduct) (exchange : Exchange Address) : Prop :=
  conduct exchange.requests.read exchange.responses.written exchange.responses.closed

theorem Step.conducted (step : Step client request conduct a b) (kept : a.Conducted conduct) :
    b.Conducted conduct := by
  cases step with
  | recv =>
    rw [Conducted, goOn, Pipe.written_take]
    exact kept
  | serverReads accepted some fits may => exact may
  | serverWrites accepted some stillOpen may =>
    rw [Conducted, Pipe.written_write, Pipe.closed_write, stillOpen]
    exact may
  | serverHangsUp accepted stillOpen may => exact may
  | _ => exact kept

/-- At every point of every interleaving of a call with the server the client stands
where its code can be, and each descriptor it opened is guarded or closed. -/
theorem run_sound {states : List (Exchange Address)}
    (run : Path (Step client request conduct) {} states exchange) (first : conduct [] [] false) :
    Stands client request exchange exchange.client ∧ exchange.Guarded ∧
      exchange.Conducted conduct := by
  have start : Stands client request ({} : Exchange Address) .getaddrinfo :=
    .getaddrinfo rfl ⟨rfl, rfl, rfl⟩
  have kept := Path.invariant (P := fun exchange => Stands client request exchange exchange.client ∧
    exchange.Guarded ∧ exchange.Conducted conduct) (fun step holds =>
      ⟨step.stands holds.1, step.guarded holds.2.1, step.conducted holds.2.2⟩) run
      ⟨start, rfl, first⟩
  exact kept.1

end Exchange
end AlternatorClient
