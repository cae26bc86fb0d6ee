import AlternatorClient.HttpClient.Server

/-! What comes of a call of `Get` to a server that answers it: the answer that is
meant for the call, or a failure of the network, and one of them in the end. -/
namespace AlternatorClient
open Foundation

/-- The value of the last Content-Encoding line, or nothing without one: later lines
overwrite what earlier ones said. -/
def ResponseHead.contentEncoding (head : ResponseHead) : Bytes :=
  head.lines.foldl (headerStep (bytes "content-encoding")) []

variable {Address : Type} {client : CurlHttpClient} {url : Url} {request acceptEncodingValue : Bytes}
  {conduct : Conduct} {handler : GetRequest → Bytes} {meant : GetRequest}
  {a b exchange : Exchange Address}

namespace Exchange

theorem Untouched.requested (untouched : exchange.Untouched) :
    exchange.requests.written <+: request := by
  rw [untouched.unsent]
  exact List.nil_prefix

theorem Stands.requested {getting : Getting Address}
    (stands : Stands client request exchange getting) : exchange.requests.written <+: request := by
  cases stands with
  | getaddrinfo _ untouched => exact untouched.requested
  | socket untouched => exact untouched.requested
  | connect untouched => exact untouched.requested
  | send _ _ written => exact written ▸ List.take_prefix _ _
  | recv _ written => exact written ▸ List.prefix_rfl
  | returned ended =>
    cases ended with
    | answered sent => exact sent ▸ List.prefix_rfl
    | failed failed =>
      cases failed with
      | unresolved _ untouched => exact untouched.requested
      | unconnected untouched => exact untouched.requested
      | unsent sent => exact sent
      | unreceived sent => exact sent ▸ List.prefix_rfl

theorem serves_complete {read written : Bytes} {closed : Bool}
    (complete : readRequest read = some meant) :
    serves handler read written closed ↔
      written <+: handler meant ∧ (closed = true → written = handler meant) := by
  simp [serves, complete]

/-- A server that has heard one request writes the answer to it. -/
theorem Conducted.answers (conducted : exchange.Conducted (serves handler))
    (heard : exchange.requests.read <+: request) (complete : readRequest request = some meant) :
    exchange.responses.written <+: handler meant ∧
      (exchange.responses.closed = true → exchange.responses.written = handler meant ∧
        readRequest exchange.requests.read = some meant) := by
  rw [Conducted, serves] at conducted
  cases read : readRequest exchange.requests.read with
  | none =>
    simp only [read] at conducted
    obtain ⟨nothing, stillOpen⟩ := conducted
    rw [nothing, stillOpen]
    exact ⟨List.nil_prefix, fun closed => absurd closed (by decide)⟩
  | some other =>
    simp only [read] at conducted
    have same := readRequest_prefix read heard
    rw [complete] at same
    obtain rfl := Option.some.inj same
    exact ⟨conducted.1, fun closed => ⟨conducted.2 closed, rfl⟩⟩

theorem get_ok (made : client.get url = .ok request)
    (advertised : buildAcceptEncodingValue client.contentEncodingDecoders = .ok acceptEncodingValue) :
    request = client.requestText url acceptEncodingValue := by
  rw [CurlHttpClient.get, advertised] at made
  split at made
  · contradiction
  · exact (Except.ok.inj made).symm

/-- Nothing fails, and every piece is as large as it can be. -/
theorem exists_answered_run (complete : readRequest request = some meant) (sent : request ≠ [])
    (answer : handler meant ≠ []) (small : (handler meant).length ≤ bufferSize) (address : Address)
    (client : CurlHttpClient) (fd : Nat) :
    ∃ states exchange, Path (Step client request (serves handler)) ({} : Exchange Address) states
      exchange ∧ exchange.client =
        .returned (parseHttpResponse (handler meant) client.contentEncodingDecoders) := by
  have more := List.length_pos_iff_ne_nil.mpr sent
  have some := List.length_pos_iff_ne_nil.mpr answer
  have resolves : Step client request (serves handler) ({} : Exchange Address)
      { client := .socket address [] } := .getaddrinfo rfl (.ok [address])
  have opens : Step client request (serves handler) { client := .socket address [] }
      { client := .connect ⟨fd⟩ [], opened := [fd] } := .socket rfl (.some fd)
  have connects : Step client request (serves handler)
      { client := .connect ⟨fd⟩ ([] : List Address), opened := [fd] }
      { client := .send ⟨fd⟩ 0, accepted := true, opened := [fd] } := by
    have step := @Step.connect Address client request (serves handler)
      { client := .connect ⟨fd⟩ [], opened := [fd] } _ _ rfl true
    simpa [goOn, Getting.connected, Getting.sendAll, more, FdGuard.move, FdGuard.destroy] using step
  have sends : Step client request (serves handler)
      { client := (.send ⟨fd⟩ 0 : Getting Address), accepted := true, opened := [fd] }
      { client := .recv ⟨fd⟩ [], requests := ⟨[], request, false⟩, accepted := true,
        opened := [fd] } := by
    have step := @Step.send Address client request (serves handler)
      { client := .send ⟨fd⟩ 0, accepted := true, opened := [fd] } _ 0 request.length rfl more
      (by omega)
    simpa [goOn, Getting.sent, Getting.sendAll, Pipe.write] using step
  have hears : Step client request (serves handler)
      { client := (.recv ⟨fd⟩ [] : Getting Address), requests := ⟨[], request, false⟩,
        accepted := true, opened := [fd] }
      { client := .recv ⟨fd⟩ [], requests := ⟨request, [], false⟩, accepted := true,
        opened := [fd] } := by
    have step := @Step.serverReads Address client request (serves handler)
      { client := .recv ⟨fd⟩ [], requests := ⟨[], request, false⟩, accepted := true,
        opened := [fd] } request.length rfl more le_rfl
    simpa [Pipe.take, serves_complete complete, Pipe.written] using step
  have answers : Step client request (serves handler)
      { client := (.recv ⟨fd⟩ [] : Getting Address), requests := ⟨request, [], false⟩,
        accepted := true, opened := [fd] }
      { client := .recv ⟨fd⟩ [], requests := ⟨request, [], false⟩,
        responses := ⟨[], handler meant, false⟩, accepted := true, opened := [fd] } :=
    .serverWrites rfl answer rfl ((serves_complete complete).mpr ⟨List.prefix_rfl, fun none => absurd none (by decide)⟩)
  have hangsUp : Step client request (serves handler)
      { client := (.recv ⟨fd⟩ [] : Getting Address), requests := ⟨request, [], false⟩,
        responses := ⟨[], handler meant, false⟩, accepted := true, opened := [fd] }
      { client := .recv ⟨fd⟩ [], requests := ⟨request, [], false⟩,
        responses := ⟨[], handler meant, true⟩, accepted := true, opened := [fd] } :=
    .serverHangsUp rfl rfl ((serves_complete complete).mpr ⟨List.prefix_rfl, fun _ => rfl⟩)
  have receives : Step client request (serves handler)
      { client := (.recv ⟨fd⟩ [] : Getting Address), requests := ⟨request, [], false⟩,
        responses := ⟨[], handler meant, true⟩, accepted := true, opened := [fd] }
      { client := .recv ⟨fd⟩ (handler meant), requests := ⟨request, [], false⟩,
        responses := ⟨handler meant, [], true⟩, accepted := true, opened := [fd] } := by
    have step := @Step.recv Address client request (serves handler)
      { client := .recv ⟨fd⟩ [], requests := ⟨request, [], false⟩,
        responses := ⟨[], handler meant, true⟩, accepted := true, opened := [fd] } _ _
      (handler meant).length rfl some ⟨small, le_rfl⟩
    simpa [goOn, Getting.received, Pipe.take, answer] using step
  exact ⟨_, _, .step resolves (.step opens (.step connects (.step sends (.step hears (.step answers
    (.step hangsUp (.step receives (.single (.recvEnds rfl rfl rfl))))))))), rfl⟩

/-- The request for the list of a node named `a`, and an answer to anything. -/
theorem localNodes_sendable :
    Sendable {} ⟨bytes "http", bytes "a", 8080, bytes "/localnodes", []⟩ [] := by
  constructor <;> decide +kernel

def answerAnything (_ : GetRequest) : ResponseHead × Bytes :=
  (okHead [] (fun _ member => absurd member List.not_mem_nil), bytes "[]")

end Exchange

/-! ### Every call ends -/

namespace Getting

def begun : Getting Address → Bool
  | .getaddrinfo => false
  | _ => true

/-- How many calls of the operating system are left at most, apart from those that
move bytes. -/
def left : Getting Address → Nat
  | .getaddrinfo => 0
  | .socket _ rest => 2 * rest.length + 3
  | .connect _ rest => 2 * rest.length + 2
  | .send .. => 1
  | .recv .. => 1
  | .returned _ => 0

section
variable (address : Address) (guard fd : FdGuard) (rest : List Address) (sent : Nat) (data : Bytes)
  (result : Except Error HttpResponse)

@[simp] theorem left_socket : (socket address rest).left = 2 * rest.length + 3 := rfl
@[simp] theorem left_connect : (connect guard rest).left = 2 * rest.length + 2 := rfl
@[simp] theorem left_send : (send fd sent : Getting Address).left = 1 := rfl
@[simp] theorem left_recv : (recv fd data : Getting Address).left = 1 := rfl
@[simp] theorem left_returned : (returned result : Getting Address).left = 0 := rfl

@[simp] theorem begun_connect : (connect guard rest).begun = true := rfl
@[simp] theorem begun_send : (send fd sent : Getting Address).begun = true := rfl
@[simp] theorem begun_returned : (returned result : Getting Address).begun = true := rfl

end

@[simp] theorem begun_connectTcp (addresses : List Address) :
    (connectTcp addresses).begun = true := by
  cases addresses <;> rfl

@[simp] theorem begun_sendAll (fd : FdGuard) (sent : Nat) :
    (sendAll request fd sent : Getting Address).begun = true := by
  rw [sendAll]
  split <;> rfl

theorem left_connectTcp (addresses : List Address) :
    (connectTcp addresses).left ≤ 2 * addresses.length + 1 := by
  cases addresses with
  | nil => exact Nat.zero_le _
  | cons address rest => exact le_rfl

@[simp] theorem left_sendAll (fd : FdGuard) (sent : Nat) :
    (sendAll request fd sent : Getting Address).left = 1 := by
  rw [sendAll]
  split <;> rfl

end Getting

namespace Exchange

theorem goOn_interrupted (exchange : Exchange Address) {getting : Getting Address}
    (calls : exchange.client = getting) : exchange.goOn (getting, []) = exchange := by
  simp [goOn, ← calls]

/-- The bytes and calls that are left when no more than `limit` bytes are answered. -/
def left (request : Bytes) (limit : Nat) (exchange : Exchange Address) : Nat :=
  exchange.client.left + 2 * (request.length - exchange.requests.written.length) +
    exchange.requests.waiting.length + 2 * (limit - exchange.responses.written.length) +
    exchange.responses.waiting.length + (!exchange.responses.closed).toNat

theorem Step.begun (step : Step client request conduct a b) (begun : a.client.begun = true) :
    b.client.begun = true := by
  cases step with
  | getaddrinfo calls results => cases results <;> simp [goOn, Getting.resolved]
  | socket calls fd => cases fd <;> simp [goOn, Getting.opened]
  | connect calls succeeds => cases succeeds <;> simp [goOn, Getting.connected]
  | send calls some fits => simp [goOn, Getting.sent]
  | sendFails calls errno => cases errno <;> simp [goOn, Getting.sent]
  | recv calls some fits =>
    simp only [goOn, Getting.received]
    split <;> rfl
  | recvEnds calls drained closed => rfl
  | recvFails calls errno => cases errno <;> rfl
  | _ => exact begun

/-- A step after the first that changes anything uses some of it up. -/
theorem Step.left {limit : Nat} (step : Step client request conduct a b) (changed : b ≠ a)
    (begun : a.client.begun = true) (stands : Stands client request a a.client)
    (bounded : b.responses.written.length ≤ limit) : b.left request limit < a.left request limit := by
  cases step with
  | getaddrinfo calls results =>
    rw [calls] at begun
    contradiction
  | @socket address rest calls fd =>
    cases fd with
    | none =>
      have next := Getting.left_connectTcp rest
      simp only [Exchange.left, goOn, Getting.opened, calls, Getting.left_socket]
      omega
    | some fd =>
      simp only [Exchange.left, goOn, Getting.opened, calls, Getting.left_socket,
        Getting.left_connect]
      omega
  | @connect guard rest calls succeeds =>
    cases succeeds with
    | false =>
      have next := Getting.left_connectTcp rest
      simp only [Exchange.left, goOn, Getting.connected, calls, Getting.left_connect]
      omega
    | true =>
      simp only [Exchange.left, goOn, Getting.connected, calls, Getting.left_connect,
        Getting.left_sendAll]
      omega
  | @send fd sent n calls some fits =>
    rw [calls] at stands
    cases stands with
    | send _ more written =>
      have before := congrArg List.length written
      have piece : ((request.drop sent).take n).length = n := by simp; omega
      rw [List.length_take] at before
      simp only [Exchange.left, goOn, Getting.sent, calls, Getting.left_send, Getting.left_sendAll,
        Pipe.written_write, Pipe.waiting_write, List.length_append, piece]
      omega
  | sendFails calls errno =>
    cases errno with
    | eintr => exact absurd (a.goOn_interrupted calls) changed
    | other =>
      simp only [Exchange.left, goOn, Getting.sent, calls, Getting.left_send, Getting.left_returned]
      omega
  | @recv fd data n calls some fits =>
    have piece : (a.responses.waiting.take n).isEmpty = false := by
      rw [List.isEmpty_eq_false_iff, ← List.length_pos_iff_ne_nil, List.length_take]
      omega
    simp only [Exchange.left, goOn, Getting.received, piece, Bool.false_eq_true, if_false, calls,
      Getting.left_recv, Pipe.written_take, Pipe.waiting_take, Pipe.closed_take, List.length_drop]
    omega
  | recvEnds calls drained closed =>
    simp only [Exchange.left, goOn, Getting.received, List.isEmpty_nil, if_true, calls,
      Getting.left_recv, Getting.left_returned]
    omega
  | recvFails calls errno =>
    cases errno with
    | eintr => exact absurd (a.goOn_interrupted calls) changed
    | other =>
      simp only [Exchange.left, goOn, Getting.received, calls, Getting.left_recv, Getting.left_returned]
      omega
  | @serverReads n accepted some fits may =>
    simp only [Exchange.left, Pipe.written_take, Pipe.waiting_take, List.length_drop]
    omega
  | @serverWrites data accepted some stillOpen may =>
    have size := List.length_pos_iff_ne_nil.mpr some
    simp only [Pipe.written_write, List.length_append] at bounded
    simp only [Exchange.left, Pipe.written_write, Pipe.waiting_write, Pipe.closed_write,
      List.length_append]
    omega
  | serverHangsUp accepted stillOpen may =>
    simp [Exchange.left, stillOpen]

/-- A server that was sent all of a request reads on, writes on or hangs up. -/
theorem serverGoesOn (accepted : exchange.accepted = true)
    (written : exchange.requests.written = request) (stillOpen : exchange.responses.closed = false)
    (conducted : exchange.Conducted (serves handler)) (complete : readRequest request = some meant) :
    ∃ next, Step client request (serves handler) exchange next ∧ next ≠ exchange := by
  have heard := exchange.requests.read_prefix
  rw [written] at heard
  obtain ⟨rest, answer⟩ := (conducted.answers heard complete).1
  by_cases unheard : exchange.requests.waiting = []
  · have read := (exchange.requests.read_of_drained unheard).trans written
    rw [← read] at complete
    by_cases more : rest = []
    · rw [more, List.append_nil] at answer
      have may : serves handler exchange.requests.read exchange.responses.written true :=
        (serves_complete complete).mpr ⟨answer ▸ List.prefix_rfl, fun _ => answer⟩
      refine ⟨_, .serverHangsUp accepted stillOpen may, fun same => ?_⟩
      have responses := congrArg (Pipe.closed ∘ Exchange.responses) same
      simp [stillOpen] at responses
    · have may : serves handler exchange.requests.read (exchange.responses.written ++ rest) false :=
        (serves_complete complete).mpr ⟨answer ▸ List.prefix_rfl, fun none => nomatch none⟩
      refine ⟨_, .serverWrites accepted more stillOpen may, fun same => ?_⟩
      have responses := congrArg (List.length ∘ Pipe.waiting ∘ Exchange.responses) same
      simp [more] at responses
  · have size := List.length_pos_iff_ne_nil.mpr unheard
    have whole : (exchange.requests.take exchange.requests.waiting.length).read = request := by
      rw [Pipe.read_take, List.take_length, ← Pipe.written, written]
    rw [← whole] at complete
    have may : serves handler (exchange.requests.take exchange.requests.waiting.length).read
        exchange.responses.written exchange.responses.closed := by
      rw [serves_complete complete, stillOpen]
      exact ⟨answer ▸ List.prefix_append _ _, fun none => nomatch none⟩
    refine ⟨_, .serverReads accepted size le_rfl may, fun same => ?_⟩
    have requests := congrArg (List.length ∘ Pipe.waiting ∘ Exchange.requests) same
    simp at requests
    omega

/-- Unless it has returned, something can happen that changes the exchange. -/
theorem progress (stands : Stands client request exchange exchange.client)
    (conducted : exchange.Conducted (serves handler)) (complete : readRequest request = some meant)
    (stuck : ∀ next, Step client request (serves handler) exchange next → next = exchange) :
    ∃ result, exchange.client = .returned result := by
  have heard := (exchange.requests.read_prefix).trans stands.requested
  cases calls : exchange.client with
  | getaddrinfo =>
    have client := congrArg Exchange.client (stuck _ (.getaddrinfo calls (.error [])))
    rw [calls] at client
    contradiction
  | socket address rest =>
    have client := congrArg Exchange.client (stuck _ (.socket calls (some 0)))
    rw [calls] at client
    contradiction
  | connect guard rest =>
    have client := congrArg (Getting.left ∘ Exchange.client) (stuck _ (.connect calls true))
    simp only [Function.comp_apply, goOn, Getting.connected, Getting.left_sendAll, calls,
      Getting.left_connect] at client
    omega
  | send fd sent =>
    rw [calls] at stands
    cases stands with
    | send _ more _ =>
      have requests := congrArg (List.length ∘ Pipe.waiting ∘ Exchange.requests)
        (stuck _ (.send calls Nat.one_pos more))
      simp [goOn] at requests
      omega
  | recv fd data =>
    rw [calls] at stands
    cases stands with
    | recv accepted written =>
      by_cases unread : exchange.responses.waiting = []
      · by_cases closed : exchange.responses.closed = true
        · have client := congrArg Exchange.client (stuck _ (.recvEnds calls unread closed))
          rw [calls] at client
          contradiction
        · rw [Bool.not_eq_true] at closed
          obtain ⟨next, step, changed⟩ :=
            @serverGoesOn Address client _ _ _ _ accepted written closed conducted complete
          exact absurd (stuck next step) changed
      · have size := List.length_pos_iff_ne_nil.mpr unread
        have responses := congrArg (List.length ∘ Pipe.waiting ∘ Exchange.responses)
          (stuck _ (.recv calls Nat.one_pos ⟨by decide, size⟩))
        simp [goOn] at responses
        omega
  | returned result => exact ⟨result, rfl⟩

theorem begun_of_start (step : Step client request conduct ({} : Exchange Address) b) :
    b.client.begun = true := by
  cases step with
  | getaddrinfo calls results => cases results <;> simp [goOn, Getting.resolved]
  | socket calls => contradiction
  | connect calls => contradiction
  | send calls => contradiction
  | sendFails calls => contradiction
  | recv calls => contradiction
  | recvEnds calls => contradiction
  | recvFails calls => contradiction
  | serverReads accepted => contradiction
  | serverWrites accepted => contradiction
  | serverHangsUp accepted => contradiction

/-- What every exchange with a server that answers comes to keeps. -/
def Keeps (client : CurlHttpClient) (request : Bytes) (handler : GetRequest → Bytes)
    (exchange : Exchange Address) : Prop :=
  Stands client request exchange exchange.client ∧ exchange.Conducted (serves handler)

theorem Step.keeps (step : Step client request (serves handler) a b)
    (keeps : a.Keeps client request handler) : b.Keeps client request handler :=
  ⟨step.stands keeps.1, step.conducted keeps.2⟩

theorem Keeps.bounded (keeps : exchange.Keeps client request handler)
    (complete : readRequest request = some meant) :
    exchange.responses.written.length ≤ (handler meant).length :=
  ((keeps.2.answers ((exchange.requests.read_prefix).trans keeps.1.requested) complete).1).length_le

/-- After the first step there are only so many that change anything. -/
theorem acc_begun (complete : readRequest request = some meant)
    (keeps : exchange.Keeps client request handler) (begun : exchange.client.begun = true) :
    Acc (fun b a => Step client request (serves handler) a b ∧ b ≠ a) exchange := by
  induction count : exchange.left request (handler meant).length using Nat.strong_induction_on
    generalizing exchange with
  | _ n ih =>
    constructor
    rintro next ⟨step, changed⟩
    have after := step.keeps keeps
    have less := step.left changed begun keeps.1 (after.bounded complete)
    exact ih _ (count ▸ less) after (step.begun begun) rfl

end Exchange
end AlternatorClient
