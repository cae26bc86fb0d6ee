import AlternatorClient.HttpClient.Exchange

/-! A server that answers the request it has read: nothing before the blank line, the
whole answer after it. The request that `Get` writes is read back as it was meant. -/
namespace AlternatorClient
open Foundation

structure GetRequest where
  target : Bytes
  lines : List Bytes
  deriving DecidableEq

/-- The request that is complete in what was read; none as long as the blank line
has not come, or for another method or version. -/
def readRequest (read : Bytes) : Option GetRequest :=
  (find (bytes "\r\n\r\n") read).bind fun headerEnd =>
    let lines := (getLines [] (read.take headerEnd)).map popCarriageReturn
    let (method, rest) := readWord (lines.headD [])
    let (target, rest) := readWord rest
    if method = bytes "GET" ∧ (readWord rest).1 = bytes "HTTP/1.1" then
      some { target := target, lines := lines.tail }
    else none

/-- A server writes nothing before it has the request, then its answer, and hangs up
after that. -/
def serves (handler : GetRequest → Bytes) : Conduct := fun read written closed =>
  match readRequest read with
  | none => written = [] ∧ closed = false
  | some request => written <+: handler request ∧ (closed = true → written = handler request)

/-- The values of a request fit in their lines. -/
structure Sendable (client : CurlHttpClient) (url : Url) (acceptEncodingValue : Bytes) : Prop where
  target : ∀ c ∈ CurlHttpClient.target url, isSpace c = false
  authority : OneLine url.authority
  acceptEncodingValue : OneLine acceptEncodingValue
  userAgent : OneLine client.userAgent

/-! ### The request is read back -/

theorem readWord_last {word : Bytes} (plain : ∀ c ∈ word, isSpace c = false) :
    readWord (byte ' ' :: word) = (word, []) := by
  have skipped : (byte ' ' :: word).dropWhile isSpace = word := by
    rw [List.dropWhile_cons, if_pos (by decide)]
    apply List.dropWhile_eq_self_iff.mpr
    intro some
    rw [plain _ (List.getElem_mem some)]
    decide
  have inside : ∀ c ∈ word, (!isSpace c) = true := by
    intro c member
    rw [plain c member]
    rfl
  rw [readWord, skipped, List.takeWhile_eq_self_iff.mpr inside, List.dropWhile_eq_nil_iff.mpr inside]

theorem readWord_next {word rest : Bytes} (nonempty : word ≠ [])
    (plain : ∀ c ∈ word, isSpace c = false) :
    readWord (byte ' ' :: (word ++ byte ' ' :: rest)) = (word, byte ' ' :: rest) := by
  obtain ⟨first, tail, rfl⟩ := List.exists_cons_of_ne_nil nonempty
  have leading : readWord (byte ' ' :: (first :: tail ++ byte ' ' :: rest)) =
      readWord (first :: tail ++ byte ' ' :: rest) := by
    rw [readWord, readWord, List.dropWhile_cons, if_pos (by decide)]
  rw [leading]
  exact readWord_word rfl plain

section
variable {client : CurlHttpClient} {url : Url} {acceptEncodingValue : Bytes}

instance (text : Bytes) : Decidable (OneLine text) := inferInstanceAs (Decidable (_ ∧ _))

theorem target_ne_nil (url : Url) : CurlHttpClient.target url ≠ [] := by
  have root : bytes "/" ≠ [] := by decide
  rw [CurlHttpClient.target]
  cases url.path <;> cases url.query <;> simp [root]

def requestLine (url : Url) : Bytes :=
  bytes "GET" ++ byte ' ' :: (CurlHttpClient.target url ++ byte ' ' :: bytes "HTTP/1.1")

theorem oneLine_append {first second : Bytes} :
    OneLine (first ++ second) ↔ OneLine first ∧ OneLine second := by
  simp only [OneLine, List.mem_append]
  tauto

theorem Sendable.requestLine (sendable : Sendable client url acceptEncodingValue) :
    OneLine (requestLine url) := by
  have target : OneLine (CurlHttpClient.target url) := by
    constructor
    · intro member
      exact absurd (sendable.target _ member) (by decide)
    · intro member
      exact absurd (sendable.target _ member) (by decide)
  have space : OneLine [byte ' '] := by decide
  have method : OneLine (bytes "GET") := by decide
  have version : OneLine (bytes "HTTP/1.1") := by decide
  rw [AlternatorClient.requestLine, List.append_cons, oneLine_append, oneLine_append,
    List.append_cons, oneLine_append, oneLine_append]
  exact ⟨⟨method, space⟩, ⟨target, space⟩, version⟩

theorem Sendable.headerLines (sendable : Sendable client url acceptEncodingValue) :
    ∀ line ∈ client.headerLines url acceptEncodingValue, line ≠ [] ∧ OneLine line := by
  have named : ∀ {name value : Bytes}, name ≠ [] → OneLine name → OneLine value →
      name ++ value ≠ [] ∧ OneLine (name ++ value) := by
    intro name value nonempty one other
    exact ⟨List.append_ne_nil_of_left_ne_nil nonempty _, oneLine_append.mpr ⟨one, other⟩⟩
  have host := @named (bytes "Host: ") _ (by decide) (by decide) sendable.authority
  have accept := @named (bytes "Accept-Encoding: ") _ (by decide) (by decide)
    sendable.acceptEncodingValue
  have agent := @named (bytes "User-Agent: ") _ (by decide) (by decide) sendable.userAgent
  have connection : bytes "Connection: close" ≠ [] ∧ OneLine (bytes "Connection: close") := by
    decide
  intro line member
  simp only [CurlHttpClient.headerLines, List.mem_append, List.mem_cons] at member
  rcases member with ((rfl | rfl | none) | member) | member
  · exact host
  · exact connection
  · contradiction
  · split at member
    · contradiction
    · obtain rfl := List.mem_singleton.mp member
      exact accept
  · split at member
    · contradiction
    · obtain rfl := List.mem_singleton.mp member
      exact agent

theorem joined_ended (lines : List Bytes) :
    13 :: 10 :: lines.flatMap (fun line => line ++ [13, 10]) = joined lines ++ [13, 10] := by
  induction lines with
  | nil => rfl
  | cons line rest ih =>
    rw [joined_cons, List.flatMap_cons, List.append_assoc, List.cons_append, List.cons_append,
      List.nil_append, ih]
    simp

theorem requestText_eq (client : CurlHttpClient) (url : Url) (acceptEncodingValue : Bytes) :
    client.requestText url acceptEncodingValue =
      requestLine url ++ (joined (client.headerLines url acceptEncodingValue) ++
        ([13, 10, 13, 10] ++ [])) := by
  have line : bytes "GET " ++ CurlHttpClient.target url ++ bytes " HTTP/1.1\r\n" =
      requestLine url ++ [13, 10] := by
    have method : bytes "GET " = bytes "GET" ++ [byte ' '] := by decide
    have version : bytes " HTTP/1.1\r\n" = byte ' ' :: (bytes "HTTP/1.1" ++ [13, 10]) := by decide
    rw [requestLine, method, version]
    simp
  have lines := joined_ended (client.headerLines url acceptEncodingValue)
  rw [CurlHttpClient.requestText, line, crlf_eq, List.append_assoc, List.append_assoc,
    List.cons_append, List.cons_append, List.nil_append, ← List.cons_append, ← List.cons_append,
    lines]
  simp

/-- A server reads the target and the header lines as they were written. -/
theorem readRequest_requestText (sendable : Sendable client url acceptEncodingValue) :
    readRequest (client.requestText url acceptEncodingValue) =
      some ⟨CurlHttpClient.target url, client.headerLines url acceptEncodingValue⟩ := by
  have headerEnd : find (bytes "\r\n\r\n") (client.requestText url acceptEncodingValue) =
      some (requestLine url ++ joined (client.headerLines url acceptEncodingValue)).length := by
    rw [requestText_eq, blankLine_eq, find_skip sendable.requestLine.1,
      find_blankLine sendable.headerLines, Option.map_some, List.length_append, Nat.add_comm]
  have head : (client.requestText url acceptEncodingValue).take
      (requestLine url ++ joined (client.headerLines url acceptEncodingValue)).length =
        requestLine url ++ joined (client.headerLines url acceptEncodingValue) := by
    rw [requestText_eq, ← List.append_assoc, List.take_left]
  have nonempty : requestLine url ≠ [] := by simp [requestLine, bytes]
  have lines := getLines_joined nonempty sendable.requestLine sendable.headerLines
  have word : ∀ text : Bytes, text.all (fun c => isSpace c == false) = true →
      ∀ c ∈ text, isSpace c = false := by
    intro text all c member
    exact beq_iff_eq.mp (List.all_eq_true.mp all c member)
  have method : readWord (requestLine url) = (bytes "GET",
      byte ' ' :: (CurlHttpClient.target url ++ byte ' ' :: bytes "HTTP/1.1")) :=
    readWord_word rfl (word _ (by decide))
  have target := @readWord_next _ (bytes "HTTP/1.1") (target_ne_nil url) sendable.target
  have version := readWord_last (word (bytes "HTTP/1.1") (by decide))
  simp only [readRequest, headerEnd, Option.bind_some, head, lines, List.headD_cons, List.tail_cons,
    method, target, version, and_self, if_true]

/-- A request that is complete stays what it is when more is read. -/
theorem readRequest_prefix {read text : Bytes} {request : GetRequest}
    (complete : readRequest read = some request) (more : read <+: text) :
    readRequest text = some request := by
  obtain ⟨rest, rfl⟩ := more
  rw [readRequest, Option.bind_eq_some_iff] at complete
  obtain ⟨headerEnd, found, parsed⟩ := complete
  obtain ⟨same, fits⟩ := find_append found rest
  rw [readRequest, same, Option.bind_some, List.take_append_of_le_length (by omega)]
  exact parsed

end

end AlternatorClient
