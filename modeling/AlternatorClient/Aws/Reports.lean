import AlternatorClient.Aws.HttpClient

/-! Which exchanges `MakeRequest` reports. The answer is decoded before the
node is reported, so an answer the decoders refuse is never reported. -/
namespace AlternatorClient.Aws
open Foundation

/-- Every encoding but `identity` has a decoder that takes the body as the
decoders before it left it. -/
def Undone (entries : List ContentEncodingDecoderEntry) : List Bytes → Bytes → Prop
  | [], _ => True
  | encoding :: rest, body =>
    if encoding = bytes "identity" then Undone entries rest body
    else
      ∃ entry decoded, findDecoderEntry entries encoding = some entry ∧
        entry.decoder.decode body encoding = .ok decoded ∧ Undone entries rest decoded

/-- No exchange, or an answer whose Content-Encoding header, if it has one,
lists nothing the configured decoders cannot undo. A zero byte ends the header. -/
def Readable (decoders : List (Option HttpContentEncodingDecoder)) : Option HttpResponse → Prop
  | none => True
  | some response =>
    response.clientError = true ∨
      ∀ header, response.contentEncoding = some header →
        parseContentEncodings (cStr header) = [] ∨
          ∃ entries, buildDecoderEntries decoders = .ok entries ∧
            Undone entries (parseContentEncodings (cStr header)).reverse response.body

theorem undoEncodings_ok_iff (entries : List ContentEncodingDecoderEntry) (encodings : List Bytes)
    (body : Bytes) :
    (∃ decoded, undoEncodings entries encodings body = .ok decoded) ↔
      Undone entries encodings body := by
  induction encodings generalizing body with
  | nil => simp [undoEncodings, Undone]
  | cons encoding rest ih =>
    simp only [undoEncodings, Undone]
    split
    · exact ih body
    · cases found : findDecoderEntry entries encoding with
      | none => simp
      | some entry =>
        cases decoded : entry.decoder.decode body encoding with
        | error error => simp [decoded]
        | ok text => simp [decoded, ih]

theorem decodeHttpResponseBody_ok_iff (body header : Bytes)
    (decoders : List (Option HttpContentEncodingDecoder)) :
    (∃ decoded, decodeHttpResponseBody body header decoders = .ok decoded) ↔
      parseContentEncodings header = [] ∨
        ∃ entries, buildDecoderEntries decoders = .ok entries ∧
          Undone entries (parseContentEncodings header).reverse body := by
  simp only [decodeHttpResponseBody]
  by_cases none : parseContentEncodings header = []
  · simp [none]
  · simp only [List.isEmpty_eq_false_iff.mpr none, Bool.false_eq_true, if_false, none, false_or]
    cases buildDecoderEntries decoders with
    | error error => simp
    | ok entries => simp [undoEncodings_ok_iff]

theorem decodeCompressedAwsResponse_ok_iff (response : Option HttpResponse)
    (decoders : List (Option HttpContentEncodingDecoder)) :
    (∃ decoded, decodeCompressedAwsResponse response decoders = .ok decoded) ↔
      Readable decoders response := by
  cases response with
  | none => simp [decodeCompressedAwsResponse, Readable]
  | some response =>
    simp only [decodeCompressedAwsResponse, Readable]
    split
    · rename_i failed
      simp [failed]
    · rename_i intact
      cases encoded : response.contentEncoding with
      | none => simp
      | some header =>
        simp only [Option.some.injEq, forall_eq', intact, ← decodeHttpResponseBody_ok_iff]
        cases decodeHttpResponseBody response.body (cStr header) decoders with
        | error error => simp [Except.map]
        | ok body => simp [Except.map]

/-- An attempt that found a node is reported, once and for that node, exactly
when its answer can be read. -/
theorem reported_iff_readable (config : Config) (delegate : HttpRequest → Option HttpResponse)
    (request : HttpRequest) (s : Session)
    (found : (selectAttemptNode config request s).1.empty = false) :
    (∃ observation, (makeRequest config delegate request s).1.reported =
        [((selectAttemptNode config request s).1, observation)]) ↔
      Readable config.contentEncodingDecoders
        (delegate (selectAttemptNode config request s).2.1) := by
  rw [← decodeCompressedAwsResponse_ok_iff]
  simp only [makeRequest, found, Bool.false_eq_true, if_false]
  cases decodeCompressedAwsResponse (delegate (selectAttemptNode config request s).2.1)
      config.contentEncodingDecoders with
  | error error => simp
  | ok response => simp

/-- The first attempt of the SDK at the only node of a client. -/
def firstAttempt : HttpRequest :=
  { uri := { scheme := .http, host := bytes "a", port := 8080 }
    sdkRequest := some (bytes "attempt=1") }

/-- A response labelled with `identity` and with an encoding that a configured
decoder undoes: the body can be read, and its node is reported once. -/
theorem reported_reversed :
    let s := Session.alone (bytes "a") []
    let reversed : HttpContentEncodingDecoder := ⟨[bytes "x-reverse"], fun body _ => .ok body.reverse⟩
    let config : Config := { contentEncodingDecoders := [some reversed] }
    let answered : HttpRequest → Option HttpResponse := fun _ =>
      some { responseCode := 200, contentEncoding := some (bytes "identity, X-Reverse")
             body := bytes "cba" }
    ∃ observation, (makeRequest config answered firstAttempt s).1.reported =
      [((selectAttemptNode config firstAttempt s).1, observation)] := by
  intro s reversed config answered
  refine (reported_iff_readable config answered firstAttempt s (by decide +kernel)).mpr ?_
  refine .inr fun header named => .inr ⟨[⟨bytes "x-reverse", reversed⟩], rfl, ?_⟩
  cases named
  have listed : (parseContentEncodings (cStr (bytes "identity, X-Reverse"))).reverse =
      [bytes "x-reverse", bytes "identity"] := by decide +kernel
  rw [listed]
  exact ⟨_, _, rfl, rfl, .intro⟩

/-- A client without decoders that is answered with `br`: decoding throws before the
node is reported, although the node has answered. -/
theorem refused_encoding_unreported :
    let s := Session.alone (bytes "a") []
    let answered : HttpRequest → Option HttpResponse :=
      fun _ => some { responseCode := 200, contentEncoding := some (bytes "br") }
    (selectAttemptNode {} firstAttempt s).1 = ({} : Config).nodeUrl (bytes "a") ∧
      (selectAttemptNode {} firstAttempt s).1.empty = false ∧
      (makeRequest {} answered firstAttempt s).1.reported = [] ∧
      (makeRequest {} answered firstAttempt s).1.returned.toOption = none := by
  decide +kernel

end AlternatorClient.Aws
