import AlternatorClient.Exceptions

/-! The content encodings a configuration advertises, as `ValidateConfig` checks
them, and the decoding of a response body. -/
namespace AlternatorClient
open Foundation

/-- `HttpContentEncodingDecoder` is an interface: the encodings it accepts, and
`Decode`, given a body and the name it was encoded under. -/
structure HttpContentEncodingDecoder where
  acceptedResponseEncodings : List Bytes
  decode : Bytes → Bytes → Except Error Bytes

/-- `HttpRequestCompressor`, as far as a configuration is checked. -/
structure HttpRequestCompressor where
  contentEncoding : Bytes

structure ContentEncodingDecoderEntry where
  encoding : Bytes
  decoder : HttpContentEncodingDecoder

def trimAscii (value : Bytes) : Bytes :=
  ((value.dropWhile isSpace).reverse.dropWhile isSpace).reverse

/-- `std::tolower` in the C locale. -/
def toLower (c : UInt8) : UInt8 := if 65 ≤ c ∧ c ≤ 90 then c + 32 else c

def toLowerAscii (value : Bytes) : Bytes := value.map toLower

def normalizeResponseEncoding (encoding : Bytes) : Bytes := toLowerAscii (trimAscii encoding)

def normalizeRequestEncoding : Option HttpRequestCompressor → Except Error Bytes
  | none => .ok []
  | some requestCompressor =>
    let encoding := normalizeResponseEncoding requestCompressor.contentEncoding
    if encoding.isEmpty then
      .error (.invalidArgument (bytes "request_compressor must not advertise an empty encoding"))
    else if encoding.contains (byte ',') then
      .error (.invalidArgument (bytes "request_compressor must advertise exactly one encoding"))
    else .ok encoding

def buildRequestContentEncodingValue (requestCompressor : Option HttpRequestCompressor) :
    Except Error Bytes :=
  normalizeRequestEncoding requestCompressor

/-- The inner loop of `BuildDecoderEntries`, over what one decoder advertises. -/
def advertise (decoder : HttpContentEncodingDecoder) :
    List Bytes → List ContentEncodingDecoderEntry → Except Error (List ContentEncodingDecoderEntry)
  | [], entries => .ok entries
  | encoding :: rest, entries =>
    let normalized := normalizeResponseEncoding encoding
    if normalized.isEmpty then
      .error (.invalidArgument
        (bytes "content_encoding_decoders must not advertise empty encodings"))
    else if entries.any fun entry => entry.encoding = normalized then
      .error (.invalidArgument
        (bytes "content_encoding_decoders must not advertise duplicate response encoding: " ++
          normalized))
    else advertise decoder rest (entries ++ [⟨normalized, decoder⟩])

/-- The outer loop, from the entries collected so far. -/
def buildDecoderEntriesFrom :
    List (Option HttpContentEncodingDecoder) → List ContentEncodingDecoderEntry →
      Except Error (List ContentEncodingDecoderEntry)
  | [], entries => .ok entries
  | none :: _, _ =>
    .error (.invalidArgument (bytes "content_encoding_decoders must not contain null values"))
  | some decoder :: rest, entries =>
    if decoder.acceptedResponseEncodings.isEmpty then
      .error (.invalidArgument
        (bytes "content_encoding_decoders must advertise at least one encoding"))
    else
      match advertise decoder decoder.acceptedResponseEncodings entries with
      | .error error => .error error
      | .ok entries => buildDecoderEntriesFrom rest entries

def buildDecoderEntries (contentEncodingDecoders : List (Option HttpContentEncodingDecoder)) :
    Except Error (List ContentEncodingDecoderEntry) :=
  buildDecoderEntriesFrom contentEncodingDecoders []

/-- The names of the entries, separated by a comma and a space. -/
def buildAcceptEncodingValue (contentEncodingDecoders : List (Option HttpContentEncodingDecoder)) :
    Except Error Bytes :=
  (buildDecoderEntries contentEncodingDecoders).map fun entries =>
    entries.foldl (fun value entry =>
      (if value.isEmpty then value else value ++ bytes ", ") ++ entry.encoding) []

/-- What lies between the commas, `current` being the reverse of the part read. -/
def splitCommas (current : Bytes) : Bytes → List Bytes
  | [] => [current.reverse]
  | c :: rest =>
    if c = byte ',' then current.reverse :: splitCommas [] rest
    else splitCommas (c :: current) rest

def parseContentEncodings (contentEncoding : Bytes) : List Bytes :=
  ((splitCommas [] contentEncoding).map normalizeResponseEncoding).filter fun token =>
    !token.isEmpty

def findDecoderEntry (entries : List ContentEncodingDecoderEntry) (encoding : Bytes) :
    Option ContentEncodingDecoderEntry :=
  entries.find? fun entry => entry.encoding = encoding

/-- The loop of `DecodeHttpResponseBody` over the encodings, the last applied first. -/
def undoEncodings (entries : List ContentEncodingDecoderEntry) :
    List Bytes → Bytes → Except Error Bytes
  | [], body => .ok body
  | encoding :: rest, body =>
    if encoding = bytes "identity" then undoEncodings entries rest body
    else
      match findDecoderEntry entries encoding with
      | none => .error (.runtimeError (bytes "unexpected HTTP content encoding: " ++ encoding))
      | some entry =>
        match entry.decoder.decode body encoding with
        | .error error => .error error
        | .ok body => undoEncodings entries rest body

def decodeHttpResponseBody (body contentEncoding : Bytes)
    (contentEncodingDecoders : List (Option HttpContentEncodingDecoder)) : Except Error Bytes :=
  let encodings := parseContentEncodings contentEncoding
  if encodings.isEmpty then .ok body
  else
    match buildDecoderEntries contentEncodingDecoders with
    | .error error => .error error
    | .ok entries => undoEncodings entries encodings.reverse body

end AlternatorClient
