import AlternatorClient.HttpCompression.Advertised
import AlternatorClient.Foundation.Decimal
import AlternatorClient.LiveNodes.Discovery

/-! The HTTP client without libcurl: how it takes a response apart. The response
is split at the first blank line, its status line is read as a stream reads
words and numbers, and its header lines are searched for one name. -/
namespace AlternatorClient
open Foundation

def readWord (text : Bytes) : Bytes × Bytes :=
  let text := text.dropWhile isSpace
  (text.takeWhile fun c => !isSpace c, text.dropWhile fun c => !isSpace c)

/-- `stream >> number` for a `long`; a text without a number gives zero and one
that is out of range the nearest value. -/
def readLong (text : Bytes) : Int :=
  let text := text.dropWhile isSpace
  let negative := text.head? == some (byte '-')
  let signed := negative || text.head? == some (byte '+')
  let digits := (if signed then text.tail else text).takeWhile isDigit
  let value : Int := digitsValue 0 digits
  max (-2 ^ 63) (min (2 ^ 63 - 1) (if negative then -value else value))

/-- `std::getline` until the stream ends, `current` being the reverse of the part
of the line that has been read. -/
def getLines (current : Bytes) : Bytes → List Bytes
  | [] => if current.isEmpty then [] else [current.reverse]
  | c :: rest => if c = 10 then current.reverse :: getLines [] rest else getLines (c :: current) rest

/-- `if (!line.empty() && line.back() == '\r') line.pop_back();` -/
def popCarriageReturn (line : Bytes) : Bytes :=
  if line.getLast? = some 13 then line.dropLast else line

/-- The loop of `FindHttpHeaderValue`. A status line drops what was found so far. -/
def scanHeaders (wanted : Bytes) : List Bytes → Bytes → Bytes
  | [], value => value
  | line :: rest, value =>
    let line := popCarriageReturn line
    if (bytes "HTTP/").isPrefixOf line then scanHeaders wanted rest []
    else
      match find [byte ':'] line with
      | none => scanHeaders wanted rest value
      | some colon =>
        if toLowerAscii (trimAscii (line.take colon)) = wanted then
          scanHeaders wanted rest (trimAscii (line.drop (colon + 1)))
        else scanHeaders wanted rest value

def findHttpHeaderValue (headers name : Bytes) : Bytes :=
  scanHeaders (toLowerAscii name) (getLines [] headers) []

def parseHttpResponse (raw : Bytes)
    (contentEncodingDecoders : List (Option HttpContentEncodingDecoder)) :
    Except Error HttpResponse :=
  match find (bytes "\r\n\r\n") raw with
  | none => .error (.runtimeError (bytes "invalid HTTP response"))
  | some headerEnd =>
    match find (bytes "\r\n") raw with
    | none => .error (.runtimeError (bytes "invalid HTTP status line"))
    | some statusLineEnd =>
      if statusLineEnd > headerEnd then .error (.runtimeError (bytes "invalid HTTP status line"))
      else
        let (httpVersion, rest) := readWord (raw.take statusLineEnd)
        let statusCode := readLong rest
        if !(bytes "HTTP/").isPrefixOf httpVersion || statusCode == 0 then
          .error (.runtimeError (bytes "invalid HTTP status line"))
        else
          (decodeHttpResponseBody (raw.drop (headerEnd + 4))
            (findHttpHeaderValue (raw.take headerEnd) (bytes "content-encoding"))
            contentEncodingDecoders).map fun body => { statusCode := statusCode, body := body }

/-! ### Responses as a server writes them -/

/-- A line of text: no part of a line ending in it. -/
def OneLine (text : Bytes) : Prop := (13 : UInt8) ∉ text ∧ (10 : UInt8) ∉ text

/-- Status line and header lines of a response. -/
structure ResponseHead where
  version : Bytes
  statusCode : Nat
  reason : Bytes
  lines : List Bytes
  version_http : bytes "HTTP/" <+: version
  version_word : ∀ c ∈ version, isSpace c = false
  statusCode_range : 100 ≤ statusCode ∧ statusCode ≤ 599
  reason_line : OneLine reason
  lines_plain : ∀ line ∈ lines, line ≠ [] ∧ OneLine line ∧ ¬ bytes "HTTP/" <+: line

namespace ResponseHead

def statusLine (head : ResponseHead) : Bytes :=
  head.version ++ byte ' ' :: (decimal head.statusCode ++ byte ' ' :: head.reason)

/-- Every line is ended, and a blank line goes before the payload. -/
def text (head : ResponseHead) (payload : Bytes) : Bytes :=
  head.statusLine ++ bytes "\r\n" ++ head.lines.flatMap (fun line => line ++ bytes "\r\n") ++
    bytes "\r\n" ++ payload

end ResponseHead

/-- A Content-Encoding line with its value, the name in any letter case. -/
def ContentEncodingLine (line value : Bytes) : Prop :=
  ∃ field, line = field ++ byte ':' :: value ∧ byte ':' ∉ field ∧
    toLowerAscii (trimAscii field) = bytes "content-encoding"

/-- A name in any letter case, with blanks around it. -/
def Spells (name element : Bytes) : Prop :=
  ∃ before word after, Blank before ∧ Blank after ∧ element = before ++ word ++ after ∧
    toLowerAscii word = name

/-- The elements of a list and the encodings they name; blank elements and
`identity` name none. -/
inductive Names : List Bytes → List Bytes → Prop
  | nil : Names [] []
  | blank {element : Bytes} {elements names : List Bytes} (blank : Blank element)
      (rest : Names elements names) : Names (element :: elements) names
  | identity {element : Bytes} {elements names : List Bytes}
      (spelled : Spells (bytes "identity") element) (rest : Names elements names) :
      Names (element :: elements) names
  | encoding {element name : Bytes} {elements names : List Bytes}
      (named : name ≠ bytes "identity") (spelled : Spells name element)
      (rest : Names elements names) : Names (element :: elements) (name :: names)

/-- A decoder is advertised under the name, and inverts the encoder of it. -/
structure Inverted (entries : List ContentEncodingDecoderEntry) (encode : Bytes → Bytes → Bytes)
    (name : Bytes) : Prop where
  plain : byte ',' ∉ name
  decoder : ∃ entry ∈ entries, entry.encoding = name ∧
    ∀ body, entry.decoder.decode (encode name body) name = .ok body

end AlternatorClient
