import AlternatorClient.Foundation.Bytes
import AlternatorClient.Foundation.Regex

/-! `redact` of the release guard: the credential patterns as syntax trees, the
lazy merge of their spans with those of the secret forms, and the loop that
folds the spans with two cursors. -/
namespace AlternatorClient.Guard
open Foundation Foundation.Regex

abbrev Pattern := Regex UInt8

/-- Case folding of a bytes pattern is that of ASCII. -/
def foldCase (c : UInt8) : UInt8 := if byte 'A' ≤ c ∧ c ≤ byte 'Z' then c + 32 else c

def caseless (a b : UInt8) : Bool := foldCase a == foldCase b

/-- `\w` of a bytes pattern. -/
def isWord (c : UInt8) : Bool :=
  (byte 'a' ≤ c && c ≤ byte 'z') || (byte 'A' ≤ c && c ≤ byte 'Z') ||
    (byte '0' ≤ c && c ≤ byte '9') || c == byte '_'

/-- A word under `(?i)`. -/
def word (text : String) : Pattern := literal caseless (bytes text)

def oneOf (chars : String) : Pattern := satisfying fun c => (bytes chars).contains c

def noneOf (chars : String) : Pattern := satisfying fun c => !(bytes chars).contains c

/-- `\s*` -/
def spaces : Pattern := star (satisfying isSpace)

/-- `[\w.-]*` -/
def nameChars : Pattern := star (satisfying fun c => isWord c || (bytes ".-").contains c)

/-- `["']` -/
def quote : Pattern := oneOf "\"'"

/-- `\\[\s\S]` -/
def escaped : Pattern := seq (oneOf "\\") (satisfying fun _ => true)

/-- `(?im)((?:proxy-)?authorization["']?\s*[:=]\s*)([^\r\n]*)` -/
def authorizationHeader : Pattern :=
  seqs [
    group 1 (seqs [opt (word "proxy-"), word "authorization", opt quote, spaces, oneOf ":=",
      spaces]),
    group 2 (star (noneOf "\r\n"))]

/-- `(?i)(["'])((?:-D\s*|--?define[=\s]+)[\w.-]*`
`(?:passphrase|password|username|token|secret|authorization)[\w.-]*=)`
`((?:\\[\s\S]|(?!\1)[^\\])*)\1` -/
def quotedDefinition : Pattern :=
  seqs [
    group 1 quote,
    group 2 (seqs [
      alt (seq (word "-D") spaces)
        (seqs [word "-", opt (word "-"), word "define",
          plus (satisfying fun c => c == byte '=' || isSpace c)]),
      nameChars,
      alts (word "passphrase") [word "password", word "username", word "token", word "secret",
        word "authorization"],
      nameChars,
      word "="]),
    group 3 (star (alt escaped (seq (notAhead (backref caseless 1)) (noneOf "\\")))),
    backref caseless 1]

def quoted (mark other : String) : Pattern :=
  seqs [word mark, star (alt escaped (noneOf other)), word mark]

/-- `(?i)([\w.-]*(?:passphrase|password|username|token|secret|authorization|private[_-]?key)`
`[\w.-]*["']?\s*[:=]\s*)`
`("(?:\\[\s\S]|[^"\\])*"|'(?:\\[\s\S]|[^'\\])*'|[^\s]+)` -/
def credentialAssignment : Pattern :=
  seqs [
    group 1 (seqs [
      nameChars,
      alts (word "passphrase") [word "password", word "username", word "token", word "secret",
        word "authorization", seqs [word "private", opt (oneOf "_-"), word "key"]],
      nameChars, opt quote, spaces, oneOf ":=", spaces]),
    group 2 (alts (quoted "\"" "\"\\") [quoted "'" "'\\", plus (satisfying fun c => !isSpace c)])]

def credentialPatterns : List (Pattern × Nat) :=
  [(authorizationHeader, 2), (quotedDefinition, 3), (credentialAssignment, 2)]

/-- `re.I if b"%" in value else 0` -/
def sameByte (value : Bytes) : UInt8 → UInt8 → Bool :=
  if value.contains (byte '%') then caseless else (· == ·)

/-- `b"(?=(" + re.escape(value) + b"))"` -/
def formPattern (value : Bytes) : Pattern := overlapping (sameByte value) value

abbrev Span := Nat × Nat

/-- A group that took no part in its match would have the span `(-1, -1)`, which
the merge hands on at once and the loop passes over. -/
def spans (data : Bytes) (pattern : Pattern) (group : Nat) : List Span :=
  (finditer data pattern).filterMap fun m => m.span group

def Span.le (s t : Span) : Bool := s.1 < t.1 || s.1 == t.1 && s.2 ≤ t.2

/-- `heapq.merge`: the least of the heads, and of equal ones that of the earlier list. -/
def merge (sources : List (List Span)) : List Span :=
  sources.foldl (fun merged spans => merged.merge spans Span.le) []

structure Cursors where
  output : Bytes := []
  start : Nat := 0
  stop : Nat := 0
  deriving DecidableEq, Repr

def marker : Bytes := bytes "[REDACTED]"

/-- `if end > start: output.extend(b"[REDACTED]")` -/
def Cursors.close (c : Cursors) : Bytes := if c.stop > c.start then c.output ++ marker else c.output

/-- The body of the loop. A span that begins after the covered stretch closes it and
begins another; one that overlaps or touches it extends it. -/
def Cursors.fold (data : Bytes) (c : Cursors) (span : Span) : Cursors :=
  if span.1 > c.stop then
    { output := c.close ++ (data.drop c.stop).take (span.1 - c.stop)
      start := span.1
      stop := max c.stop span.2 }
  else { c with stop := max c.stop span.2 }

def sources (data : Bytes) (forms : List Bytes) : List (List Span) :=
  credentialPatterns.map (fun pattern => spans data pattern.1 pattern.2) ++
    forms.map fun value => spans data (formPattern value) 1

def redact (data : Bytes) (forms : List Bytes) : Bytes :=
  let c := (merge (sources data forms)).foldl (Cursors.fold data) {}
  c.close ++ data.drop c.stop

end AlternatorClient.Guard
