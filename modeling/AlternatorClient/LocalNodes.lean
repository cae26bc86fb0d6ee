import AlternatorClient.Config

/-! The body of a `/localnodes` answer: a JSON array of strings. The parser's
position in the body is the list of bytes that are left. -/
namespace AlternatorClient
open Foundation

namespace ParseJsonStringArray

def skipWs (rest : Bytes) : Bytes := rest.dropWhile isSpace

def expect (ch : UInt8) (rest : Bytes) : Except Error Bytes :=
  match skipWs rest with
  | [] => .error (.runtimeError (bytes "invalid /localnodes JSON response"))
  | c :: rest =>
    if c = ch then .ok rest else .error (.runtimeError (bytes "invalid /localnodes JSON response"))

def unescape (escaped : UInt8) : Option UInt8 :=
  if escaped = byte '"' ∨ escaped = byte '\\' ∨ escaped = byte '/' then some escaped
  else if escaped = byte 'b' then some 8
  else if escaped = byte 'f' then some 12
  else if escaped = byte 'n' then some 10
  else if escaped = byte 'r' then some 13
  else if escaped = byte 't' then some 9
  else none

/-- The bytes of a string after its opening quote, and what follows it. A body
that ends inside the string ends the string too. -/
def stringBody : Bytes → Bytes → Except Error (Bytes × Bytes)
  | [], value => .ok (value, [])
  | ch :: rest, value =>
    if ch = byte '"' then .ok (value, rest)
    else if ch ≠ byte '\\' then stringBody rest (value ++ [ch])
    else
      match rest with
      | [] => .error (.runtimeError (bytes "invalid escape in /localnodes JSON response"))
      | escaped :: rest =>
        match unescape escaped with
        | none => .error (.runtimeError (bytes "unsupported escape in /localnodes JSON response"))
        | some ch => stringBody rest (value ++ [ch])

/-- The `while (true)` loop over the elements. Each turn takes a quote from the
body, so the length of the body bounds the turns. -/
def elements : Nat → Bytes → List Bytes → Except Error (List Bytes × Bytes)
  | 0, _, _ => .error (.runtimeError (bytes "unterminated /localnodes JSON response"))
  | turns + 1, rest, out =>
    match expect (byte '"') rest with
    | .error error => .error error
    | .ok rest =>
      match stringBody rest [] with
      | .error error => .error error
      | .ok (value, rest) =>
        match skipWs rest with
        | [] => .error (.runtimeError (bytes "unterminated /localnodes JSON response"))
        | c :: after =>
          if c = byte ']' then .ok (out ++ [value], after)
          else
            match expect (byte ',') (c :: after) with
            | .error error => .error error
            | .ok rest => elements turns rest (out ++ [value])

def finish (out : List Bytes) (rest : Bytes) : Except Error (List Bytes) :=
  if skipWs rest = [] then .ok out
  else .error (.runtimeError (bytes "invalid trailing data in /localnodes JSON response"))

end ParseJsonStringArray

open ParseJsonStringArray in
def parseJsonStringArray (body : Bytes) : Except Error (List Bytes) :=
  match expect (byte '[') body with
  | .error error => .error error
  | .ok rest =>
    let rest := skipWs rest
    if rest.head? = some (byte ']') then finish [] rest.tail
    else
      match elements body.length rest [] with
      | .error error => .error error
      | .ok (out, rest) => finish out rest

/-- `ToUrls`. -/
def toUrls (nodes : List Bytes) (config : Config) : List Url :=
  sortAndDedupeNodes (nodes.map config.nodeUrl)

example : (parseJsonStringArray (bytes " [ \"a\", \"b\\n\" ] ")).toOption =
    some [bytes "a", bytes "b\n"] := by decide +kernel

end AlternatorClient
