import AlternatorClient.Foundation.Bytes

/-! The exceptions the library throws or passes on, by class and text. -/
namespace AlternatorClient
open Foundation

inductive Error where
  | invalidArgument (what : Bytes)
  | runtimeError (what : Bytes)
  | httpStatusError (what : Bytes) (statusCode : Int)
  | invalidHttpResponseError (what : Bytes)
  /-- Anything else, thrown by an HTTP client or another supplied object. -/
  | other (what : Bytes)
  deriving DecidableEq, Repr

/-- `error.what()`. -/
def Error.what : Error → Bytes
  | .invalidArgument what | .runtimeError what | .httpStatusError what _
  | .invalidHttpResponseError what | .other what => what

end AlternatorClient
