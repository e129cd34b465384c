/-! # Why JSON could not be read or written
-/

namespace PeekLock.Json

/-- The first fault met in the order of the text, or a value that has no text. -/
inductive Failure where
  /-- The text is JSON so far, but does not fit the type read. -/
  | data (message : String)
  /-- The text is no JSON text. -/
  | malformed
  /-- The text ends inside a value. -/
  | truncated
  /-- The value has no JSON text. -/
  | unencodable (message : String)
deriving DecidableEq, Repr

def Failure.message : Failure → String
  | .data message => message
  | .malformed => "malformed text"
  | .truncated => "text ended too early"
  | .unencodable message => message

end PeekLock.Json
