import PeekLock.Json.Value

/-! # The outcome of a demo
-/

namespace PeekLock

/-- What a demo has done. -/
structure DemoSummary where
  queue : String
  sent : Nat
  received : Nat
  completed : Nat
  deadLettered : Nat
deriving DecidableEq, Repr

namespace DemoSummary

def display (s : DemoSummary) : String :=
  "Queue:         " ++ s.queue ++
  "\nSent:          " ++ toString s.sent ++
  "\nReceived:      " ++ toString s.received ++
  "\nCompleted:     " ++ toString s.completed ++
  "\nDead-lettered: " ++ toString s.deadLettered

/-- The summary as a JSON value, in the order of declaration. -/
def toValue (s : DemoSummary) : Json :=
  .object [
    ("queue", .text s.queue),
    ("sent", .integer s.sent),
    ("received", .integer s.received),
    ("completed", .integer s.completed),
    ("dead_lettered", .integer s.deadLettered)]

end DemoSummary

end PeekLock
