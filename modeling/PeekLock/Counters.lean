import PeekLock.Keyed
import PeekLock.Number.Limits

/-! # Counters

Named totals that stop at the largest 64-bit number.  A queue counts under names of its
own, made of its name and the event.
-/

namespace PeekLock

/-- What a queue counts. -/
inductive QueueEvent where
  | sent
  | received
  | dead
deriving DecidableEq, Repr

namespace QueueEvent

def suffix : QueueEvent → String
  | .sent => "sentmessages"
  | .received => "receivedmessages"
  | .dead => "deadmessages"

def all : List QueueEvent := [.sent, .received, .dead]

end QueueEvent

/-- The counter of some event, whatever it is called, at a queue. -/
def counterName (queue event : String) : String :=
  "queue." ++ queue ++ "." ++ event

/-- Totals by name, in the order of the names. -/
structure Counters where
  totals : List (String × Nat)
  ascend : KeysAscend totals

namespace Counters

def limit : Nat := maxUnsigned64

def empty : Counters := ⟨[], List.Pairwise.nil⟩

instance : Inhabited Counters := ⟨empty⟩

/-- The total under a name, zero if nothing was counted under it. -/
def get (c : Counters) (name : String) : Nat :=
  (Keyed.get? name c.totals).getD 0

def add (c : Counters) (name : String) (n : Nat) : Counters :=
  ⟨Keyed.insert name (min (c.get name + n) limit) c.totals, Keyed.insert_ascend _ _ c.ascend⟩

/-- Something done to counters. -/
inductive Update where
  | increment (name : String) (n : Nat)
  | incrementOne (name : String)
  /-- Forgets all names and their totals. -/
  | clear
deriving DecidableEq, Repr

def apply (c : Counters) : Update → Counters
  | .increment name n => c.add name n
  | .incrementOne name => c.add name 1
  | .clear => empty

/-- The counters after several updates. -/
def applyAll (c : Counters) (updates : List Update) : Counters :=
  updates.foldl apply c

end Counters

end PeekLock
