import PeekLock.Envelope
import PeekLock.Time.Duration

/-! # Receivers

What is done with a message that a listen loop delivers.  A receiver answers a message
with a plan, the commands to be carried out one after the other; the first that fails ends
the plan.  What it has to remember from one message to the next stands in its notebook, and
so does the signal by which it tells others that it has got on.
-/

namespace PeekLock

abbrev TaskId := Nat

/-- Word for one of those who wait for something.  It goes to the first who has asked for it, and
    is kept for the next to ask if nobody has. -/
structure Signal where
  /-- Whether there is word that nobody has had yet. -/
  kept : Bool := false
  /-- Those who have asked and have not been told. -/
  asking : List TaskId := []
deriving DecidableEq, Repr, Inhabited

namespace Signal

/-- Gives word, and says who is told by that. -/
def tell (s : Signal) : List TaskId × Signal :=
  match s.asking with
  | [] => ([], { s with kept := true })
  | id :: rest => ([id], { s with asking := rest })

/-- Uses up the word that was kept. -/
def use (s : Signal) : Signal :=
  { s with kept := false }

/-- Asks to be told. -/
def ask (s : Signal) (id : TaskId) : Signal :=
  { s with asking := s.asking ++ [id] }

def isAsking (s : Signal) (id : TaskId) : Bool :=
  s.asking.contains id

/-- Asks no longer. -/
def withdraw (s : Signal) (id : TaskId) : Signal :=
  { s with asking := s.asking.filter (· ≠ id) }

end Signal

/-- One thing that a receiver does with the message it was given. -/
inductive Command where
  /-- Waits before it goes on. -/
  | pause (d : Duration)
  | complete
  | abandon
  | deadLetter
  | renew
  /-- Ends the listening at the queue, this loop included. -/
  | endListen
  /-- Closes the queue. -/
  | close
  /-- Sends another message to the queue. -/
  | send (message : Envelope)
  /-- Puts another payload in the message. -/
  | replacePayload (payload : Octets)
  /-- Marks a payload as seen. -/
  | remember (payload : String)
  /-- Counts the message as processed, and as completed if it was. -/
  | tally (completed : Bool)
  /-- Tells one who waits for it that the receiver has got on. -/
  | signal
  /-- Gives up. -/
  | fail (reason : String)
deriving Repr

/-- What a receiver remembers. -/
structure Notebook where
  /-- Payloads that it has seen. -/
  seen : List String := []
  /-- The number of messages counted as processed. -/
  processed : Nat := 0
  /-- The number of these that were completed. -/
  completed : Nat := 0
  /-- For those who wait for messages to be processed. -/
  progress : Signal := {}
deriving Repr, Inhabited

namespace Notebook

/-- Marks a payload as seen. -/
def remember (n : Notebook) (payload : String) : Notebook :=
  { n with seen := payload :: n.seen }

def tally (n : Notebook) (completed : Bool) : Notebook :=
  { n with
    processed := n.processed + 1
    completed := if completed then n.completed + 1 else n.completed }

end Notebook

/-- A receiver: its plan for each message. -/
structure Receiver where
  plan : Notebook → Envelope → List Command

instance : Inhabited Receiver := ⟨⟨fun _ _ => []⟩⟩

namespace Receiver

/-- What a simple receiver does with each message. -/
inductive Habit where
  | complete
  | abandon
  /-- Abandons a payload that it has not seen before. -/
  | abandonFirst
  | deadLetter
  | fail
  /-- Fails on a payload that it has not seen before. -/
  | failFirst
  /-- Leaves the message locked. -/
  | keep
  | renewComplete
  | endListen
  | close
  /-- Answers each message that is no answer itself. -/
  | reply
  /-- Abandons a payload that it has not seen before with a mark behind it. -/
  | editAbandon
deriving DecidableEq, Repr

def replyType : String := "reply"

/-- The commands of a habit for a message, which is the first with its payload or not. -/
def Habit.commands (delay : Duration) (first : Bool) (e : Envelope) : Habit → List Command
  | .complete => [.complete]
  | .abandon => [.abandon]
  | .abandonFirst => if first then [.abandon] else [.complete]
  | .deadLetter => [.deadLetter]
  | .fail => [.fail ("rejected " ++ e.text)]
  | .failFirst => if first then [.fail "first delivery"] else [.complete]
  | .keep => []
  | .renewComplete => [.renew, .pause delay, .complete]
  | .endListen => [.complete, .endListen]
  | .close => [.abandon, .close]
  | .reply =>
    if e.messageType = replyType then [.complete]
    else [.complete, .send { e with messageType := replyType }]
  | .editAbandon =>
    if first then
      let marked := e.text ++ "!"
      [.replacePayload (Utf8.encode marked), .remember marked, .abandon]
    else [.complete]

/-- The receiver of a habit.  It waits first, and marks every payload as seen. -/
def ofHabit (habit : Habit) (delay : Duration) : Receiver where
  plan notebook e :=
    let first := !notebook.seen.contains e.text
    [.pause delay, .remember e.text] ++ habit.commands delay first e

end Receiver

end PeekLock
