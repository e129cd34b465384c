import PeekLock.CommandLine.Error
import PeekLock.Demo.Summary
import PeekLock.Demo.Wait
import PeekLock.Json.Record

/-! # The demo

Sends messages to a fresh queue and has one listen loop consume them, until all are processed or the
time is up.  Every so many messages one is dead-lettered instead of completed.
-/

namespace PeekLock

/-- What a demo is to do. -/
structure DemoOptions where
  messages : Nat
  messageType : String
  /-- Dead-letters the messages whose number is a multiple of this one. -/
  failEvery : Option Nat
  timeout : Duration
deriving Repr

namespace Demo

/-! ## Messages -/

/-- What a demo message carries. -/
structure Payload where
  sequence : Nat
  text : String
deriving DecidableEq, Repr

def Payload.nth (count i : Nat) : Payload :=
  ⟨i, "message " ++ toString i ++ " of " ++ toString count⟩

/-- The payload as a document. -/
def Payload.document (p : Payload) : Document :=
  .record [("sequence", .integer p.sequence), ("text", .text p.text)]

/-- The fields of a payload that have been read. -/
structure Parts where
  sequence : Option Nat := none
  text : Option String := none

def record : Json.Record Parts Payload where
  name := "DemoPayload"
  lenient := false
  empty := {}
  finish
    | ⟨some i, some s⟩ => .ok ⟨i, s⟩
    | ⟨none, _⟩ => .error "sequence"
    | ⟨_, none⟩ => .error "text"
  fields := [
    { name := "sequence"
      given := (·.sequence.isSome)
      read := fun _ p bs => do
        let (v, rest) ← Json.readUnsigned 64 bs
        return ({ p with sequence := some v }, rest) },
    { name := "text"
      given := (·.text.isSome)
      read := fun _ p bs => do
        let (v, rest) ← Json.readText bs
        return ({ p with text := some v }, rest) }]

/-! ## The receiver -/

/-- Whether a message is dead-lettered; one that cannot be read always is. -/
def isDeadLetter (failEvery : Option Nat) (payload : Option Payload) : Bool :=
  match payload, failEvery with
  | some p, some k => p.sequence % k = 0
  | some _, none => false
  | none, _ => true

def receiver (failEvery : Option Nat) : Receiver where
  plan _ e :=
    if isDeadLetter failEvery (e.json? (record.read Json.maxDepth)) then
      [.deadLetter, .tally false, .signal]
    else [.complete, .tally true, .signal]

/-! ## Running -/

/-- Sends the messages from one number on, so many of them. -/
def sendAll (q : QueueId) (correlationId : String) (o : DemoOptions) (i : Nat) :
    (left : Nat) → Broker → Except SerializationError Broker
  | 0, b => .ok b
  | left + 1, b => do
    let payload := (Payload.nth o.messages i).document
    let e ← Envelope.ofDocument (.numbered (i - 1)) correlationId o.messageType payload
    sendAll q correlationId o (i + 1) left (b.send q correlationId e)

/-- More steps than a demo takes for so many messages. -/
def steps (count : Nat) : Nat :=
  100 * (count + 1)

/-- A demo whose messages have been sent and whose loop has been started. -/
structure Setup where
  broker : Broker
  queue : QueueId
  /-- The loop that consumes the messages. -/
  loop : TaskId
  /-- The counters of the queue. -/
  counters : Nat

/-- Makes a queue, sends the messages, and starts a loop. -/
def prepare (start : Timestamp) (correlationId : String) (settings : Settings) (o : DemoOptions) :
    Except CliError Setup := do
  let (b, counters) := (Broker.new start).addCounters
  let (b, q) ← (match b.newQueueOf settings (some counters) with
    | .ok made => .ok made
    | .error e => .error (CliError.queue (.configuration e)))
  let b := b.openQueue q correlationId none
  let b ← (match sendAll q correlationId o 1 o.messages b with
    | .ok b => .ok b
    | .error e => .error (CliError.queue (.serialization e)))
  let (b, id) := b.listen q correlationId (receiver o.failEvery)
  return ⟨b, q, id, counters⟩

/-- The wait for the messages of a demo. -/
def Setup.wait (s : Setup) (o : DemoOptions) : Wait :=
  .start s.broker s.loop o.messages (s.broker.now + o.timeout.ceilMillis)

/-- A demo that is over. -/
structure Course where
  /-- Where the wait for the messages stood when the queue was closed. -/
  waited : WaitStage
  broker : Broker
  /-- The loop that has consumed the messages. -/
  loop : TaskId
  /-- The counters of the queue. -/
  counters : Nat

/-- Waits until a loop has consumed the messages or the time is up; then closes the queue, and
    waits for the loop to end. -/
def course (start : Timestamp) (correlationId : String) (settings : Settings) (o : DemoOptions) :
    Except CliError Course := do
  let s ← prepare start correlationId settings o
  let w := (s.wait o).run (steps o.messages)
  let b := (w.broker.closeQueue s.queue correlationId).settle (steps o.messages)
  return ⟨w.stage, b, s.loop, s.counters⟩

namespace Course

/-- Whether all messages were processed in time. -/
def drained (c : Course) : Bool :=
  c.waited = .ended true

def total (c : Course) (queue : String) (event : QueueEvent) : Nat :=
  ((c.broker.counters[c.counters]?).getD .empty).get (counterName queue event.suffix)

def summary (c : Course) (queue : String) : DemoSummary :=
  ⟨queue, c.total queue .sent, c.total queue .received, (notebook c.broker c.loop).completed,
    c.total queue .dead⟩

/-- The report on a demo that did not come to its end in time. -/
def failure (c : Course) (o : DemoOptions) : CliError :=
  .commandFailed ("queue did not drain within " ++ toString o.timeout.seconds ++ "s: " ++
    toString (notebook c.broker c.loop).processed ++ " of " ++ toString o.messages ++
    " messages processed")

end Course

/-- The outcome of a demo, with the milliseconds that it took. -/
def run (start : Timestamp) (correlationId : String) (settings : Settings) (o : DemoOptions) :
    Except CliError (DemoSummary × Nat) := do
  if o.failEvery = some 0 then
    .error (.invalidArgument "fail-every" "must be greater than zero")
  else
    let c ← course start correlationId settings o
    if c.drained then return (c.summary settings.name, c.broker.now) else .error (c.failure o)

end Demo

end PeekLock
