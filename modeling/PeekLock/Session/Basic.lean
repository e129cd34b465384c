import PeekLock.Broker.Schedule
import PeekLock.Capabilities
import PeekLock.Envelope.Draft
import PeekLock.Envelope.Edit

/-! # Sessions

A broker with names for everything that a user holds: queues, envelopes in slots, listen loops and
receives in progress.  A session is told step by step.  Each step answers at once, or, where it
blocks, as soon as it can; then all tasks run until they are blocked.
-/

namespace PeekLock

/-- What a name of a task stands for. -/
inductive TaskRole where
  | listener
  | waiter
deriving DecidableEq, Repr

/-- A broker and what its user holds. -/
structure Session where
  broker : Broker
  /-- Queues by name; several names may stand for one queue. -/
  queues : List (String × QueueId) := []
  slots : List (String × Envelope) := []
  /-- Loops that have not been joined. -/
  listeners : List (String × TaskId) := []
  /-- Receives whose end has not been taken. -/
  waiters : List (String × TaskId) := []
  /-- All tasks that were ever given a name. -/
  taskNames : List (TaskId × TaskRole × String) := []
  /-- The number of the next fresh identifier. -/
  nextId : Nat := 0

/-- What a new queue is made of. -/
inductive QueueSource where
  | name (text : String)
  | settings (s : Settings)
deriving Repr

/-- What a new queue counts into. -/
inductive CountersSource where
  | fresh
  | none
  /-- The counters of another queue. -/
  | shared (queue : String)
deriving DecidableEq, Repr

/-- A thing that a step names and that is not there. -/
inductive Missing where
  | slot
  | queue
  | listener
  | waiter
deriving DecidableEq, Repr

/-- Why a step is refused.  Nothing happens then. -/
inductive SessionError where
  | missing (thing : Missing)
  | validation (error : ValidationError)
  | queue (error : QueueError)
  | serialization (error : SerializationError)
deriving DecidableEq, Repr

/-- A step of a session. -/
inductive Step where
  | newQueue (queue : String) (source : QueueSource) (counters : CountersSource)
  | cloneQueue (queue target : String)
  | settings (queue : String)
  | describe (queue : String)
  | capabilities (queue : String)
  | count (queue : String)
  | counters (queue : String)
  | openQueue (queue correlationId : String) (connection : Option ConnectionParams)
  | closeQueue (queue correlationId : String)
  | clear (queue correlationId : String)
  | endListen (queue correlationId : String)
  | makeEnvelope (slot : String) (draft : Draft)
  | edit (slot : String) (edit : Edit)
  | copy (slot target : String)
  | equal (slot other : String)
  | sendDraft (queue correlationId : String) (draft : Draft)
  | sendCopy (queue correlationId slot : String)
  | peek (queue correlationId : String) (target : Option String)
  | peekBatch (queue correlationId : String) (most : Nat)
  /-- Receives a message, and waits for it. -/
  | receive (queue correlationId : String) (timeout : Duration) (target : Option String)
  /-- Receives a message in the background. -/
  | startReceive (queue correlationId waiter : String) (timeout : Duration)
  | take (waiter : String) (target : Option String)
  | drop (waiter : String)
  | renew (queue slot : String) (timeout : Duration)
  | complete (queue slot : String)
  | abandon (queue slot : String)
  | deadLetter (queue slot : String)
  | lockExpiration (queue slot : String)
  | releaseExpired (queue correlationId : String)
  | token (slot : String)
  | compareTokens (slot other : String)
  | sleep (d : Duration)
  | now
  | listen (queue correlationId listener : String) (receiver : Receiver)
  /-- Listens with timings, faults and a scope of its own. -/
  | listenWith (queue correlationId listener : String) (receiver : Receiver)
      (options : ListenOptions) (faults : Faults) (cancelled : Bool)
  | stop (listener : String)
  | state (listener : String)
  /-- Waits until a loop has ended. -/
  | join (listener : String)

/-- What a step answers. -/
inductive Answer where
  | done
  /-- A queue was made: its display form, its name and its description. -/
  | created (display name description : String)
  | settings (s : Settings)
  | description (s : String)
  | capabilities (c : Capabilities)
  | number (n : Nat)
  | counters (c : Counters)
  | envelope (e : Option Envelope)
  | envelopes (es : List Envelope)
  | edited (answer : EditAnswer)
  | truth (b : Bool)
  | token (t : Option LockToken)
  | order (o : Ordering)
  | time (t : Option Timestamp)
  /-- There is no token to ask for. -/
  | noReference
  /-- The receive goes on. -/
  | pending
  | state (running : Bool)
  | joined
  | refused (error : SessionError)

namespace Session

def new (start : Timestamp) : Session :=
  { broker := .new start }

/-! ## Names -/

def queue (s : Session) (name : String) : Except SessionError QueueId :=
  match Keyed.get? name s.queues with
  | some q => .ok q
  | none => .error (.missing .queue)

/-- The envelope in a slot, if there is one. -/
def slot? (s : Session) (name : String) : Option Envelope :=
  Keyed.get? name s.slots

def slot (s : Session) (name : String) : Except SessionError Envelope :=
  match s.slot? name with
  | some e => .ok e
  | none => .error (.missing .slot)

/-- The token of the envelope in a slot; none where there is no envelope. -/
def token? (s : Session) (name : String) : Option LockToken :=
  (s.slot? name).bind (·.reference)

def listener (s : Session) (name : String) : Except SessionError TaskId :=
  match Keyed.get? name s.listeners with
  | some id => .ok id
  | none => .error (.missing .listener)

def waiter (s : Session) (name : String) : Except SessionError TaskId :=
  match Keyed.get? name s.waiters with
  | some id => .ok id
  | none => .error (.missing .waiter)

def fill (s : Session) (name : String) (e : Envelope) : Session :=
  { s with slots := Keyed.insert name e s.slots }

/-- Puts what a receive gave in a slot; nothing leaves the slot as it is. -/
def fillWith (s : Session) (target : Option String) (e : Option Envelope) : Session :=
  match target, e with
  | some name, some e => s.fill name e
  | _, _ => s

def forget {α : Type} (name : String) (names : List (String × α)) : List (String × α) :=
  names.filter (·.1 ≠ name)

/-! ## Queues -/

def describe (s : Session) (q : QueueId) : String :=
  let opened := match s.broker.queue? q with
    | some queue => queue.opened
    | none => false
  "MemoryMessageQueue \x7b name: " ++ Quoted.quote (s.broker.nameOf q) ++
    ", instance_id: " ++ toString (Broker.ownerOf q) ++
    ", opened: " ++ Notice.flag opened ++ " \x7d"

/-- The counters of a queue, none if it does not count. -/
def countersOf (s : Session) (q : QueueId) : Counters :=
  match (s.broker.queue? q).bind (·.counters) with
  | some i => (s.broker.counters[i]?).getD .empty
  | none => .empty

def chooseCounters (s : Session) : CountersSource → Except SessionError (Broker × Option Nat)
  | .none => .ok (s.broker, none)
  | .fresh =>
    let (b, i) := s.broker.addCounters
    .ok (b, some i)
  | .shared name => do
    let q ← s.queue name
    return (s.broker, (s.broker.queue? q).bind (·.counters))

def newQueue (s : Session) (name : String) (source : QueueSource) (counters : CountersSource) :
    Except SessionError (Session × Answer) := do
  let (b, counters) ← s.chooseCounters counters
  let (b, q) ← (match source with
    | .name text =>
      match QueueName.parse text with
      | .ok n => .ok (b.newQueue n counters)
      | .error e => .error (.validation e)
    | .settings settings =>
      match b.newQueueOf settings counters with
      | .ok made => .ok made
      | .error e => .error (.queue (.configuration e)))
  let s := { s with broker := b, queues := Keyed.insert name q s.queues }
  return (s, .created (Notice.queueDisplay (b.nameOf q)) (b.nameOf q) (s.describe q))

end Session

end PeekLock
