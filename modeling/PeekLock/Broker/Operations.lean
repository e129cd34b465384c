import PeekLock.Broker.Basic
import PeekLock.Parameters

/-! # What can be asked of a queue

Each operation takes the broker from one state to the next at once; only receiving may take
time, and is started here and carried on by the schedule.  An envelope that is settled is handed
back without its token, unless the token is another queue's: then nothing happens at all.
-/

namespace PeekLock.Broker

/-! ## Making queues -/

def addCounters (b : Broker) : Broker × Nat :=
  ({ b with counters := b.counters ++ [.empty] }, b.counters.length)

/-- Makes a queue with settings that are taken as they stand. -/
def addQueue (b : Broker) (settings : Settings) (counters : Option Nat) : Broker × QueueId :=
  let (b, scope) := b.openScope none
  ({ b with queues := b.queues ++ [⟨settings, counters, false, .empty, [], scope⟩] },
    b.queues.length)

def newQueue (b : Broker) (name : QueueName) (counters : Option Nat) : Broker × QueueId :=
  b.addQueue (.named name.text) counters

/-- Makes a queue with settings that have passed the check. -/
def newQueueOf (b : Broker) (settings : Settings) (counters : Option Nat) :
    Except ConfigurationError (Broker × QueueId) :=
  match settings.check with
  | .ok _ => .ok (b.addQueue settings counters)
  | .error e => .error e

/-! ## Opening, closing, clearing -/

def openQueue (b : Broker) (q : QueueId) (correlationId : String)
    (connection : Option ConnectionParams) : Broker :=
  (b.modifyQueue q fun queue => { queue with opened := true }).note
    (.opened q correlationId (connection.bind (·.uri)))

def endListen (b : Broker) (q : QueueId) (correlationId : String) : Broker :=
  match b.queue? q with
  | some queue => (b.cancel queue.scope).note (.listenEnded q correlationId)
  | none => b

/-- Closes a queue, and ends the listening.  Its messages stay. -/
def closeQueue (b : Broker) (q : QueueId) (correlationId : String) : Broker :=
  ((b.modifyQueue q fun queue => { queue with opened := false }).endListen q correlationId).note
    (.closed q correlationId)

/-- Drops all messages of a queue, those that are locked too. -/
def clear (b : Broker) (q : QueueId) (correlationId : String) : Broker :=
  (b.setStorage q (b.storageOf q).clear).note (.cleared q correlationId)

/-! ## Sending and peeking -/

def send (b : Broker) (q : QueueId) (correlationId : String) (e : Envelope) : Broker :=
  let b' := b.setStorage q ((b.storageOf q).enqueue b.time e)
  (b'.owe q 1).note (.sent q correlationId (Storage.stamp b.time e))

/-- The next message, left where it is. -/
def peek (b : Broker) (q : QueueId) (correlationId : String) : Option Envelope × Broker :=
  match (b.storageOf q).visible with
  | [] => (none, b)
  | e :: _ => (some e, b.note (.peeked q correlationId e))

/-- The next messages, at most so many, left where they are. -/
def peekBatch (b : Broker) (q : QueueId) (correlationId : String) (most : Nat) :
    List Envelope × Broker :=
  let messages := (b.storageOf q).visible.take most
  (messages, b.note (.peekedBatch q correlationId messages.length))

/-! ## Receiving and settling -/

/-- Takes the next message under a lock that lasts for the timeout. -/
def lockNext (b : Broker) (q : QueueId) (correlationId : String) (timeout : Duration) :
    Option (Envelope × Broker) :=
  match (b.storageOf q).lockNext (ownerOf q) b.time timeout with
  | none => none
  | some (e, s) =>
    some (e, ((b.setStorage q s).count q .received 1).note (.received q correlationId e))

def ownToken? (q : QueueId) (e : Envelope) : Option LockToken :=
  e.reference.filter (·.owner = ownerOf q)

/-- Settles a message as done. -/
def complete (b : Broker) (q : QueueId) (e : Envelope) : Envelope × Broker :=
  match ownToken? q e with
  | none => (e, b)
  | some token =>
    let s := b.storageOf q
    let e := e.withoutReference
    match s.lock? token with
    | none => (e, b)
    | some _ => (e, (b.setStorage q (s.unlock token)).note (.completed q token e))

/-- Settles a message as not to be processed.  It is counted and dropped. -/
def deadLetter (b : Broker) (q : QueueId) (e : Envelope) : Envelope × Broker :=
  match ownToken? q e with
  | none => (e, b)
  | some token =>
    let s := b.storageOf q
    let e := e.withoutReference
    match s.lock? token with
    | none => (e, b)
    | some _ =>
      (e, ((b.setStorage q (s.unlock token)).count q .dead 1).note (.deadLettered q token e))

/-- Gives a message back, as its holder has it.  If the lock has expired it is dropped. -/
def abandon (b : Broker) (q : QueueId) (e : Envelope) : Envelope × Broker :=
  match ownToken? q e with
  | none => (e, b)
  | some token =>
    let e := e.withoutReference
    let (outcome, s) := (b.storageOf q).abandon b.time token e
    match outcome with
    | .unknown => (e, b)
    | .expired => (e, (b.setStorage q s).note (.dropped q token e))
    | .requeued =>
      let b' := ((b.setStorage q s).note (.abandoned q token e)).owe q 1
      (e, b'.note (.sent q e.correlationId (Storage.stamp b.time e)))

/-- Renews the lock of a message, if it has not expired. -/
def renew (b : Broker) (q : QueueId) (e : Envelope) : Broker :=
  match ownToken? q e with
  | none => b
  | some token =>
    match (b.storageOf q).renew b.time token with
    | some s => (b.setStorage q s).note (.renewed q token e true)
    | none => b.note (.renewed q token e false)

/-- Makes the messages of expired locks visible again, and tells how many. -/
def releaseExpired (b : Broker) (q : QueueId) (correlationId : String) : Nat × Broker :=
  let (messages, s) := (b.storageOf q).sweep b.time
  let b := b.setStorage q s
  let b := if messages.isEmpty then b else b.owe q messages.length
  (messages.length, b.note (.released q correlationId messages))

def lockExpiration (b : Broker) (q : QueueId) (token : LockToken) : Option Timestamp :=
  ((b.storageOf q).lock? token).map (·.expiration)

/-! ## Starting what takes time -/

def startReceive (b : Broker) (q : QueueId) (correlationId : String) (timeout : Duration) :
    Broker × TaskId :=
  b.spawn (.receive ⟨q, correlationId, timeout, b.deadlineAfter timeout, .entering⟩)

/-- Gives up a receive. -/
def dropReceive (b : Broker) (id : TaskId) : Broker :=
  match b.task? id with
  | some (.receive r) =>
    ((b.deregister r.queue id).disarm id).setTask id (.receive { r with stage := .dropped })
  | _ => b

/-- The scope above the loops of a queue, a fresh one if the last was cancelled. -/
def listenScope (b : Broker) (q : QueueId) : Broker × Option ScopeId :=
  match b.queue? q with
  | none => (b, none)
  | some queue =>
    if b.isCancelled queue.scope then
      let (b, s) := b.openScope none
      (b.modifyQueue q fun queue => { queue with scope := s }, some s)
    else (b, some queue.scope)

/-- Starts a loop with the timings of the queue's settings, which ends when the listening at the
    queue does. -/
def listen (b : Broker) (q : QueueId) (correlationId : String) (receiver : Receiver) :
    Broker × TaskId :=
  let (b, parent) := b.listenScope q
  let (b, scope) := b.openScope parent
  let options := match b.queue? q with
    | some queue => queue.settings.listenOptions
    | none => default
  b.spawn (.listen (.new q correlationId receiver options scope {}))

/-- Starts a loop with timings, faults and a scope of its own. -/
def listenWith (b : Broker) (q : QueueId) (correlationId : String) (receiver : Receiver)
    (options : ListenOptions) (faults : Faults) (cancelled : Bool) : Broker × TaskId :=
  let (b, scope) := b.openScope none
  let b := if cancelled then b.cancel scope else b
  b.spawn (.listen (.new q correlationId receiver options scope faults))

/-- Nobody holds a loop any longer.  Once it is over, neither does anything hold its scope. -/
def releaseLoop (b : Broker) (id : TaskId) : Broker :=
  match b.task? id with
  | some (.listen l) => if l.isStopped then b.releaseScope l.scope else b
  | _ => b

def stopLoop (b : Broker) (id : TaskId) : Broker :=
  match b.task? id with
  | some (.listen l) => b.cancel l.scope
  | _ => b

end PeekLock.Broker
