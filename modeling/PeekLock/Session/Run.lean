import PeekLock.Session.Basic

/-! # Running a session

The meaning of each step, and the report on it: the answer, the time, the state of all queues
and loops, and what has happened meanwhile.
-/

namespace PeekLock.Session

def withBroker (s : Session) (b : Broker) (a : Answer) : Session × Answer :=
  ({ s with broker := b }, a)

/-- Does something to an envelope at a queue, and puts it back into its slot. -/
def settleSlot (s : Session) (queue slot : String)
    (f : Broker → QueueId → Envelope → Envelope × Broker) :
    Except SessionError (Session × Answer) := do
  let q ← s.queue queue
  let e ← s.slot slot
  let (e, b) := f s.broker q e
  return (({ s with broker := b }).fill slot e, .envelope (some e))

def makeEnvelope (s : Session) (draft : Draft) : Except SessionError (Envelope × Session) :=
  match draft.make s.nextId with
  | .ok (e, next) => .ok (e, { s with nextId := next })
  | .error e => .error (.serialization e)

def hasEnded (id : TaskId) (b : Broker) : Bool :=
  match b.task? id with
  | some (.receive r) =>
    match r.stage with
    | .ended _ | .dropped => true
    | .entering | .looking | .waiting => false
  | _ => true

/-- What a receive has given, if it is over. -/
def outcome? (b : Broker) (id : TaskId) : Option (Option Envelope) :=
  match b.task? id with
  | some (.receive r) =>
    match r.stage with
    | .ended e => some e
    | _ => none
  | _ => none

def hasStopped (id : TaskId) (b : Broker) : Bool :=
  match b.task? id with
  | some (.listen l) => l.isStopped
  | _ => true

/-- Gives a new loop its name.  A loop that had the name is no longer held. -/
def addListener (s : Session) (name : String) (made : Broker × TaskId) : Session × Answer :=
  let broker :=
    match Keyed.get? name s.listeners with
    | some old => made.1.releaseLoop old
    | none => made.1
  ({ s with
    broker
    listeners := Keyed.insert name made.2 s.listeners
    taskNames := (made.2, .listener, name) :: s.taskNames }, .done)

/-- The meaning of a step, up to the moment of its answer. -/
def perform (s : Session) : Step → Except SessionError (Session × Answer)
  | .newQueue name source counters => s.newQueue name source counters
  | .cloneQueue queue target => do
    let q ← s.queue queue
    return ({ s with queues := Keyed.insert target q s.queues }, .done)
  | .settings queue => do
    let q ← s.queue queue
    let settings := match s.broker.queue? q with
      | some queue => queue.settings
      | none => .default
    return (s, .settings settings)
  | .describe queue => do
    let q ← s.queue queue
    return (s, .description (s.describe q))
  | .capabilities queue => do
    let _ ← s.queue queue
    return (s, .capabilities .inMemory)
  | .count queue => do
    let q ← s.queue queue
    return (s, .number (s.broker.storageOf q).visible.length)
  | .counters queue => do
    let q ← s.queue queue
    return (s, .counters (s.countersOf q))
  | .openQueue queue c connection => do
    let q ← s.queue queue
    return s.withBroker (s.broker.openQueue q c connection) .done
  | .closeQueue queue c => do
    let q ← s.queue queue
    return s.withBroker (s.broker.closeQueue q c) .done
  | .clear queue c => do
    let q ← s.queue queue
    return s.withBroker (s.broker.clear q c) .done
  | .endListen queue c => do
    let q ← s.queue queue
    return s.withBroker (s.broker.endListen q c) .done
  | .makeEnvelope slot draft => do
    let (e, s) ← s.makeEnvelope draft
    return (s.fill slot e, .envelope (some e))
  | .edit slot edit => do
    let e ← s.slot slot
    let (e, answer) := edit.apply e
    return (s.fill slot e, .edited answer)
  | .copy slot target => do
    let e ← s.slot slot
    return (s.fill target e, .envelope (some e))
  | .equal slot other => return (s, .truth (s.slot? slot = s.slot? other))
  | .sendDraft queue c draft => do
    let q ← s.queue queue
    let (e, s) ← s.makeEnvelope draft
    return s.withBroker (s.broker.send q c e) .done
  | .sendCopy queue c slot => do
    let q ← s.queue queue
    let e ← s.slot slot
    return s.withBroker (s.broker.send q c e) .done
  | .peek queue c target => do
    let q ← s.queue queue
    let (e, b) := s.broker.peek q c
    return (({ s with broker := b }).fillWith target e, .envelope e)
  | .peekBatch queue c most => do
    let q ← s.queue queue
    let (es, b) := s.broker.peekBatch q c most
    return s.withBroker b (.envelopes es)
  | .receive queue c timeout target => do
    let q ← s.queue queue
    let (b, id) := s.broker.startReceive q c timeout
    let b := b.runUntilReached (hasEnded id)
    let e := (outcome? b id).getD none
    return (({ s with broker := b }).fillWith target e, .envelope e)
  | .startReceive queue c waiter timeout => do
    let q ← s.queue queue
    let (b, id) := s.broker.startReceive q c timeout
    return ({ s with
      broker := b
      waiters := Keyed.insert waiter id s.waiters
      taskNames := (id, .waiter, waiter) :: s.taskNames }, .done)
  | .take waiter target => do
    let id ← s.waiter waiter
    match outcome? s.broker id with
    | none => return (s, .pending)
    | some e =>
      return (({ s with waiters := forget waiter s.waiters }).fillWith target e, .envelope e)
  | .drop waiter => do
    let id ← s.waiter waiter
    return ({ s with
      broker := s.broker.dropReceive id
      waiters := forget waiter s.waiters }, .done)
  | .renew queue slot _ => s.settleSlot queue slot fun b q e => (e, b.renew q e)
  | .complete queue slot => s.settleSlot queue slot Broker.complete
  | .abandon queue slot => s.settleSlot queue slot Broker.abandon
  | .deadLetter queue slot => s.settleSlot queue slot Broker.deadLetter
  | .lockExpiration queue slot => do
    let q ← s.queue queue
    match s.token? slot with
    | some token => return (s, .time (s.broker.lockExpiration q token))
    | none => return (s, .noReference)
  | .releaseExpired queue c => do
    let q ← s.queue queue
    let (n, b) := s.broker.releaseExpired q c
    return s.withBroker b (.number n)
  | .token slot => return (s, .token (s.token? slot))
  | .compareTokens slot other =>
    return (s, .order (LockToken.compareOptional (s.token? slot) (s.token? other)))
  | .sleep d => return s.withBroker (s.broker.runUntil (s.broker.afterPause d)) .done
  | .now => return (s, .time (some s.broker.time))
  | .listen queue c listener receiver => do
    let q ← s.queue queue
    return s.addListener listener (s.broker.listen q c receiver)
  | .listenWith queue c listener receiver options faults cancelled => do
    let q ← s.queue queue
    return s.addListener listener (s.broker.listenWith q c receiver options faults cancelled)
  | .stop listener => do
    let id ← s.listener listener
    return s.withBroker (s.broker.stopLoop id) .done
  | .state listener => do
    let id ← s.listener listener
    return (s, .state (!hasStopped id s.broker))
  | .join listener => do
    let id ← s.listener listener
    return ({ s with
      broker := (s.broker.runUntilReached (hasStopped id)).releaseLoop id
      listeners := forget listener s.listeners }, .joined)

def step (s : Session) (action : Step) : Session × Answer :=
  match s.perform action with
  | .ok (s, answer) => ({ s with broker := s.broker.runUntilBlocked }, answer)
  | .error e => (s, .refused e)

/-! ## Reports -/

/-- Something that those who follow a session are told. -/
inductive Event where
  /-- A loop handed a message to its receiver. -/
  | delivered (moment : Nat) (listener : String) (message : Envelope)
  /-- A receive in the background is over. -/
  | ended (moment : Nat) (waiter : String) (message : Option Envelope)

/-- How a queue stands. -/
structure QueueState where
  opened : Bool
  visible : Nat
  locked : Nat
deriving DecidableEq, Repr

/-- What a step has done. -/
structure Report where
  answer : Answer
  /-- Milliseconds since the start. -/
  moment : Nat
  queues : List (String × QueueState)
  /-- Whether the loops that have not been joined are running. -/
  listeners : List (String × Bool)
  events : List Event
  log : List LogLine

def queueState (b : Broker) (q : QueueId) : QueueState :=
  match b.queue? q with
  | some queue => ⟨queue.opened, queue.storage.visible.length, queue.storage.locked.length⟩
  | none => ⟨false, 0, 0⟩

/-- The event of an entry, if it is one about a task with a name. -/
def event? (s : Session) (entry : Entry) : Option Event :=
  match entry.notice with
  | .delivered id e =>
    match s.taskNames.lookup id with
    | some (.listener, name) => some (.delivered entry.moment name e)
    | _ => none
  | .waitEnded id e =>
    match s.taskNames.lookup id with
    | some (.waiter, name) => some (.ended entry.moment name e)
    | _ => none
  | _ => none

/-- The report on a step that has brought one session to the next. -/
def report (before after : Session) (answer : Answer) : Report :=
  let b := after.broker
  let fresh := b.history.length - before.broker.history.length
  let entries := (b.history.take fresh).reverse
  { answer := answer
    moment := b.now
    queues := after.queues.map fun (name, q) => (name, queueState b q)
    listeners := after.listeners.map fun (name, id) => (name, !hasStopped id b)
    events := entries.filterMap after.event?
    log := entries.filterMap (·.notice.logLine b.nameOf) }

/-- Runs steps one after the other. -/
def run (s : Session) : List Step → List Report
  | [] => []
  | action :: rest =>
    let (after, answer) := s.step action
    report s after answer :: run after rest

end PeekLock.Session
