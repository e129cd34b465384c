import PeekLock.Broker.Notice
import PeekLock.Counters
import PeekLock.Number.Limits
import PeekLock.Queue.Storage

/-! # The broker

All queues of a process with what goes on at them: receives that wait, listen loops, the scopes that
end loops, and the clock.  Tasks share one thread.  Those that can go on stand in one line,
first come, first served, and the others are blocked: on messages, on a timer, on their scope
or for good.  A message becomes visible first and is announced afterwards, and who receives asks to
be told of messages before looking for one, so that nothing hinges on the order of the line.
This module holds the state and the small changes that all operations are made of.
-/

namespace PeekLock

/-- A queue: its storage, who waits for it, and how it was set up. -/
structure Queue where
  settings : Settings
  /-- The counters that it counts into, if it counts. -/
  counters : Option Nat
  opened : Bool
  storage : Storage
  /-- The tasks that are to be told of messages, in the order in which they asked for it. -/
  waiting : List TaskId
  /-- The scope above the loops that listen here. -/
  scope : ScopeId
deriving Repr, Inhabited

/-- Something that can be cancelled once, and with it the scopes below. -/
structure Scope where
  parent : Option ScopeId
  cancelled : Bool
  /-- The scopes right below that somebody still holds. -/
  children : List ScopeId := []
deriving DecidableEq, Repr

/-- Where a receive stands. -/
inductive ReceiveStage where
  /-- About to ask to be told of messages. -/
  | entering
  /-- About to look for a message. -/
  | looking
  /-- Waiting for a message. -/
  | waiting
  /-- Over, with a message or without. -/
  | ended (message : Option Envelope)
  /-- Given up by its caller. -/
  | dropped
deriving Repr

/-- A receive that somebody has called. -/
structure Receive where
  queue : QueueId
  correlationId : String
  timeout : Duration
  /-- When the receive ends without a message. -/
  deadline : Nat
  stage : ReceiveStage
deriving Repr

/-- Something that takes turns. -/
inductive Task where
  | receive (r : Receive)
  | listen (l : Loop)

/-- A task that is woken when its time has come. -/
structure Timer where
  due : Nat
  task : TaskId
deriving DecidableEq, Repr

/-- Word of messages that have become visible. -/
structure Announcement where
  queue : QueueId
  /-- How many messages there are. -/
  count : Nat
deriving DecidableEq, Repr

/-- A notice and when it was made. -/
structure Entry where
  /-- Milliseconds since the start. -/
  moment : Nat
  notice : Notice

/-- All queues and tasks at some moment. -/
structure Broker where
  /-- The instant at which the clock was started. -/
  start : Timestamp
  /-- Milliseconds since the start. -/
  now : Nat
  queues : List Queue
  counters : List Counters
  scopes : List Scope
  tasks : List Task
  /-- Announcements that have yet to be made, the oldest first. -/
  owed : List Announcement
  /-- The tasks that can go on, the next one first. -/
  ready : List TaskId
  /-- Timers in the order in which they were armed. -/
  timers : List Timer
  /-- All notices, the latest first. -/
  history : List Entry

namespace Broker

/-- A broker without queues. -/
def new (start : Timestamp) : Broker :=
  ⟨start, 0, [], [], [], [], [], [], [], []⟩

def time (b : Broker) : Timestamp :=
  b.start.after (Duration.ofMillis b.now)

def ownerOf (q : QueueId) : Nat := q + 1

/-! ## Queues -/

def queue? (b : Broker) (q : QueueId) : Option Queue :=
  b.queues[q]?

def nameOf (b : Broker) (q : QueueId) : String :=
  match b.queue? q with
  | some queue => queue.settings.name
  | none => ""

def storageOf (b : Broker) (q : QueueId) : Storage :=
  match b.queue? q with
  | some queue => queue.storage
  | none => .empty

def modifyQueue (b : Broker) (q : QueueId) (f : Queue → Queue) : Broker :=
  { b with queues := b.queues.modify q f }

def setStorage (b : Broker) (q : QueueId) (s : Storage) : Broker :=
  b.modifyQueue q fun queue => { queue with storage := s }

/-! ## Notices and counters -/

def note (b : Broker) (n : Notice) : Broker :=
  { b with history := ⟨b.now, n⟩ :: b.history }

def count (b : Broker) (q : QueueId) (event : QueueEvent) (n : Nat) : Broker :=
  match b.queue? q with
  | some queue =>
    match queue.counters with
    | some i =>
      let name := counterName queue.settings.name event.suffix
      { b with counters := b.counters.modify i (·.add name n) }
    | none => b
  | none => b

/-! ## Tasks -/

def task? (b : Broker) (id : TaskId) : Option Task :=
  b.tasks[id]?

def setTask (b : Broker) (id : TaskId) (t : Task) : Broker :=
  { b with tasks := b.tasks.set id t }

/-- Puts a task at the end of the line, unless it stands there already. -/
def wake (b : Broker) (id : TaskId) : Broker :=
  if id ∈ b.ready then b else { b with ready := b.ready ++ [id] }

/-- Wakes tasks one after the other. -/
def wakeAll (b : Broker) (ids : List TaskId) : Broker :=
  ids.foldl wake b

def spawn (b : Broker) (t : Task) : Broker × TaskId :=
  let id := b.tasks.length
  (wake { b with tasks := b.tasks ++ [t] } id, id)

/-! ## Waiting for messages -/

/-- Enters a task among those that are to be told of a queue's messages. -/
def register (b : Broker) (q : QueueId) (id : TaskId) : Broker :=
  b.modifyQueue q fun queue => { queue with waiting := queue.waiting ++ [id] }

/-- Takes a task out of those that are to be told of a queue's messages. -/
def deregister (b : Broker) (q : QueueId) (id : TaskId) : Broker :=
  b.modifyQueue q fun queue => { queue with waiting := queue.waiting.filter (· ≠ id) }

/-- Whether a task is still to be told of a queue's messages. -/
def isRegistered (b : Broker) (q : QueueId) (id : TaskId) : Bool :=
  match b.queue? q with
  | some queue => queue.waiting.contains id
  | none => false

/-- Wakes all that are to be told of a queue's messages, and has them look again. -/
def notify (b : Broker) (q : QueueId) : Broker :=
  match b.queue? q with
  | some queue => (b.modifyQueue q fun queue => { queue with waiting := [] }).wakeAll queue.waiting
  | none => b

/-- Leaves it for later to announce that messages have become visible. -/
def owe (b : Broker) (q : QueueId) (n : Nat) : Broker :=
  { b with owed := b.owed ++ [⟨q, n⟩] }

/-- Makes one of the announcements that are owed: has the receivers look at the messages, and
    counts these. -/
def announce (b : Broker) (i : Nat) : Broker :=
  match b.owed[i]? with
  | some a =>
    let b := { b with owed := b.owed.eraseIdx i }
    (b.notify a.queue).count a.queue .sent a.count
  | none => b

/-! ## Timers -/

def longestPause : Nat := 30 * 365 * 86400 * 1000

/-- The first millisecond that is not before the end of a pause. -/
def afterPause (b : Broker) (d : Duration) : Nat :=
  b.now + min d.ceilMillis longestPause

/-- The seconds that the machine's clock shows at least when the broker's is started. -/
def secondsBefore : Nat := 3600

/-- The first millisecond that is not before the end of a wait for a message.  An end that the
    machine's clock cannot show is that of the longest pause. -/
def deadlineAfter (b : Broker) (d : Duration) : Nat :=
  let isShown := secondsBefore + b.now / 1000 + d.seconds ≤ maxSigned64
  b.now + if isShown then d.ceilMillis else longestPause

def arm (b : Broker) (id : TaskId) (due : Nat) : Broker :=
  { b with timers := b.timers ++ [⟨due, id⟩] }

def disarm (b : Broker) (id : TaskId) : Broker :=
  { b with timers := b.timers.filter (·.task ≠ id) }

/-- Moves the clock on to a moment, unless that is past, and wakes the tasks whose time has come. -/
def advance (b : Broker) (moment : Nat) : Broker :=
  let t := max b.now moment
  let fired := b.timers.filter (·.due ≤ t)
  wakeAll { b with now := t, timers := b.timers.filter (t < ·.due) } (fired.map (·.task))

/-! ## Scopes -/

def isCancelled (b : Broker) (s : ScopeId) : Bool :=
  match b.scopes[s]? with
  | some scope => scope.cancelled
  | none => false

def openScope (b : Broker) (parent : Option ScopeId) : Broker × ScopeId :=
  let id := b.scopes.length
  let scopes := b.scopes.mapIdx fun i scope =>
    if some i = parent then { scope with children := scope.children ++ [id] } else scope
  ({ b with scopes := scopes ++ [{ parent, cancelled := false }] }, id)

/-- Takes an item out, and puts the last one in its place. -/
def swapOut {α : Type} [DecidableEq α] (x : α) (xs : List α) : List α :=
  match xs.getLast? with
  | some last =>
    if x = last then xs.dropLast
    else xs.dropLast.map fun y => if y = x then last else y
  | none => []

def releaseScope (b : Broker) (s : ScopeId) : Broker :=
  { b with scopes := b.scopes.map fun scope =>
      if s ∈ scope.children then { scope with children := swapOut s scope.children } else scope }

/-- The last item first, and then the others in their order. -/
def lastFirst {α : Type} (xs : List α) : List α :=
  xs.drop (xs.length - 1) ++ xs.dropLast

def watchers (b : Broker) (s : ScopeId) : List TaskId :=
  b.tasks.zipIdx.filterMap fun (task, id) =>
    match task with
    | .listen l => if l.scope = s ∧ l.isWatching then some id else none
    | .receive _ => none

/-- The blocked loops that end with a scope: of those below it the last one first, and then those
    of the scope itself. -/
def followers (b : Broker) (s : ScopeId) : List TaskId :=
  match b.scopes[s]? with
  | some scope => lastFirst (scope.children.flatMap b.watchers) ++ b.watchers s
  | none => []

/-- Cancels a scope and those below it, and wakes their loops. -/
def cancel (b : Broker) (s : ScopeId) : Broker :=
  if b.isCancelled s then b
  else
    let scopes := b.scopes.mapIdx fun i scope =>
      if i = s ∨ scope.parent = some s then { scope with cancelled := true } else scope
    wakeAll { b with scopes } (b.followers s)

end Broker

end PeekLock
