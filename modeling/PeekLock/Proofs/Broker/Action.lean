import PeekLock.Broker.Schedule
import PeekLock.Proofs.Queue.Access

/-! # Runs of a broker

A run is any list of actions, one after the other.  Callers ask queues for anything
at any time, with any envelope: one that they made, a copy, one that they changed,
one with a token of long ago.  Tasks take their steps in any order, announcements
are made as late as may be, and the clock moves between any two actions, but never
back.  The schedule that takes tasks in line is one way to order actions among all
others.

`Broker.callOf` tells which call an action makes at the messages of a queue, whoever
makes it.  The calls of a run at one queue, each with the storage that it found, are
`Broker.accesses`.
-/

namespace PeekLock

/-- What a caller can ask of a queue. -/
inductive Request where
  | openQueue (correlationId : String) (connection : Option ConnectionParams)
  | closeQueue (correlationId : String)
  | endListen (correlationId : String)
  | clear (correlationId : String)
  | send (correlationId : String) (message : Envelope)
  | peek (correlationId : String)
  | peekBatch (correlationId : String) (most : Nat)
  /-- Starts a receive, whether the caller waits for it or not. -/
  | receive (correlationId : String) (timeout : Duration)
  | complete (message : Envelope)
  | deadLetter (message : Envelope)
  | abandon (message : Envelope)
  | renew (message : Envelope)
  | releaseExpired (correlationId : String)
  | listen (correlationId : String) (receiver : Receiver)
  | listenWith (correlationId : String) (receiver : Receiver) (options : ListenOptions)
      (faults : Faults) (cancelled : Bool)

/-- What can happen next. -/
inductive Action where
  | addCounters
  | newQueue (name : QueueName) (counters : Option Nat)
  | newQueueOf (settings : Settings) (counters : Option Nat)
  | ask (queue : QueueId) (request : Request)
  /-- Gives up a receive. -/
  | dropReceive (task : TaskId)
  | stopLoop (task : TaskId)
  | releaseLoop (task : TaskId)
  /-- Any task takes one step. -/
  | turn (task : TaskId)
  /-- Any announcement that is owed is made. -/
  | announce (i : Nat)
  /-- The clock moves on to a moment, unless that is past. -/
  | advance (moment : Nat)

namespace Broker

/-! ## Actions -/

def ask (b : Broker) (q : QueueId) : Request → Broker
  | .openQueue c connection => b.openQueue q c connection
  | .closeQueue c => b.closeQueue q c
  | .endListen c => b.endListen q c
  | .clear c => b.clear q c
  | .send c e => b.send q c e
  | .peek c => (b.peek q c).2
  | .peekBatch c most => (b.peekBatch q c most).2
  | .receive c timeout => (b.startReceive q c timeout).1
  | .complete e => (b.complete q e).2
  | .deadLetter e => (b.deadLetter q e).2
  | .abandon e => (b.abandon q e).2
  | .renew e => b.renew q e
  | .releaseExpired c => (b.releaseExpired q c).2
  | .listen c receiver => (b.listen q c receiver).1
  | .listenWith c receiver options faults cancelled =>
    (b.listenWith q c receiver options faults cancelled).1

/-- What an action does.  Callers have only queues that there are. -/
def act (b : Broker) : Action → Broker
  | .addCounters => b.addCounters.1
  | .newQueue name counters => (b.newQueue name counters).1
  | .newQueueOf settings counters =>
    match b.newQueueOf settings counters with
    | .ok made => made.1
    | .error _ => b
  | .ask q request => if q < b.queues.length then b.ask q request else b
  | .dropReceive id => b.dropReceive id
  | .stopLoop id => b.stopLoop id
  | .releaseLoop id => b.releaseLoop id
  | .turn id => b.turn id
  | .announce i => b.announce i
  | .advance moment => b.advance moment

/-- A run of a broker. -/
def run (b : Broker) (actions : List Action) : Broker :=
  actions.foldl act b

@[simp] theorem run_nil (b : Broker) : b.run [] = b := rfl

@[simp] theorem run_cons (b : Broker) (a : Action) (rest : List Action) :
    b.run (a :: rest) = (b.act a).run rest := rfl

theorem run_append (b : Broker) (front back : List Action) :
    b.run (front ++ back) = (b.run front).run back :=
  List.foldl_append

end Broker

/-! ## Calls -/

/-- The call at the messages that a request makes, if it makes one.  A receive looks for a
    message only in its turn. -/
def Request.call? : Request → Option Call
  | .clear _ => some .clear
  | .send _ e => some (.send e)
  | .complete e => some (.complete e)
  | .deadLetter e => some (.deadLetter e)
  | .abandon e => some (.abandon e)
  | .renew e => some (.renew e)
  | .releaseExpired _ => some .releaseExpired
  | _ => none

def Receive.call? (r : Receive) : Option Call :=
  match r.stage with
  | .looking => some (.take r.timeout)
  | _ => none

def Command.call? (e : Envelope) : Command → Option Call
  | .complete => some (.complete e)
  | .deadLetter => some (.deadLetter e)
  | .abandon => some (.abandon e)
  | .renew => some (.renew e)
  | .send message => some (.send message)
  | _ => none

/-- The call that a loop makes in its next step, where its scope has been cancelled or not.
    Some loops cannot abandon messages. -/
def Loop.call? (l : Loop) (cancelled : Bool) : Option Call :=
  match l.stage with
  | .looking _ => some (.take l.options.receiveTimeout)
  | .taken e => if cancelled ∧ ¬ l.faults.failsAbandon then some (.abandon e) else none
  | .handling e (.abandon :: _) => if l.faults.failsAbandon then none else some (.abandon e)
  | .handling e (command :: _) => command.call? e
  | _ => none

namespace Broker

/-- The call that the next step of a task makes, and the queue. -/
def callOfTask (b : Broker) (id : TaskId) : Option (QueueId × Call) :=
  match b.task? id with
  | some (.receive r) => r.call?.map (r.queue, ·)
  | some (.listen l) => (l.call? (b.isCancelled l.scope)).map (l.queue, ·)
  | none => none

/-- The call that an action makes, and the queue. -/
def callOf (b : Broker) : Action → Option (QueueId × Call)
  | .ask q request => if q < b.queues.length then request.call?.map (q, ·) else none
  | .turn id => b.callOfTask id
  | _ => none

def access (b : Broker) (q : QueueId) (call : Call) : Access :=
  ⟨q, b.time, b.storageOf q, call⟩

/-- The access to a queue that a call is, if it is one there. -/
def accessAt (b : Broker) (q : QueueId) : Option (QueueId × Call) → Option Access
  | some (q', call) => if q' = q ∧ q < b.queues.length then some (b.access q call) else none
  | none => none

/-- The access to a queue that an action makes. -/
def access? (b : Broker) (q : QueueId) (a : Action) : Option Access :=
  b.accessAt q (b.callOf a)

theorem accessAt_eq_some {b : Broker} {q : QueueId} {c : Option (QueueId × Call)} {a : Access}
    (made : b.accessAt q c = some a) : ∃ call, c = some (q, call) ∧ a = b.access q call := by
  cases c with
  | none => simp [accessAt] at made
  | some c =>
    obtain ⟨q', call⟩ := c
    simp only [accessAt, Option.ite_none_right_eq_some, Option.some.injEq] at made
    obtain ⟨⟨rfl, _⟩, rfl⟩ := made
    exact ⟨call, rfl, rfl⟩

/-- The accesses to a queue in a run, in their order. -/
def accesses (q : QueueId) (b : Broker) : List Action → List Access
  | [] => []
  | a :: rest => (b.access? q a).toList ++ accesses q (b.act a) rest

theorem accesses_append (q : QueueId) (b : Broker) (front back : List Action) :
    b.accesses q (front ++ back) = b.accesses q front ++ (b.run front).accesses q back := by
  induction front generalizing b with
  | nil => rfl
  | cons a rest ih =>
    simp only [List.cons_append, accesses, ih, run_cons, List.append_assoc]

end Broker

end PeekLock
