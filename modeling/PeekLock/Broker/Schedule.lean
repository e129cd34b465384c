import PeekLock.Broker.Operations

/-! # The schedule

How tasks take turns.  What has become visible is announced first.  Then the first task in line
takes one small step; if it can go on it keeps its place, and otherwise it leaves the line until it
is woken.  Once nobody is in line the clock jumps to the next timer.  Tasks whose timers are due
at the same instant take turns in the order in which the timers were armed.
-/

namespace PeekLock.Broker

/-! ## Receives -/

def setReceive (b : Broker) (id : TaskId) (r : Receive) (stage : ReceiveStage) : Broker :=
  b.setTask id (.receive { r with stage := stage })

def endReceive (b : Broker) (id : TaskId) (r : Receive) (message : Option Envelope) : Broker :=
  (b.setReceive id r (.ended message)).note (.waitEnded id message)

def unawait (b : Broker) (q : QueueId) (id : TaskId) : Broker :=
  (b.deregister q id).disarm id

/-- One step of a receive.  It asks to be told of messages before it looks for one, so that none
    is missed that becomes visible in between, and waits if it finds none.  Told of a message it
    looks again; woken by the clock alone, it ends. -/
def stepReceive (b : Broker) (id : TaskId) (r : Receive) : Broker :=
  match r.stage with
  | .entering => (b.register r.queue id).setReceive id r .looking
  | .looking =>
    match b.lockNext r.queue r.correlationId r.timeout with
    | some (e, b) => (b.deregister r.queue id).endReceive id r (some e)
    | none => (b.arm id r.deadline).setReceive id r .waiting
  | .waiting =>
    if !b.isRegistered r.queue id then (b.disarm id).setReceive id r .entering
    else if r.deadline ≤ b.now then (b.unawait r.queue id).endReceive id r none
    else b
  | .ended _ | .dropped => b

/-! ## Loops -/

def setLoop (b : Broker) (id : TaskId) (l : Loop) (stage : LoopStage) : Broker :=
  b.setTask id (.listen { l with stage := stage })

def stop (b : Broker) (id : TaskId) (l : Loop) : Broker :=
  (b.setLoop id l .stopped).note (.loopStopped l.queue l.correlationId)

/-- Begins the pause after a round. -/
def startPause (b : Broker) (id : TaskId) (l : Loop) : Broker :=
  let due := b.afterPause l.options.pollInterval
  if b.isCancelled l.scope then b.stop id l
  else if due ≤ b.now then b.setLoop id l .checking
  else (b.arm id due).setLoop id l (.pausing due)

/-- What happens on purpose once a receive call has returned. -/
def afterCall (b : Broker) (l : Loop) : Broker :=
  if l.faults.cancelAfter.any (· + 1 = l.calls) then b.cancel l.scope else b

def startCall (b : Broker) (id : TaskId) (l : Loop) : Broker :=
  let call := l.calls
  let l := { l with calls := call + 1 }
  if l.faults.failingReceives.contains call then
    let error : QueueError := .validation (.required ("call " ++ toString call))
    ((b.note (.receiveFailed l.queue l.correlationId error)).afterCall l).startPause id l
  else b.setLoop id l (.entering (b.deadlineAfter l.options.receiveTimeout))

/-- The error of a queue that lets no message be abandoned. -/
def abandonRefused : QueueError :=
  .configuration (.invalid "no abandon")

/-- Gives back a message that was taken when cancellation was seen. -/
def returnMessage (b : Broker) (l : Loop) (e : Envelope) : Broker :=
  if l.faults.failsAbandon then
    b.note (.returnFailed l.queue l.correlationId abandonRefused)
  else (b.abandon l.queue e).2

/-- Goes on with a message that was taken: back with it if the loop has been cancelled, and else
    to the receiver. -/
def dispatch (b : Broker) (id : TaskId) (l : Loop) (e : Envelope) : Broker :=
  if b.isCancelled l.scope then (b.returnMessage l e).stop id l
  else
    (b.note (.delivered id e)).setLoop id l (.handling e (l.receiver.plan l.notebook e))

/-- One look for a message, in a receive call that ends at a deadline. -/
def look (b : Broker) (id : TaskId) (l : Loop) (deadline : Nat) : Broker :=
  match b.lockNext l.queue l.correlationId l.options.receiveTimeout with
  | some (e, b) => ((b.deregister l.queue id).afterCall l).setLoop id l (.taken e)
  | none => (b.arm id deadline).setLoop id l (.waiting deadline)

/-- The step of a loop that has been woken while it waited for a message.  Cancellation is seen
    first: the loop takes no message then. -/
def resumeWait (b : Broker) (id : TaskId) (l : Loop) (deadline : Nat) : Broker :=
  if b.isCancelled l.scope then (b.unawait l.queue id).stop id l
  else if !b.isRegistered l.queue id then (b.disarm id).setLoop id l (.entering deadline)
  else if deadline ≤ b.now then ((b.unawait l.queue id).afterCall l).startPause id l
  else b

def failPlan (b : Broker) (id : TaskId) (l : Loop) (e : Envelope) (reason : String) : Broker :=
  let error : QueueError := .receiverFailed e.messageId.text reason
  (b.note (.processFailed l.queue l.correlationId error)).startPause id l

def perform (b : Broker) (id : TaskId) (l : Loop) (e : Envelope) (command : Command)
    (rest : List Command) : Broker :=
  let q := l.queue
  match command with
  | .pause d =>
    let due := b.afterPause d
    if due ≤ b.now then b.setLoop id l (.handling e rest)
    else (b.arm id due).setLoop id l (.delayed due e rest)
  | .complete =>
    let (e, b) := b.complete q e
    b.setLoop id l (.handling e rest)
  | .abandon =>
    if l.faults.failsAbandon then b.failPlan id l e abandonRefused.message
    else
      let (e, b) := b.abandon q e
      b.setLoop id l (.handling e rest)
  | .deadLetter =>
    let (e, b) := b.deadLetter q e
    b.setLoop id l (.handling e rest)
  | .renew => (b.renew q e).setLoop id l (.handling e rest)
  | .endListen => (b.endListen q e.correlationId).setLoop id l (.handling e rest)
  | .close => (b.closeQueue q e.correlationId).setLoop id l (.handling e rest)
  | .send message => (b.send q e.correlationId message).setLoop id l (.handling e rest)
  | .replacePayload payload => b.setLoop id l (.handling { e with payload := payload } rest)
  | .remember payload =>
    b.setLoop id { l with notebook := l.notebook.remember payload } (.handling e rest)
  | .tally completed =>
    b.setLoop id { l with notebook := l.notebook.tally completed } (.handling e rest)
  | .signal =>
    let (told, progress) := l.notebook.progress.tell
    (b.wakeAll told).setLoop id { l with notebook := { l.notebook with progress } }
      (.handling e rest)
  | .fail reason => b.failPlan id l e reason

def stepLoop (b : Broker) (id : TaskId) (l : Loop) : Broker :=
  match l.stage with
  | .starting => (b.note (.loopStarted l.queue l.correlationId)).setLoop id l .checking
  | .checking => if b.isCancelled l.scope then b.stop id l else b.startCall id l
  | .entering deadline => (b.register l.queue id).setLoop id l (.looking deadline)
  | .looking deadline => b.look id l deadline
  | .waiting deadline => b.resumeWait id l deadline
  | .taken e => b.dispatch id l e
  | .handling _ [] => b.startPause id l
  | .handling e (command :: rest) => b.perform id l e command rest
  | .delayed due e plan => if due ≤ b.now then b.setLoop id l (.handling e plan) else b
  | .pausing due =>
    if b.isCancelled l.scope then (b.disarm id).stop id l
    else if due ≤ b.now then b.setLoop id l .checking
    else b
  | .stopped => b

/-! ## Turns -/

def stepTask (b : Broker) (id : TaskId) : Broker :=
  match b.task? id with
  | some (.receive r) => b.stepReceive id r
  | some (.listen l) => b.stepLoop id l
  | none => b

/-- Whether a task would go on by itself.  What a blocked task waits for may have come before it
    was blocked. -/
def isActive (b : Broker) (id : TaskId) : Bool :=
  match b.task? id with
  | some (.receive r) =>
    match r.stage with
    | .entering | .looking => true
    | .waiting => !b.isRegistered r.queue id || r.deadline ≤ b.now
    | .ended _ | .dropped => false
  | some (.listen l) =>
    match l.stage with
    | .starting | .checking | .entering _ | .looking _ | .taken _ | .handling .. => true
    | .waiting deadline =>
      b.isCancelled l.scope || !b.isRegistered l.queue id || deadline ≤ b.now
    | .delayed due .. => due ≤ b.now
    | .pausing due => b.isCancelled l.scope || due ≤ b.now
    | .stopped => false
  | none => false

/-- The turn of a task: one step.  A task that can go on is the next in line. -/
def turn (b : Broker) (id : TaskId) : Broker :=
  let b := stepTask { b with ready := b.ready.erase id } id
  if b.isActive id then { b with ready := id :: b.ready } else b

/-- Makes the first announcement that is owed; if there is none, the first task in line takes its
    turn. -/
def tick (b : Broker) : Broker :=
  match b.owed, b.ready with
  | _ :: _, _ => b.announce 0
  | [], id :: _ => b.turn id
  | [], [] => b

/-- Whether nothing goes on before time passes. -/
def isBlocked (b : Broker) : Bool :=
  b.owed.isEmpty && b.ready.isEmpty

/-- Lets the tasks take turns until all are blocked, for so many steps at most. -/
def settle : (fuel : Nat) → Broker → Broker
  | 0, b => b
  | fuel + 1, b => if b.isBlocked then b else settle fuel b.tick

def nextDue (b : Broker) : Option Nat :=
  (b.timers.map (·.due)).min?

/-- Lets time pass, timer by timer, until a goal is reached or no timer is due up to a moment; for
    so many steps at most. -/
def pass (reached : Broker → Bool) (until_ : Option Nat) : (fuel : Nat) → Broker → Broker
  | 0, b => b
  | fuel + 1, b =>
    if !b.isBlocked then pass reached until_ fuel b.tick
    else if reached b then b
    else
      match b.nextDue with
      | none => b
      | some due =>
        if until_.any (· < due) then b else pass reached until_ fuel (b.advance due)

def manySteps : Nat := 1000000000000000

/-- Lets the tasks take turns until all are blocked. -/
def runUntilBlocked (b : Broker) : Broker :=
  settle manySteps b

/-- Lets everything happen that is due up to a moment, and stops at that moment. -/
def runUntil (b : Broker) (moment : Nat) : Broker :=
  (pass (fun _ => false) (some moment) manySteps b).advance moment

/-- Lets time pass until a goal is reached. -/
def runUntilReached (b : Broker) (reached : Broker → Bool) : Broker :=
  pass reached none manySteps b

end PeekLock.Broker
