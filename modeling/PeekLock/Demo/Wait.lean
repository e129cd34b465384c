import PeekLock.Broker.Schedule

/-! # Waiting for messages to be processed

Whoever has a loop process messages may wait until so many are, up to a deadline.  The wait is a
task beside those of the broker, with a place in the same line and a timer among theirs.  It looks
how many messages have been processed; if they are too few it asks the receiver for a signal, and
looks again once it has been given one.  A receiver that gives its signal while nobody asks keeps
it, so that none is missed by a wait that is between its look and its question.
-/

namespace PeekLock.Demo

def notebook (b : Broker) (id : TaskId) : Notebook :=
  match b.task? id with
  | some (.listen l) => l.notebook
  | _ => {}

def setProgress (b : Broker) (id : TaskId) (progress : Signal) : Broker :=
  match b.task? id with
  | some (.listen l) => b.setLoop id { l with notebook := { l.notebook with progress } } l.stage
  | _ => b

/-- Where a wait stands. -/
inductive WaitStage where
  /-- About to look how many messages have been processed. -/
  | looking
  /-- They were too few, and it is about to ask for a signal. -/
  | asking
  /-- It has asked, and waits for the signal or its deadline. -/
  | waiting
  /-- Over, with all messages processed or without. -/
  | ended (drained : Bool)
deriving DecidableEq, Repr

/-- A wait for messages, and the broker at which they are processed. -/
structure Wait where
  broker : Broker
  /-- The loop that processes the messages. -/
  loop : TaskId
  /-- The task that waits, which is none of the broker's own. -/
  task : TaskId
  /-- How many messages are to be processed. -/
  count : Nat
  deadline : Nat
  stage : WaitStage

namespace Wait

/-- Begins to wait.  Whoever has started the loop goes on before the loop does. -/
def start (b : Broker) (loop : TaskId) (count deadline : Nat) : Wait where
  broker := { b.arm b.tasks.length deadline with ready := b.tasks.length :: b.ready }
  loop := loop
  task := b.tasks.length
  count := count
  deadline := deadline
  stage := .looking

def isOver (w : Wait) : Bool :=
  match w.stage with
  | .ended _ => true
  | _ => false

def processed (w : Wait) : Nat :=
  (notebook w.broker w.loop).processed

def progress (w : Wait) : Signal :=
  (notebook w.broker w.loop).progress

/-- Ends the wait, which asks for nothing any more and needs no timer. -/
def finish (w : Wait) (drained : Bool) : Wait :=
  { w with
    broker := (setProgress w.broker w.loop (w.progress.withdraw w.task)).disarm w.task
    stage := .ended drained }

/-- One step of a wait.  Word of progress comes before the clock. -/
def step (w : Wait) : Wait :=
  match w.stage with
  | .looking => if w.count ≤ w.processed then w.finish true else { w with stage := .asking }
  | .asking =>
    if w.progress.kept then
      { w with broker := setProgress w.broker w.loop w.progress.use, stage := .looking }
    else if w.deadline ≤ w.broker.now then w.finish false
    else
      { w with
        broker := setProgress w.broker w.loop (w.progress.ask w.task)
        stage := .waiting }
  | .waiting =>
    if !w.progress.isAsking w.task then { w with stage := .looking }
    else if w.deadline ≤ w.broker.now then w.finish false
    else w
  | .ended _ => w

/-- Whether the wait would go on by itself. -/
def isActive (w : Wait) : Bool :=
  match w.stage with
  | .looking | .asking => true
  | .waiting => !w.progress.isAsking w.task || w.deadline ≤ w.broker.now
  | .ended _ => false

def enterLine (w : Wait) : Wait :=
  { w with broker := { w.broker with ready := w.task :: w.broker.ready } }

def leaveLine (w : Wait) : Wait :=
  { w with broker := { w.broker with ready := w.broker.ready.erase w.task } }

/-- The turn of the wait: one step.  If it can go on it is the next in line. -/
def turn (w : Wait) : Wait :=
  let w := w.leaveLine.step
  if w.isActive then w.enterLine else w

/-- Whether the wait is the first in line, and nothing has to be announced before. -/
def hasTurn (w : Wait) : Bool :=
  w.broker.owed.isEmpty && w.broker.ready.head? == some w.task

/-- What comes next as the schedule has it: a turn of the wait or of another task, or, where all
    are blocked, the next timer. -/
def next (w : Wait) : Wait :=
  if w.broker.isBlocked then
    match w.broker.nextDue with
    | some due => { w with broker := w.broker.advance due }
    | none => w
  else if w.hasTurn then w.turn
  else { w with broker := w.broker.tick }

/-- Goes on until the wait is over, for so many steps at most. -/
def run : (fuel : Nat) → Wait → Wait
  | 0, w => w
  | fuel + 1, w => if w.isOver then w else run fuel w.next

end Wait

end PeekLock.Demo
