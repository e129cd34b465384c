import PeekLock.Demo.Run
import PeekLock.Proofs.Broker.Work
import PeekLock.Proofs.Counters
import PeekLock.Proofs.Demo.Payload

/-! # A round of a demo

A demo has one queue, one loop and one wait for its messages, and nobody else is at the broker.  So
its states are known up to a few parts, which a `Scene` holds, and every step takes one such state
to another.  A round takes eight steps of the loop, from its top into the pause; the signal in it
puts the wait in line, which then looks how far the loop has got.  What a run needs to know of all
this is that one more message has been processed and that the wait has been told
(`Scene.Processed.round`).
-/

namespace PeekLock.Demo

/-! ## The states of a demo -/

/-- How long the loop of a demo pauses after a round. -/
def pause (settings : Settings) : Nat :=
  min settings.listenOptions.pollInterval.ceilMillis Broker.longestPause

/-- What varies between the states of a demo. -/
structure Scene where
  start : Timestamp
  correlationId : String
  settings : Settings
  failEvery : Option Nat
  now : Nat
  opened : Bool
  storage : Storage
  counters : Counters
  /-- The number of receive calls made. -/
  calls : Nat
  notebook : Notebook
  history : List Entry
  /-- How many messages are waited for. -/
  count : Nat
  /-- How long they are waited for. -/
  deadline : Nat

namespace Scene

def loop (s : Scene) (stage : LoopStage) : Loop :=
  ⟨0, s.correlationId, receiver s.failEvery, s.settings.listenOptions, 1, {}, s.calls, s.notebook,
    stage⟩

def broker (s : Scene) (stage : LoopStage) (waiting : List TaskId) (cancelled : Bool)
    (owed : List Announcement) (ready : List TaskId) (timers : List Timer) : Broker where
  start := s.start
  now := s.now
  queues := [⟨s.settings, some 0, s.opened, s.storage, waiting, 0⟩]
  counters := [s.counters]
  scopes := [⟨none, cancelled, [1]⟩, ⟨some 0, cancelled, []⟩]
  tasks := [.listen (s.loop stage)]
  owed := owed
  ready := ready
  timers := timers
  history := s.history

/-- The wait at a broker whose only task is the loop. -/
def wait (s : Scene) (stage : WaitStage) (b : Broker) : Wait :=
  ⟨b, 0, 1, s.count, s.deadline, stage⟩

/-- The timer of the wait. -/
def alarm (s : Scene) : Timer :=
  ⟨s.deadline, 1⟩

/-- The loop has the turn, with others in line behind it. -/
def working (s : Scene) (stage : LoopStage) (line : List TaskId) : Wait :=
  s.wait .waiting (s.broker stage [] false [] (0 :: line) [s.alarm])

/-- The wait has the turn, with others in line behind it. -/
def attending (s : Scene) (stage : WaitStage) (loop : LoopStage) (line : List TaskId)
    (timers : List Timer) : Wait :=
  s.wait stage (s.broker loop [] false [] (1 :: line) timers)

/-- The loop pauses, and the wait has asked for a signal. -/
def resting (s : Scene) (due : Nat) : Wait :=
  s.wait .waiting (s.broker (.pausing due) [] false [] [] [s.alarm, ⟨due, 0⟩])

/-- What has been counted of an event. -/
def total (s : Scene) (event : QueueEvent) : Nat :=
  s.counters.get (counterName s.settings.name event.suffix)

def tallied (s : Scene) (event : QueueEvent) (n : Nat) : Scene :=
  { s with counters := s.counters.add (counterName s.settings.name event.suffix) n }

def note (s : Scene) (n : Notice) : Scene :=
  { s with history := ⟨s.now, n⟩ :: s.history }

/-- The scene in which the receiver has this signal. -/
def hearing (s : Scene) (progress : Signal) : Scene :=
  { s with notebook := { s.notebook with progress } }

variable {s : Scene}

/-- What is counted is added to the total of its event, and to no other. -/
theorem total_count (event event' : QueueEvent) (n : Nat) :
    (s.tallied event n).total event' =
      if event' = event then min (s.total event' + n) Counters.limit else s.total event' := by
  rw [total, tallied, Counters.get_add]
  by_cases same : event' = event
  · rw [if_pos same, if_pos (congrArg _ (congrArg _ same)), same, total]
  · rw [if_neg same, if_neg fun names => same (counterName_inj names).2, total]

/-! ## From the top of a round to a message -/

theorem next_working {stage : LoopStage} {line : List TaskId} {b : Broker}
    (step : (s.broker stage [] false [] line [s.alarm]).stepTask 0 = b) :
    (s.working stage line).next =
      s.wait .waiting (if b.isActive 0 then { b with ready := 0 :: b.ready } else b) := by
  rw [← step]
  rfl

theorem next_starting :
    (s.working .starting []).next =
      (s.note (.loopStarted 0 s.correlationId)).working .checking [] := rfl

theorem next_checking :
    (s.working .checking []).next =
      { s with calls := s.calls + 1 }.working
        (.entering ((s.working .checking []).broker.deadlineAfter
          s.settings.listenOptions.receiveTimeout)) [] :=
  rfl

theorem next_entering (deadline : Nat) :
    (s.working (.entering deadline) []).next =
      s.wait .waiting (s.broker (.looking deadline) [0] false [] [0] [s.alarm]) := rfl

/-- The token that is given out next. -/
def token (s : Scene) : LockToken :=
  ⟨1, s.storage.nextSequence⟩

/-- A message as it is handed out. -/
def handed (s : Scene) (e : Envelope) : Envelope :=
  { e with reference := some s.token }

/-- The lock under which a message is handed out. -/
def lock (s : Scene) (e : Envelope) : Lock :=
  let timeout := s.settings.listenOptions.receiveTimeout
  ⟨s.handed e, (s.start.after (.ofMillis s.now)).after timeout, timeout⟩

/-- The scene in which the first message has been handed out, and others remain. -/
def delivering (s : Scene) (e : Envelope) (rest : List Envelope) : Scene :=
  ({ s with storage := ⟨rest, s.storage.locked ++ [(s.token, s.lock e)],
      s.storage.nextSequence + 1⟩ }.tallied .received 1).note
    (.received 0 s.correlationId (s.handed e))

theorem next_looking (deadline : Nat) {e : Envelope} {rest : List Envelope}
    (line : s.storage.visible = e :: rest) :
    (s.wait .waiting (s.broker (.looking deadline) [0] false [] [0] [s.alarm])).next =
      (s.delivering e rest).working (.taken (s.handed e)) [] := by
  obtain ⟨_, _, _, _, _, _, ⟨visible, locked, next⟩, _, _, _, _, _, _⟩ := s
  obtain rfl : visible = e :: rest := line
  rfl

theorem next_taken (e : Envelope) :
    (s.working (.taken e) []).next =
      (s.note (.delivered 0 e)).working
        (.handling e ((receiver s.failEvery).plan s.notebook e)) [] :=
  rfl

/-! ## From the message into the pause -/

/-- The loop holds a message, and no other message is locked. -/
structure Holds (s : Scene) (e : Envelope) (token : LockToken) : Prop where
  only : ∃ lock, s.storage.locked = [(token, lock)]
  own : e.reference = some token
  mine : token.owner = 1

theorem holds_delivering (free : s.storage.locked = []) (e : Envelope) (rest : List Envelope)
    (n : Notice) : ((s.delivering e rest).note n).Holds (s.handed e) s.token :=
  ⟨⟨s.lock e, congrArg (· ++ _) free⟩, rfl, rfl⟩

/-- The scene in which no message is locked. -/
def freed (s : Scene) : Scene :=
  { s with storage := { s.storage with locked := [] } }

section

variable {token : LockToken} {e : Envelope} {stage : LoopStage} {rest : List Command}

namespace Holds

variable (holds : s.Holds e token)

include holds

theorem ownToken? : Broker.ownToken? 0 e = some token := by
  simp only [Broker.ownToken?, holds.own, Option.filter, holds.mine, Broker.ownerOf, decide_true,
    ↓reduceIte]

theorem lock? : ∃ lock, s.storage.lock? token = some lock := by
  obtain ⟨lock, only⟩ := holds.only
  exact ⟨lock, by rw [Storage.lock?, only, List.lookup_cons_self]⟩

theorem unlock : s.storage.unlock token = s.freed.storage := by
  obtain ⟨lock, only⟩ := holds.only
  simp [Storage.unlock, only, freed]

theorem complete (timers : List Timer) :
    (s.broker stage [] false [] [] timers).complete 0 e = (e.withoutReference,
      (s.freed.note (.completed 0 token e.withoutReference)).broker stage [] false [] []
        timers) := by
  have storage : (s.broker stage [] false [] [] timers).storageOf 0 = s.storage := rfl
  obtain ⟨lock, found⟩ := holds.lock?
  simp only [Broker.complete, holds.ownToken?, storage, found, holds.unlock]
  rfl

theorem deadLetter (timers : List Timer) :
    (s.broker stage [] false [] [] timers).deadLetter 0 e = (e.withoutReference,
      ((s.freed.tallied .dead 1).note (.deadLettered 0 token e.withoutReference)).broker stage []
        false [] [] timers) := by
  have storage : (s.broker stage [] false [] [] timers).storageOf 0 = s.storage := rfl
  obtain ⟨lock, found⟩ := holds.lock?
  simp only [Broker.deadLetter, holds.ownToken?, storage, found, holds.unlock]
  rfl

theorem next_complete : (s.working (.handling e (.complete :: rest)) []).next =
    (s.freed.note (.completed 0 token e.withoutReference)).working
      (.handling e.withoutReference rest) [] := by
  let before := s.broker (.handling e (.complete :: rest)) [] false [] [] [s.alarm]
  have step : before.stepTask 0 =
      (before.complete 0 e).2.setLoop 0 (s.loop _) (.handling (before.complete 0 e).1 rest) := rfl
  rw [next_working step, holds.complete]
  rfl

theorem next_deadLetter : (s.working (.handling e (.deadLetter :: rest)) []).next =
    ((s.freed.tallied .dead 1).note (.deadLettered 0 token e.withoutReference)).working
      (.handling e.withoutReference rest) [] := by
  let before := s.broker (.handling e (.deadLetter :: rest)) [] false [] [] [s.alarm]
  have step : before.stepTask 0 =
      (before.deadLetter 0 e).2.setLoop 0 (s.loop _) (.handling (before.deadLetter 0 e).1 rest) :=
    rfl
  rw [next_working step, holds.deadLetter]
  rfl

end Holds

theorem next_tally (completed : Bool) :
    (s.working (.handling e (.tally completed :: rest)) []).next =
      { s with notebook := s.notebook.tally completed }.working (.handling e rest) [] := rfl

/-- The signal goes to the wait, which has asked for it, and puts it in line. -/
theorem next_signal (asks : s.notebook.progress = ⟨false, [1]⟩) :
    (s.working (.handling e (.signal :: rest)) []).next =
      (s.hearing {}).working (.handling e rest) [1] := by
  let before := s.broker (.handling e (.signal :: rest)) [] false [] [] [s.alarm]
  have step : before.stepTask 0 =
      (before.wakeAll s.notebook.progress.tell.1).setLoop 0
        ((s.hearing s.notebook.progress.tell.2).loop .starting) (.handling e rest) := rfl
  rw [next_working step, asks]
  rfl

theorem startPause_broker (positive : 0 < pause s.settings) (stage : LoopStage)
    (line : List TaskId) :
    (s.broker stage [] false [] line [s.alarm]).startPause 0 (s.loop stage) =
      s.broker (.pausing (s.now + pause s.settings)) [] false [] line
        [s.alarm, ⟨s.now + pause s.settings, 0⟩] := by
  let b := s.broker stage [] false [] line [s.alarm]
  have due : b.afterPause (s.loop stage).options.pollInterval = s.now + pause s.settings := rfl
  have live : b.isCancelled (s.loop stage).scope = false := rfl
  have later : ¬ s.now + pause s.settings ≤ b.now :=
    Nat.not_le.2 (Nat.lt_add_of_pos_right positive)
  show b.startPause 0 (s.loop stage) = _
  simp only [Broker.startPause, due, live, Bool.false_eq_true, ↓reduceIte, if_neg later]
  rfl

theorem isActive_pausing (due : Nat) (line : List TaskId) (timers : List Timer) :
    (s.broker (.pausing due) [] false [] line timers).isActive 0 = decide (due ≤ s.now) := rfl

/-- Once the message is handled the loop pauses, and the wait, which has been told, has the
    turn. -/
theorem next_handled (positive : 0 < pause s.settings) :
    (s.working (.handling e []) [1]).next =
      s.attending .waiting (.pausing (s.now + pause s.settings)) []
        [s.alarm, ⟨s.now + pause s.settings, 0⟩] := by
  have later : ¬ s.now + pause s.settings ≤ s.now :=
    Nat.not_le.2 (Nat.lt_add_of_pos_right positive)
  have step : (s.broker (.handling e []) [] false [] [1] [s.alarm]).stepTask 0 =
      s.broker (.pausing (s.now + pause s.settings)) [] false [] [1]
        [s.alarm, ⟨s.now + pause s.settings, 0⟩] := startPause_broker positive _ _
  rw [next_working step, isActive_pausing, decide_eq_false later, if_neg Bool.false_ne_true]
  rfl

end

/-! ## The whole round -/

/-- The scene in which a message has been dead-lettered or completed, and counted, and the wait has
    been told. -/
def settled (s : Scene) (dead : Bool) : Scene :=
  { s.freed with
    counters := if dead then (s.tallied .dead 1).counters else s.counters
    notebook := { s.notebook.tally !dead with progress := {} } }

/-- The receiver settles a message in one way or the other and gives its signal, and then the loop
    pauses. -/
theorem Holds.works {e : Envelope} {token : LockToken} (holds : s.Holds e token)
    (asks : s.notebook.progress = ⟨false, [1]⟩) (positive : 0 < pause s.settings) (dead : Bool) :
    ∃ history, Works Wait.isOver Wait.next 4
      (s.working (.handling e
        (if dead then [.deadLetter, .tally false, .signal]
        else [.complete, .tally true, .signal])) [])
      ({ s.settled dead with history := history }.attending .waiting
        (.pausing (s.now + pause s.settings)) [] [s.alarm, ⟨s.now + pause s.settings, 0⟩]) := by
  cases dead with
  | false =>
    exact ⟨_, .next rfl holds.next_complete (.next rfl (next_tally true)
      (.next rfl (next_signal asks) (.next rfl (next_handled positive) (.refl _))))⟩
  | true =>
    exact ⟨_, .next rfl holds.next_deadLetter (.next rfl (next_tally false)
      (.next rfl (next_signal asks) (.next rfl (next_handled positive) (.refl _))))⟩

/-- One round: the first message is taken and settled, and then the loop pauses. -/
theorem works_round {e : Envelope} {rest : List Envelope} (line : s.storage.visible = e :: rest)
    (free : s.storage.locked = []) (asks : s.notebook.progress = ⟨false, [1]⟩)
    (positive : 0 < pause s.settings) :
    ∃ calls history, Works Wait.isOver Wait.next 8 (s.working .checking [])
      ({ (s.delivering e rest).settled
            (isDeadLetter s.failEvery (e.json? (record.read Json.maxDepth))) with
          calls := calls, history := history }.attending .waiting
        (.pausing (s.now + pause s.settings)) [] [s.alarm, ⟨s.now + pause s.settings, 0⟩]) := by
  -- The call is counted before anything else, and the message delivered before it is settled.
  let called : Scene := { s with calls := s.calls + 1 }
  have holds : ((called.delivering e rest).note (.delivered 0 (called.handed e))).Holds
      (called.handed e) called.token := holds_delivering (s := called) free e rest _
  obtain ⟨history, works⟩ := holds.works asks positive
    (isDeadLetter s.failEvery (e.json? (record.read Json.maxDepth)))
  exact ⟨s.calls + 1, history, .next rfl next_checking (.next rfl (next_entering _)
    (.next rfl (next_looking _ line) (.next rfl (next_taken _) works)))⟩

end Scene

/-! ## What has been processed -/

/-- What has been counted once so many messages are processed. -/
def tally (o : DemoOptions) (i : Nat) : QueueEvent → Nat
  | .sent => o.messages
  | .received => i
  | .dead => deadLettered o.failEvery i

/-- The payloads of so many messages from some number on. -/
def payloads (count i left : Nat) : List Octets :=
  (List.range' i left).map fun j => (Payload.nth count j).octets

theorem payloads_succ (count i left : Nat) :
    payloads count i (left + 1) = (Payload.nth count i).octets :: payloads count (i + 1) left := by
  simp only [payloads, List.range'_succ, List.map_cons]

namespace Scene

/-- So many messages of a demo have been processed, and so many are left in line. -/
structure Processed (settings : Settings) (o : DemoOptions) (i left : Nat) (s : Scene) : Prop where
  sameSettings : s.settings = settings
  sameFailEvery : s.failEvery = o.failEvery
  sameCount : s.count = o.messages
  sameDeadline : s.deadline = o.timeout.ceilMillis
  line : s.storage.visible.map (·.payload) = payloads o.messages (i + 1) left
  free : s.storage.locked = []
  total : ∀ event, s.total event = tally o i event
  processed : s.notebook.processed = i
  completed : s.notebook.completed + deadLettered o.failEvery i = i

namespace Processed

variable {settings : Settings} {o : DemoOptions} {i left : Nat} {s : Scene}

theorem waited (p : s.Processed settings o i left) (now : Nat) :
    { s with now }.Processed settings o i left :=
  { p with total := p.total }

theorem hearing (p : s.Processed settings o i left) (progress : Signal) :
    (s.hearing progress).Processed settings o i left :=
  { p with total := p.total }

theorem total_round (p : s.Processed settings o i (left + 1)) (small : i + 1 ≤ maxUnsigned64)
    (e : Envelope) (rest : List Envelope) (event : QueueEvent) :
    ((s.delivering e rest).settled (failsAt o.failEvery (i + 1))).total event =
      tally o (i + 1) event := by
  have received : (s.tallied .received 1).total event =
      if event = .received then i + 1 else tally o i event := by
    rw [total_count, p.total]
    cases event <;> simp [tally, Counters.limit, small]
  have few := Nat.le_trans (deadLettered_le o.failEvery (i + 1)) small
  cases fails : failsAt o.failEvery (i + 1) with
  | false =>
    refine received.trans ?_
    cases event <;> simp [tally, deadLettered_succ, fails]
  | true =>
    -- Dead-lettering counts in the scene in which the receiving has been counted.
    refine ((s.tallied .received 1).total_count .dead event 1).trans ?_
    rw [deadLettered_succ, fails] at few
    refine (congrArg (fun n => if event = .dead then min (n + 1) _ else n) received).trans ?_
    cases event with
    | sent | received => rfl
    | dead =>
      show min (deadLettered o.failEvery i + 1) _ = deadLettered o.failEvery (i + 1)
      rw [deadLettered_succ, fails]
      exact Nat.min_eq_left few

theorem completed_round (p : s.Processed settings o i (left + 1)) :
    (s.notebook.tally !failsAt o.failEvery (i + 1)).completed + deadLettered o.failEvery (i + 1) =
      i + 1 := by
  have before := p.completed
  rw [deadLettered_succ]
  cases failsAt o.failEvery (i + 1) with
  | false => exact (Nat.succ_add _ _).trans (congrArg (· + 1) before)
  | true => exact congrArg (· + 1) before

/-- A round processes one more message and tells the wait of it. -/
theorem round (p : s.Processed settings o i (left + 1)) (small : i + 1 ≤ maxUnsigned64)
    (asks : s.notebook.progress = ⟨false, [1]⟩) (positive : 0 < pause s.settings) :
    ∃ s' : Scene, Works Wait.isOver Wait.next 8 (s.working .checking [])
        (s'.attending .waiting (.pausing (s.now + pause s.settings)) []
          [s'.alarm, ⟨s.now + pause s.settings, 0⟩]) ∧
      s'.Processed settings o (i + 1) left ∧ s'.now = s.now ∧ s'.notebook.progress = {} := by
  obtain ⟨e, rest, line, carries, behind⟩ : ∃ e rest, s.storage.visible = e :: rest ∧
      e.payload = (Payload.nth o.messages (i + 1)).octets ∧
      rest.map (·.payload) = payloads o.messages (i + 2) left :=
    List.map_eq_cons_iff.1 (p.line.trans (payloads_succ ..))
  have dead := isDeadLetter_payload (p := Payload.nth o.messages (i + 1)) small carries s.failEvery
  obtain ⟨calls, history, works⟩ := works_round line p.free asks positive
  rw [dead, p.sameFailEvery] at works
  refine ⟨_, works, ⟨p.sameSettings, p.sameFailEvery, p.sameCount, p.sameDeadline, behind, rfl, ?_,
    ?_, ?_⟩, rfl, rfl⟩
  · intro event
    exact p.total_round small e rest event
  · exact congrArg (· + 1) p.processed
  · exact p.completed_round

end Processed

end Scene

end PeekLock.Demo
