import PeekLock.Proofs.Broker.Action

/-! # What goes on without counters

Nothing that a queue or a task does depends on what has been counted, nor on who counts where: a
broker whose counters are taken away (`Broker.uncounted`) goes on as it would with them.
Each operation and each step of a task gets one lemma for this, in the order in which they are
made of each other.  They come together in `uncounted_run`: a run without its counters is the run
of the same actions without theirs, and it makes the same calls at every queue
(`accesses_uncounted`).  So two runs that differ in counters alone differ in totals alone.
-/

namespace PeekLock

/-- A queue that does not count. -/
def Queue.uncounted (queue : Queue) : Queue :=
  { queue with counters := none }

namespace Broker

/-- A broker without counters, whose queues do not count. -/
def uncounted (b : Broker) : Broker :=
  { b with queues := b.queues.map Queue.uncounted, counters := [] }

variable (b : Broker)

/-! ## What can be seen -/

-- Where a proof is `by rfl` and not `rfl`, `simp` takes the decision of an `if` along with its
-- condition, and both sides of an equation are split at once.
@[simp] theorem now_uncounted : b.uncounted.now = b.now := by rfl

@[simp] theorem time_uncounted : b.uncounted.time = b.time := rfl

@[simp] theorem queue?_uncounted (q : QueueId) :
    b.uncounted.queue? q = (b.queue? q).map Queue.uncounted :=
  List.getElem?_map ..

@[simp] theorem length_uncounted : b.uncounted.queues.length = b.queues.length :=
  List.length_map ..

@[simp] theorem storageOf_uncounted (q : QueueId) : b.uncounted.storageOf q = b.storageOf q := by
  simp only [storageOf, queue?_uncounted]
  cases b.queue? q <;> rfl

@[simp] theorem isRegistered_uncounted (q : QueueId) (id : TaskId) :
    b.uncounted.isRegistered q id = b.isRegistered q id := by
  simp only [isRegistered, queue?_uncounted]
  cases b.queue? q <;> rfl

@[simp] theorem isCancelled_uncounted (s : ScopeId) :
    b.uncounted.isCancelled s = b.isCancelled s := by rfl

@[simp] theorem afterPause_uncounted (d : Duration) :
    b.uncounted.afterPause d = b.afterPause d := by rfl

@[simp] theorem task?_uncounted (id : TaskId) : b.uncounted.task? id = b.task? id := rfl

/-! ## Small changes -/

theorem modifyQueue_uncounted (q : QueueId) {f : Queue → Queue}
    (kept : ∀ queue, f queue.uncounted = (f queue).uncounted) :
    b.uncounted.modifyQueue q f = (b.modifyQueue q f).uncounted := by
  have queues : (b.queues.map Queue.uncounted).modify q f =
      (b.queues.modify q f).map Queue.uncounted := by
    refine List.ext_getElem? fun i => ?_
    simp only [List.getElem?_modify, List.getElem?_map]
    cases b.queues[i]? with
    | none => rfl
    | some queue => by_cases here : q = i <;> simp [here, kept]
  simp only [modifyQueue, uncounted, queues]

@[simp] theorem setStorage_uncounted (q : QueueId) (s : Storage) :
    b.uncounted.setStorage q s = (b.setStorage q s).uncounted :=
  b.modifyQueue_uncounted q fun _ => rfl

@[simp] theorem note_uncounted (n : Notice) : b.uncounted.note n = (b.note n).uncounted := rfl

/-- Counting does not show where the counters are taken away afterwards, -/
@[simp] theorem uncounted_count (q : QueueId) (event : QueueEvent) (n : Nat) :
    (b.count q event n).uncounted = b.uncounted := by
  simp only [count]
  split
  · split <;> rfl
  · rfl

/-- and is nothing where they have been taken away before. -/
@[simp] theorem count_uncounted (q : QueueId) (event : QueueEvent) (n : Nat) :
    b.uncounted.count q event n = b.uncounted := by
  simp only [count, queue?_uncounted]
  cases b.queue? q <;> rfl

@[simp] theorem setTask_uncounted (id : TaskId) (t : Task) :
    b.uncounted.setTask id t = (b.setTask id t).uncounted := rfl

@[simp] theorem wake_uncounted (id : TaskId) : b.uncounted.wake id = (b.wake id).uncounted := by
  have ready : b.uncounted.ready = b.ready := rfl
  simp only [wake, ready]
  split <;> rfl

@[simp] theorem wakeAll_uncounted (ids : List TaskId) :
    b.uncounted.wakeAll ids = (b.wakeAll ids).uncounted := by
  induction ids generalizing b with
  | nil => rfl
  | cons id rest ih =>
    have first := b.wake_uncounted id
    exact (congrArg (·.wakeAll rest) first).trans (ih (b.wake id))

@[simp] theorem spawn_uncounted (t : Task) :
    b.uncounted.spawn t = ((b.spawn t).1.uncounted, (b.spawn t).2) :=
  Prod.ext (wake_uncounted { b with tasks := b.tasks ++ [t] } b.tasks.length) rfl

@[simp] theorem register_uncounted (q : QueueId) (id : TaskId) :
    b.uncounted.register q id = (b.register q id).uncounted :=
  b.modifyQueue_uncounted q fun _ => rfl

@[simp] theorem deregister_uncounted (q : QueueId) (id : TaskId) :
    b.uncounted.deregister q id = (b.deregister q id).uncounted :=
  b.modifyQueue_uncounted q fun _ => rfl

@[simp] theorem notify_uncounted (q : QueueId) :
    b.uncounted.notify q = (b.notify q).uncounted := by
  simp only [notify, queue?_uncounted]
  cases b.queue? q with
  | none => rfl
  | some queue =>
    have told : b.uncounted.modifyQueue q (fun queue => { queue with waiting := [] }) =
        (b.modifyQueue q fun queue => { queue with waiting := [] }).uncounted :=
      b.modifyQueue_uncounted q fun _ => rfl
    simp only [Option.map_some, told]
    exact wakeAll_uncounted _ queue.waiting

@[simp] theorem owe_uncounted (q : QueueId) (n : Nat) :
    b.uncounted.owe q n = (b.owe q n).uncounted := rfl

@[simp] theorem arm_uncounted (id : TaskId) (due : Nat) :
    b.uncounted.arm id due = (b.arm id due).uncounted := rfl

@[simp] theorem disarm_uncounted (id : TaskId) :
    b.uncounted.disarm id = (b.disarm id).uncounted := rfl

@[simp] theorem openScope_uncounted (parent : Option ScopeId) :
    b.uncounted.openScope parent = ((b.openScope parent).1.uncounted, (b.openScope parent).2) := rfl

@[simp] theorem releaseScope_uncounted (s : ScopeId) :
    b.uncounted.releaseScope s = (b.releaseScope s).uncounted := rfl

@[simp] theorem cancel_uncounted (s : ScopeId) :
    b.uncounted.cancel s = (b.cancel s).uncounted := by
  simp only [cancel, isCancelled_uncounted]
  split
  · rfl
  · rw [← wakeAll_uncounted]
    rfl

/-! ## Operations -/

theorem addQueue_uncounted (settings : Settings) (counters : Option Nat) :
    (b.uncounted.addQueue settings none).1 = (b.addQueue settings counters).1.uncounted := by
  simp [addQueue, uncounted, openScope, Queue.uncounted]

@[simp] theorem endListen_uncounted (q : QueueId) (c : String) :
    b.uncounted.endListen q c = (b.endListen q c).uncounted := by
  simp only [endListen, queue?_uncounted]
  cases b.queue? q with
  | none => rfl
  | some queue => simp [Queue.uncounted]

theorem setOpened_uncounted (q : QueueId) (opened : Bool) :
    b.uncounted.modifyQueue q (fun queue => { queue with opened }) =
      (b.modifyQueue q fun queue => { queue with opened }).uncounted :=
  b.modifyQueue_uncounted q fun _ => rfl

theorem openQueue_uncounted (q : QueueId) (c : String) (connection : Option ConnectionParams) :
    b.uncounted.openQueue q c connection = (b.openQueue q c connection).uncounted := by
  simp only [openQueue, setOpened_uncounted, note_uncounted]

@[simp] theorem closeQueue_uncounted (q : QueueId) (c : String) :
    b.uncounted.closeQueue q c = (b.closeQueue q c).uncounted := by
  simp only [closeQueue, setOpened_uncounted, endListen_uncounted, note_uncounted]

@[simp] theorem send_uncounted (q : QueueId) (c : String) (e : Envelope) :
    b.uncounted.send q c e = (b.send q c e).uncounted := by
  simp [send]

theorem peek_uncounted (q : QueueId) (c : String) :
    (b.uncounted.peek q c).2 = (b.peek q c).2.uncounted := by
  simp only [peek, storageOf_uncounted]
  split <;> rfl

@[simp] theorem lockNext_uncounted (q : QueueId) (c : String) (timeout : Duration) :
    b.uncounted.lockNext q c timeout =
      (b.lockNext q c timeout).map fun (e, b') => (e, b'.uncounted) := by
  simp only [lockNext, storageOf_uncounted, time_uncounted]
  cases (b.storageOf q).lockNext (ownerOf q) b.time timeout with
  | none => rfl
  -- The note comes after the count, and has to be moved out of the way for this to vanish.
  | some taken => simp [← note_uncounted]

@[simp] theorem complete_uncounted (q : QueueId) (e : Envelope) :
    b.uncounted.complete q e = ((b.complete q e).1, (b.complete q e).2.uncounted) := by
  simp only [complete, storageOf_uncounted]
  cases ownToken? q e with
  | none => rfl
  | some token =>
    dsimp only
    cases (b.storageOf q).lock? token with
    | none => rfl
    | some lock => simp

@[simp] theorem deadLetter_uncounted (q : QueueId) (e : Envelope) :
    b.uncounted.deadLetter q e = ((b.deadLetter q e).1, (b.deadLetter q e).2.uncounted) := by
  simp only [deadLetter, storageOf_uncounted]
  cases ownToken? q e with
  | none => rfl
  | some token =>
    dsimp only
    cases (b.storageOf q).lock? token with
    | none => rfl
    | some lock => simp [← note_uncounted]

@[simp] theorem abandon_uncounted (q : QueueId) (e : Envelope) :
    b.uncounted.abandon q e = ((b.abandon q e).1, (b.abandon q e).2.uncounted) := by
  simp only [abandon, storageOf_uncounted, time_uncounted]
  cases ownToken? q e with
  | none => rfl
  | some token =>
    dsimp only
    split <;> simp

@[simp] theorem renew_uncounted (q : QueueId) (e : Envelope) :
    b.uncounted.renew q e = (b.renew q e).uncounted := by
  simp only [renew, storageOf_uncounted, time_uncounted]
  cases ownToken? q e with
  | none => rfl
  | some token =>
    dsimp only
    cases (b.storageOf q).renew b.time token <;> simp

theorem releaseExpired_uncounted (q : QueueId) (c : String) :
    (b.uncounted.releaseExpired q c).2 = (b.releaseExpired q c).2.uncounted := by
  simp only [releaseExpired, storageOf_uncounted, time_uncounted]
  split <;> simp

theorem listenScope_uncounted (q : QueueId) :
    b.uncounted.listenScope q = ((b.listenScope q).1.uncounted, (b.listenScope q).2) := by
  simp only [listenScope, queue?_uncounted]
  cases b.queue? q with
  | none => rfl
  | some queue =>
    have scope : queue.uncounted.scope = queue.scope := rfl
    simp only [Option.map_some, scope, isCancelled_uncounted]
    split
    · refine Prod.ext ?_ rfl
      exact modifyQueue_uncounted (b.openScope none).1 q fun _ => rfl
    · rfl

theorem listen_uncounted (q : QueueId) (c : String) (receiver : Receiver) :
    (b.uncounted.listen q c receiver).1 = (b.listen q c receiver).1.uncounted := by
  simp only [listen, listenScope_uncounted, openScope_uncounted, queue?_uncounted]
  cases ((b.listenScope q).1.openScope (b.listenScope q).2).1.queue? q <;>
    simp [Queue.uncounted]

theorem listenWith_uncounted (q : QueueId) (c : String) (receiver : Receiver)
    (options : ListenOptions) (faults : Faults) (cancelled : Bool) :
    (b.uncounted.listenWith q c receiver options faults cancelled).1 =
      (b.listenWith q c receiver options faults cancelled).1.uncounted := by
  simp only [listenWith, openScope_uncounted]
  split <;> simp

theorem ask_uncounted (q : QueueId) (request : Request) :
    b.uncounted.ask q request = (b.ask q request).uncounted := by
  cases request with
  | openQueue c connection => exact b.openQueue_uncounted q c connection
  | closeQueue c => exact b.closeQueue_uncounted q c
  | endListen c => exact b.endListen_uncounted q c
  | clear c => simp [ask, clear]
  | send c e => exact b.send_uncounted q c e
  | peek c => exact b.peek_uncounted q c
  | peekBatch c most => simp [ask, peekBatch]
  | receive c timeout => exact congrArg Prod.fst (b.spawn_uncounted _)
  | complete e => simp [ask]
  | deadLetter e => simp [ask]
  | abandon e => simp [ask]
  | renew e => exact b.renew_uncounted q e
  | releaseExpired c => exact b.releaseExpired_uncounted q c
  | listen c receiver => exact b.listen_uncounted q c receiver
  | listenWith c receiver options faults cancelled =>
    exact b.listenWith_uncounted q c receiver options faults cancelled

theorem dropReceive_uncounted (id : TaskId) :
    b.uncounted.dropReceive id = (b.dropReceive id).uncounted := by
  simp only [dropReceive, task?_uncounted]
  split <;> simp

theorem stopLoop_uncounted (id : TaskId) :
    b.uncounted.stopLoop id = (b.stopLoop id).uncounted := by
  simp only [stopLoop, task?_uncounted]
  split <;> simp

theorem releaseLoop_uncounted (id : TaskId) :
    b.uncounted.releaseLoop id = (b.releaseLoop id).uncounted := by
  simp only [releaseLoop, task?_uncounted]
  split
  · split <;> simp
  · rfl

/-! ## Steps of tasks -/

@[simp] theorem setReceive_uncounted (id : TaskId) (r : Receive) (stage : ReceiveStage) :
    b.uncounted.setReceive id r stage = (b.setReceive id r stage).uncounted := rfl

@[simp] theorem endReceive_uncounted (id : TaskId) (r : Receive) (message : Option Envelope) :
    b.uncounted.endReceive id r message = (b.endReceive id r message).uncounted := rfl

@[simp] theorem unawait_uncounted (q : QueueId) (id : TaskId) :
    b.uncounted.unawait q id = (b.unawait q id).uncounted := by
  simp [unawait]

theorem stepReceive_uncounted (id : TaskId) (r : Receive) :
    b.uncounted.stepReceive id r = (b.stepReceive id r).uncounted := by
  simp only [stepReceive]
  cases r.stage with
  | entering => simp
  | looking =>
    simp only [lockNext_uncounted]
    cases b.lockNext r.queue r.correlationId r.timeout <;> simp
  | waiting =>
    simp only [isRegistered_uncounted, now_uncounted]
    split
    · simp
    · split <;> simp
  | ended _ | dropped => rfl

@[simp] theorem setLoop_uncounted (id : TaskId) (l : Loop) (stage : LoopStage) :
    b.uncounted.setLoop id l stage = (b.setLoop id l stage).uncounted := rfl

@[simp] theorem stop_uncounted (id : TaskId) (l : Loop) :
    b.uncounted.stop id l = (b.stop id l).uncounted := rfl

@[simp] theorem startPause_uncounted (id : TaskId) (l : Loop) :
    b.uncounted.startPause id l = (b.startPause id l).uncounted := by
  simp only [startPause, isCancelled_uncounted, now_uncounted, afterPause_uncounted]
  split
  · simp
  · split <;> simp

@[simp] theorem afterCall_uncounted (l : Loop) :
    b.uncounted.afterCall l = (b.afterCall l).uncounted := by
  simp only [afterCall]
  split <;> simp

theorem startCall_uncounted (id : TaskId) (l : Loop) :
    b.uncounted.startCall id l = (b.startCall id l).uncounted := by
  simp only [startCall]
  split
  · simp
  · rfl

theorem look_uncounted (id : TaskId) (l : Loop) (deadline : Nat) :
    b.uncounted.look id l deadline = (b.look id l deadline).uncounted := by
  simp only [look, lockNext_uncounted]
  cases b.lockNext l.queue l.correlationId l.options.receiveTimeout <;> simp

theorem resumeWait_uncounted (id : TaskId) (l : Loop) (deadline : Nat) :
    b.uncounted.resumeWait id l deadline = (b.resumeWait id l deadline).uncounted := by
  simp only [resumeWait, isCancelled_uncounted, isRegistered_uncounted, now_uncounted]
  split
  · simp
  · split
    · simp
    · split <;> simp

theorem dispatch_uncounted (id : TaskId) (l : Loop) (e : Envelope) :
    b.uncounted.dispatch id l e = (b.dispatch id l e).uncounted := by
  simp only [dispatch, returnMessage, isCancelled_uncounted]
  split
  · split <;> simp
  · simp

@[simp] theorem failPlan_uncounted (id : TaskId) (l : Loop) (e : Envelope) (reason : String) :
    b.uncounted.failPlan id l e reason = (b.failPlan id l e reason).uncounted := by
  simp [failPlan]

theorem perform_uncounted (id : TaskId) (l : Loop) (e : Envelope) (command : Command)
    (rest : List Command) :
    b.uncounted.perform id l e command rest = (b.perform id l e command rest).uncounted := by
  cases command with
  | pause d =>
    simp only [perform, now_uncounted, afterPause_uncounted]
    split <;> rfl
  | abandon =>
    simp only [perform]
    split <;> simp
  | complete | deadLetter | renew | endListen | close | send _ | fail _ => simp [perform]
  | replacePayload _ | remember _ | tally _ => rfl
  | signal => simp [perform]

theorem stepLoop_uncounted (id : TaskId) (l : Loop) :
    b.uncounted.stepLoop id l = (b.stepLoop id l).uncounted := by
  simp only [stepLoop]
  cases l.stage with
  | starting | stopped => rfl
  | checking =>
    simp only [isCancelled_uncounted]
    split
    · simp
    · exact b.startCall_uncounted id l
  | entering deadline => simp
  | looking deadline => exact b.look_uncounted id l deadline
  | waiting deadline => exact b.resumeWait_uncounted id l deadline
  | taken e => exact b.dispatch_uncounted id l e
  | handling e plan =>
    cases plan with
    | nil => exact b.startPause_uncounted id l
    | cons command rest => exact b.perform_uncounted id l e command rest
  | delayed due e plan =>
    simp only [now_uncounted]
    split <;> rfl
  | pausing due =>
    simp only [isCancelled_uncounted, now_uncounted]
    split
    · simp
    · split <;> rfl

theorem stepTask_uncounted (id : TaskId) :
    b.uncounted.stepTask id = (b.stepTask id).uncounted := by
  simp only [stepTask, task?_uncounted]
  cases b.task? id with
  | none => rfl
  | some t =>
    cases t with
    | receive r => exact b.stepReceive_uncounted id r
    | listen l => exact b.stepLoop_uncounted id l

theorem isActive_uncounted (id : TaskId) : b.uncounted.isActive id = b.isActive id := by
  simp only [isActive, task?_uncounted, isRegistered_uncounted, isCancelled_uncounted,
    now_uncounted]

theorem turn_uncounted (id : TaskId) : b.uncounted.turn id = (b.turn id).uncounted := by
  have stepped : stepTask { b.uncounted with ready := b.uncounted.ready.erase id } id =
      (stepTask { b with ready := b.ready.erase id } id).uncounted :=
    stepTask_uncounted { b with ready := b.ready.erase id } id
  simp only [turn, stepped, isActive_uncounted]
  split <;> rfl

/-! ## Actions -/

theorem announce_uncounted (i : Nat) : b.uncounted.announce i = (b.announce i).uncounted := by
  have owed : b.uncounted.owed = b.owed := rfl
  simp only [announce, owed]
  cases b.owed[i]? with
  | none => rfl
  | some a =>
    have told := notify_uncounted { b with owed := b.owed.eraseIdx i } a.queue
    -- What is counted then shows on neither side.
    exact (congrArg (·.count a.queue .sent a.count) told).trans
      ((count_uncounted ..).trans (uncounted_count ..).symm)

theorem advance_uncounted (moment : Nat) :
    b.uncounted.advance moment = (b.advance moment).uncounted := by
  let t := max b.now moment
  exact wakeAll_uncounted { b with now := t, timers := b.timers.filter (t < ·.due) }
    ((b.timers.filter (·.due ≤ t)).map (·.task))

end Broker

/-- An action as it is where there are no counters to add or to count into. -/
def Action.uncounted? : Action → Option Action
  | .addCounters => none
  | .newQueue name _ => some (.newQueue name none)
  | .newQueueOf settings _ => some (.newQueueOf settings none)
  | action => some action

theorem Action.eq_addCounters_of_uncounted? {action : Action} (nothing : action.uncounted? = none) :
    action = .addCounters := by
  cases action <;> first | rfl | simp [uncounted?] at nothing

namespace Broker

variable (b : Broker)

/-- What an action does but for counters does not depend on counters. -/
theorem uncounted_act (action : Action) :
    (b.act action).uncounted = b.uncounted.run action.uncounted?.toList := by
  cases action with
  | addCounters => rfl
  | newQueue name counters => exact (b.addQueue_uncounted _ counters).symm
  | newQueueOf settings counters =>
    simp only [act, newQueueOf, Action.uncounted?, Option.toList_some, run_cons, run_nil]
    cases settings.check with
    | error _ => rfl
    | ok _ => exact (b.addQueue_uncounted settings counters).symm
  | ask q request =>
    simp only [act, Action.uncounted?, Option.toList_some, run_cons, run_nil, length_uncounted]
    split
    · exact (b.ask_uncounted q request).symm
    · rfl
  | dropReceive id => exact (b.dropReceive_uncounted id).symm
  | stopLoop id => exact (b.stopLoop_uncounted id).symm
  | releaseLoop id => exact (b.releaseLoop_uncounted id).symm
  | turn id => exact (b.turn_uncounted id).symm
  | announce i => exact (b.announce_uncounted i).symm
  | advance moment => exact (b.advance_uncounted moment).symm

theorem uncounted_run (actions : List Action) :
    (b.run actions).uncounted = b.uncounted.run (actions.filterMap Action.uncounted?) := by
  induction actions generalizing b with
  | nil => rfl
  | cons action rest ih =>
    -- The first action is one or none, in front of the others.
    rw [run_cons, ih, uncounted_act, ← run_append]
    congr 1
    cases action <;> rfl

/-! ## Calls -/

theorem callOf_uncounted {action action' : Action} (same : action.uncounted? = some action') :
    b.uncounted.callOf action' = b.callOf action := by
  cases action with
  | addCounters => cases same
  | ask q request =>
    cases same
    simp only [callOf, length_uncounted]
  | _ =>
    cases same
    rfl

theorem access?_uncounted {action action' : Action} (same : action.uncounted? = some action')
    (q : QueueId) : b.uncounted.access? q action' = b.access? q action := by
  rw [access?, access?, b.callOf_uncounted same]
  cases b.callOf action with
  | none => rfl
  | some c => simp only [accessAt, access, length_uncounted, time_uncounted, storageOf_uncounted]

/-- The calls of a run are made at the same times, at the same storage, without counters. -/
theorem accesses_uncounted (q : QueueId) (actions : List Action) :
    b.uncounted.accesses q (actions.filterMap Action.uncounted?) = b.accesses q actions := by
  induction actions generalizing b with
  | nil => rfl
  | cons action rest ih =>
    have acted := b.uncounted_act action
    cases kind : action.uncounted? with
    | none =>
      -- Adding counters is no call.
      obtain rfl := Action.eq_addCounters_of_uncounted? kind
      rw [List.filterMap_cons_none kind, accesses, ← ih, acted]
      rfl
    | some action' =>
      rw [kind, Option.toList_some, run_cons, run_nil] at acted
      rw [List.filterMap_cons_some kind, accesses, accesses, b.access?_uncounted kind, ← acted, ih]

end Broker

end PeekLock
