import PeekLock.Proofs.Broker.Quiet

/-! # What an action does

Every request of a caller and every step of a task is the call that it makes at the
messages of a queue, if it makes one, and quiet changes besides.  `Broker.commit` is
the call alone: it changes the storage, counts what is counted at once and leaves it
for later to announce what has become visible.  The main statements are
`quiet_stepTask` and `quiet_ask`; with one lemma each for the few other actions they
are all that later theories need to know of the operations.
-/

namespace PeekLock

namespace Broker

variable {x : Option TaskId} {b : Broker} {q : QueueId}

/-! ## Calls alone -/

/-- A call at a queue and nothing else. -/
def commit (b : Broker) : Option (QueueId × Call) → Broker
  | none => b
  | some (q, call) =>
    let a := b.access q call
    { b.setStorage q a.after with
      counters := match a.counted with
        | some event => (b.count q event 1).counters
        | none => b.counters
      owed := b.owed ++ if a.enqueued = [] then [] else [⟨q, a.enqueued.length⟩] }

theorem storageOf_commit (b : Broker) (c : Option (QueueId × Call)) (q : QueueId) :
    (b.commit c).storageOf q =
      match b.accessAt q c with
      | some a => a.after
      | none => b.storageOf q := by
  cases c with
  | none => rfl
  | some c =>
    obtain ⟨q', call⟩ := c
    have stored : (b.commit (some (q', call))).storageOf q =
        if q = q' ∧ q' < b.queues.length then (b.access q' call).after else b.storageOf q :=
      storageOf_setStorage ..
    rw [stored, accessAt]
    by_cases here : q' = q
    · subst here
      -- a queue that is not there has no storage to change
      by_cases inside : q' < b.queues.length <;> simp [inside]
    · simp [here, Ne.symm here]

theorem setStorage_storageOf (b : Broker) (q : QueueId) : b.setStorage q (b.storageOf q) = b := by
  have same :
      b.queues.modify q (fun queue => { queue with storage := b.storageOf q }) = b.queues := by
    refine List.ext_getElem? fun i => ?_
    rw [List.getElem?_modify]
    by_cases here : q = i
    · subst here
      simp only [storageOf, queue?]
      cases b.queues[q]? <;> simp
    · simp [here]
  simp only [setStorage, modifyQueue]
  rw [same]

theorem length_commit (b : Broker) (c : Option (QueueId × Call)) :
    (b.commit c).queues.length = b.queues.length := by
  cases c with
  | none => rfl
  | some c => exact length_modifyQueue ..

theorem commit_of_silent {call : Call} (counted : (b.access q call).counted = none)
    (enqueued : (b.access q call).enqueued = []) :
    b.commit (some (q, call)) = b.setStorage q (b.access q call).after := by
  simp only [commit, counted, enqueued, ↓reduceIte, List.append_nil]
  rfl

/-- A call that leaves the storage as it is changes nothing. -/
theorem commit_of_idle {call : Call} (after : (b.access q call).after = b.storageOf q)
    (counted : (b.access q call).counted = none) (enqueued : (b.access q call).enqueued = []) :
    b.commit (some (q, call)) = b := by
  rw [commit_of_silent counted enqueued, after, setStorage_storageOf]

theorem commit_of_counted {call : Call} {event : QueueEvent}
    (counted : (b.access q call).counted = some event)
    (enqueued : (b.access q call).enqueued = []) :
    b.commit (some (q, call)) = (b.setStorage q (b.access q call).after).count q event 1 := by
  simp only [commit, counted, enqueued, ↓reduceIte, List.append_nil]
  simp only [count, setStorage, queue?_modifyQueue]
  cases b.queue? q with
  | none => rfl
  | some queue =>
    obtain ⟨settings, counters, opened, storage, waiting, scope⟩ := queue
    cases counters <;> simp [modifyQueue]

theorem commit_of_visible {call : Call} (counted : (b.access q call).counted = none)
    (enqueued : (b.access q call).enqueued ≠ []) :
    b.commit (some (q, call)) =
      (b.setStorage q (b.access q call).after).owe q (b.access q call).enqueued.length := by
  simp only [commit, counted, enqueued, ↓reduceIte]
  rfl

theorem map_core_setStorage (b : Broker) (q : QueueId) (s : Storage) :
    (b.setStorage q s).queues.map Queue.core =
      (b.queues.map Queue.core).modify q
        fun (settings, counters, _) => (settings, counters, s) := by
  refine List.ext_getElem? fun i => ?_
  simp only [setStorage, modifyQueue, List.getElem?_map, List.getElem?_modify]
  cases b.queues[i]? with
  | none => rfl
  | some queue => by_cases here : q = i <;> simp [here, Queue.core]

theorem isRegistered_setStorage (b : Broker) (q q' : QueueId) (s : Storage) (id : TaskId) :
    (b.setStorage q s).isRegistered q' id = b.isRegistered q' id :=
  isRegistered_modifyQueue b q _ q' id fun _ _ => Iff.rfl

end Broker

/-- Quiet changes and a call do not get in each other's way. -/
theorem Quiet.commit {x : Option TaskId} {b b' : Broker} (h : Quiet x b b')
    (c : Option (QueueId × Call)) : Quiet x (b.commit c) (b'.commit c) := by
  cases c with
  | none => exact h
  | some c =>
    obtain ⟨q, call⟩ := c
    have same := h.access q call
    constructor
    case start => exact h.start
    case now => exact h.now
    case queues =>
      simp only [Broker.commit, Broker.map_core_setStorage, same, h.queues]
    case counters =>
      simp only [Broker.commit, Broker.count_counters, same, h.queues, h.counters]
    case owed => simp only [Broker.commit, same, h.owed]
    case task => exact h.task
    case ready => exact h.ready
    case timer => exact h.timer
    case registered =>
      intro q' id other
      exact (Broker.isRegistered_setStorage ..).trans
        ((h.registered q' id other).trans (Broker.isRegistered_setStorage ..).symm)

namespace Broker

variable {x : Option TaskId} {b : Broker} {q : QueueId}

/-! ## Operations at messages -/

theorem quiet_send (c : String) (e : Envelope) :
    Quiet x (b.commit (some (q, .send e))) (b.send q c e) := by
  have enqueued : (b.access q (.send e)).enqueued = [Storage.stamp b.time e] :=
    Access.enqueued_send ..
  rw [commit_of_visible rfl (by simp [enqueued]), enqueued]
  exact .note _ _

theorem quiet_clear (c : String) : Quiet x (b.commit (some (q, .clear))) (b.clear q c) := by
  rw [commit_of_silent rfl rfl]
  exact .note _ _

theorem quiet_lockNext {c : String} {timeout : Duration} {e : Envelope} {b' : Broker}
    (taken : b.lockNext q c timeout = some (e, b')) :
    Quiet x (b.commit (some (q, .take timeout))) b' := by
  simp only [lockNext] at taken
  cases found : (b.storageOf q).lockNext (ownerOf q) b.time timeout with
  | none => simp [found] at taken
  | some result =>
    simp only [found, Option.some.injEq, Prod.mk.injEq] at taken
    obtain ⟨-, rfl⟩ := taken
    have counted : (b.access q (.take timeout)).counted = some .received := by
      simp [Access.counted, Access.delivered, access, found]
    have after : (b.access q (.take timeout)).after = result.2 := by
      simp [Access.after, access, found]
    rw [commit_of_counted counted rfl, after]
    exact .note _ _

/-- A look that finds no message changes nothing, and there is none. -/
theorem commit_take_of_none {c : String} {timeout : Duration}
    (nothing : b.lockNext q c timeout = none) :
    b.commit (some (q, .take timeout)) = b ∧ (b.storageOf q).visible = [] := by
  simp only [lockNext] at nothing
  cases found : (b.storageOf q).lockNext (ownerOf q) b.time timeout with
  | some result => simp [found] at nothing
  | none =>
    constructor
    · exact commit_of_idle (by simp [Access.after, access, found])
        (by simp [Access.counted, Access.delivered, access, found]) rfl
    · cases first : (b.storageOf q).visible with
      | nil => rfl
      | cons e rest => simp [Storage.lockNext, first] at found

/-- A settlement by a stale token changes nothing at the messages. -/
theorem commit_of_stale {call : Call} {e : Envelope} (holding : call.holding = some e)
    (stale : (b.access q call).lockOf? e = none) : b.commit (some (q, call)) = b := by
  refine commit_of_idle (Access.after_of_stale holding stale) ?_ ?_ <;>
    cases call <;> simp_all [Call.holding, access, Access.counted, Access.enqueued]

theorem lockOf?_access (b : Broker) (q : QueueId) (call : Call) (e : Envelope) :
    (b.access q call).lockOf? e = (ownToken? q e).bind (b.storageOf q).lock? := rfl

theorem counted_deadLetter (b : Broker) (q : QueueId) (e : Envelope) :
    (b.access q (.deadLetter e)).counted =
      ((b.access q (.deadLetter e)).lockOf? e).map fun _ => .dead := rfl

theorem enqueued_abandon (b : Broker) (q : QueueId) (e : Envelope) :
    (b.access q (.abandon e)).enqueued =
      match (b.access q (.abandon e)).lockOf? e with
      | some lock => if lock.HasExpired b.time then [] else [Storage.stamp b.time e]
      | none => [] := Access.enqueued_abandon ..

theorem quiet_complete (e : Envelope) :
    Quiet x (b.commit (some (q, .complete e))) (b.complete q e).2 := by
  simp only [complete]
  cases own : ownToken? q e with
  | none => rw [commit_of_stale rfl (by simp [lockOf?_access, own])]; exact .refl b
  | some token =>
    dsimp only
    cases found : (b.storageOf q).lock? token with
    | none => rw [commit_of_stale rfl (by simp [lockOf?_access, own, found])]; exact .refl b
    | some lock =>
      have after : (b.access q (.complete e)).after = (b.storageOf q).unlock token := by
        simp [Access.after, access, own]
      rw [commit_of_silent rfl rfl, after]
      exact .note _ _

theorem quiet_deadLetter (e : Envelope) :
    Quiet x (b.commit (some (q, .deadLetter e))) (b.deadLetter q e).2 := by
  simp only [deadLetter]
  cases own : ownToken? q e with
  | none => rw [commit_of_stale rfl (by simp [lockOf?_access, own])]; exact .refl b
  | some token =>
    dsimp only
    cases found : (b.storageOf q).lock? token with
    | none => rw [commit_of_stale rfl (by simp [lockOf?_access, own, found])]; exact .refl b
    | some lock =>
      have counted : (b.access q (.deadLetter e)).counted = some .dead := by
        simp [counted_deadLetter, lockOf?_access, own, found]
      have after : (b.access q (.deadLetter e)).after = (b.storageOf q).unlock token := by
        simp [Access.after, access, own]
      rw [commit_of_counted counted rfl, after]
      exact .note _ _

theorem quiet_abandon (e : Envelope) :
    Quiet x (b.commit (some (q, .abandon e))) (b.abandon q e).2 := by
  simp only [abandon]
  cases own : ownToken? q e with
  | none => rw [commit_of_stale rfl (by simp [lockOf?_access, own])]; exact .refl b
  | some token =>
    have after : (b.access q (.abandon e)).after =
        ((b.storageOf q).abandon b.time token e.withoutReference).2 := by
      simp [Access.after, access, own]
    cases found : (b.storageOf q).lock? token with
    | none =>
      rw [commit_of_stale rfl (by simp [lockOf?_access, own, found])]
      simp only [Storage.abandon, found]
      exact .refl b
    | some lock =>
      by_cases expired : lock.HasExpired b.time
      · have enqueued : (b.access q (.abandon e)).enqueued = [] := by
          simp [enqueued_abandon, lockOf?_access, own, found, expired]
        rw [commit_of_silent rfl enqueued, after]
        simp only [Storage.abandon, found, expired, ↓reduceIte]
        exact .note _ _
      · have enqueued : (b.access q (.abandon e)).enqueued = [Storage.stamp b.time e] := by
          simp [enqueued_abandon, lockOf?_access, own, found, expired]
        rw [commit_of_visible rfl (by simp [enqueued]), after, enqueued]
        simp only [Storage.abandon, found, expired, ↓reduceIte]
        exact (Quiet.note _ (.abandoned q token e.withoutReference)).trans (.note _ _)

theorem quiet_renew (e : Envelope) :
    Quiet x (b.commit (some (q, .renew e))) (b.renew q e) := by
  simp only [renew]
  cases own : ownToken? q e with
  | none => rw [commit_of_stale rfl (by simp [lockOf?_access, own])]; exact .refl b
  | some token =>
    dsimp only
    cases renewed : (b.storageOf q).renew b.time token with
    | none =>
      have after : (b.access q (.renew e)).after = b.storageOf q := by
        simp [Access.after, access, own, renewed]
      rw [commit_of_idle after rfl rfl]
      exact .note _ _
    | some s =>
      have after : (b.access q (.renew e)).after = s := by
        simp [Access.after, access, own, renewed]
      rw [commit_of_silent rfl rfl, after]
      exact .note _ _

theorem quiet_releaseExpired (c : String) :
    Quiet x (b.commit (some (q, .releaseExpired))) (b.releaseExpired q c).2 := by
  have after : (b.access q .releaseExpired).after = ((b.storageOf q).sweep b.time).2 := rfl
  have enqueued : (b.access q .releaseExpired).enqueued = ((b.storageOf q).sweep b.time).1 :=
    Access.enqueued_releaseExpired ..
  unfold releaseExpired
  cases messages : ((b.storageOf q).sweep b.time).1 with
  | nil =>
    rw [commit_of_silent rfl (enqueued.trans messages), after]
    simp only [messages]
    exact .note _ _
  | cons e rest =>
    rw [commit_of_visible rfl (by simp [enqueued, messages]), after, enqueued, messages]
    simp only [messages]
    exact .note _ _

/-! ## Operations without a call -/

theorem quiet_setOpened (opened : Bool) :
    Quiet x b (b.modifyQueue q fun queue => { queue with opened }) :=
  .modifyQueue b q _ (fun _ => rfl) fun _ _ _ => Iff.rfl

theorem quiet_openQueue (c : String) (connection : Option ConnectionParams) :
    Quiet x b (b.openQueue q c connection) :=
  (quiet_setOpened true).trans (.note _ _)

theorem quiet_endListen (c : String) : Quiet x b (b.endListen q c) := by
  simp only [endListen]
  split
  · exact (Quiet.cancel b _).trans (.note _ _)
  · exact .refl b

theorem quiet_closeQueue (c : String) : Quiet x b (b.closeQueue q c) :=
  ((quiet_setOpened false).trans (quiet_endListen c)).trans (.note _ _)

theorem quiet_peek (c : String) : Quiet x b (b.peek q c).2 := by
  simp only [peek]
  split
  · exact .refl b
  · exact .note b _

theorem quiet_listenScope : Quiet x b (b.listenScope q).1 := by
  simp only [listenScope]
  split
  · exact .refl b
  · split
    · exact (Quiet.openScope b none).trans
        (.modifyQueue _ q _ (fun _ => rfl) fun _ _ _ => Iff.rfl)
    · exact .refl b

theorem tasks_listenScope (b : Broker) (q : QueueId) : (b.listenScope q).1.tasks = b.tasks := by
  simp only [listenScope]
  split
  · rfl
  · split <;> rfl

theorem quiet_listen (c : String) (receiver : Receiver) :
    Quiet (some b.tasks.length) b (b.listen q c receiver).1 := by
  have opened := quiet_listenScope.trans
    (Quiet.openScope (x := some b.tasks.length) (b.listenScope q).1 (b.listenScope q).2)
  refine opened.trans ?_
  have spawned := Quiet.spawn ((b.listenScope q).1.openScope (b.listenScope q).2).1
  rw [show ((b.listenScope q).1.openScope (b.listenScope q).2).1.tasks = b.tasks from
    tasks_listenScope b q] at spawned
  exact spawned _

theorem quiet_listenWith (c : String) (receiver : Receiver) (options : ListenOptions)
    (faults : Faults) (cancelled : Bool) :
    Quiet (some b.tasks.length) b (b.listenWith q c receiver options faults cancelled).1 := by
  refine (Quiet.openScope b none).trans ?_
  simp only [listenWith]
  split
  · refine (Quiet.cancel _ (b.openScope none).2).trans ?_
    have spawned := Quiet.spawn ((b.openScope none).1.cancel (b.openScope none).2)
    rw [tasks_cancel] at spawned
    exact spawned _
  · exact Quiet.spawn (b.openScope none).1 _

theorem quiet_dropReceive (id : TaskId) : Quiet (some id) b (b.dropReceive id) := by
  simp only [dropReceive]
  split
  · exact (Quiet.unawait b _ id).trans (.setTask _ id _)
  · exact .refl b

theorem quiet_stopLoop (id : TaskId) : Quiet x b (b.stopLoop id) := by
  simp only [stopLoop]
  split
  · exact .cancel b _
  · exact .refl b

theorem quiet_releaseLoop (id : TaskId) : Quiet x b (b.releaseLoop id) := by
  simp only [releaseLoop]
  split
  · split
    · exact .setScopes b _
    · exact .refl b
  · exact .refl b

/-! ## Steps of tasks -/

theorem quiet_setReceive (id : TaskId) (r : Receive) (stage : ReceiveStage) :
    Quiet (some id) b (b.setReceive id r stage) :=
  .setTask b id _

theorem quiet_endReceive (id : TaskId) (r : Receive) (message : Option Envelope) :
    Quiet (some id) b (b.endReceive id r message) :=
  (quiet_setReceive id r _).trans (.note _ _)

theorem quiet_stepReceive (id : TaskId) (r : Receive) :
    Quiet (some id) (b.commit (r.call?.map (r.queue, ·))) (b.stepReceive id r) := by
  simp only [stepReceive, Receive.call?]
  cases r.stage with
  | entering => exact (Quiet.register b r.queue id).trans (quiet_setReceive id r _)
  | looking =>
    dsimp only [Option.map]
    cases taken : b.lockNext r.queue r.correlationId r.timeout with
    | none =>
      rw [(commit_take_of_none taken).1]
      exact (Quiet.arm b id _).trans (quiet_setReceive id r _)
    | some result =>
      exact ((quiet_lockNext taken).trans (.deregister _ r.queue id)).trans
        (quiet_endReceive id r _)
  | waiting =>
    dsimp only [Option.map, commit]
    split
    · exact (Quiet.disarm b id).trans (quiet_setReceive id r _)
    · split
      · exact (Quiet.unawait b r.queue id).trans (quiet_endReceive id r _)
      · exact .refl b
  | ended _ | dropped => exact .refl b

theorem quiet_setLoop (id : TaskId) (l : Loop) (stage : LoopStage) :
    Quiet (some id) b (b.setLoop id l stage) :=
  .setTask b id _

theorem quiet_stop (id : TaskId) (l : Loop) : Quiet (some id) b (b.stop id l) :=
  (quiet_setLoop id l _).trans (.note _ _)

theorem quiet_startPause (id : TaskId) (l : Loop) : Quiet (some id) b (b.startPause id l) := by
  simp only [startPause]
  split
  · exact quiet_stop id l
  · split
    · exact quiet_setLoop id l _
    · exact (Quiet.arm b id _).trans (quiet_setLoop id l _)

theorem quiet_afterCall (l : Loop) : Quiet x b (b.afterCall l) := by
  simp only [afterCall]
  split
  · exact .cancel b _
  · exact .refl b

theorem quiet_startCall (id : TaskId) (l : Loop) : Quiet (some id) b (b.startCall id l) := by
  simp only [startCall]
  split
  · exact ((Quiet.note b _).trans (quiet_afterCall _)).trans (quiet_startPause id _)
  · exact quiet_setLoop id _ _

theorem quiet_failPlan (id : TaskId) (l : Loop) (e : Envelope) (reason : String) :
    Quiet (some id) b (b.failPlan id l e reason) :=
  (Quiet.note b _).trans (quiet_startPause id l)

theorem quiet_look (id : TaskId) (l : Loop) (deadline : Nat) :
    Quiet (some id) (b.commit (some (l.queue, .take l.options.receiveTimeout)))
      (b.look id l deadline) := by
  simp only [look]
  cases taken : b.lockNext l.queue l.correlationId l.options.receiveTimeout with
  | none =>
    -- a look that finds nothing is no call at all
    rw [(commit_take_of_none taken).1]
    exact (Quiet.arm b id _).trans (quiet_setLoop id l _)
  | some result =>
    exact (((quiet_lockNext taken).trans (.deregister _ l.queue id)).trans
      (quiet_afterCall l)).trans (quiet_setLoop id l _)

theorem quiet_resumeWait (id : TaskId) (l : Loop) (deadline : Nat) :
    Quiet (some id) b (b.resumeWait id l deadline) := by
  simp only [resumeWait]
  split
  · exact (Quiet.unawait b l.queue id).trans (quiet_stop id l)
  · split
    · exact (Quiet.disarm b id).trans (quiet_setLoop id l _)
    · split
      · exact ((Quiet.unawait b l.queue id).trans (quiet_afterCall l)).trans (quiet_startPause id l)
      · exact .refl b

theorem quiet_dispatch (id : TaskId) (l : Loop) (e : Envelope) :
    Quiet (some id)
      (b.commit (if b.isCancelled l.scope ∧ ¬ l.faults.failsAbandon
        then some (l.queue, .abandon e) else none))
      (b.dispatch id l e) := by
  simp only [dispatch]
  by_cases cancelled : b.isCancelled l.scope
  · simp only [returnMessage]
    by_cases fails : l.faults.failsAbandon
    · simp only [cancelled, fails, ↓reduceIte, not_true_eq_false, and_false, commit]
      exact (Quiet.note b _).trans (quiet_stop id l)
    · simp only [cancelled, fails, ↓reduceIte, not_false_eq_true, and_self, Bool.false_eq_true]
      exact (quiet_abandon e).trans (quiet_stop id l)
  · simp only [cancelled, ↓reduceIte, false_and, commit, Bool.false_eq_true]
    exact (Quiet.note b _).trans (quiet_setLoop id l _)

theorem quiet_perform (id : TaskId) (l : Loop) (e : Envelope) (command : Command)
    (rest : List Command) :
    Quiet (some id) (b.commit (({ l with stage := .handling e (command :: rest) } : Loop).call?
      (b.isCancelled l.scope) |>.map (l.queue, ·))) (b.perform id l e command rest) := by
  cases command with
  | pause d =>
    simp only [perform]
    split
    · exact quiet_setLoop id l _
    · exact (Quiet.arm b id _).trans (quiet_setLoop id l _)
  | complete => exact (quiet_complete e).trans (quiet_setLoop id l _)
  | deadLetter => exact (quiet_deadLetter e).trans (quiet_setLoop id l _)
  | abandon =>
    simp only [perform, Loop.call?]
    split
    · exact quiet_failPlan id l e _
    · exact (quiet_abandon e).trans (quiet_setLoop id l _)
  | renew => exact (quiet_renew e).trans (quiet_setLoop id l _)
  | send message => exact (quiet_send e.correlationId message).trans (quiet_setLoop id l _)
  | endListen => exact (quiet_endListen e.correlationId).trans (quiet_setLoop id l _)
  | close => exact (quiet_closeQueue e.correlationId).trans (quiet_setLoop id l _)
  | replacePayload _ | remember _ | tally _ => exact quiet_setLoop id _ _
  | signal => exact (Quiet.wakeAll b _).trans (quiet_setLoop id _ _)
  | fail reason => exact quiet_failPlan id l e reason

theorem quiet_stepLoop (id : TaskId) (l : Loop) :
    Quiet (some id) (b.commit ((l.call? (b.isCancelled l.scope)).map (l.queue, ·)))
      (b.stepLoop id l) := by
  obtain ⟨queue, correlationId, receiver, options, scope, faults, calls, notebook, stage⟩ := l
  cases stage with
  | starting => exact (Quiet.note b _).trans (quiet_setLoop id _ _)
  | checking =>
    simp only [stepLoop]
    split
    · exact quiet_stop id _
    · exact quiet_startCall id _
  | entering deadline => exact (Quiet.register b queue id).trans (quiet_setLoop id _ _)
  | looking deadline => exact quiet_look id _ deadline
  | waiting deadline => exact quiet_resumeWait id _ deadline
  | taken e =>
    have dispatched := quiet_dispatch (b := b) id
      ⟨queue, correlationId, receiver, options, scope, faults, calls, notebook, .taken e⟩ e
    simp only [Loop.call?]
    rw [apply_ite (Option.map _)]
    exact dispatched
  | handling e plan =>
    cases plan with
    | nil => exact quiet_startPause id _
    | cons command rest => exact quiet_perform id _ e command rest
  | delayed due e plan =>
    simp only [stepLoop]
    split
    · exact quiet_setLoop id _ _
    · exact .refl b
  | pausing due =>
    simp only [stepLoop]
    split
    · exact (Quiet.disarm b id).trans (quiet_stop id _)
    · split
      · exact quiet_setLoop id _ _
      · exact .refl b
  | stopped => exact .refl b

/-- The step of a task is the call that it makes, and quiet changes besides. -/
theorem quiet_stepTask (id : TaskId) :
    Quiet (some id) (b.commit (b.callOfTask id)) (b.stepTask id) := by
  simp only [stepTask, callOfTask]
  cases b.task? id with
  | none => exact .refl b
  | some t =>
    cases t with
    | receive r => exact quiet_stepReceive id r
    | listen l => exact quiet_stepLoop id l

theorem quiet_turn (id : TaskId) :
    Quiet (some id) (b.commit (b.callOfTask id)) (b.turn id) := by
  -- Leaving the line comes before the call, and may as well come after it.
  have left := (Quiet.leaveLine b id).commit (b.callOfTask id)
  have stepped := left.trans (quiet_stepTask (b := { b with ready := b.ready.erase id }) id)
  simp only [turn]
  split
  · exact stepped.trans (.enterLine _ id)
  · exact stepped

theorem task?_turn (b : Broker) (id other : TaskId) :
    (b.turn id).task? other = (stepTask { b with ready := b.ready.erase id } id).task? other := by
  simp only [turn]
  split <;> rfl

/-! ## Requests and other actions -/

end Broker

/-- Whether a request starts a task. -/
def Request.starts : Request → Bool
  | .receive .. | .listen .. | .listenWith .. => true
  | _ => false

namespace Broker

variable {x : Option TaskId} {b : Broker} {q : QueueId}

/-- A request that starts no task is the call that it makes, and quiet changes besides. -/
theorem quiet_ask_of_not_starts {request : Request} (plain : request.starts = false) :
    Quiet x (b.commit (request.call?.map (q, ·))) (b.ask q request) := by
  cases request with
  | openQueue c connection => exact quiet_openQueue c connection
  | closeQueue c => exact quiet_closeQueue c
  | endListen c => exact quiet_endListen c
  | clear c => exact quiet_clear c
  | send c e => exact quiet_send c e
  | peek c => exact quiet_peek c
  | peekBatch c most => exact .note b _
  | complete e => exact quiet_complete e
  | deadLetter e => exact quiet_deadLetter e
  | abandon e => exact quiet_abandon e
  | renew e => exact quiet_renew e
  | releaseExpired c => exact quiet_releaseExpired c
  | receive c timeout => simp [Request.starts] at plain
  | listen c receiver => simp [Request.starts] at plain
  | listenWith c receiver options faults cancelled => simp [Request.starts] at plain

/-- A request is the call that it makes, and quiet changes besides.  It may start a task. -/
theorem quiet_ask (request : Request) :
    Quiet (some b.tasks.length) (b.commit (request.call?.map (q, ·))) (b.ask q request) := by
  cases starts : request.starts with
  | false => exact quiet_ask_of_not_starts starts
  | true =>
    cases request with
    | receive c timeout => exact .spawn b _
    | listen c receiver => exact quiet_listen c receiver
    | listenWith c receiver options faults cancelled =>
      exact quiet_listenWith c receiver options faults cancelled
    | _ => simp [Request.starts] at starts

/-- A new queue has no messages, and nobody waits for any. -/
theorem queue?_addQueue (b : Broker) (settings : Settings) (counters : Option Nat) (q : QueueId) :
    (b.addQueue settings counters).1.queue? q = b.queue? q ∨
      b.queue? q = none ∧ ∃ queue, (b.addQueue settings counters).1.queue? q = some queue ∧
        queue.storage = .empty ∧ queue.waiting = [] := by
  obtain ⟨queue, made, storage, waiting⟩ : ∃ queue,
      (b.addQueue settings counters).1.queues = b.queues ++ [queue] ∧
        queue.storage = .empty ∧ queue.waiting = [] := ⟨_, rfl, rfl, rfl⟩
  simp only [queue?]
  rw [made]
  rcases Nat.lt_trichotomy q b.queues.length with old | rfl | above
  · exact .inl (List.getElem?_append_left old)
  · exact .inr ⟨List.getElem?_eq_none (Nat.le_refl _), queue, List.getElem?_concat_length,
      storage, waiting⟩
  · left
    rw [List.getElem?_eq_none (Nat.le_of_lt above), List.getElem?_eq_none]
    simpa using Nat.succ_le_of_lt above

theorem storageOf_addQueue (b : Broker) (settings : Settings) (counters : Option Nat)
    (q : QueueId) : (b.addQueue settings counters).1.storageOf q = b.storageOf q := by
  rcases b.queue?_addQueue settings counters q with same | ⟨none, queue, new, storage, _⟩
  · simp only [storageOf, same]
  · simp only [storageOf, none, new, storage]

/-- Settings that do not pass the check make no queue. -/
theorem act_newQueueOf (b : Broker) (settings : Settings) (counters : Option Nat) :
    b.act (.newQueueOf settings counters) = b ∨
      b.act (.newQueueOf settings counters) = (b.addQueue settings counters).1 := by
  simp only [act, newQueueOf]
  cases settings.check with
  | error _ => exact .inl rfl
  | ok _ => exact .inr rfl

@[simp] theorem start_notify (b : Broker) (q : QueueId) : (b.notify q).start = b.start := by
  simp only [notify]
  split
  · exact (Quiet.wakeAll (x := none) _ _).start
  · rfl

@[simp] theorem now_notify (b : Broker) (q : QueueId) : (b.notify q).now = b.now := by
  simp only [notify]
  split
  · exact (Quiet.wakeAll (x := none) _ _).now
  · rfl

@[simp] theorem counters_notify (b : Broker) (q : QueueId) :
    (b.notify q).counters = b.counters := by
  simp only [notify]
  split
  · exact (Quiet.wakeAll (x := none) _ _).counters
  · rfl

theorem cores_notify (b : Broker) (q : QueueId) :
    (b.notify q).queues.map Queue.core = b.queues.map Queue.core := by
  simp only [notify]
  split
  · rw [(Quiet.wakeAll (x := none) _ _).queues]
    exact cores_modifyQueue _ _ _ fun _ => rfl
  · rfl

@[simp] theorem start_announce (b : Broker) (i : Nat) : (b.announce i).start = b.start := by
  simp only [announce]
  split
  · rw [count_start, start_notify]
  · rfl

@[simp] theorem now_announce (b : Broker) (i : Nat) : (b.announce i).now = b.now := by
  simp only [announce]
  split
  · rw [count_now, now_notify]
  · rfl

/-- An announcement tells of messages, and leaves them as they are. -/
theorem cores_announce (b : Broker) (i : Nat) :
    (b.announce i).queues.map Queue.core = b.queues.map Queue.core := by
  simp only [announce]
  split
  · rw [count_queues, cores_notify]
  · rfl

theorem cores_advance (b : Broker) (moment : Nat) :
    (b.advance moment).queues.map Queue.core = b.queues.map Queue.core :=
  (Quiet.wakeAll (x := none) _ _).queues

/-- Time may have passed and queues may have been made, but messages are as they were. -/
structure Still (b b' : Broker) : Prop where
  start : b'.start = b.start
  now : b.now ≤ b'.now
  length : b.queues.length ≤ b'.queues.length
  storageOf : ∀ q, b'.storageOf q = b.storageOf q

namespace Still

protected theorem refl (b : Broker) : Still b b :=
  ⟨rfl, Nat.le_refl _, Nat.le_refl _, fun _ => rfl⟩

theorem of_cores {b b' : Broker} (start : b'.start = b.start) (now : b.now ≤ b'.now)
    (cores : b'.queues.map Queue.core = b.queues.map Queue.core) : Still b b' where
  start := start
  now := now
  length := by
    have lengths := congrArg List.length cores
    simp only [List.length_map] at lengths
    exact Nat.le_of_eq lengths.symm
  storageOf := storageOf_of_cores cores

theorem addQueue (b : Broker) (settings : Settings) (counters : Option Nat) :
    Still b (b.addQueue settings counters).1 where
  start := rfl
  now := Nat.le_refl _
  length := by
    have longer : (b.addQueue settings counters).1.queues.length = b.queues.length + 1 :=
      List.length_append
    rw [longer]
    exact Nat.le_succ _
  storageOf := b.storageOf_addQueue settings counters

theorem announce (b : Broker) (i : Nat) : Still b (b.announce i) :=
  of_cores (b.start_announce i) (Nat.le_of_eq (b.now_announce i).symm) (b.cores_announce i)

theorem advance (b : Broker) (moment : Nat) : Still b (b.advance moment) := by
  have now : (b.advance moment).now = max b.now moment := (Quiet.wakeAll (x := none) _ _).now
  refine of_cores (Quiet.wakeAll (x := none) _ _).start ?_ (b.cores_advance moment)
  rw [now]
  exact Nat.le_max_left ..

end Still

/-- What an action can do: a call with quiet changes besides, or something that leaves all
    messages alone. -/
theorem act_cases (b : Broker) (action : Action) :
    (∃ x, Quiet x (b.commit (b.callOf action)) (b.act action)) ∨
      (b.callOf action = none ∧ Still b (b.act action)) := by
  cases action with
  | addCounters => exact .inr ⟨rfl, rfl, Nat.le_refl _, Nat.le_refl _, fun _ => rfl⟩
  | newQueue name counters => exact .inr ⟨rfl, .addQueue b _ counters⟩
  | newQueueOf settings counters =>
    refine .inr ⟨rfl, ?_⟩
    rcases b.act_newQueueOf settings counters with refused | made
    · rw [refused]
      exact .refl b
    · rw [made]
      exact .addQueue b settings counters
  | ask q request =>
    refine .inl ⟨some b.tasks.length, ?_⟩
    simp only [act, callOf]
    split
    · exact quiet_ask request
    · exact .refl b
  | dropReceive id => exact .inl ⟨some id, quiet_dropReceive id⟩
  | stopLoop id => exact .inl ⟨none, quiet_stopLoop id⟩
  | releaseLoop id => exact .inl ⟨none, quiet_releaseLoop id⟩
  | turn id => exact .inl ⟨some id, quiet_turn id⟩
  | announce i => exact .inr ⟨rfl, .announce b i⟩
  | advance moment => exact .inr ⟨rfl, .advance b moment⟩

/-! ## What a queue is set up with -/

end Broker

/-- What a queue is set up with: its settings, and the counters that it counts into. -/
def Queue.setup (queue : Queue) : Settings × Option Nat :=
  (queue.settings, queue.counters)

/-- What the queue that an action makes is set up with, if it makes one. -/
def Action.setup? : Action → Option (Settings × Option Nat)
  | .newQueue name counters => some (.named name.text, counters)
  | .newQueueOf settings counters =>
    match settings.check with
    | .ok _ => some (settings, counters)
    | .error _ => none
  | _ => none

namespace Broker

variable {x : Option TaskId} {b b' : Broker}

theorem setups_of_cores (cores : b'.queues.map Queue.core = b.queues.map Queue.core) :
    b'.queues.map Queue.setup = b.queues.map Queue.setup := by
  have setup : Queue.setup = (fun core => (core.1, core.2.1)) ∘ Queue.core := rfl
  rw [setup, ← List.map_map, ← List.map_map, cores]

/-- A call changes the storage of a queue, and not what it is set up with. -/
theorem setups_commit (b : Broker) (c : Option (QueueId × Call)) :
    (b.commit c).queues.map Queue.setup = b.queues.map Queue.setup := by
  cases c with
  | none => rfl
  | some c =>
    refine List.ext_getElem? fun i => ?_
    simp only [commit, setStorage, modifyQueue, List.getElem?_map, List.getElem?_modify]
    cases b.queues[i]? with
    | none => rfl
    | some queue => by_cases here : c.1 = i <;> simp [here, Queue.setup]

/-- Queues stay as they were set up, and a new one stands behind all others. -/
theorem setups_act (b : Broker) (action : Action) :
    (b.act action).queues.map Queue.setup =
      b.queues.map Queue.setup ++ action.setup?.toList := by
  have called {x : Option TaskId} {c : Option (QueueId × Call)} {b' : Broker}
      (quiet : Quiet x (b.commit c) b') :
      b'.queues.map Queue.setup = b.queues.map Queue.setup ++ [] := by
    rw [setups_of_cores quiet.queues, setups_commit, List.append_nil]
  have added (settings : Settings) (counters : Option Nat) :
      (b.addQueue settings counters).1.queues.map Queue.setup =
        b.queues.map Queue.setup ++ [(settings, counters)] := List.map_append
  cases action with
  | addCounters => exact (List.append_nil _).symm
  | newQueue name counters => exact added _ counters
  | newQueueOf settings counters =>
    simp only [act, newQueueOf, Action.setup?]
    cases settings.check with
    | error _ => exact (List.append_nil _).symm
    | ok _ => exact added settings counters
  | ask q request =>
    simp only [act]
    split
    · exact called (quiet_ask request)
    · exact (List.append_nil _).symm
  | dropReceive id => exact called (c := none) (quiet_dropReceive id)
  | stopLoop id => exact called (c := none) (quiet_stopLoop (x := none) id)
  | releaseLoop id => exact called (c := none) (quiet_releaseLoop (x := none) id)
  | turn id => exact called (quiet_turn id)
  | announce i => exact (setups_of_cores (b.cores_announce i)).trans (List.append_nil _).symm
  | advance moment => exact (setups_of_cores (b.cores_advance moment)).trans (List.append_nil _).symm

theorem length_act (b : Broker) (action : Action) :
    (b.act action).queues.length = b.queues.length + action.setup?.toList.length := by
  have lengths := congrArg List.length (b.setups_act action)
  simpa only [List.length_map, List.length_append] using lengths

/-- Queues are there to stay. -/
theorem length_le_act (b : Broker) (action : Action) :
    b.queues.length ≤ (b.act action).queues.length := by
  rcases b.act_cases action with ⟨x, quiet⟩ | ⟨_, still⟩
  · exact Nat.le_of_eq ((quiet.length.trans (b.length_commit _)).symm)
  · exact still.length

end Broker

end PeekLock
