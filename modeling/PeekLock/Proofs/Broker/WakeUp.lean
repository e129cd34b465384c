import PeekLock.Proofs.Queue.Delivery

/-! # No wake-up is lost

A receive asks to be told of messages before it looks for one, and whoever makes a
message visible announces it afterwards.  So if a receive waits although there is a
message, the announcement is still to come; once all tasks are blocked and all
announcements made, nobody waits at a queue that has a message.

The invariant is `Broker.Attended`, and it is stated for one task so that a step has
to be examined only for the task that takes it: for all others steps are a call and
quiet changes.  Its second half does not follow from the first: a task may stand in
line for a reason of its own, a timer for one, and leave the line again without
having looked.
-/

namespace PeekLock

namespace Task

/-- The queue at which a task is inside a receive: one of its own, or that of a loop. -/
def receiving? : Task → Option QueueId
  | .receive r =>
    match r.stage with
    | .entering | .looking | .waiting => some r.queue
    | .ended _ | .dropped => none
  | .listen l =>
    match l.stage with
    | .entering _ | .looking _ | .waiting _ => some l.queue
    | _ => none

/-- The queue at which a task waits for a message, after it has looked for one in vain. -/
def awaiting? : Task → Option QueueId
  | .receive r =>
    match r.stage with
    | .waiting => some r.queue
    | _ => none
  | .listen l =>
    match l.stage with
    | .waiting _ => some l.queue
    | _ => none

end Task

/-- A receive that is not over. -/
structure Wait where
  queue : QueueId
  /-- For how long it was to wait, and for how long it locks the message that it is handed. -/
  timeout : Duration
  /-- When it ends without a message. -/
  deadline : Nat
deriving DecidableEq, Repr

/-- The receive that a task is inside of: its own, or a call of a loop. -/
def Task.wait? : Task → Option Wait
  | .receive r =>
    match r.stage with
    | .entering | .looking | .waiting => some ⟨r.queue, r.timeout, r.deadline⟩
    | .ended _ | .dropped => none
  | .listen l =>
    match l.stage with
    | .entering deadline | .looking deadline | .waiting deadline =>
      some ⟨l.queue, l.options.receiveTimeout, deadline⟩
    | _ => none

theorem Task.receiving?_eq (t : Task) : t.receiving? = t.wait?.map (·.queue) := by
  cases t with
  | receive r => cases stage : r.stage <;> simp [Task.receiving?, Task.wait?, stage]
  | listen l => cases stage : l.stage <;> simp [Task.receiving?, Task.wait?, stage]

namespace Broker

def receiving? (b : Broker) (id : TaskId) : Option QueueId :=
  (b.task? id).bind Task.receiving?

def awaiting? (b : Broker) (id : TaskId) : Option QueueId :=
  (b.task? id).bind Task.awaiting?

def wait? (b : Broker) (id : TaskId) : Option Wait :=
  (b.task? id).bind Task.wait?

theorem receiving?_eq (b : Broker) (id : TaskId) :
    b.receiving? id = (b.wait? id).map (·.queue) := by
  simp only [receiving?, wait?]
  cases b.task? id with
  | none => rfl
  | some t => exact t.receiving?_eq

/-- Who is in no receive waits for no message. -/
theorem awaiting?_of_over {b : Broker} {id : TaskId} (ended : b.wait? id = none) :
    b.awaiting? id = none := by
  simp only [wait?] at ended
  simp only [awaiting?]
  cases found : b.task? id with
  | none => rfl
  | some t =>
    rw [found] at ended
    cases t with
    | receive r => cases stage : r.stage <;> simp_all [Task.wait?, Task.awaiting?]
    | listen l => cases stage : l.stage <;> simp_all [Task.wait?, Task.awaiting?]

/-- A task inside a receive can go on, or else it waits and is told of messages; and if it
    waits and is told of messages, there are none that have been announced already. -/
structure Attended (b : Broker) (id : TaskId) : Prop where
  goesOn : ∀ q, b.receiving? id = some q →
    id ∈ b.ready ∨ (b.awaiting? id = some q ∧ b.isRegistered q id)
  told : ∀ q, b.awaiting? id = some q → b.isRegistered q id →
    (b.storageOf q).visible = [] ∨ ∃ a ∈ b.owed, a.queue = q

/-- A task that is in no receive needs nothing. -/
theorem attended_of_not_receiving {b : Broker} {id : TaskId} (receiving : b.receiving? id = none)
    (awaiting : b.awaiting? id = none) : b.Attended id where
  goesOn q inside := by simp [receiving] at inside
  told q waits := by simp [awaiting] at waits

namespace Attended

variable {b b' : Broker} {id : TaskId}

/-! ## Other tasks -/

theorem commit (h : b.Attended id) (sound : ∀ q, (b.storageOf q).Sound q)
    (c : Option (QueueId × Call)) : (b.commit c).Attended id := by
  cases c with
  | none => exact h
  | some c =>
    obtain ⟨q', call⟩ := c
    have registered (q : QueueId) :
        (b.commit (some (q', call))).isRegistered q id = b.isRegistered q id :=
      isRegistered_setStorage ..
    constructor
    case goesOn =>
      intro q inside
      rw [registered]
      exact h.goesOn q inside
    case told =>
      intro q waits isRegistered
      rw [registered] at isRegistered
      rcases h.told q waits isRegistered with empty | ⟨a, owed, here⟩
      · rw [storageOf_commit]
        cases made : b.accessAt q (some (q', call)) with
        | none => exact .inl empty
        | some a =>
          obtain ⟨_, same, rfl⟩ := accessAt_eq_some made
          obtain ⟨rfl, rfl⟩ := Prod.mk.inj (Option.some.inj same)
          -- What is visible now has become so just now, and then an announcement is owed.
          have fresh := Access.visible_after_sublist (a := b.access q' call) (sound q')
          have nothing : (b.access q' call).storage.visible = [] := empty
          rw [nothing, List.nil_append] at fresh
          by_cases silent : (b.access q' call).enqueued = []
          · rw [silent] at fresh
            exact .inl (List.sublist_nil.1 fresh)
          · refine .inr ⟨⟨q', (b.access q' call).enqueued.length⟩, ?_, rfl⟩
            simp [Broker.commit, silent]
      · exact .inr ⟨a, List.mem_append_left _ owed, here⟩

/-- Quiet changes leave every task attended that does not make them. -/
theorem quiet {x : Option TaskId} (h : b.Attended id) (quiet : Quiet x b b') (other : some id ≠ x) :
    b'.Attended id := by
  have task := quiet.task id other
  constructor
  case goesOn =>
    intro q inside
    rw [receiving?, task] at inside
    rw [awaiting?, task, quiet.registered q id other]
    exact (h.goesOn q inside).imp_left (quiet.ready id other)
  case told =>
    intro q waits registered
    rw [awaiting?, task] at waits
    rw [quiet.registered q id other] at registered
    rw [quiet.storageOf, quiet.owed]
    exact h.told q waits registered

end Attended

/-! ## The task that takes a step -/

section Steps

variable {b : Broker} {id : TaskId} {q : QueueId}

theorem awaiting?_setTask {t : Task} (none : t.awaiting? = none) :
    (b.setTask id t).awaiting? id = .none := by
  simp only [awaiting?, task?, setTask]
  rw [List.getElem?_set_self']
  cases b.tasks[id]? <;> simp [none]

theorem wait?_setTask {t : Task} (ended : t.wait? = none) : (b.setTask id t).wait? id = none := by
  simp only [wait?, task?, setTask]
  rw [List.getElem?_set_self']
  cases b.tasks[id]? <;> simp [ended]

theorem wait?_stop (l : Loop) : (b.stop id l).wait? id = none :=
  wait?_setTask (b := b) rfl

theorem wait?_startPause (l : Loop) : (b.startPause id l).wait? id = none := by
  simp only [startPause]
  split
  · exact wait?_stop l
  · split <;> exact wait?_setTask rfl

theorem awaiting?_startCall (l : Loop) : (b.startCall id l).awaiting? id = none := by
  simp only [startCall]
  split
  · exact awaiting?_of_over (wait?_startPause _)
  · exact awaiting?_setTask rfl

theorem wait?_dispatch (l : Loop) (e : Envelope) : (b.dispatch id l e).wait? id = none := by
  simp only [dispatch]
  split
  · exact wait?_stop l
  · exact wait?_setTask rfl

theorem wait?_perform (l : Loop) (e : Envelope) (command : Command) (rest : List Command) :
    (b.perform id l e command rest).wait? id = none := by
  cases command with
  | pause d =>
    simp only [perform]
    split <;> exact wait?_setTask rfl
  | abandon =>
    simp only [perform]
    split
    · exact wait?_startPause (b := b.note _) l
    · exact wait?_setTask rfl
  | fail reason => exact wait?_startPause (b := b.note _) l
  | _ => exact wait?_setTask rfl

/-- A step of a task that has it wait for a message only if there is none, or that changes
    nothing. -/
def WaitsInVain (b b' : Broker) (id : TaskId) : Prop :=
  b' = b ∨ ∀ q, b'.awaiting? id = some q → (b'.storageOf q).visible = []

theorem WaitsInVain.of_none {b' : Broker} (none : b'.awaiting? id = none) :
    WaitsInVain b b' id :=
  .inr fun q waits => by simp [none] at waits

theorem WaitsInVain.of_over {b' : Broker} (ended : b'.wait? id = none) : WaitsInVain b b' id :=
  .of_none (awaiting?_of_over ended)

theorem waitsInVain_stepReceive {r : Receive} (there : b.task? id = some (.receive r)) :
    WaitsInVain b (b.stepReceive id r) id := by
  simp only [stepReceive]
  cases r.stage with
  | entering => exact .of_none (awaiting?_setTask rfl)
  | looking =>
    dsimp only
    cases taken : b.lockNext r.queue r.correlationId r.timeout with
    | some result => exact .of_none (awaiting?_setTask rfl)
    | none =>
      have now : ((b.arm id r.deadline).setReceive id r .waiting).task? id =
          some (.receive { r with stage := .waiting }) := task?_setTask there _
      refine .inr fun q waits => ?_
      simp only [awaiting?, now, Option.bind_some, Task.awaiting?, Option.some.injEq] at waits
      rw [← waits]
      exact (commit_take_of_none taken).2
  | waiting =>
    -- told of a message, out of time, or woken for nothing
    dsimp only
    split
    · exact .of_none (awaiting?_setTask rfl)
    · split
      · exact .of_none (awaiting?_setTask rfl)
      · exact .inl rfl
  | ended _ | dropped => exact .inl rfl

theorem waitsInVain_look {l : Loop} (there : b.task? id = some (.listen l)) (deadline : Nat) :
    WaitsInVain b (b.look id l deadline) id := by
  simp only [look]
  cases taken : b.lockNext l.queue l.correlationId l.options.receiveTimeout with
  | some result => exact .of_none (awaiting?_setTask rfl)
  | none =>
    have now : ((b.arm id deadline).setLoop id l (.waiting deadline)).task? id =
        some (.listen { l with stage := .waiting deadline }) := task?_setTask there _
    refine .inr fun q waits => ?_
    simp only [awaiting?, now, Option.bind_some, Task.awaiting?, Option.some.injEq] at waits
    rw [← waits]
    exact (commit_take_of_none taken).2

theorem waitsInVain_resumeWait (l : Loop) (deadline : Nat) :
    WaitsInVain b (b.resumeWait id l deadline) id := by
  simp only [resumeWait]
  split
  · exact .of_over (wait?_stop l)
  · split
    · exact .of_none (awaiting?_setTask rfl)
    · split
      · exact .of_over (wait?_startPause l)
      · exact .inl rfl

theorem waitsInVain_stepLoop {l : Loop} (there : b.task? id = some (.listen l)) :
    WaitsInVain b (b.stepLoop id l) id := by
  simp only [stepLoop]
  cases l.stage with
  | starting => exact .of_none (awaiting?_setTask rfl)
  | checking =>
    dsimp only
    split
    · exact .of_over (wait?_stop l)
    · exact .of_none (awaiting?_startCall l)
  | entering deadline => exact .of_none (awaiting?_setTask rfl)
  | looking deadline => exact waitsInVain_look there deadline
  | waiting deadline => exact waitsInVain_resumeWait l deadline
  | taken e => exact .of_over (wait?_dispatch l e)
  | handling e plan =>
    cases plan with
    | nil => exact .of_over (wait?_startPause l)
    | cons command rest => exact .of_over (wait?_perform l e command rest)
  | delayed due e plan =>
    dsimp only
    split
    · exact .of_none (awaiting?_setTask rfl)
    · exact .inl rfl
  | pausing due =>
    dsimp only
    split
    · exact .of_over (wait?_stop l)
    · split
      · exact .of_none (awaiting?_setTask rfl)
      · exact .inl rfl
  | stopped => exact .inl rfl

theorem waitsInVain_stepTask (b : Broker) (id : TaskId) : WaitsInVain b (b.stepTask id) id := by
  simp only [stepTask]
  cases there : b.task? id with
  | none => exact .inl rfl
  | some t =>
    cases t with
    | receive r => exact waitsInVain_stepReceive there
    | listen l => exact waitsInVain_stepLoop there

/-- A task inside a receive that cannot go on by itself waits, and is told of messages. -/
theorem awaiting?_of_not_isActive (inside : b.receiving? id = some q)
    (passive : b.isActive id = false) : b.awaiting? id = some q ∧ b.isRegistered q id := by
  simp only [receiving?] at inside
  simp only [isActive] at passive
  simp only [awaiting?]
  cases there : b.task? id with
  | none => simp [there] at inside
  | some t =>
    rw [there] at inside passive
    cases t with
    | receive r =>
      cases stage : r.stage with
      | waiting =>
        simp only [stage, Option.bind_some, Task.receiving?, Task.awaiting?, Option.some.injEq,
          Bool.or_eq_false_iff, Bool.not_eq_false'] at inside passive ⊢
        subst inside
        exact ⟨rfl, passive.1⟩
      | _ => simp [stage, Task.receiving?] at inside passive
    | listen l =>
      cases stage : l.stage with
      | waiting deadline =>
        simp only [stage, Option.bind_some, Task.receiving?, Task.awaiting?, Option.some.injEq,
          Bool.or_eq_false_iff, Bool.not_eq_false'] at inside passive ⊢
        subst inside
        exact ⟨rfl, passive.1.2⟩
      | _ => simp [stage, Task.receiving?] at inside passive

theorem Attended.turn (h : b.Attended id) : (b.turn id).Attended id := by
  have told : ∀ q, (stepTask { b with ready := b.ready.erase id } id).awaiting? id = some q →
      (stepTask { b with ready := b.ready.erase id } id).isRegistered q id →
      ((stepTask { b with ready := b.ready.erase id } id).storageOf q).visible = [] ∨
        ∃ a ∈ (stepTask { b with ready := b.ready.erase id } id).owed, a.queue = q := by
    intro q waits registered
    rcases waitsInVain_stepTask { b with ready := b.ready.erase id } id with same | vain
    · rw [same] at waits registered ⊢
      exact h.told q waits registered
    · exact .inl (vain q waits)
  simp only [Broker.turn]
  split
  · exact ⟨fun q _ => .inl (List.mem_cons_self ..), told⟩
  · rename_i passive
    have waits {q : QueueId}
        (inside : (stepTask { b with ready := b.ready.erase id } id).receiving? id = some q) :=
      awaiting?_of_not_isActive inside (Bool.eq_false_iff.2 passive)
    exact ⟨fun q inside => .inr (waits inside), told⟩

end Steps

/-! ## Other actions -/

section Actions

variable {b : Broker} {id : TaskId}

theorem mem_ready_wake (b : Broker) (id : TaskId) : id ∈ (b.wake id).ready := by
  simp only [wake]
  split
  · assumption
  · exact List.mem_append_right _ (List.mem_singleton_self id)

theorem mem_ready_wakeAll {ids : List TaskId} (member : id ∈ ids) (b : Broker) :
    id ∈ (b.wakeAll ids).ready := by
  induction ids generalizing b with
  | nil => exact (List.not_mem_nil member).elim
  | cons first rest ih =>
    rcases List.mem_cons.1 member with rfl | later
    · have kept := (Quiet.wakeAll (x := none) (b.wake id) rest).ready
      exact kept id (Option.some_ne_none id) (mem_ready_wake b id)
    · exact ih later (b.wake first)

theorem task?_spawn (b : Broker) (t : Task) : (b.spawn t).1.task? b.tasks.length = some t := by
  have appended : (b.spawn t).1.tasks = b.tasks ++ [t] := tasks_wake ..
  rw [task?, appended]
  exact List.getElem?_concat_length

/-- A new task is attended: it stands in line. -/
theorem attended_spawn (b : Broker) {t : Task} (fresh : t.awaiting? = none) :
    (b.spawn t).1.Attended b.tasks.length where
  goesOn _ _ := .inl (mem_ready_wake _ _)
  told q waits := by simp [awaiting?, task?_spawn, fresh] at waits

/-- So is one that has been given up. -/
theorem Attended.dropReceive (h : b.Attended id) : (b.dropReceive id).Attended id := by
  simp only [Broker.dropReceive]
  cases there : b.task? id with
  | none => exact h
  | some t =>
    cases t with
    | listen l => exact h
    | receive r =>
      have now := task?_setTask (b := (b.deregister r.queue id).disarm id) there
        (.receive { r with stage := .dropped })
      refine attended_of_not_receiving ?_ ?_
      · simp only [receiving?, now, Option.bind_some, Task.receiving?]
      · simp only [awaiting?, now, Option.bind_some, Task.awaiting?]

theorem Attended.start {b' : Broker} (h : b.Attended id)
    (quiet : Quiet (some b.tasks.length) b b') (new : b'.Attended b.tasks.length) :
    b'.Attended id := by
  by_cases same : id = b.tasks.length
  · rw [same]
    exact new
  · exact h.quiet quiet fun equal => same (Option.some.inj equal)

/-- A request leaves every task attended, and so the one that it may start. -/
theorem Attended.ask (h : b.Attended id) (sound : ∀ q, (b.storageOf q).Sound q) (q : QueueId)
    (request : Request) : (b.ask q request).Attended id := by
  cases starts : request.starts with
  | false =>
    exact (h.commit sound _).quiet (quiet_ask_of_not_starts starts) (Option.some_ne_none id)
  | true =>
    cases request with
    | receive c timeout => exact h.start (.spawn b _) (attended_spawn b rfl)
    | listen c receiver =>
      refine h.start (quiet_listen c receiver) ?_
      have length : ((b.listenScope q).1.openScope (b.listenScope q).2).1.tasks.length =
          b.tasks.length := congrArg List.length (tasks_listenScope b q)
      rw [← length]
      exact attended_spawn _ rfl
    | listenWith c receiver options faults cancelled =>
      refine h.start (quiet_listenWith c receiver options faults cancelled) ?_
      simp only [Broker.ask, listenWith]
      split
      · have length : ((b.openScope none).1.cancel (b.openScope none).2).tasks.length =
            b.tasks.length := congrArg List.length (tasks_cancel ..)
        rw [← length]
        exact attended_spawn _ rfl
      · exact attended_spawn (b.openScope none).1 rfl
    | _ => simp [Request.starts] at starts

theorem isRegistered_addQueue (b : Broker) (settings : Settings) (counters : Option Nat)
    (q : QueueId) (id : TaskId) :
    (b.addQueue settings counters).1.isRegistered q id = b.isRegistered q id := by
  rcases b.queue?_addQueue settings counters q with same | ⟨none, queue, new, _, waiting⟩
  · simp only [isRegistered, same]
  · simp [isRegistered, none, new, waiting]

theorem Attended.addQueue (h : b.Attended id) (settings : Settings) (counters : Option Nat) :
    (b.addQueue settings counters).1.Attended id where
  goesOn q inside := by
    rw [isRegistered_addQueue]
    exact h.goesOn q inside
  told q waits registered := by
    rw [isRegistered_addQueue] at registered
    rw [storageOf_addQueue]
    exact h.told q waits registered

/-! ## Announcements -/

theorem isRegistered_notify (b : Broker) (q q' : QueueId) (id : TaskId) :
    (b.notify q).isRegistered q' id ↔ b.isRegistered q' id ∧ q' ≠ q := by
  simp only [notify]
  cases found : b.queue? q with
  | none =>
    have nobody : b.isRegistered q id = false := by simp [isRegistered, found]
    refine ⟨fun registered => ⟨registered, fun same => ?_⟩, And.left⟩
    simp [← same, registered] at nobody
  | some queue =>
    simp only [(Quiet.wakeAll (x := none) _ _).registered q' id (Option.some_ne_none id)]
    simp only [isRegistered]
    rw [queue?_modifyQueue]
    by_cases same : q = q'
    · subst same
      simp [found]
    · cases b.queue? q' <;> simp [same, Ne.symm same]

theorem mem_ready_notify {q : QueueId} (registered : b.isRegistered q id) :
    id ∈ (b.notify q).ready := by
  simp only [isRegistered] at registered
  simp only [notify]
  cases found : b.queue? q with
  | none => simp [found] at registered
  | some queue =>
    rw [found] at registered
    exact mem_ready_wakeAll (List.contains_iff_mem.1 registered) _

theorem notify_same (b : Broker) (q : QueueId) :
    (b.notify q).tasks = b.tasks ∧ (b.notify q).owed = b.owed ∧
      ∀ id ∈ b.ready, id ∈ (b.notify q).ready := by
  simp only [notify]
  cases b.queue? q with
  | none => exact ⟨rfl, rfl, fun _ member => member⟩
  | some queue =>
    have quiet := Quiet.wakeAll (x := none)
      (b.modifyQueue q fun queue => { queue with waiting := [] }) queue.waiting
    exact ⟨tasks_wakeAll .., quiet.owed, fun id => quiet.ready id (Option.some_ne_none id)⟩

theorem Attended.count (h : b.Attended id) (q : QueueId) (event : QueueEvent) (n : Nat) :
    (b.count q event n).Attended id := by
  constructor
  case goesOn =>
    simp only [receiving?, awaiting?, task?, isRegistered, queue?, count_tasks, count_ready,
      count_queues]
    exact h.goesOn
  case told =>
    simp only [awaiting?, task?, isRegistered, storageOf, queue?, count_tasks, count_owed,
      count_queues]
    exact h.told

/-- An announcement wakes whoever is to be told of it, and has them look again. -/
theorem Attended.announce (h : b.Attended id) (i : Nat) : (b.announce i).Attended id := by
  simp only [Broker.announce]
  cases found : b.owed[i]? with
  | none => exact h
  | some a =>
    obtain ⟨tasks, owed, ready⟩ := notify_same { b with owed := b.owed.eraseIdx i } a.queue
    refine Attended.count ?_ ..
    constructor
    case goesOn =>
      intro q inside
      rw [receiving?, task?, tasks] at inside
      rw [awaiting?, task?, tasks, isRegistered_notify]
      rcases h.goesOn q inside with inLine | ⟨waits, registered⟩
      · -- Standing in line it is still there, whatever the announcement is about.
        exact .inl (ready id inLine)
      · by_cases here : q = a.queue
        · subst here
          exact .inl (mem_ready_notify registered)
        · exact .inr ⟨waits, registered, here⟩
    case told =>
      intro q waits registered
      rw [awaiting?, task?, tasks] at waits
      obtain ⟨registered, elsewhere⟩ := (isRegistered_notify ..).1 registered
      rw [storageOf_of_cores (cores_notify ..), owed]
      rcases h.told q waits registered with empty | ⟨a', member, here⟩
      · exact .inl empty
      · -- The announcement that has been made was for another queue.
        obtain ⟨j, found'⟩ := List.getElem?_of_mem member
        have other : j ≠ i := by
          rintro rfl
          obtain rfl := Option.some.inj (found.symm.trans found')
          exact elsewhere here.symm
        exact .inr ⟨a', List.mem_eraseIdx_iff_getElem?.2 ⟨j, other, found'⟩, here⟩

theorem Attended.advance (h : b.Attended id) (moment : Nat) : (b.advance moment).Attended id := by
  have moved : ({ b with
      now := max b.now moment
      timers := b.timers.filter (max b.now moment < ·.due) } : Broker).Attended id :=
    ⟨h.goesOn, h.told⟩
  exact moved.quiet (.wakeAll (x := none) _ _) (Option.some_ne_none id)

/-- Whatever happens next leaves every task attended. -/
theorem Attended.act (h : b.Attended id) (sound : ∀ q, (b.storageOf q).Sound q) (action : Action) :
    (b.act action).Attended id := by
  cases action with
  | addCounters => exact ⟨h.goesOn, h.told⟩
  | newQueue name counters => exact h.addQueue _ counters
  | newQueueOf settings counters =>
    rcases b.act_newQueueOf settings counters with refused | made
    · rw [refused]
      exact h
    · rw [made]
      exact h.addQueue settings counters
  | ask q request =>
    simp only [Broker.act]
    split
    · exact h.ask sound q request
    · exact h
  | dropReceive other =>
    by_cases same : id = other
    · exact same ▸ (same ▸ h : b.Attended other).dropReceive
    · exact h.quiet (quiet_dropReceive other) fun equal => same (Option.some.inj equal)
  | stopLoop other =>
    exact h.quiet (quiet_stopLoop (x := none) other) (Option.some_ne_none id)
  | releaseLoop other =>
    exact h.quiet (quiet_releaseLoop (x := none) other) (Option.some_ne_none id)
  | turn other =>
    by_cases same : id = other
    · exact same ▸ (same ▸ h : b.Attended other).turn
    · exact (h.commit sound _).quiet (quiet_turn other) fun equal => same (Option.some.inj equal)
  | announce i => exact h.announce i
  | advance moment => exact h.advance moment

end Actions

theorem attended_run (start : Timestamp) (actions : List Action) (id : TaskId) :
    ((new start).run actions).Attended id := by
  induction actions using List.reverseRecOn with
  | nil => exact attended_of_not_receiving rfl rfl
  | append_singleton front action ih =>
    rw [run_append, run_cons, run_nil]
    exact ih.act (fun q => sound_run start q front) action

/-- Where all tasks are blocked, nobody who is attended waits at a queue that has a message. -/
theorem Attended.receiving?_ne {b : Broker} {id : TaskId} {q : QueueId} (h : b.Attended id)
    (blocked : b.isBlocked) (message : (b.storageOf q).visible ≠ []) :
    b.receiving? id ≠ some q := by
  intro inside
  simp only [isBlocked, Bool.and_eq_true, List.isEmpty_iff] at blocked
  obtain ⟨nothingOwed, nobodyReady⟩ := blocked
  -- It cannot go on, so it waits; and a message without word of it would still be announced.
  rcases h.goesOn q inside with inLine | ⟨waits, registered⟩
  · rw [nobodyReady] at inLine
    exact List.not_mem_nil inLine
  · rcases h.told q waits registered with empty | ⟨a, owed, _⟩
    · exact message empty
    · rw [nothingOwed] at owed
      exact List.not_mem_nil owed

/-- Once all tasks are blocked, no receive waits at a queue that has a message: neither one
    that a caller has started, nor that of a loop. -/
theorem no_receive_waits_beside_message {start : Timestamp} {actions : List Action} {q : QueueId}
    {id : TaskId} (blocked : ((new start).run actions).isBlocked)
    (message : (((new start).run actions).storageOf q).visible ≠ []) :
    ((new start).run actions).receiving? id ≠ some q :=
  (attended_run start actions id).receiving?_ne blocked message

/-- A receive waits at one queue while a message is sent to another and announced. -/
theorem no_receive_waits_beside_message_elsewhere :
    let actions : List Action := [.newQueue ⟨"jobs"⟩ none, .newQueue ⟨"mail"⟩ none,
      .ask 1 (.receive "" (.ofMillis 1000)), .turn 0, .turn 0, .ask 0 (.send "" .empty),
      .announce 0]
    ((new .epoch).run actions).isBlocked ∧ (((new .epoch).run actions).storageOf 0).visible ≠ [] ∧
      ((new .epoch).run actions).receiving? 0 = some 1 ∧
      ((new .epoch).run actions).receiving? 0 ≠ some 0 :=
  ⟨by decide, by decide, by decide, no_receive_waits_beside_message (by decide) (by decide)⟩

end Broker

end PeekLock
