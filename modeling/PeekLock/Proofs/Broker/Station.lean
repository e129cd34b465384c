import PeekLock.Proofs.Listener.Calm

/-! # Where tasks are

A task works for the queue that it was started at, for as long as there is the task: a
receive goes from stage to stage, a loop besides counts its calls and writes in its
notebook, and neither changes its queue.  As callers have only queues that there are,
no call is ever made at a queue that is still to come (`inside_of_callOf`).
-/

namespace PeekLock

namespace Task

def queue : Task → QueueId
  | .receive r => r.queue
  | .listen l => l.queue

def isNew : Task → Bool
  | .receive r =>
    match r.stage with
    | .entering => true
    | _ => false
  | .listen l =>
    match l.stage with
    | .starting => true
    | _ => false

end Task

namespace Broker

variable {b : Broker} {id : TaskId} {q : QueueId}

def station? (b : Broker) (id : TaskId) : Option QueueId :=
  (b.task? id).map Task.queue

theorem station?_of_loop? {l : Loop} (there : b.loop? id = some l) :
    b.station? id = some l.queue := by
  rw [station?, loop?_eq_some.1 there]
  rfl

/-! ## Other actions -/

def Starts (b : Broker) (action : Action) (id : TaskId) : Prop :=
  ∃ q request, action = .ask q request ∧ q < b.queues.length ∧ request.starts ∧
    id = b.tasks.length

theorem tasks_announce (b : Broker) (i : Nat) : (b.announce i).tasks = b.tasks := by
  simp only [announce]
  split
  · exact (count_tasks ..).trans (notify_same _ _).1
  · rfl

/-- A task comes to be by being started; and but for its turns and its being given up, it stays
    as it is. -/
theorem task?_act {action : Action} (idle : action ≠ .turn id) (held : action ≠ .dropReceive id)
    (old : ¬ b.Starts action id) : (b.act action).task? id = b.task? id := by
  have quiet {x : Option TaskId} {c : Option (QueueId × Call)} {b' : Broker}
      (change : Quiet x (b.commit c) b') (apart : some id ≠ x) : b'.task? id = b.task? id := by
    rw [change.task id apart]
    cases c <;> rfl
  cases action with
  | addCounters | newQueue name counters => rfl
  | newQueueOf settings counters =>
    rcases b.act_newQueueOf settings counters with refused | made
    · rw [refused]
    · rw [made]
      rfl
  | ask q request =>
    simp only [act]
    split
    · rename_i inside
      cases starts : request.starts with
      | false => exact quiet (x := none) (quiet_ask_of_not_starts starts) (Option.some_ne_none id)
      | true =>
        refine quiet (quiet_ask request) fun same => old ?_
        exact ⟨q, request, rfl, inside, starts, Option.some.inj same⟩
    · rfl
  | dropReceive id' =>
    exact quiet (c := none) (quiet_dropReceive id') fun same => held (Option.some.inj same ▸ rfl)
  | stopLoop id' =>
    exact quiet (c := none) (quiet_stopLoop (x := none) id') (Option.some_ne_none id)
  | releaseLoop id' =>
    exact quiet (c := none) (quiet_releaseLoop (x := none) id') (Option.some_ne_none id)
  | turn id' => exact quiet (quiet_turn id') fun same => idle (Option.some.inj same ▸ rfl)
  | announce i => rw [act, task?, tasks_announce, task?]
  | advance moment =>
    rw [act, task?, show (b.advance moment).tasks = b.tasks from tasks_wakeAll .., task?]

theorem not_starts_of_task? {t : Task} (there : b.task? id = some t) (action : Action) :
    ¬ b.Starts action id := by
  rintro ⟨q, request, rfl, _, _, rfl⟩
  simp [task?] at there

/-! ## Turns -/

theorem task?_stepReceive {r : Receive} (there : b.task? id = some (.receive r)) :
    ∃ stage, (b.stepReceive id r).task? id = some (.receive { r with stage := stage }) := by
  have set (b' : Broker) (same : b'.task? id = b.task? id) (stage : ReceiveStage) :
      (b'.setReceive id r stage).task? id = some (.receive { r with stage := stage }) :=
    task?_setTask (same.trans there) _
  simp only [stepReceive]
  cases stage : r.stage with
  | entering => exact ⟨_, set (b.register r.queue id) rfl _⟩
  | looking =>
    dsimp only
    cases taken : b.lockNext r.queue r.correlationId r.timeout with
    | none => exact ⟨_, set (b.arm id r.deadline) rfl _⟩
    | some result =>
      exact ⟨_, set (result.2.deregister r.queue id) (task?_lockNext taken id) (.ended _)⟩
  | waiting =>
    dsimp only
    split
    · exact ⟨_, set (b.disarm id) rfl _⟩
    · split
      · exact ⟨_, set (b.unawait r.queue id) rfl (.ended none)⟩
      · exact ⟨r.stage, there⟩
  | ended _ | dropped => exact ⟨r.stage, there⟩

theorem station?_turn (there : b.station? id = some q) : (b.turn id).station? id = some q := by
  simp only [station?, Option.map_eq_some_iff] at there
  obtain ⟨t, found, rfl⟩ := there
  cases t with
  | receive r =>
    obtain ⟨stage, now⟩ := task?_stepReceive (b := { b with ready := b.ready.erase id }) found
    have here : ({ b with ready := b.ready.erase id } : Broker).task? id = some (.receive r) :=
      found
    simp only [station?, task?_turn, stepTask, here, now]
    rfl
  | listen l =>
    obtain ⟨s?, calm, _⟩ := b.calm_turn id
    -- What a loop was started as it stays, its queue with it.
    have origin : (b.turn id).origin? id = some l.asStarted := by
      rw [calm.origin?, origin?_cancelIf, origin?, loop?_eq_some.2 found]
      rfl
    obtain ⟨l', now, same⟩ := Option.map_eq_some_iff.1 origin
    have own : l'.asStarted.queue = l.asStarted.queue := congrArg Loop.queue same
    rw [station?_of_loop? now]
    exact congrArg some own

theorem station?_dropReceive (there : b.station? id = some q) :
    (b.dropReceive id).station? id = some q := by
  simp only [dropReceive]
  cases found : b.task? id with
  | none => exact there
  | some t =>
    cases t with
    | listen l => exact there
    | receive r =>
      have now := task?_setTask (b := (b.deregister r.queue id).disarm id) found
        (.receive { r with stage := .dropped })
      rw [station?, found] at there
      rw [station?, now]
      exact there

/-- A task stays at its queue. -/
theorem station?_act (there : b.station? id = some q) (action : Action) :
    (b.act action).station? id = some q := by
  by_cases turn : action = .turn id
  · exact turn ▸ station?_turn there
  · by_cases drop : action = .dropReceive id
    · exact drop ▸ station?_dropReceive there
    · obtain ⟨t, found, _⟩ := Option.map_eq_some_iff.1 there
      rw [station?, task?_act turn drop (not_starts_of_task? found action)]
      exact there

/-! ## New tasks -/

/-- The task that a request starts works for the queue that was asked.  If it is a receive, it
    ends when its time has passed from now on. -/
theorem task?_ask {request : Request} (starts : request.starts) :
    ∃ t, (b.ask q request).task? b.tasks.length = some t ∧ t.queue = q ∧ t.isNew ∧
      ∀ w, t.wait? = some w → w.deadline = b.deadlineAfter w.timeout := by
  have loop (b' : Broker) {l : Loop} (same : b'.tasks = b.tasks) (own : l.queue = q)
      (stage : l.stage = .starting) :
      ∃ t, (b'.spawn (.listen l)).1.task? b.tasks.length = some t ∧ t.queue = q ∧ t.isNew ∧
        ∀ w, t.wait? = some w → w.deadline = b.deadlineAfter w.timeout := by
    refine ⟨.listen l, same ▸ task?_spawn b' _, own, by simp [Task.isNew, stage], ?_⟩
    simp [Task.wait?, stage]
  cases request with
  | receive c timeout =>
    refine ⟨_, task?_spawn b _, rfl, rfl, fun w pending => ?_⟩
    obtain rfl := Option.some.inj pending
    rfl
  | listen c receiver =>
    have same : ((b.listenScope q).1.openScope (b.listenScope q).2).1.tasks = b.tasks :=
      tasks_listenScope b q
    exact loop _ same rfl rfl
  | listenWith c receiver options faults cancelled =>
    simp only [ask, listenWith]
    split
    · exact loop _ (tasks_cancel (b.openScope none).1 _) rfl rfl
    · exact loop (b.openScope none).1 rfl rfl rfl
  | _ => simp [Request.starts] at starts

theorem Starts.task? {action : Action} (starts : b.Starts action id) :
    ∃ t, (b.act action).task? id = some t ∧ t.queue < b.queues.length ∧ t.isNew ∧
      ∀ w, t.wait? = some w → w.deadline = b.deadlineAfter w.timeout := by
  obtain ⟨q, request, rfl, inside, starts, rfl⟩ := starts
  obtain ⟨t, there, own, new⟩ := task?_ask (b := b) (q := q) starts
  rw [act, if_pos inside]
  exact ⟨t, there, own ▸ inside, new⟩

theorem inside_of_new (new : b.task? id = none) {action : Action}
    (there : (b.act action).station? id = some q) : q < b.queues.length := by
  by_cases starts : b.Starts action id
  · obtain ⟨t, found, inside, _⟩ := starts.task?
    rw [station?, found] at there
    exact Option.some.inj there ▸ inside
  · -- Neither can a task take a turn that is not there, nor be given up.
    have nobody : ({ b with ready := b.ready.erase id } : Broker).task? id = none := new
    have still : (b.act action).task? id = none := by
      by_cases turn : action = .turn id
      · rw [turn, act, task?_turn, stepTask, nobody]
        exact new
      · by_cases drop : action = .dropReceive id
        · rw [drop, act, dropReceive, new]
          exact new
        · rw [task?_act turn drop starts, new]
    simp [station?, still] at there

/-- Tasks work for queues that there are. -/
theorem inside_of_station? {start : Timestamp} {actions : List Action}
    (there : ((new start).run actions).station? id = some q) :
    q < ((new start).run actions).queues.length := by
  induction actions using List.reverseRecOn with
  | nil => simp [station?, task?, new] at there
  | append_singleton front action ih =>
    simp only [run_append, run_cons, run_nil] at there ⊢
    refine Nat.lt_of_lt_of_le ?_ (length_le_act _ action)
    cases found : ((new start).run front).task? id with
    | none => exact inside_of_new found there
    | some t =>
      have before : ((new start).run front).station? id = some t.queue := by
        rw [station?, found]
        rfl
      have after := station?_act before action
      exact ih (before.trans (after.symm.trans there))

theorem station?_of_callOfTask {call : Call} (calls : b.callOfTask id = some (q, call)) :
    b.station? id = some q := by
  simp only [callOfTask] at calls
  simp only [station?]
  cases found : b.task? id with
  | none => simp [found] at calls
  | some t =>
    cases t <;>
    · simp only [found, Option.map_eq_some_iff, Prod.mk.injEq] at calls
      obtain ⟨_, _, own, _⟩ := calls
      exact congrArg some own

/-- Calls are made at queues that there are. -/
theorem inside_of_callOf {start : Timestamp} {actions : List Action} {action : Action} {call : Call}
    (calls : ((new start).run actions).callOf action = some (q, call)) :
    q < ((new start).run actions).queues.length := by
  cases action with
  | ask q' request =>
    simp only [callOf, Option.ite_none_right_eq_some, Option.map_eq_some_iff, Prod.mk.injEq]
      at calls
    obtain ⟨inside, _, _, rfl, _⟩ := calls
    exact inside
  | turn id => exact inside_of_station? (station?_of_callOfTask calls)
  | _ => simp [callOf] at calls

end Broker

end PeekLock
