import PeekLock.Proofs.Broker.Action

/-! # Quiet changes

Besides making calls at the messages of a queue, tasks and callers do much that
messages have no part in: they note things down, set timers, wake tasks, cancel
scopes, go on to another stage.  `Quiet x` relates two brokers that differ in such
things alone, and in the one task `x` that makes the change.  It is reflexive and
transitive, and each small change of a broker gets one lemma, so that what an
operation leaves alone follows from what it is made of.
-/

namespace PeekLock

/-- What calls at a queue's messages read and write. -/
def Queue.core (queue : Queue) : Settings × Option Nat × Storage :=
  (queue.settings, queue.counters, queue.storage)

/-- Nothing has changed but the task `x` and what messages have no part in.  Tasks other
    than `x` that were to go on are still to go on, are still to be told of messages, and keep
    their timers. -/
structure Quiet (x : Option TaskId) (b b' : Broker) : Prop where
  start : b'.start = b.start
  now : b'.now = b.now
  queues : b'.queues.map Queue.core = b.queues.map Queue.core
  counters : b'.counters = b.counters
  owed : b'.owed = b.owed
  task : ∀ id, some id ≠ x → b'.task? id = b.task? id
  ready : ∀ id, some id ≠ x → id ∈ b.ready → id ∈ b'.ready
  registered : ∀ q id, some id ≠ x → b'.isRegistered q id = b.isRegistered q id
  timer : ∀ t : Timer, some t.task ≠ x → t ∈ b.timers → t ∈ b'.timers

namespace Broker

/-! ## Changes of one queue -/

theorem queue?_modifyQueue (b : Broker) (q q' : QueueId) (f : Queue → Queue) :
    (b.modifyQueue q f).queue? q' =
      (b.queue? q').map fun queue => if q = q' then f queue else queue :=
  List.getElem?_modify ..

theorem length_modifyQueue (b : Broker) (q : QueueId) (f : Queue → Queue) :
    (b.modifyQueue q f).queues.length = b.queues.length :=
  List.length_modify ..

/-- A queue that is not there has no messages. -/
theorem storageOf_of_not_lt {b : Broker} {q : QueueId} (outside : ¬ q < b.queues.length) :
    b.storageOf q = .empty := by
  rw [storageOf, queue?, List.getElem?_eq_none (Nat.not_lt.1 outside)]

theorem storageOf_setStorage (b : Broker) (q q' : QueueId) (s : Storage) :
    (b.setStorage q s).storageOf q' =
      if q' = q ∧ q < b.queues.length then s else b.storageOf q' := by
  simp only [storageOf, setStorage]
  rw [queue?_modifyQueue]
  cases found : b.queue? q' with
  | none =>
    have outside := List.getElem?_eq_none_iff.1 found
    have different : ¬ (q' = q ∧ q < b.queues.length) := fun ⟨same, inside⟩ =>
      Nat.not_lt.2 outside (same ▸ inside)
    rw [if_neg different]
    rfl
  | some queue =>
    obtain ⟨inside, _⟩ := List.getElem?_eq_some_iff.1 found
    by_cases same : q = q'
    · subst same
      simp [inside]
    · simp [same, Ne.symm same]

theorem storageOf_of_cores {b b' : Broker}
    (cores : b'.queues.map Queue.core = b.queues.map Queue.core) (q : QueueId) :
    b'.storageOf q = b.storageOf q := by
  have here := congrArg (·[q]?) cores
  simp only [List.getElem?_map] at here
  simp only [storageOf, queue?]
  revert here
  cases b'.queues[q]? <;> cases b.queues[q]? <;> simp +contextual [Queue.core]

theorem cores_modifyQueue (b : Broker) (q : QueueId) (f : Queue → Queue)
    (core : ∀ queue, (f queue).core = queue.core) :
    (b.modifyQueue q f).queues.map Queue.core = b.queues.map Queue.core := by
  refine List.ext_getElem? fun i => ?_
  simp only [List.getElem?_map, modifyQueue, List.getElem?_modify]
  cases b.queues[i]? with
  | none => rfl
  | some queue =>
    by_cases same : q = i
    · simp [same, core]
    · simp [same]

theorem isRegistered_modifyQueue (b : Broker) (q : QueueId) (f : Queue → Queue) (q' : QueueId)
    (id : TaskId)
    (kept : ∀ queue, b.queue? q = some queue → (id ∈ (f queue).waiting ↔ id ∈ queue.waiting)) :
    (b.modifyQueue q f).isRegistered q' id = b.isRegistered q' id := by
  simp only [isRegistered]
  rw [queue?_modifyQueue]
  cases found : b.queue? q' with
  | none => rfl
  | some queue =>
    by_cases same : q = q'
    · subst same
      simp [List.contains_eq_mem, kept queue found]
    · simp [same]

/-! ## What a count changes -/

@[simp] theorem count_start (b : Broker) (q : QueueId) (event : QueueEvent) (n : Nat) :
    (b.count q event n).start = b.start := by
  unfold count; split <;> (try split) <;> rfl

@[simp] theorem count_now (b : Broker) (q : QueueId) (event : QueueEvent) (n : Nat) :
    (b.count q event n).now = b.now := by
  unfold count; split <;> (try split) <;> rfl

@[simp] theorem count_queues (b : Broker) (q : QueueId) (event : QueueEvent) (n : Nat) :
    (b.count q event n).queues = b.queues := by
  unfold count; split <;> (try split) <;> rfl

@[simp] theorem count_owed (b : Broker) (q : QueueId) (event : QueueEvent) (n : Nat) :
    (b.count q event n).owed = b.owed := by
  unfold count; split <;> (try split) <;> rfl

@[simp] theorem count_tasks (b : Broker) (q : QueueId) (event : QueueEvent) (n : Nat) :
    (b.count q event n).tasks = b.tasks := by
  unfold count; split <;> (try split) <;> rfl

@[simp] theorem count_ready (b : Broker) (q : QueueId) (event : QueueEvent) (n : Nat) :
    (b.count q event n).ready = b.ready := by
  unfold count; split <;> (try split) <;> rfl

@[simp] theorem count_timers (b : Broker) (q : QueueId) (event : QueueEvent) (n : Nat) :
    (b.count q event n).timers = b.timers := by
  unfold count; split <;> (try split) <;> rfl

/-- What is counted depends on the name and the counters of the queue. -/
theorem count_counters (b : Broker) (q : QueueId) (event : QueueEvent) (n : Nat) :
    (b.count q event n).counters =
      match (b.queues.map Queue.core)[q]? with
      | some (settings, some i, _) =>
        b.counters.modify i (·.add (counterName settings.name event.suffix) n)
      | _ => b.counters := by
  simp only [count, queue?]
  rw [List.getElem?_map]
  cases b.queues[q]? with
  | none => rfl
  | some queue =>
    obtain ⟨settings, counters, opened, storage, waiting, scope⟩ := queue
    cases counters <;> rfl

/-! ## What waking leaves alone -/

@[simp] theorem tasks_wake (b : Broker) (id : TaskId) : (b.wake id).tasks = b.tasks := by
  unfold wake; split <;> rfl

@[simp] theorem tasks_wakeAll (b : Broker) (ids : List TaskId) :
    (b.wakeAll ids).tasks = b.tasks := by
  induction ids generalizing b with
  | nil => rfl
  | cons id rest ih => exact (ih (b.wake id)).trans (tasks_wake b id)

@[simp] theorem tasks_cancel (b : Broker) (s : ScopeId) : (b.cancel s).tasks = b.tasks := by
  simp only [cancel]
  split
  · rfl
  · exact tasks_wakeAll ..

/-- A task is what it has been made, if there is one. -/
theorem task?_setTask {b : Broker} {id : TaskId} {t₀ : Task} (there : b.task? id = some t₀)
    (t : Task) : (b.setTask id t).task? id = some t := by
  obtain ⟨inside, _⟩ := List.getElem?_eq_some_iff.1 there
  exact List.getElem?_set_self inside

end Broker

namespace Quiet

variable {x : Option TaskId} {b b₁ b' : Broker}

/-! ## Reading off -/

protected theorem refl (b : Broker) : Quiet x b b :=
  ⟨rfl, rfl, rfl, rfl, rfl, fun _ _ => rfl, fun _ _ member => member, fun _ _ _ => rfl,
    fun _ _ member => member⟩

protected theorem trans (first : Quiet x b b₁) (second : Quiet x b₁ b') : Quiet x b b' where
  start := second.start.trans first.start
  now := second.now.trans first.now
  queues := second.queues.trans first.queues
  counters := second.counters.trans first.counters
  owed := second.owed.trans first.owed
  task id other := (second.task id other).trans (first.task id other)
  ready id other member := second.ready id other (first.ready id other member)
  registered q id other := (second.registered q id other).trans (first.registered q id other)
  timer t other member := second.timer t other (first.timer t other member)

theorem time (h : Quiet x b b') : b'.time = b.time := by
  rw [Broker.time, Broker.time, h.start, h.now]

theorem length (h : Quiet x b b') : b'.queues.length = b.queues.length := by
  simpa only [List.length_map] using congrArg List.length h.queues

theorem storageOf (h : Quiet x b b') (q : QueueId) : b'.storageOf q = b.storageOf q :=
  Broker.storageOf_of_cores h.queues q

theorem access (h : Quiet x b b') (q : QueueId) (call : Call) :
    b'.access q call = b.access q call := by
  rw [Broker.access, Broker.access, h.time, h.storageOf]

/-! ## Small changes -/

/-- A change of what messages have no part in. -/
theorem of_same (start : b'.start = b.start) (now : b'.now = b.now) (queues : b'.queues = b.queues)
    (counters : b'.counters = b.counters) (owed : b'.owed = b.owed)
    (task : ∀ id, some id ≠ x → b'.task? id = b.task? id)
    (ready : ∀ id, some id ≠ x → id ∈ b.ready → id ∈ b'.ready)
    (timer : ∀ t : Timer, some t.task ≠ x → t ∈ b.timers → t ∈ b'.timers) : Quiet x b b' where
  start := start
  now := now
  queues := congrArg _ queues
  counters := counters
  owed := owed
  task := task
  ready := ready
  timer := timer
  registered q id _ := by rw [Broker.isRegistered, Broker.isRegistered, Broker.queue?,
    Broker.queue?, queues]

theorem note (b : Broker) (n : Notice) : Quiet x b (b.note n) :=
  of_same rfl rfl rfl rfl rfl (fun _ _ => rfl) (fun _ _ member => member) fun _ _ member => member

theorem arm (b : Broker) (id : TaskId) (due : Nat) : Quiet x b (b.arm id due) :=
  of_same rfl rfl rfl rfl rfl (fun _ _ => rfl) (fun _ _ member => member) fun _ _ member =>
    List.mem_append_left _ member

theorem disarm (b : Broker) (id : TaskId) : Quiet (some id) b (b.disarm id) :=
  of_same rfl rfl rfl rfl rfl (fun _ _ => rfl) (fun _ _ member => member) fun _ other member =>
    List.mem_filter.2 ⟨member, decide_eq_true fun same => other (congrArg some same)⟩

theorem setScopes (b : Broker) (scopes : List Scope) : Quiet x b { b with scopes } :=
  of_same rfl rfl rfl rfl rfl (fun _ _ => rfl) (fun _ _ member => member) fun _ _ member => member

theorem setTask (b : Broker) (id : TaskId) (t : Task) : Quiet (some id) b (b.setTask id t) :=
  of_same rfl rfl rfl rfl rfl
    (fun _ other => List.getElem?_set_ne fun same => other (congrArg some same.symm))
    (fun _ _ member => member) fun _ _ member => member

theorem leaveLine (b : Broker) (id : TaskId) :
    Quiet (some id) b { b with ready := b.ready.erase id } :=
  of_same rfl rfl rfl rfl rfl (fun _ _ => rfl)
    (fun _ other member => (List.mem_erase_of_ne fun same => other (congrArg some same)).2 member)
    fun _ _ member => member

theorem enterLine (b : Broker) (id : TaskId) : Quiet x b { b with ready := id :: b.ready } :=
  of_same rfl rfl rfl rfl rfl (fun _ _ => rfl) (fun _ _ member => List.mem_cons_of_mem _ member)
    fun _ _ member => member

theorem wake (b : Broker) (id : TaskId) : Quiet x b (b.wake id) := by
  simp only [Broker.wake]
  split
  · exact .refl b
  · exact of_same rfl rfl rfl rfl rfl (fun _ _ => rfl)
      (fun _ _ member => List.mem_append_left _ member) fun _ _ member => member

theorem wakeAll (b : Broker) (ids : List TaskId) : Quiet x b (b.wakeAll ids) := by
  induction ids generalizing b with
  | nil => exact .refl b
  | cons id rest ih => exact (wake b id).trans (ih (b.wake id))

/-- A new task changes no other. -/
theorem spawn (b : Broker) (t : Task) : Quiet (some b.tasks.length) b (b.spawn t).1 := by
  have appended : Quiet (some b.tasks.length) b { b with tasks := b.tasks ++ [t] } := by
    refine of_same rfl rfl rfl rfl rfl (fun id other => ?_) (fun _ _ member => member)
      fun _ _ member => member
    have differs : id ≠ b.tasks.length := fun same => other (congrArg some same)
    -- The list grows by one at the place of the new task.
    by_cases old : id < b.tasks.length
    · exact List.getElem?_append_left old
    · have above : b.tasks.length < id := Nat.lt_of_le_of_ne (Nat.not_lt.1 old) (Ne.symm differs)
      simp only [Broker.task?]
      rw [List.getElem?_eq_none (by simpa using Nat.succ_le_of_lt above),
        List.getElem?_eq_none (Nat.le_of_lt above)]
  exact appended.trans (wake _ _)

/-- A change of one queue that leaves its core and the others that are to be told of
    messages. -/
theorem modifyQueue (b : Broker) (q : QueueId) (f : Queue → Queue)
    (core : ∀ queue, (f queue).core = queue.core)
    (waiting : ∀ queue id, some id ≠ x → (id ∈ (f queue).waiting ↔ id ∈ queue.waiting)) :
    Quiet x b (b.modifyQueue q f) where
  start := rfl
  now := rfl
  queues := Broker.cores_modifyQueue b q f core
  counters := rfl
  owed := rfl
  task _ _ := rfl
  ready _ _ member := member
  timer _ _ member := member
  registered q' id other :=
    Broker.isRegistered_modifyQueue b q f q' id fun queue _ => waiting queue id other

theorem register (b : Broker) (q : QueueId) (id : TaskId) :
    Quiet (some id) b (b.register q id) :=
  modifyQueue b q _ (fun _ => rfl) fun queue other differs => by
    have : other ≠ id := fun same => differs (congrArg some same)
    simp [this]

theorem deregister (b : Broker) (q : QueueId) (id : TaskId) :
    Quiet (some id) b (b.deregister q id) :=
  modifyQueue b q _ (fun _ => rfl) fun queue other differs => by
    have : other ≠ id := fun same => differs (congrArg some same)
    simp [this]

theorem unawait (b : Broker) (q : QueueId) (id : TaskId) : Quiet (some id) b (b.unawait q id) :=
  (deregister b q id).trans (disarm _ id)

theorem cancel (b : Broker) (s : ScopeId) : Quiet x b (b.cancel s) := by
  simp only [Broker.cancel]
  split
  · exact .refl b
  · exact (setScopes b _).trans (wakeAll _ _)

theorem openScope (b : Broker) (parent : Option ScopeId) : Quiet x b (b.openScope parent).1 :=
  setScopes b _

end Quiet

end PeekLock
