import PeekLock.Proofs.Broker.WakeUp

/-! # Calm changes

A loop ends with its scope, so what matters to it of all that happens is which scopes
are cancelled.  `Calm x` is to scopes what `Quiet x` is to messages: it relates two
brokers that have the same scopes, queues with the same scopes and the same loops,
though the task `x` may have gone on.  What an action means to scopes is told once, by
`calm_act`: it cancels one scope or none, and is calm besides.  Only the few actions
that make scopes or give them up are left out, to be looked at one by one.
-/

namespace PeekLock

def Task.loop? : Task → Option Loop
  | .listen l => some l
  | .receive _ => none

/-- A loop as it was when it was started: with all that never changes. -/
def Loop.asStarted (l : Loop) : Loop :=
  { l with calls := 0, notebook := {}, stage := .starting }

namespace Action

/-- Whether an action makes scopes, or gives one up. -/
def arranges : Action → Bool
  | .newQueue .. | .newQueueOf .. | .ask _ (.listen ..) | .ask _ (.listenWith ..)
  | .releaseLoop _ => true
  | _ => false

/-- The task that takes a step. -/
def actor? : Action → Option TaskId
  | .turn id => some id
  | _ => none

end Action

/-- Whether the next thing that the receiver of a loop does ends the listening at the queue. -/
def Loop.endsListening (l : Loop) : Bool :=
  match l.stage with
  | .handling _ (.endListen :: _) | .handling _ (.close :: _) => true
  | _ => false

namespace Broker

def loop? (b : Broker) (id : TaskId) : Option Loop :=
  (b.task? id).bind Task.loop?

def scopeOf? (b : Broker) (q : QueueId) : Option ScopeId :=
  (b.queue? q).map (·.scope)

def parent? (b : Broker) (s : ScopeId) : Option ScopeId :=
  (b.scopes[s]?).bind (·.parent)

/-- A loop as it was when it was started. -/
def origin? (b : Broker) (id : TaskId) : Option Loop :=
  (b.loop? id).map Loop.asStarted

/-- All scopes, the present scope of each queue, and the loops as they were started. -/
def listening (b : Broker) : List Scope × List ScopeId × (TaskId → Option Loop) :=
  (b.scopes, b.queues.map (·.scope), b.origin?)

theorem loop?_eq_some {b : Broker} {id : TaskId} {l : Loop} :
    b.loop? id = some l ↔ b.task? id = some (.listen l) := by
  simp only [loop?, Option.bind_eq_some_iff]
  constructor
  · rintro ⟨t, there, loop⟩
    cases t with
    | receive r => simp [Task.loop?] at loop
    | listen l' => exact there.trans (congrArg (some ∘ Task.listen) (Option.some.inj loop))
  · exact fun there => ⟨_, there, rfl⟩

def cancelIf (b : Broker) : Option ScopeId → Broker
  | some s => b.cancel s
  | none => b

/-! ## What has no part in listening -/

section Listening

variable {b b' : Broker}

theorem scopes_eq (same : b'.listening = b.listening) : b'.scopes = b.scopes :=
  congrArg Prod.fst same

theorem isCancelled_eq (same : b'.listening = b.listening) (s : ScopeId) :
    b'.isCancelled s = b.isCancelled s := by
  simp only [isCancelled, scopes_eq same]

theorem parent?_eq (same : b'.listening = b.listening) (s : ScopeId) :
    b'.parent? s = b.parent? s := by
  simp only [parent?, scopes_eq same]

theorem scopeOf?_eq (same : b'.listening = b.listening) (q : QueueId) :
    b'.scopeOf? q = b.scopeOf? q := by
  have queues : b'.queues.map (·.scope) = b.queues.map (·.scope) :=
    congrArg (fun (_, current, _) => current) same
  simp only [scopeOf?, queue?, ← List.getElem?_map, queues]

theorem origin?_eq (same : b'.listening = b.listening) (id : TaskId) :
    b'.origin? id = b.origin? id :=
  congrArg (fun (_, _, loops) => loops id) same

@[simp] theorem listening_note (b : Broker) (n : Notice) : (b.note n).listening = b.listening := rfl

@[simp] theorem listening_arm (b : Broker) (id : TaskId) (due : Nat) :
    (b.arm id due).listening = b.listening := rfl

@[simp] theorem listening_disarm (b : Broker) (id : TaskId) :
    (b.disarm id).listening = b.listening := rfl

@[simp] theorem listening_owe (b : Broker) (q : QueueId) (n : Nat) :
    (b.owe q n).listening = b.listening := rfl

theorem listening_modifyQueue (b : Broker) (q : QueueId) {f : Queue → Queue}
    (kept : ∀ queue, (f queue).scope = queue.scope) :
    (b.modifyQueue q f).listening = b.listening := by
  have scopes : (b.modifyQueue q f).queues.map (·.scope) = b.queues.map (·.scope) := by
    refine List.ext_getElem? fun i => ?_
    simp only [List.getElem?_map, modifyQueue, List.getElem?_modify]
    cases b.queues[i]? with
    | none => rfl
    | some queue => by_cases here : q = i <;> simp [here, kept]
  simp only [listening, scopes]
  rfl

@[simp] theorem listening_setStorage (b : Broker) (q : QueueId) (s : Storage) :
    (b.setStorage q s).listening = b.listening :=
  listening_modifyQueue b q fun _ => rfl

@[simp] theorem listening_register (b : Broker) (q : QueueId) (id : TaskId) :
    (b.register q id).listening = b.listening :=
  listening_modifyQueue b q fun _ => rfl

@[simp] theorem listening_deregister (b : Broker) (q : QueueId) (id : TaskId) :
    (b.deregister q id).listening = b.listening :=
  listening_modifyQueue b q fun _ => rfl

@[simp] theorem listening_unawait (b : Broker) (q : QueueId) (id : TaskId) :
    (b.unawait q id).listening = b.listening :=
  listening_deregister b q id

@[simp] theorem listening_count (b : Broker) (q : QueueId) (event : QueueEvent) (n : Nat) :
    (b.count q event n).listening = b.listening := by
  unfold count; split <;> (try split) <;> rfl

@[simp] theorem scopes_wakeAll (b : Broker) (ids : List TaskId) :
    (b.wakeAll ids).scopes = b.scopes := by
  induction ids generalizing b with
  | nil => rfl
  | cons id rest ih =>
    refine (ih (b.wake id)).trans ?_
    unfold wake
    split <;> rfl

@[simp] theorem queues_wakeAll (b : Broker) (ids : List TaskId) :
    (b.wakeAll ids).queues = b.queues := by
  induction ids generalizing b with
  | nil => rfl
  | cons id rest ih =>
    refine (ih (b.wake id)).trans ?_
    unfold wake
    split <;> rfl

@[simp] theorem scopes_spawn (b : Broker) (t : Task) : (b.spawn t).1.scopes = b.scopes :=
  scopes_wakeAll _ [_]

@[simp] theorem queues_spawn (b : Broker) (t : Task) : (b.spawn t).1.queues = b.queues :=
  queues_wakeAll _ [_]

theorem loop?_of_tasks (same : b'.tasks = b.tasks) (id : TaskId) : b'.loop? id = b.loop? id := by
  simp only [loop?, task?, same]

theorem origin?_of_tasks (same : b'.tasks = b.tasks) : b'.origin? = b.origin? :=
  funext fun id => congrArg (Option.map _) (loop?_of_tasks same id)

@[simp] theorem listening_wakeAll (b : Broker) (ids : List TaskId) :
    (b.wakeAll ids).listening = b.listening := by
  simp only [listening, scopes_wakeAll, queues_wakeAll, origin?_of_tasks (tasks_wakeAll b ids)]

/-- A task may go on, if it stays the loop that it is. -/
theorem listening_setTask {id : TaskId} {t : Task}
    (same : b.origin? id = t.loop?.map Loop.asStarted) :
    (b.setTask id t).listening = b.listening := by
  have loops : (b.setTask id t).origin? = b.origin? := by
    funext i
    by_cases here : id = i
    · subst here
      cases found : b.task? id with
      | none =>
        have outside := List.getElem?_eq_none_iff.1 found
        simp [origin?, loop?, task?, setTask, outside]
      | some t₀ =>
        rw [origin?, loop?, task?_setTask found, same]
        rfl
    · simp only [origin?, loop?, task?, setTask, List.getElem?_set_ne here]
  simp only [listening, loops]
  rfl

@[simp] theorem listening_setLoop {id : TaskId} {l : Loop}
    (there : b.origin? id = some l.asStarted) (stage : LoopStage) :
    (b.setLoop id l stage).listening = b.listening :=
  listening_setTask there

end Listening

end Broker

/-! ## Calm changes -/

/-- Nothing has changed that matters to scopes: there are the same loops, and those other than
    the task `x` are where they were.  Tasks other than `x` are still to go on if they were. -/
structure Calm (x : Option TaskId) (b b' : Broker) : Prop where
  listening : b'.listening = b.listening
  loop? : ∀ id, some id ≠ x → b'.loop? id = b.loop? id
  ready : ∀ id, some id ≠ x → id ∈ b.ready → id ∈ b'.ready

namespace Calm

variable {x : Option TaskId} {b b₁ b' : Broker}

protected theorem refl (b : Broker) : Calm x b b := ⟨rfl, fun _ _ => rfl, fun _ _ member => member⟩

protected theorem trans (first : Calm x b b₁) (second : Calm x b₁ b') : Calm x b b' where
  listening := second.listening.trans first.listening
  loop? id other := (second.loop? id other).trans (first.loop? id other)
  ready id other member := second.ready id other (first.ready id other member)

theorem of_quiet (quiet : Quiet x b b') (same : b'.listening = b.listening) : Calm x b b' where
  listening := same
  loop? id other := by simp only [Broker.loop?, quiet.task id other]
  ready := quiet.ready

theorem of_commit {c : Option (QueueId × Call)} (quiet : Quiet x (b.commit c) b')
    (same : b'.listening = b.listening) : Calm x b b' := by
  refine ⟨same, fun id other => ?_, fun id other member => ?_⟩
  · simp only [Broker.loop?, quiet.task id other]
    cases c <;> rfl
  · refine quiet.ready id other ?_
    cases c <;> exact member

theorem origin? (h : Calm x b b') (id : TaskId) : b'.origin? id = b.origin? id :=
  Broker.origin?_eq h.listening id

end Calm

namespace Broker

/-! ## Cancelling -/

section Cancelling

variable {x : Option TaskId} {b b' : Broker}

theorem scopes_cancel (b : Broker) (s i : ScopeId) :
    (b.cancel s).scopes[i]? = (b.scopes[i]?).map fun scope =>
      if b.isCancelled s = false ∧ (i = s ∨ scope.parent = some s) then
        { scope with cancelled := true } else scope := by
  simp only [cancel]
  cases b.isCancelled s with
  | true => simp
  | false =>
    rw [if_neg Bool.false_ne_true, scopes_wakeAll, List.getElem?_mapIdx]
    simp

/-- A loop is woken with a scope if it is blocked and watches the scope or one right below. -/
theorem mem_followers {s : ScopeId} {id : TaskId} :
    id ∈ b.followers s ↔ ∃ scope l, b.scopes[s]? = some scope ∧ b.loop? id = some l ∧
      l.isWatching ∧ (l.scope = s ∨ l.scope ∈ scope.children) := by
  have watcher (s : ScopeId) : id ∈ b.watchers s ↔
      ∃ l, b.loop? id = some l ∧ l.isWatching ∧ l.scope = s := by
    simp only [watchers, List.mem_filterMap, Prod.exists, List.mk_mem_zipIdx_iff_getElem?]
    constructor
    · rintro ⟨t, i, there, watches⟩
      cases t with
      | receive r => simp at watches
      | listen l =>
        simp only [Option.ite_none_right_eq_some, Option.some.injEq] at watches
        obtain ⟨⟨same, watching⟩, rfl⟩ := watches
        exact ⟨l, loop?_eq_some.2 there, watching, same⟩
    · rintro ⟨l, there, watching, same⟩
      exact ⟨.listen l, id, loop?_eq_some.1 there, by simp [same, watching]⟩
  have either {xs : List TaskId} : id ∈ lastFirst xs ↔ id ∈ xs := by
    rw [lastFirst, List.dropLast_eq_take, List.mem_append, or_comm, ← List.mem_append,
      List.take_append_drop]
  simp only [followers]
  cases b.scopes[s]? with
  | none => simp
  | some scope =>
    simp only [List.mem_append, either, List.mem_flatMap, watcher, Option.some.injEq,
      exists_and_left, exists_eq_left']
    constructor
    · rintro (⟨child, below, l, there, watching, rfl⟩ | ⟨l, there, watching, same⟩)
      · exact ⟨l, there, watching, .inr below⟩
      · exact ⟨l, there, watching, .inl same⟩
    · rintro ⟨l, there, watching, same | below⟩
      · exact .inr ⟨l, there, watching, same⟩
      · exact .inl ⟨l.scope, below, l, there, watching, rfl⟩

@[simp] theorem queues_cancel (b : Broker) (s : ScopeId) : (b.cancel s).queues = b.queues := by
  simp only [cancel]
  split
  · rfl
  · exact queues_wakeAll ..

theorem listening_cancel (b : Broker) (s : ScopeId) :
    (b.cancel s).listening = ((b.cancel s).scopes, b.listening.2) := by
  simp only [listening, origin?_of_tasks (tasks_cancel b s), queues_cancel]

@[simp] theorem origin?_cancelIf (b : Broker) (s? : Option ScopeId) (id : TaskId) :
    (b.cancelIf s?).origin? id = b.origin? id := by
  cases s? with
  | none => rfl
  | some s => rw [cancelIf, origin?_of_tasks (tasks_cancel b s)]

theorem mem_ready_cancel {s : ScopeId} {id : TaskId} :
    id ∈ (b.cancel s).ready ↔ id ∈ b.ready ∨ (b.isCancelled s = false ∧ id ∈ b.followers s) := by
  have woken (ids : List TaskId) (b : Broker) :
      id ∈ (b.wakeAll ids).ready ↔ id ∈ b.ready ∨ id ∈ ids := by
    induction ids generalizing b with
    | nil => simp [wakeAll]
    | cons first rest ih =>
      refine (ih (b.wake first)).trans ?_
      have one : id ∈ (b.wake first).ready ↔ id ∈ b.ready ∨ id = first := by
        simp only [wake]
        split
        · exact ⟨.inl, fun either => either.elim (fun member => member) (· ▸ ‹_›)⟩
        · simp
      rw [one, List.mem_cons, or_assoc]
  simp only [cancel]
  cases b.isCancelled s with
  | true => simp
  | false =>
    rw [if_neg Bool.false_ne_true, woken]
    simp

end Cancelling

end Broker

/-- Whether a scope is cancelled before a calm change or after it makes no difference. -/
theorem Calm.cancel {x : Option TaskId} {b b' : Broker} (h : Calm x b b') (s : ScopeId) :
    Calm x (b.cancel s) (b'.cancel s) where
  listening := by
    have scopes : (b'.cancel s).scopes = (b.cancel s).scopes := by
      refine List.ext_getElem? fun i => ?_
      rw [Broker.scopes_cancel, Broker.scopes_cancel, Broker.isCancelled_eq h.listening,
        Broker.scopes_eq h.listening]
    rw [Broker.listening_cancel, Broker.listening_cancel, scopes, h.listening]
  loop? id other := by
    rw [Broker.loop?_of_tasks (Broker.tasks_cancel ..), Broker.loop?_of_tasks (Broker.tasks_cancel ..)]
    exact h.loop? id other
  ready id other member := by
    rw [Broker.mem_ready_cancel] at member ⊢
    rw [Broker.isCancelled_eq h.listening]
    refine member.imp (h.ready id other) (And.imp_right fun follows => ?_)
    obtain ⟨scope, l, found, there, rest⟩ := Broker.mem_followers.1 follows
    exact Broker.mem_followers.2 ⟨scope, l, by rw [Broker.scopes_eq h.listening, found],
      (h.loop? id other).trans there, rest⟩

theorem Calm.cancelIf {x : Option TaskId} {b b' : Broker} (h : Calm x b b') :
    (s? : Option ScopeId) → Calm x (b.cancelIf s?) (b'.cancelIf s?)
  | some s => h.cancel s
  | none => h

namespace Broker

/-! ## Steps of loops -/

section Steps

variable {b : Broker} {id : TaskId} {l : Loop}

theorem calm_setLoop (there : b.origin? id = some l.asStarted) (stage : LoopStage) :
    Calm (some id) b (b.setLoop id l stage) :=
  .of_quiet (quiet_setLoop id l stage) (listening_setLoop there stage)

theorem calm_startPause (there : b.origin? id = some l.asStarted) :
    Calm (some id) b (b.startPause id l) := by
  refine .of_quiet (quiet_startPause id l) ?_
  simp only [startPause]
  split
  · exact listening_setLoop there _
  · split
    · exact listening_setLoop there _
    · exact listening_setLoop (b := b.arm id _) there _

/-- What a loop may cancel on purpose: its own scope. -/
def OnPurpose (l : Loop) (s? : Option ScopeId) : Prop :=
  l.endsListening = false ∧ l.faults ≠ {} ∧ s? = some l.scope

theorem afterCall_eq (b : Broker) (l : Loop) : ∃ s?, b.afterCall l = b.cancelIf s? ∧
    (s? = none ∨ (l.faults ≠ {} ∧ s? = some l.scope)) := by
  simp only [afterCall]
  split
  · rename_i now
    exact ⟨some l.scope, rfl, .inr ⟨fun sound => by simp [sound] at now, rfl⟩⟩
  · exact ⟨none, rfl, .inl rfl⟩

theorem listening_lockNext {q : QueueId} {c : String} {timeout : Duration} {e : Envelope}
    {b' : Broker} (taken : b.lockNext q c timeout = some (e, b')) :
    b'.listening = b.listening := by
  simp only [lockNext] at taken
  split at taken
  · simp at taken
  · obtain ⟨-, rfl⟩ := Prod.mk.inj (Option.some.inj taken)
    simp

/-! ## What is done with messages -/

theorem listening_complete (b : Broker) (q : QueueId) (e : Envelope) :
    (b.complete q e).2.listening = b.listening := by
  simp only [complete]
  split
  · rfl
  · split <;> simp

theorem listening_deadLetter (b : Broker) (q : QueueId) (e : Envelope) :
    (b.deadLetter q e).2.listening = b.listening := by
  simp only [deadLetter]
  split
  · rfl
  · split <;> simp

theorem listening_abandon (b : Broker) (q : QueueId) (e : Envelope) :
    (b.abandon q e).2.listening = b.listening := by
  simp only [abandon]
  split
  · rfl
  · split <;> simp

theorem listening_renew (b : Broker) (q : QueueId) (e : Envelope) :
    (b.renew q e).listening = b.listening := by
  simp only [renew]
  split
  · rfl
  · split <;> simp

theorem listening_send (b : Broker) (q : QueueId) (c : String) (e : Envelope) :
    (b.send q c e).listening = b.listening := by
  simp [send]

theorem listening_releaseExpired (b : Broker) (q : QueueId) (c : String) :
    (b.releaseExpired q c).2.listening = b.listening := by
  simp only [releaseExpired]
  split <;> simp

theorem listening_peek (b : Broker) (q : QueueId) (c : String) :
    (b.peek q c).2.listening = b.listening := by
  simp only [peek]
  split <;> rfl

/-! ## Ending the listening -/

theorem calm_endListen {x : Option TaskId} (q : QueueId) (c : String) :
    Calm x (b.cancelIf (b.scopeOf? q)) (b.endListen q c) := by
  simp only [endListen, scopeOf?]
  cases b.queue? q with
  | none => exact .refl b
  | some queue => exact .of_quiet (.note _ _) rfl

theorem calm_closeQueue {x : Option TaskId} (q : QueueId) (c : String) :
    Calm x (b.cancelIf (b.scopeOf? q)) (b.closeQueue q c) := by
  let shut := b.modifyQueue q fun queue => { queue with opened := false }
  have same : shut.listening = b.listening := listening_modifyQueue b q fun _ => rfl
  have first : Calm x b shut := .of_quiet (quiet_setOpened false) same
  have ended : Calm x (shut.cancelIf (b.scopeOf? q)) (shut.endListen q c) :=
    scopeOf?_eq same q ▸ calm_endListen q c
  exact ((first.cancelIf _).trans ended).trans (.of_quiet (.note _ _) rfl)

/-- The scope that the next step of a loop cancels, as far as its receiver has to do with it. -/
def endedByReceiver? (b : Broker) (l : Loop) : Option ScopeId :=
  if l.endsListening then b.scopeOf? l.queue else none

theorem calm_look (there : b.origin? id = some l.asStarted) (deadline : Nat) :
    ∃ s?, Calm (some id) (b.cancelIf s?) (b.look id l deadline) ∧
      (s? = none ∨ (l.faults ≠ {} ∧ s? = some l.scope)) := by
  simp only [look]
  cases taken : b.lockNext l.queue l.correlationId l.options.receiveTimeout with
  | none =>
    have armed : Calm (some id) b (b.arm id deadline) := .of_quiet (.arm b id _) rfl
    exact ⟨none, armed.trans (calm_setLoop (b := b.arm id deadline) there _), .inl rfl⟩
  | some result =>
    obtain ⟨e, b'⟩ := result
    have locked : Calm (some id) b b' := .of_commit (quiet_lockNext taken) (listening_lockNext taken)
    have left : Calm (some id) b (b'.deregister l.queue id) :=
      locked.trans (.of_quiet (.deregister b' l.queue id) (by simp))
    obtain ⟨s?, called, own⟩ := afterCall_eq (b'.deregister l.queue id) l
    refine ⟨s?, ?_, own⟩
    dsimp only
    rw [called]
    have there' := ((left.cancelIf s?).origin? id).trans ((origin?_cancelIf b s? id).trans there)
    exact (left.cancelIf s?).trans (calm_setLoop there' _)

theorem calm_startCall (there : b.origin? id = some l.asStarted) :
    ∃ s?, Calm (some id) (b.cancelIf s?) (b.startCall id l) ∧
      (s? = none ∨ (l.faults ≠ {} ∧ s? = some l.scope)) := by
  let l' : Loop := { l with calls := l.calls + 1 }
  simp only [startCall]
  split
  · let b₁ := b.note (.receiveFailed l.queue l.correlationId
      (.validation (.required ("call " ++ toString l.calls))))
    obtain ⟨s?, called, own⟩ := afterCall_eq b₁ l'
    refine ⟨s?, ?_, own⟩
    have noted : Calm (some id) (b.cancelIf s?) (b₁.cancelIf s?) :=
      Calm.cancelIf (.of_quiet (.note b _) rfl) s?
    rw [show (b.note _).afterCall _ = b₁.cancelIf s? from called]
    have there' := (noted.origin? id).trans ((origin?_cancelIf b s? id).trans there)
    exact noted.trans (calm_startPause (l := l') there')
  · exact ⟨none, calm_setLoop (l := l') there _, .inl rfl⟩

theorem calm_resumeWait (there : b.origin? id = some l.asStarted) (deadline : Nat) :
    ∃ s?, Calm (some id) (b.cancelIf s?) (b.resumeWait id l deadline) ∧
      (s? = none ∨ (l.faults ≠ {} ∧ s? = some l.scope)) := by
  have left : Calm (some id) b (b.unawait l.queue id) :=
    .of_quiet (.unawait b l.queue id) (listening_unawait ..)
  have there' : (b.unawait l.queue id).origin? id = some l.asStarted :=
    (left.origin? id).trans there
  simp only [resumeWait]
  split
  · exact ⟨none, (left.trans (calm_setLoop there' _)).trans (.of_quiet (.note _ _) rfl), .inl rfl⟩
  · split
    · have disarmed : Calm (some id) b (b.disarm id) := .of_quiet (.disarm b id) rfl
      exact ⟨none, disarmed.trans (calm_setLoop (b := b.disarm id) there _), .inl rfl⟩
    · split
      · obtain ⟨s?, called, own⟩ := afterCall_eq (b.unawait l.queue id) l
        refine ⟨s?, ?_, own⟩
        rw [called]
        have there'' := ((left.cancelIf s?).origin? id).trans
          ((origin?_cancelIf b s? id).trans there)
        exact (left.cancelIf s?).trans (calm_startPause there'')
      · exact ⟨none, .refl b, .inl rfl⟩

theorem calm_dispatch (there : b.origin? id = some l.asStarted) (e : Envelope) :
    Calm (some id) b (b.dispatch id l e) := by
  refine .of_commit (quiet_dispatch id l e) ?_
  simp only [dispatch]
  split
  · have returned : (b.returnMessage l e).listening = b.listening := by
      simp only [returnMessage]
      split
      · rfl
      · exact listening_abandon ..
    have there' : (b.returnMessage l e).origin? id = some l.asStarted :=
      (origin?_eq returned id).trans there
    exact (listening_setLoop there' _).trans returned
  · exact listening_setLoop (b := b.note _) there _

/-- What a receiver does with its message, and with others, has no part in listening, unless it
    ends the listening. -/
theorem calm_perform (there : b.origin? id = some l.asStarted) (e : Envelope) (command : Command)
    (rest : List Command) :
    Calm (some id)
      (b.cancelIf (b.endedByReceiver? { l with stage := .handling e (command :: rest) }))
      (b.perform id l e command rest) := by
  have after {b' : Broker} (same : Calm (some id) b b') (e' : Envelope) :
      Calm (some id) b (b'.setLoop id l (.handling e' rest)) :=
    same.trans (calm_setLoop ((same.origin? id).trans there) _)
  cases command with
  | pause d =>
    simp only [perform]
    split
    · exact calm_setLoop there _
    · have armed : Calm (some id) b (b.arm id (b.afterPause d)) := .of_quiet (.arm b id _) rfl
      exact armed.trans (calm_setLoop (b := b.arm id _) there _)
  | complete => exact after (.of_commit (quiet_complete e) (listening_complete b _ e)) _
  | deadLetter => exact after (.of_commit (quiet_deadLetter e) (listening_deadLetter b _ e)) _
  | abandon =>
    simp only [perform]
    split
    · exact Calm.trans (.of_quiet (.note b _) rfl) (calm_startPause (b := b.note _) there)
    · exact after (.of_commit (quiet_abandon e) (listening_abandon b _ e)) _
  | renew => exact after (.of_commit (quiet_renew e) (listening_renew b _ e)) _
  | send message =>
    exact after (.of_commit (quiet_send _ message) (listening_send b _ _ message)) _
  | endListen =>
    have ended := calm_endListen (b := b) (x := some id) l.queue e.correlationId
    exact ended.trans (calm_setLoop ((ended.origin? id).trans ((origin?_cancelIf ..).trans there)) _)
  | close =>
    have ended := calm_closeQueue (b := b) (x := some id) l.queue e.correlationId
    exact ended.trans (calm_setLoop ((ended.origin? id).trans ((origin?_cancelIf ..).trans there)) _)
  | replacePayload _ => exact calm_setLoop there _
  | remember payload =>
    exact calm_setLoop (l := { l with notebook := l.notebook.remember payload }) there _
  | tally completed =>
    exact calm_setLoop (l := { l with notebook := l.notebook.tally completed }) there _
  | signal =>
    let heard := l.notebook.progress.tell
    have woken : Calm (some id) b (b.wakeAll heard.1) :=
      .of_quiet (.wakeAll b _) (listening_wakeAll b _)
    exact woken.trans (calm_setLoop
      (l := { l with notebook := { l.notebook with progress := heard.2 } })
      ((woken.origin? id).trans there) _)
  | fail reason =>
    exact Calm.trans (.of_quiet (.note b _) rfl) (calm_startPause (b := b.note _) there)

/-- A step of a loop cancels a scope only if its receiver ends the listening, or if the loop is
    to be cancelled on purpose. -/
theorem calm_stepLoop (there : b.origin? id = some l.asStarted) :
    ∃ s?, Calm (some id) (b.cancelIf s?) (b.stepLoop id l) ∧
      (s? = b.endedByReceiver? l ∨ OnPurpose l s?) := by
  obtain ⟨queue, correlationId, receiver, options, scope, faults, calls, notebook, stage⟩ := l
  have noted : Calm (some id) b (b.note (.loopStarted queue correlationId)) :=
    .of_quiet (.note b _) rfl
  cases stage with
  | starting => exact ⟨none, noted.trans (calm_setLoop (b := b.note _) there _), .inl rfl⟩
  | checking =>
    simp only [stepLoop]
    split
    · exact ⟨none, (calm_setLoop there _).trans (.of_quiet (.note _ _) rfl), .inl rfl⟩
    · obtain ⟨s?, calm, own⟩ := calm_startCall (b := b) there
      exact ⟨s?, calm, own.imp_right fun own => ⟨rfl, own⟩⟩
  | entering deadline =>
    have registered : Calm (some id) b (b.register queue id) :=
      .of_quiet (.register b queue id) (listening_register ..)
    exact ⟨none, registered.trans (calm_setLoop ((registered.origin? id).trans there) _), .inl rfl⟩
  | looking deadline =>
    obtain ⟨s?, calm, own⟩ := calm_look (b := b) there deadline
    exact ⟨s?, calm, own.imp_right fun own => ⟨rfl, own⟩⟩
  | waiting deadline =>
    obtain ⟨s?, calm, own⟩ := calm_resumeWait (b := b) there deadline
    exact ⟨s?, calm, own.imp_right fun own => ⟨rfl, own⟩⟩
  | taken e => exact ⟨none, calm_dispatch there e, .inl rfl⟩
  | handling e plan =>
    cases plan with
    | nil => exact ⟨none, calm_startPause there, .inl rfl⟩
    | cons command rest => exact ⟨_, calm_perform there e command rest, .inl rfl⟩
  | delayed due e plan =>
    simp only [stepLoop]
    split
    · exact ⟨none, calm_setLoop there _, .inl rfl⟩
    · exact ⟨none, .refl b, .inl rfl⟩
  | pausing due =>
    have disarmed : Calm (some id) b (b.disarm id) := .of_quiet (.disarm b id) rfl
    simp only [stepLoop]
    split
    · exact ⟨none, (disarmed.trans (calm_setLoop (b := b.disarm id) there _)).trans
        (.of_quiet (.note _ _) rfl), .inl rfl⟩
    · split
      · exact ⟨none, calm_setLoop there _, .inl rfl⟩
      · exact ⟨none, .refl b, .inl rfl⟩
  | stopped => exact ⟨none, .refl b, .inl rfl⟩

theorem calm_stepReceive {r : Receive} (there : b.task? id = some (.receive r)) :
    Calm (some id) b (b.stepReceive id r) := by
  have noLoop {b' : Broker} (same : b'.listening = b.listening) : b'.origin? id = none := by
    rw [origin?_eq same, origin?, loop?, there]
    rfl
  have setReceive (b' : Broker) (same : b'.listening = b.listening) (stage : ReceiveStage) :
      (b'.setReceive id r stage).listening = b.listening :=
    (listening_setTask (noLoop same)).trans same
  refine .of_commit (quiet_stepReceive id r) ?_
  simp only [stepReceive]
  cases r.stage with
  | entering => exact setReceive _ (listening_register ..) _
  | looking =>
    dsimp only
    cases taken : b.lockNext r.queue r.correlationId r.timeout with
    | none => exact setReceive (b.arm id _) rfl _
    | some result =>
      have same := (listening_deregister result.2 r.queue id).trans (listening_lockNext taken)
      exact setReceive _ same (.ended (some result.1))
  | waiting =>
    dsimp only
    split
    · exact setReceive (b.disarm id) rfl _
    · split
      · exact setReceive _ (listening_unawait b r.queue id) (.ended none)
      · rfl
  | ended _ | dropped => rfl

end Steps

/-! ## Actions -/

section Actions

variable {b : Broker}

/-- The scope that an action cancels, if it cancels one: the scope of a queue where it ends the
    listening, or that of a loop that it stops. -/
def ended? (b : Broker) : Action → Option ScopeId
  | .ask q (.endListen _) | .ask q (.closeQueue _) => b.scopeOf? q
  | .stopLoop id => (b.loop? id).map (·.scope)
  | .turn id => (b.loop? id).bind b.endedByReceiver?
  | _ => none

theorem calm_turn (b : Broker) (id : TaskId) :
    ∃ s?, Calm (some id) (b.cancelIf s?) (b.turn id) ∧
      (s? = b.ended? (.turn id) ∨
        ∃ l, b.loop? id = some l ∧ OnPurpose l s?) := by
  have left : Calm (some id) b { b with ready := b.ready.erase id } :=
    .of_quiet (.leaveLine b id) rfl
  have stepped : ∃ s?, Calm (some id) (b.cancelIf s?)
      (stepTask { b with ready := b.ready.erase id } id) ∧
      (s? = b.ended? (.turn id) ∨
        ∃ l, b.loop? id = some l ∧ OnPurpose l s?) := by
    have same : ({ b with ready := b.ready.erase id } : Broker).task? id = b.task? id := rfl
    simp only [stepTask, same, ended?, loop?]
    cases there : b.task? id with
    | none => exact ⟨none, left, .inl rfl⟩
    | some t =>
      cases t with
      | receive r => exact ⟨none, left.trans (calm_stepReceive there), .inl rfl⟩
      | listen l =>
        have loop : b.origin? id = some l.asStarted := by rw [origin?, loop?_eq_some.2 there]; rfl
        obtain ⟨s?, calm, which⟩ :=
          calm_stepLoop (b := { b with ready := b.ready.erase id }) (l := l) loop
        exact ⟨s?, (left.cancelIf s?).trans calm, which.imp_right fun own => ⟨l, rfl, own⟩⟩
  obtain ⟨s?, calm, which⟩ := stepped
  refine ⟨s?, calm.trans ?_, which⟩
  simp only [turn]
  split
  · exact .of_quiet (.enterLine _ id) rfl
  · exact .refl _

theorem loop?_spawn (b : Broker) (t : Task) (id : TaskId) :
    (b.spawn t).1.loop? id = if id = b.tasks.length then t.loop? else b.loop? id := by
  by_cases new : id = b.tasks.length
  · simp only [loop?, new, task?_spawn, Option.bind_some, ↓reduceIte]
  · simp only [loop?, (Quiet.spawn b t).task id fun same => new (Option.some.inj same), new,
      ↓reduceIte]

theorem loop?_of_new (b : Broker) : b.loop? b.tasks.length = none := by
  simp only [loop?, task?, List.getElem?_eq_none (Nat.le_refl _), Option.bind_none]

theorem calm_startReceive (q : QueueId) (c : String) (timeout : Duration) :
    Calm none b (b.startReceive q c timeout).1 := by
  have loops (id : TaskId) : (b.startReceive q c timeout).1.loop? id = b.loop? id := by
    refine (loop?_spawn ..).trans ?_
    split
    · rename_i new
      rw [new, loop?_of_new]
      rfl
    · rfl
  refine ⟨?_, fun id _ => loops id, fun id _ member => ?_⟩
  · have origins : (b.startReceive q c timeout).1.origin? = b.origin? :=
      funext fun id => congrArg (Option.map _) (loops id)
    simp only [listening, origins]
    simp only [startReceive, scopes_spawn, queues_spawn]
  · exact (Quiet.wake (x := none) _ _).ready id (Option.some_ne_none id) member

theorem calm_dropReceive (id : TaskId) : Calm none b (b.dropReceive id) := by
  have quiet := quiet_dropReceive (b := b) id
  have loops : ∀ i, (b.dropReceive id).loop? i = b.loop? i := by
    intro i
    by_cases other : i = id
    · subst other
      simp only [dropReceive]
      cases there : b.task? i with
      | none => rfl
      | some t =>
        cases t with
        | listen l => rfl
        | receive r =>
          have now := task?_setTask (b := (b.deregister r.queue i).disarm i) there
            (.receive { r with stage := .dropped })
          simp only [loop?, now, there, Option.bind_some, Task.loop?]
    · simp only [loop?, quiet.task i fun same => other (Option.some.inj same)]
  refine ⟨?_, fun i _ => loops i, ?_⟩
  · have same : (b.dropReceive id).origin? = b.origin? :=
      funext fun i => congrArg (Option.map _) (loops i)
    have rest : (b.dropReceive id).scopes = b.scopes ∧
        (b.dropReceive id).queues.map (·.scope) = b.queues.map (·.scope) := by
      simp only [dropReceive]
      split
      · exact ⟨rfl, congrArg (·.2.1) (listening_deregister b _ id)⟩
      · exact ⟨rfl, rfl⟩
    simp only [listening, same, rest]
  · intro i _ member
    simp only [dropReceive]
    split <;> exact member

theorem calm_announce (i : Nat) : Calm none b (b.announce i) := by
  simp only [announce]
  cases b.owed[i]? with
  | none => exact .refl b
  | some a =>
    let b₁ : Broker := { b with owed := b.owed.eraseIdx i }
    have notified : Calm none b (b₁.notify a.queue) := by
      obtain ⟨tasks, _, ready⟩ := notify_same b₁ a.queue
      refine ⟨?_, fun id _ => loop?_of_tasks (b := b) tasks id, fun id _ => ready id⟩
      simp only [notify]
      split
      · exact (listening_wakeAll ..).trans (listening_modifyQueue b₁ _ fun _ => rfl)
      · rfl
    refine notified.trans ⟨listening_count .., fun id _ => ?_, fun id _ member => ?_⟩
    · exact loop?_of_tasks (count_tasks ..) id
    · rw [count_ready]
      exact member

theorem calm_ask {q : QueueId} {request : Request} (plain : (Action.ask q request).arranges = false) :
    Calm none (b.cancelIf (b.ended? (.ask q request))) (b.ask q request) := by
  cases request with
  | openQueue c connection =>
    exact .of_quiet (quiet_openQueue c connection) (listening_modifyQueue b q fun _ => rfl)
  | closeQueue c => exact calm_closeQueue q c
  | endListen c => exact calm_endListen q c
  | clear c => exact .of_commit (quiet_clear c) (listening_setStorage b q _)
  | send c e => exact .of_commit (quiet_send c e) (listening_send b q c e)
  | peek c => exact .of_quiet (quiet_peek c) (listening_peek b q c)
  | peekBatch c most => exact .of_quiet (.note b _) rfl
  | receive c timeout => exact calm_startReceive q c timeout
  | complete e => exact .of_commit (quiet_complete e) (listening_complete b q e)
  | deadLetter e => exact .of_commit (quiet_deadLetter e) (listening_deadLetter b q e)
  | abandon e => exact .of_commit (quiet_abandon e) (listening_abandon b q e)
  | renew e => exact .of_commit (quiet_renew e) (listening_renew b q e)
  | releaseExpired c => exact .of_commit (quiet_releaseExpired c) (listening_releaseExpired b q c)
  | listen c receiver => exact absurd plain (by simp [Action.arranges])
  | listenWith c receiver options faults cancelled => exact absurd plain (by simp [Action.arranges])

theorem calm_stopLoop (id : TaskId) :
    Calm none (b.cancelIf (b.ended? (.stopLoop id))) (b.stopLoop id) := by
  simp only [stopLoop, ended?, loop?]
  cases b.task? id with
  | none => exact .refl b
  | some t => cases t <;> exact .refl _

theorem calm_advance (moment : Nat) : Calm none b (b.advance moment) where
  listening := listening_wakeAll ..
  loop? id _ := loop?_of_tasks (tasks_wakeAll ..) id
  ready id other member := (Quiet.wakeAll (x := none) _ _).ready id other member

/-- What a plain action does: it cancels one scope or none, and is calm besides.  Loops that are
    cancelled on purpose cancel their own scope. -/
theorem calm_act {action : Action} (plain : action.arranges = false) :
    ∃ s?, Calm action.actor? (b.cancelIf s?) (b.act action) ∧
      (s? = b.ended? action ∨
        ∃ id l, action = .turn id ∧ b.loop? id = some l ∧ OnPurpose l s?) := by
  -- All but turns cancel what `ended?` says.
  suffices (∃ id, action = .turn id) ∨
      Calm action.actor? (b.cancelIf (b.ended? action)) (b.act action) by
    rcases this with ⟨id, rfl⟩ | change
    · obtain ⟨s?, change, which⟩ := b.calm_turn id
      exact ⟨s?, change, which.imp_right fun ⟨l, own⟩ => ⟨id, l, rfl, own⟩⟩
    · exact ⟨_, change, .inl rfl⟩
  cases action with
  | addCounters => exact .inr ⟨rfl, fun _ _ => rfl, fun _ _ member => member⟩
  | ask q request =>
    refine .inr ?_
    by_cases inside : q < b.queues.length
    · rw [show b.act (.ask q request) = b.ask q request from if_pos inside]
      exact calm_ask plain
    · have nobody : b.ended? (.ask q request) = none := by
        have outside : b.scopeOf? q = none := by
          simp only [scopeOf?, queue?, List.getElem?_eq_none (Nat.not_lt.1 inside), Option.map_none]
        cases request <;> first | exact outside | rfl
      rw [nobody, show b.act (.ask q request) = b from if_neg inside]
      exact .refl b
  | dropReceive id => exact .inr (calm_dropReceive id)
  | stopLoop id => exact .inr (calm_stopLoop id)
  | turn id => exact .inl ⟨id, rfl⟩
  | announce i => exact .inr (calm_announce i)
  | advance moment => exact .inr (calm_advance moment)
  | newQueue | newQueueOf | releaseLoop => exact absurd plain (by simp [Action.arranges])

end Actions

end Broker

end PeekLock
