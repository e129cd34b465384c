import PeekLock.Proofs.Broker.Station
import PeekLock.Proofs.Listener.Ending
import PeekLock.Proofs.Queue.Fate

/-! # One queue at a time

Queues share a clock, a schedule and maybe counters, and nothing else.  Whatever an operation does
to queues, it does to the one that it works at: `Within` says so, with one lemma for
each operation and each step of a task, as `Quiet` does for messages.  The listening at a queue
hangs on a scope besides, which stands among the scopes of all queues and loops; that no other
queue's operation cancels it is `Scoped.isCancelled_queue`.  Together they are
`sight?_act`, and `sight?_run` for runs.
-/

namespace PeekLock

namespace Broker

/-- Nothing has changed of any queue but one. -/
def Within (q : QueueId) (b b' : Broker) : Prop :=
  ∀ q', q' ≠ q → b'.queue? q' = b.queue? q'

variable {b b' : Broker} {q : QueueId}

namespace Within

variable {b₁ : Broker}

protected theorem refl (b : Broker) : Within q b b := fun _ _ => rfl

protected theorem trans (first : Within q b b₁) (second : Within q b₁ b') : Within q b b' :=
  fun q' other => (second q' other).trans (first q' other)

theorem of_queues (same : b'.queues = b.queues) : Within q b b' :=
  fun q' _ => congrArg (fun queues : List Queue => queues[q']?) same

theorem modifyQueue (b : Broker) (q : QueueId) (f : Queue → Queue) :
    Within q b (b.modifyQueue q f) := by
  intro q' other
  rw [queue?_modifyQueue]
  simp [Ne.symm other]

theorem setStorage (b : Broker) (q : QueueId) (s : Storage) : Within q b (b.setStorage q s) :=
  modifyQueue b q _

theorem register (b : Broker) (q : QueueId) (id : TaskId) : Within q b (b.register q id) :=
  modifyQueue b q _

theorem deregister (b : Broker) (q : QueueId) (id : TaskId) : Within q b (b.deregister q id) :=
  modifyQueue b q _

theorem cancel (b : Broker) (s : ScopeId) : Within q b (b.cancel s) :=
  of_queues (queues_cancel ..)

theorem spawn (b : Broker) (t : Task) : Within q b (b.spawn t).1 :=
  of_queues (queues_spawn ..)

theorem notify (b : Broker) (q : QueueId) : Within q b (b.notify q) := by
  simp only [Broker.notify]
  split
  · exact (modifyQueue b q _).trans (of_queues (queues_wakeAll ..))
  · exact .refl b

end Within

/-! ## Operations -/

theorem within_lockNext {c : String} {timeout : Duration} {e : Envelope}
    (taken : b.lockNext q c timeout = some (e, b')) : Within q b b' := by
  simp only [lockNext] at taken
  split at taken
  · simp at taken
  · obtain ⟨-, rfl⟩ := Prod.mk.inj (Option.some.inj taken)
    exact (Within.setStorage b q _).trans (.of_queues (count_queues ..))

theorem within_complete (e : Envelope) : Within q b (b.complete q e).2 := by
  simp only [complete]
  split
  · exact .refl b
  · split
    · exact .refl b
    · exact Within.setStorage b q _

theorem within_deadLetter (e : Envelope) : Within q b (b.deadLetter q e).2 := by
  simp only [deadLetter]
  split
  · exact .refl b
  · split
    · exact .refl b
    · exact (Within.setStorage b q _).trans (.of_queues (count_queues ..))

theorem within_abandon (e : Envelope) : Within q b (b.abandon q e).2 := by
  simp only [abandon]
  split
  · exact .refl b
  · split
    · exact .refl b
    · exact Within.setStorage b q _
    · exact Within.setStorage b q _

theorem within_renew (e : Envelope) : Within q b (b.renew q e) := by
  simp only [renew]
  split
  · exact .refl b
  · split
    · exact Within.setStorage b q _
    · exact .refl b

theorem within_releaseExpired (c : String) : Within q b (b.releaseExpired q c).2 := by
  simp only [releaseExpired]
  split <;> exact Within.setStorage b q _

theorem within_send (c : String) (e : Envelope) : Within q b (b.send q c e) :=
  Within.setStorage b q _

theorem within_endListen (c : String) : Within q b (b.endListen q c) := by
  simp only [endListen]
  split
  · exact Within.cancel b _
  · exact .refl b

theorem within_closeQueue (c : String) : Within q b (b.closeQueue q c) :=
  (Within.modifyQueue b q _).trans (within_endListen c)

theorem within_peek (c : String) : Within q b (b.peek q c).2 := by
  simp only [peek]
  split <;> exact .refl b

theorem within_listenScope : Within q b (b.listenScope q).1 := by
  simp only [listenScope]
  split
  · exact .refl b
  · split
    · exact Within.modifyQueue (b.openScope none).1 q _
    · exact .refl b

theorem within_listenWith (c : String) (receiver : Receiver) (options : ListenOptions)
    (faults : Faults) (cancelled : Bool) :
    Within q b (b.listenWith q c receiver options faults cancelled).1 := by
  simp only [listenWith]
  split
  · exact (Within.cancel (b.openScope none).1 _).trans (.spawn _ _)
  · exact Within.spawn (b.openScope none).1 _

theorem within_ask (request : Request) : Within q b (b.ask q request) := by
  cases request with
  | openQueue c connection => exact Within.modifyQueue b q _
  | closeQueue c => exact within_closeQueue c
  | endListen c => exact within_endListen c
  | clear c => exact Within.setStorage b q _
  | send c e => exact within_send c e
  | peek c => exact within_peek c
  | peekBatch c most => exact .refl b
  | receive c timeout => exact .spawn b _
  | complete e => exact within_complete e
  | deadLetter e => exact within_deadLetter e
  | abandon e => exact within_abandon e
  | renew e => exact within_renew e
  | releaseExpired c => exact within_releaseExpired c
  | listen c receiver =>
    exact within_listenScope.trans
      (Within.spawn ((b.listenScope q).1.openScope (b.listenScope q).2).1 _)
  | listenWith c receiver options faults cancelled =>
    exact within_listenWith c receiver options faults cancelled

/-! ## Steps of tasks -/

theorem within_stepReceive (id : TaskId) (r : Receive) : Within r.queue b (b.stepReceive id r) := by
  simp only [stepReceive]
  split
  · exact Within.register b r.queue id
  · split
    · rename_i taken
      exact (within_lockNext taken).trans (.deregister _ r.queue id)
    · exact .refl b
  · split
    · exact .refl b
    · split
      · exact Within.deregister b r.queue id
      · exact .refl b
  · exact .refl b
  · exact .refl b

theorem within_afterCall (l : Loop) : Within q b (b.afterCall l) := by
  simp only [afterCall]
  split
  · exact .cancel b _
  · exact .refl b

theorem within_startPause (id : TaskId) (l : Loop) : Within q b (b.startPause id l) := by
  simp only [startPause]
  split
  · exact .refl b
  · split <;> exact .refl b

theorem within_startCall (id : TaskId) (l : Loop) : Within q b (b.startCall id l) := by
  simp only [startCall]
  split
  · exact (within_afterCall (b := b.note _) _).trans (within_startPause id _)
  · exact .refl b

theorem within_look (id : TaskId) (l : Loop) (deadline : Nat) :
    Within l.queue b (b.look id l deadline) := by
  simp only [look]
  split
  · rename_i taken
    exact (within_lockNext taken).trans
      ((Within.deregister _ l.queue id).trans (within_afterCall l))
  · exact .refl b

theorem within_resumeWait (id : TaskId) (l : Loop) (deadline : Nat) :
    Within l.queue b (b.resumeWait id l deadline) := by
  have left : Within l.queue b (b.unawait l.queue id) := .deregister b l.queue id
  simp only [resumeWait]
  split
  · exact left
  · split
    · exact .refl b
    · split
      · exact left.trans ((within_afterCall l).trans (within_startPause id l))
      · exact .refl b

theorem within_dispatch (id : TaskId) (l : Loop) (e : Envelope) :
    Within l.queue b (b.dispatch id l e) := by
  simp only [dispatch, returnMessage]
  split
  · split
    · exact .refl b
    · exact within_abandon e
  · exact .refl b

theorem within_perform (id : TaskId) (l : Loop) (e : Envelope) (command : Command)
    (rest : List Command) : Within l.queue b (b.perform id l e command rest) := by
  cases command with
  | pause d =>
    simp only [perform]
    split <;> exact .refl b
  | complete => exact within_complete e
  | deadLetter => exact within_deadLetter e
  | abandon =>
    simp only [perform]
    split
    · exact within_startPause id l
    · exact within_abandon e
  | renew => exact within_renew e
  | endListen => exact within_endListen e.correlationId
  | close => exact within_closeQueue e.correlationId
  | send message => exact within_send e.correlationId message
  | replacePayload _ | remember _ | tally _ => exact .refl b
  | signal => exact .of_queues (queues_wakeAll ..)
  | fail reason => exact within_startPause id l

theorem within_stepLoop (id : TaskId) (l : Loop) : Within l.queue b (b.stepLoop id l) := by
  -- taken apart, so that the queue and the stage of the loop are variables
  obtain ⟨queue, correlationId, receiver, options, scope, faults, calls, notebook, stage⟩ := l
  cases stage with
  | starting | stopped => exact .refl b
  | checking =>
    simp only [stepLoop]
    split
    · exact .refl b
    · exact within_startCall id _
  | entering deadline => exact Within.register b queue id
  | looking deadline => exact within_look id _ deadline
  | waiting deadline => exact within_resumeWait id _ deadline
  | taken e => exact within_dispatch id _ e
  | handling e plan =>
    cases plan with
    | nil => exact within_startPause id _
    | cons command rest => exact within_perform id _ e command rest
  | delayed due e plan =>
    simp only [stepLoop]
    split <;> exact .refl b
  | pausing due =>
    simp only [stepLoop]
    split
    · exact .refl b
    · split <;> exact .refl b

/-! ## Actions -/

/-- The queue that an action works at.  Who stops a loop or gives it up works at no queue. -/
def siteOf? (b : Broker) : Action → Option QueueId
  | .ask q _ => some q
  | .turn id | .dropReceive id => b.station? id
  | .announce i => (b.owed[i]?).map (·.queue)
  | _ => none

/-- A queue as it is, and whether the listening there has been ended. -/
def sight? (b : Broker) (q : QueueId) : Option (Queue × Bool) :=
  (b.queue? q).map fun queue => (queue, b.isCancelled queue.scope)

theorem queue?_addQueue_of_lt (settings : Settings) (counters : Option Nat)
    (inside : q < b.queues.length) :
    (b.addQueue settings counters).1.queue? q = b.queue? q :=
  List.getElem?_append_left inside

theorem queue?_turn {id : TaskId} (elsewhere : b.station? id ≠ some q) :
    (b.turn id).queue? q = b.queue? q := by
  have stepped : (stepTask { b with ready := b.ready.erase id } id).queue? q = b.queue? q := by
    have same : ({ b with ready := b.ready.erase id } : Broker).task? id = b.task? id := rfl
    simp only [stepTask, same]
    simp only [station?] at elsewhere
    cases found : b.task? id with
    | none => rfl
    | some t =>
      have other : q ≠ t.queue := fun here => elsewhere (by rw [found, here]; rfl)
      cases t with
      | receive r => exact within_stepReceive id r q other
      | listen l => exact within_stepLoop id l q other
  simp only [turn]
  split
  · exact stepped
  · exact stepped

theorem queue?_dropReceive {id : TaskId} (elsewhere : b.station? id ≠ some q) :
    (b.dropReceive id).queue? q = b.queue? q := by
  simp only [dropReceive]
  split
  · rename_i r found
    refine Within.deregister b r.queue id q fun here => elsewhere ?_
    rw [station?, found, here]
    rfl
  · rfl

theorem queue?_announce {i : Nat} (elsewhere : (b.owed[i]?).map (·.queue) ≠ some q) :
    (b.announce i).queue? q = b.queue? q := by
  simp only [announce]
  cases owed : b.owed[i]? with
  | none => rfl
  | some a =>
    have other : q ≠ a.queue := fun here => elsewhere (by rw [owed, here]; rfl)
    -- Announcing is telling the receivers of one queue and counting for it.
    have told := (Within.notify { b with owed := b.owed.eraseIdx i } a.queue).trans
      (.of_queues (count_queues _ a.queue .sent a.count))
    exact told q other

/-- An action changes no queue but the one that it works at. -/
theorem queue?_act (inside : q < b.queues.length) {action : Action}
    (elsewhere : b.siteOf? action ≠ some q) : (b.act action).queue? q = b.queue? q := by
  cases action with
  | addCounters => rfl
  | newQueue name counters => exact queue?_addQueue_of_lt _ counters inside
  | newQueueOf settings counters =>
    rcases b.act_newQueueOf settings counters with refused | made
    · rw [refused]
    · rw [made]
      exact queue?_addQueue_of_lt settings counters inside
  | ask q' request =>
    simp only [act]
    split
    · exact within_ask request q fun here => elsewhere (here ▸ rfl)
    · rfl
  | dropReceive id => exact queue?_dropReceive elsewhere
  | stopLoop id =>
    simp only [act, stopLoop]
    split
    · rw [queue?, queues_cancel, queue?]
    · rfl
  | releaseLoop id =>
    simp only [act, releaseLoop]
    split
    · split <;> rfl
    · rfl
  | turn id => exact queue?_turn elsewhere
  | announce i => exact queue?_announce elsewhere
  | advance moment =>
    have queues : (b.advance moment).queues = b.queues := queues_wakeAll ..
    rw [act, queue?, queues, queue?]

theorem Scoped.isCancelled_queue (h : b.Scoped) {s : ScopeId} (has : b.scopeOf? q = some s)
    {action : Action} (goes : b.endsListening q action = false) :
    (b.act action).isCancelled s = b.isCancelled s := by
  obtain ⟨inside, top⟩ := h.root q s has
  cases kind : action.arranges with
  | true => exact (h.arrange kind).2.isCancelled s inside
  | false =>
    obtain ⟨s?, calm, which⟩ := b.calm_act kind
    -- A scope of a loop is no queue's, and a scope of a queue is no other queue's.
    have apart : s? ≠ some s := by
      intro cancels
      have loop {id : TaskId} {l : Loop} (there : b.loop? id = some l) : l.scope ≠ s := fun same =>
        (h.leaf id l.asStarted (origin?_of_loop? there)).1 q (same ▸ has)
      rcases which with ended | ⟨_, l, -, there, -, -, own⟩
      · rcases ended?_cases (ended.symm.trans cancels) with ⟨q', ends, has'⟩ | ⟨_, l, -, there, own⟩
        · obtain rfl := h.own q q' s has has'
          exact absurd (goes.symm.trans ends) Bool.false_ne_true
        · exact loop there own
      · exact loop there (Option.some.inj (own.symm.trans cancels))
    rw [isCancelled_eq calm.listening, Bool.eq_iff_iff,
      h.isCancelled_cancelIf (h.inside_of_cancels which)]
    refine ⟨fun either => either.elim (fun before => before) ?_, .inl⟩
    rintro ⟨p, cancels, rfl | below⟩
    · exact absurd cancels apart
    · rw [top] at below
      exact absurd below.symm (Option.some_ne_none p)

theorem siteOf?_of_endsListening {action : Action} (ends : b.endsListening q action) :
    b.siteOf? action = some q := by
  cases action with
  | ask q' request =>
    cases request with
    | closeQueue c | endListen c => exact congrArg some (of_decide_eq_true ends)
    | _ => simp [endsListening] at ends
  | turn id =>
    obtain ⟨l, there, rfl, -⟩ := endsListening_turn.1 ends
    exact station?_of_loop? there
  | _ => simp [endsListening] at ends

/-- A queue stays as it is while others work elsewhere. -/
theorem Scoped.sight?_act (h : b.Scoped) (inside : q < b.queues.length) {action : Action}
    (elsewhere : b.siteOf? action ≠ some q) : (b.act action).sight? q = b.sight? q := by
  have goes : b.endsListening q action = false :=
    Bool.eq_false_iff.2 fun ends => elsewhere (siteOf?_of_endsListening ends)
  simp only [sight?, queue?_act inside elsewhere]
  cases found : b.queue? q with
  | none => rfl
  | some queue =>
    have has : b.scopeOf? q = some queue.scope := by rw [scopeOf?, found]; rfl
    simp only [Option.map_some, h.isCancelled_queue has goes]

theorem Scoped.sight?_run (h : b.Scoped) (inside : q < b.queues.length) {actions : List Action}
    (elsewhere : ∀ step ∈ b.steps actions, step.1.siteOf? step.2 ≠ some q) :
    (b.run actions).sight? q = b.sight? q := by
  induction actions generalizing b with
  | nil => rfl
  | cons action rest ih =>
    have first : b.siteOf? action ≠ some q := elsewhere (b, action) (List.mem_cons_self ..)
    have later := ih (h.act action) (Nat.lt_of_lt_of_le inside (length_le_act b action))
      fun step member => elsewhere step (List.mem_cons_of_mem _ member)
    exact later.trans (h.sight?_act inside first)

/-! ## Tokens of other queues -/

/-- A token that a queue has minted is no other queue's. -/
theorem ownToken?_of_minted {start : Timestamp} {actions : List Action} {q' : QueueId}
    (other : q' ≠ q) {e : Envelope} {t : LockToken} (carries : e.reference = some t)
    (minted : t ∈ ((new start).accesses q' actions).filterMap Access.minted) :
    ownToken? q e = none := by
  have owner : t.owner = ownerOf q' := ((accounted_run start q' actions).mem_minted.1 minted).1
  have apart : ownerOf q' ≠ ownerOf q := fun same => other (Nat.succ.inj same)
  simp [ownToken?, carries, owner, apart]

/-- A token that is not its own means nothing to a queue. -/
theorem settle_of_not_own {e : Envelope} (foreign : ownToken? q e = none) :
    b.complete q e = (e, b) ∧ b.abandon q e = (e, b) ∧ b.deadLetter q e = (e, b) ∧
      b.renew q e = b := by
  simp only [complete, abandon, deadLetter, renew, foreign, and_self]

end Broker

end PeekLock
