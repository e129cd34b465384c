import PeekLock.Proofs.Broker.History

/-! # First in, first out

Messages enter the line of a queue at its end, by being sent, given back or swept,
and leave it at its front, by being handed out.  Nothing but the dropping of all
messages gets in between.  So what has been made visible since then is, in this
order, what has been handed out since and what is visible now: nothing is lost,
nothing is handed out twice, nothing overtakes.  The ingredient that is not obvious
is that a message in the line carries no token, or else it would not be the same
message once it is handed out and its token is taken off (`Storage.Sound`).
-/

namespace PeekLock

namespace Access

/-! ## What one call does to the line -/

/-- A call that does not drop all messages takes from the front what it hands out, and puts
    at the end what it makes visible. -/
theorem visible_after {a : Access} (sound : a.storage.Sound a.queue)
    (kept : a.call.isClear = false) :
    (a.delivered.toList.map Envelope.withoutReference) ++ a.after.visible =
      a.storage.visible ++ a.enqueued := by
  obtain ⟨q, now, s, call⟩ := a
  dsimp only at sound kept
  cases call with
  | send e => rfl
  | take timeout =>
    simp only [delivered, after, enqueued, List.append_nil]
    cases line : s.visible with
    | nil => simp [Storage.lockNext, line]
    | cons e rest =>
      -- Taking the token off again gives back the message that was in the line.
      have unlocked : e.reference = none :=
        sound.visible_unlocked e (line ▸ List.mem_cons_self ..)
      have same : ({ e with reference := none } : Envelope) = e := by
        rw [← unlocked]
      simp [Storage.lockNext, line, Envelope.withoutReference, same]
  | complete e | deadLetter e =>
    simp only [delivered, after, enqueued, List.append_nil]
    cases Broker.ownToken? q e <;> rfl
  | abandon e =>
    have stamped : Storage.stamp now e.withoutReference = Storage.stamp now e := rfl
    simp only [delivered, after, enqueued_abandon, lockOf?]
    cases Broker.ownToken? q e with
    | none => simp
    | some token =>
      simp only [Option.bind_some, Storage.abandon]
      cases s.lock? token with
      | none => simp
      | some lock =>
        by_cases expired : lock.HasExpired now
        · simp [expired, Storage.unlock]
        · simp [expired, Storage.unlock, Storage.enqueue, Storage.append, stamped]
  | renew e =>
    simp only [delivered, after, enqueued, List.append_nil]
    cases Broker.ownToken? q e with
    | none => rfl
    | some token =>
      simp only [Storage.renew]
      cases s.lock? token with
      | none => rfl
      | some lock => by_cases expired : lock.HasExpired now <;> simp [expired]
  | releaseExpired => rfl
  | clear => simp [Call.isClear] at kept

theorem visible_after_clear {a : Access} (clears : a.call.isClear) : a.after.visible = [] := by
  obtain ⟨q, now, s, call⟩ := a
  cases call with
  | clear => rfl
  | _ => simp [Call.isClear] at clears

/-- What is visible after a call was visible before or has just become so, in this order. -/
theorem visible_after_sublist {a : Access} (sound : a.storage.Sound a.queue) :
    a.after.visible.Sublist (a.storage.visible ++ a.enqueued) := by
  cases clears : a.call.isClear with
  | true =>
    rw [visible_after_clear clears]
    exact List.nil_sublist _
  | false =>
    rw [← visible_after sound clears]
    exact List.sublist_append_right ..

end Access

/-! ## Who is handed a message -/

namespace Broker

/-- The message that a task has just been handed: what a receive has ended with, or what a
    loop has taken for its receiver. -/
def handed? (b : Broker) (id : TaskId) : Option Envelope :=
  match b.task? id with
  | some (.receive r) =>
    match r.stage with
    | .ended message => message
    | _ => none
  | some (.listen l) =>
    match l.stage with
    | .taken e => some e
    | _ => none
  | none => none

theorem lockNext_delivered {b : Broker} {q : QueueId} {c : String} {timeout : Duration} :
    (b.lockNext q c timeout).map (·.1) = (b.access q (.take timeout)).delivered := by
  simp only [lockNext, Access.delivered, access]
  cases (b.storageOf q).lockNext (ownerOf q) b.time timeout <;> rfl

theorem callOfTask_take {b : Broker} {id : TaskId} {q : QueueId} {timeout : Duration}
    (looking : b.callOfTask id = some (q, .take timeout)) :
    (∃ r, b.task? id = some (.receive r) ∧ r.stage = .looking ∧ r.queue = q ∧ r.timeout = timeout) ∨
      ∃ l deadline, b.task? id = some (.listen l) ∧ l.stage = .looking deadline ∧ l.queue = q ∧
        l.options.receiveTimeout = timeout := by
  simp only [callOfTask] at looking
  cases found : b.task? id with
  | none => simp [found] at looking
  | some t =>
    cases t with
    | receive r =>
      cases stage : r.stage <;> simp [found, Receive.call?, stage] at looking
      exact .inl ⟨r, rfl, stage, looking.1, looking.2⟩
    | listen l =>
      refine .inr ⟨l, ?_⟩
      cases stage : l.stage with
      | looking deadline =>
        simp only [found, Loop.call?, stage, Option.map_some, Option.some.injEq, Prod.mk.injEq,
          Call.take.injEq] at looking
        exact ⟨deadline, rfl, rfl, looking.1, looking.2⟩
      | handling e plan =>
        cases plan with
        | nil => simp [found, Loop.call?, stage] at looking
        | cons command rest =>
          cases command <;> simp [found, Loop.call?, stage, Command.call?] at looking
      | _ => simp [found, Loop.call?, stage] at looking

/-- Looking for a message changes no task. -/
theorem task?_lockNext {b b' : Broker} {q : QueueId} {c : String} {timeout : Duration}
    {e : Envelope} (taken : b.lockNext q c timeout = some (e, b')) (id : TaskId) :
    b'.task? id = b.task? id :=
  (quiet_lockNext (x := none) taken).task id (Option.some_ne_none id)

theorem handed?_look {b : Broker} {id : TaskId} {l : Loop} (there : b.task? id = some (.listen l))
    (deadline : Nat) : (b.look id l deadline).handed? id =
      (b.lockNext l.queue l.correlationId l.options.receiveTimeout).map (·.1) := by
  simp only [look]
  cases taken : b.lockNext l.queue l.correlationId l.options.receiveTimeout with
  | none =>
    have waits : ((b.arm id deadline).setLoop id l (.waiting deadline)).task? id =
        some (.listen { l with stage := .waiting deadline }) := task?_setTask there _
    simp only [handed?, waits, Option.map_none]
  | some result =>
    obtain ⟨e, b'⟩ := result
    have still : ((b'.deregister l.queue id).afterCall l).task? id = some (.listen l) := by
      rw [(quiet_afterCall (x := none) l).task id (Option.some_ne_none id), ← there]
      exact task?_lockNext taken id
    have takes : (((b'.deregister l.queue id).afterCall l).setLoop id l (.taken e)).task? id =
        some (.listen { l with stage := .taken e }) := task?_setTask still _
    simp only [handed?, takes, Option.map_some]

theorem handed?_stepReceive {b : Broker} {id : TaskId} {r : Receive}
    (there : b.task? id = some (.receive r)) (looking : r.stage = .looking) :
    (b.stepReceive id r).handed? id =
      (b.lockNext r.queue r.correlationId r.timeout).map (·.1) := by
  simp only [stepReceive]
  rw [looking]
  dsimp only
  cases taken : b.lockNext r.queue r.correlationId r.timeout with
  | none =>
    have waits : ((b.arm id r.deadline).setReceive id r .waiting).task? id =
        some (.receive { r with stage := .waiting }) := task?_setTask there _
    simp only [handed?, waits, Option.map_none]
  | some result =>
    obtain ⟨e, b'⟩ := result
    have still : (b'.deregister r.queue id).task? id = some (.receive r) :=
      (task?_lockNext taken id).trans there
    have ends : ((b'.deregister r.queue id).endReceive id r (some e)).task? id =
        some (.receive { r with stage := .ended (some e) }) := task?_setTask still _
    simp only [handed?, ends, Option.map_some]

theorem handed?_stepTask (b : Broker) (id : TaskId) :
    (b.turn id).handed? id = (stepTask { b with ready := b.ready.erase id } id).handed? id := by
  simp only [handed?]
  rw [task?_turn]

/-- Whoever looks for a message in its turn, a receive or a loop, is handed what the call
    delivers. -/
theorem handed?_turn {b : Broker} {id : TaskId} {q : QueueId} {timeout : Duration}
    (looking : b.callOfTask id = some (q, .take timeout)) :
    (b.turn id).handed? id = (b.access q (.take timeout)).delivered := by
  rw [handed?_stepTask]
  -- Leaving the line makes no difference to what is found.
  change _ = (({ b with ready := b.ready.erase id } : Broker).access q (.take timeout)).delivered
  have here : ({ b with ready := b.ready.erase id } : Broker).callOfTask id =
      some (q, .take timeout) := looking
  generalize ({ b with ready := b.ready.erase id } : Broker) = b at here
  rcases callOfTask_take here with
    ⟨r, found, stage, rfl, rfl⟩ | ⟨l, deadline, found, stage, rfl, rfl⟩
  · rw [← lockNext_delivered (c := r.correlationId), ← handed?_stepReceive found stage]
    simp only [stepTask, found]
  · rw [← lockNext_delivered (c := l.correlationId), ← handed?_look found deadline]
    simp only [stepTask, found, stepLoop, stage]

end Broker

/-! ## Since the messages were last dropped -/

/-- The accesses since all messages were last dropped. -/
def Access.sinceClear (history : List Access) : List Access :=
  history.rtakeWhile fun a => !a.call.isClear

/-- What the accesses so far have made of the line of a queue: what they have made visible
    is what they have handed out, and after it what is visible now. -/
def Storage.Balanced (s : Storage) (history : List Access) : Prop :=
  (Access.sinceClear history).flatMap Access.enqueued =
    ((Access.sinceClear history).filterMap Access.delivered).map Envelope.withoutReference ++
      s.visible

theorem Storage.Balanced.after {a : Access} {history : List Access}
    (h : a.storage.Balanced history) (sound : a.storage.Sound a.queue) :
    a.after.Balanced (history ++ [a]) := by
  simp only [Balanced] at h ⊢
  cases clears : a.call.isClear with
  | true => simp [Access.sinceClear, clears, Access.visible_after_clear clears]
  | false =>
    have one : Access.sinceClear (history ++ [a]) = Access.sinceClear history ++ [a] := by
      simp [Access.sinceClear, clears]
    have taken : [a].filterMap Access.delivered = a.delivered.toList := by
      cases given : a.delivered <;> simp [given]
    calc (Access.sinceClear (history ++ [a])).flatMap Access.enqueued
        = (Access.sinceClear history).flatMap Access.enqueued ++ a.enqueued := by
          simp [one, List.flatMap_append]
      _ = ((Access.sinceClear history).filterMap Access.delivered).map Envelope.withoutReference ++
            (a.storage.visible ++ a.enqueued) := by
          rw [h, List.append_assoc]
      _ = ((Access.sinceClear history).filterMap Access.delivered).map Envelope.withoutReference ++
            (a.delivered.toList.map Envelope.withoutReference ++ a.after.visible) := by
          rw [Access.visible_after sound clears]
      _ = ((Access.sinceClear (history ++ [a])).filterMap Access.delivered).map
            Envelope.withoutReference ++ a.after.visible := by
          rw [one, List.filterMap_append, taken, List.map_append, List.append_assoc]

namespace Broker

/-- What has been made visible since the messages were last dropped is what has been handed
    out since, without the tokens, and after it what is visible now.  A sweep makes the
    messages of expired locks visible in the order of their tokens, and whoever looks for a
    message next, a receive or a loop, is handed what its call delivers. -/
theorem enqueued_eq_delivered_append_visible (start : Timestamp) (q : QueueId)
    (actions : List Action) :
    let b := (new start).run actions
    let history := (new start).accesses q actions
    let recent := Access.sinceClear history
    recent.flatMap Access.enqueued =
        (recent.filterMap Access.delivered).map Envelope.withoutReference ++
          (b.storageOf q).visible ∧
      (∀ a ∈ history,
        (a.storage.expired a.now).Pairwise fun x y => x.1.sequence < y.1.sequence) ∧
      ∀ id timeout, b.callOfTask id = some (q, .take timeout) →
        (b.turn id).handed? id = (b.access q (.take timeout)).delivered := by
  refine ⟨?_, fun a member => ?_, fun id timeout looking => handed?_turn looking⟩
  · exact (history_invariant (P := fun _ s history => s.Balanced history) rfl
      (fun _ _ _ _ _ h => h) (fun _ _ _ sound h => h.after sound) actions).2
  · have sound := (sound_of_mem_accesses member).2
    rw [sound.expired_eq_filter]
    exact sound.ascending.filter _

end Broker

end PeekLock
