import PeekLock.Proofs.Broker.Station
import PeekLock.Proofs.Envelope.Reference
import PeekLock.Proofs.Queue.Fate

/-! # Where tokens come from

An envelope in the hands of a task has either just been delivered by the call of its
turn, or the task has had it before, and has done to it no more than an edit does or a
settlement, which takes the token off (`inHand?_turn`).  So a token in anybody's hands
can be traced back to the delivery that minted it, `Stems`, through all copies and
edits.
-/

namespace PeekLock

/-- The envelope that a task has in its hands: the message with which a receive has ended, or the
    one that a loop has taken, for as long as its receiver works on it. -/
def Task.inHand? : Task → Option Envelope
  | .receive r =>
    match r.stage with
    | .ended message => message
    | _ => none
  | .listen l =>
    match l.stage with
    | .taken e | .handling e _ | .delayed _ e _ => some e
    | _ => none

/-- A token was minted for the message that an access has delivered, and the envelope descends
    from this. -/
def Stems (history : List Access) (t : LockToken) (e : Envelope) : Prop :=
  ∃ a ∈ history, ∃ e₀, a.delivered = some e₀ ∧ e₀.reference = some t ∧ e₀.Descends e

namespace Stems

variable {history : List Access} {t : LockToken} {e e' : Envelope}

theorem append (stems : Stems history t e) (more : List Access) : Stems (history ++ more) t e := by
  obtain ⟨a, member, rest⟩ := stems
  exact ⟨a, List.mem_append_left _ member, rest⟩

theorem descends (stems : Stems history t e) (descends : e.Descends e') : Stems history t e' := by
  obtain ⟨a, member, e₀, delivered, carries, before⟩ := stems
  exact ⟨a, member, e₀, delivered, carries, before.trans descends⟩

theorem mem_minted (stems : Stems history t e) : t ∈ history.filterMap Access.minted := by
  obtain ⟨a, member, e₀, delivered, carries, _⟩ := stems
  refine List.mem_filterMap.2 ⟨a, member, ?_⟩
  rw [Access.minted, delivered]
  exact carries

end Stems

namespace Broker

variable {b : Broker} {id : TaskId} {q : QueueId} {e e' : Envelope} {t : LockToken}

def inHand? (b : Broker) (id : TaskId) : Option Envelope :=
  (b.task? id).bind Task.inHand?

/-! ## Settling -/

theorem complete_fst (b : Broker) (q : QueueId) (e : Envelope) :
    (b.complete q e).1 = e ∨ (b.complete q e).1 = e.withoutReference := by
  simp only [complete]
  split
  · exact .inl rfl
  · split <;> exact .inr rfl

theorem deadLetter_fst (b : Broker) (q : QueueId) (e : Envelope) :
    (b.deadLetter q e).1 = e ∨ (b.deadLetter q e).1 = e.withoutReference := by
  simp only [deadLetter]
  split
  · exact .inl rfl
  · split <;> exact .inr rfl

theorem abandon_fst (b : Broker) (q : QueueId) (e : Envelope) :
    (b.abandon q e).1 = e ∨ (b.abandon q e).1 = e.withoutReference := by
  simp only [abandon]
  split
  · exact .inl rfl
  · split <;> exact .inr rfl

/-! ## Turns -/

/-- The task has nothing in its hands after a step but what a call of the step has delivered, or
    what it had before, edited or without token. -/
def Hands (b b' : Broker) (id : TaskId) : Prop :=
  ∀ e', b'.inHand? id = some e' →
    (∃ q timeout, b.callOfTask id = some (q, .take timeout) ∧
      (b.access q (.take timeout)).delivered = some e') ∨
    ∃ e, b.inHand? id = some e ∧ (e.Descends e' ∨ e'.reference = none)

theorem hands_refl (b : Broker) (id : TaskId) : Hands b b id :=
  fun e' hand => .inr ⟨e', hand, .inl (.refl e')⟩

theorem inHand?_setTask {task : Task} (hand : (b.setTask id task).inHand? id = some e) :
    task.inHand? = some e := by
  simp only [inHand?, task?, setTask, List.getElem?_set_self'] at hand
  cases found : b.tasks[id]? with
  | none => simp [found] at hand
  | some _ => simpa [found] using hand

theorem hands_of_empty (b' : Broker) (task : Task) (empty : task.inHand? = none) :
    Hands b (b'.setTask id task) id := by
  intro e' hand
  simp [inHand?_setTask hand] at empty

theorem hands_of_handed (b' : Broker) {task : Task} (had : b.inHand? id = some e)
    (has : task.inHand? = some e') (follows : e.Descends e' ∨ e'.reference = none) :
    Hands b (b'.setTask id task) id := by
  intro e'' hand
  obtain rfl : e' = e'' := Option.some.inj (has.symm.trans (inHand?_setTask hand))
  exact .inr ⟨e, had, follows⟩

theorem hands_startPause (b' : Broker) (l : Loop) : Hands b (b'.startPause id l) id := by
  simp only [startPause]
  split
  · exact hands_of_empty b' (.listen { l with stage := .stopped }) rfl
  · split
    · exact hands_of_empty b' _ rfl
    · exact hands_of_empty (b'.arm id _) _ rfl

theorem hands_stepReceive {r : Receive} (there : b.task? id = some (.receive r)) :
    Hands b (b.stepReceive id r) id := by
  simp only [stepReceive]
  cases stage : r.stage with
  | entering => exact hands_of_empty (b.register r.queue id) _ rfl
  | looking =>
    dsimp only
    cases taken : b.lockNext r.queue r.correlationId r.timeout with
    | none => exact hands_of_empty (b.arm id r.deadline) _ rfl
    | some result =>
      intro e' hand
      left
      have message : some result.1 = some e' :=
        inHand?_setTask (b := result.2.deregister r.queue id) hand
      refine ⟨r.queue, r.timeout, ?_, ?_⟩
      · simp only [callOfTask, there, Receive.call?, stage, Option.map_some]
      · rw [← lockNext_delivered (c := r.correlationId), taken]
        exact message
  | waiting =>
    dsimp only
    split
    · exact hands_of_empty (b.disarm id) _ rfl
    · split
      · exact hands_of_empty (b.unawait r.queue id) (.receive { r with stage := .ended none }) rfl
      · exact hands_refl b id
  | ended _ | dropped => exact hands_refl b id

theorem hands_dispatch {l : Loop} (hand : b.inHand? id = some e) :
    Hands b (b.dispatch id l e) id := by
  simp only [dispatch]
  split
  · exact hands_of_empty (b.returnMessage l e) (.listen { l with stage := .stopped }) rfl
  · exact hands_of_handed (b.note _) hand rfl (.inl (.refl e))

theorem hands_perform {l : Loop} (hand : b.inHand? id = some e) (command : Command)
    (rest : List Command) : Hands b (b.perform id l e command rest) id := by
  -- Settled by its receiver, the message is as it was, or it has lost its token.
  have settled {e' : Envelope} (b' : Broker) (either : e' = e ∨ e' = e.withoutReference) :
      Hands b (b'.setLoop id l (.handling e' rest)) id := by
    refine hands_of_handed b' hand rfl ?_
    rcases either with rfl | rfl
    · exact .inl (.refl _)
    · exact .inr rfl
  cases command with
  | pause d =>
    simp only [perform]
    split
    · exact settled b (.inl rfl)
    · exact hands_of_handed (b.arm id _) hand rfl (.inl (.refl e))
  | complete => exact settled _ (complete_fst b l.queue e)
  | deadLetter => exact settled _ (deadLetter_fst b l.queue e)
  | abandon =>
    simp only [perform]
    split
    · exact hands_startPause (b.note _) l
    · exact settled _ (abandon_fst b l.queue e)
  | renew | endListen | close | send message => exact settled _ (.inl rfl)
  | replacePayload payload =>
    exact hands_of_handed b hand rfl (.inl (.edit e (.setPayload payload)))
  | remember payload | tally completed => exact hands_of_handed b hand rfl (.inl (.refl e))
  | signal => exact hands_of_handed (b.wakeAll _) hand rfl (.inl (.refl e))
  | fail reason => exact hands_startPause (b.note _) l

theorem hands_stepLoop {l : Loop} (there : b.task? id = some (.listen l)) :
    Hands b (b.stepLoop id l) id := by
  simp only [stepLoop]
  cases stage : l.stage with
  | starting => exact hands_of_empty (b.note _) _ rfl
  | checking =>
    dsimp only
    split
    · exact hands_of_empty b (.listen { l with stage := .stopped }) rfl
    · simp only [startCall]
      split
      · exact hands_startPause _ _
      · exact hands_of_empty b _ rfl
  | entering deadline => exact hands_of_empty (b.register l.queue id) _ rfl
  | looking deadline =>
    simp only [look]
    cases taken : b.lockNext l.queue l.correlationId l.options.receiveTimeout with
    | none => exact hands_of_empty (b.arm id deadline) _ rfl
    | some result =>
      intro e' hand
      left
      have message : some result.1 = some e' := inHand?_setTask hand
      refine ⟨l.queue, l.options.receiveTimeout, ?_, ?_⟩
      · simp only [callOfTask, there, Loop.call?, stage, Option.map_some]
      · rw [← lockNext_delivered (c := l.correlationId), taken]
        exact message
  | waiting deadline =>
    simp only [resumeWait]
    split
    · exact hands_of_empty (b.unawait l.queue id) (.listen { l with stage := .stopped }) rfl
    · split
      · exact hands_of_empty (b.disarm id) _ rfl
      · split
        · exact hands_startPause _ l
        · exact hands_refl b id
  | taken e =>
    refine hands_dispatch ?_
    simp only [inHand?, there, Option.bind_some, Task.inHand?, stage]
  | handling e plan =>
    have hand : b.inHand? id = some e := by
      simp only [inHand?, there, Option.bind_some, Task.inHand?, stage]
    cases plan with
    | nil => exact hands_startPause b l
    | cons command rest => exact hands_perform hand command rest
  | delayed due e plan =>
    dsimp only
    split
    · refine hands_of_handed b (e := e) ?_ rfl (.inl (.refl e))
      simp only [inHand?, there, Option.bind_some, Task.inHand?, stage]
    · exact hands_refl b id
  | pausing due =>
    dsimp only
    split
    · exact hands_of_empty (b.disarm id) (.listen { l with stage := .stopped }) rfl
    · split
      · exact hands_of_empty b _ rfl
      · exact hands_refl b id
  | stopped => exact hands_refl b id

theorem hands_turn (b : Broker) (id : TaskId) : Hands b (b.turn id) id := by
  have stepped : Hands b (stepTask { b with ready := b.ready.erase id } id) id := by
    have same : ({ b with ready := b.ready.erase id } : Broker).task? id = b.task? id := rfl
    simp only [stepTask, same]
    cases there : b.task? id with
    | none => exact hands_refl b id
    | some t =>
      cases t with
      | receive r => exact hands_stepReceive (b := { b with ready := b.ready.erase id }) there
      | listen l => exact hands_stepLoop (b := { b with ready := b.ready.erase id }) there
  intro e' hand
  refine stepped e' ?_
  rw [inHand?, task?_turn] at hand
  exact hand

/-! ## Other actions -/

theorem inHand?_act {action : Action} (idle : action ≠ .turn id)
    (hand : (b.act action).inHand? id = some e) : b.inHand? id = some e := by
  by_cases drop : action = .dropReceive id
  · subst drop
    simp only [act, dropReceive] at hand
    split at hand
    · rename_i r _
      have none : (Task.receive { r with stage := .dropped }).inHand? = .none := rfl
      simp [inHand?_setTask hand] at none
    · exact hand
  · by_cases starts : b.Starts action id
    · -- A task that has not taken a step has not taken a message either.
      obtain ⟨t, there, _, new, _⟩ := starts.task?
      simp only [inHand?, there, Option.bind_some] at hand
      cases t with
      | receive r => cases stage : r.stage <;> simp [Task.isNew, Task.inHand?, stage] at new hand
      | listen l => cases stage : l.stage <;> simp [Task.isNew, Task.inHand?, stage] at new hand
    · rwa [inHand?, task?_act idle drop starts] at hand

/-! ## Runs -/

/-- A token in the hands of a task stems from a delivery at some queue. -/
theorem stems_of_inHand? {start : Timestamp} {actions : List Action}
    (hand : ((new start).run actions).inHand? id = some e) (carries : e.reference = some t) :
    ∃ q, Stems ((new start).accesses q actions) t e := by
  induction actions using List.reverseRecOn generalizing e with
  | nil => simp [inHand?, task?, new] at hand
  | append_singleton front action ih =>
    simp only [run_append, run_cons, run_nil] at hand
    simp only [accesses_append, accesses, List.append_nil]
    by_cases turn : action = .turn id
    · subst turn
      rcases hands_turn _ id e hand with
        ⟨q, timeout, calls, delivered⟩ | ⟨e₀, before, descends | none⟩
      · -- The call of this turn has delivered it.
        refine ⟨q, _, List.mem_append_right _ ?_, e, delivered, carries, .refl e⟩
        have calls : ((new start).run front).callOf (.turn id) = some (q, .take timeout) := calls
        have made : ((new start).run front).access? q (.turn id) =
            some (((new start).run front).access q (.take timeout)) := by
          rw [access?, calls, accessAt, if_pos ⟨rfl, inside_of_callOf calls⟩]
        rw [made]
        exact List.mem_singleton_self _
      · -- The task has had what it descends from, and under the same token.
        obtain ⟨q, stems⟩ := ih before (descends.reference carries)
        exact ⟨q, (stems.descends descends).append _⟩
      · simp [none] at carries
    · obtain ⟨q, stems⟩ := ih (inHand?_act turn hand) carries
      exact ⟨q, stems.append _⟩

theorem inside_of_mem_accesses {start : Timestamp} {actions : List Action} {a : Access}
    (member : a ∈ (new start).accesses q actions) :
    q < ((new start).run actions).queues.length := by
  induction actions using List.reverseRecOn with
  | nil => exact (List.not_mem_nil member).elim
  | append_singleton front action ih =>
    simp only [accesses_append, accesses, List.append_nil] at member
    simp only [run_append, run_cons, run_nil]
    refine Nat.lt_of_lt_of_le ?_ (length_le_act _ action)
    rcases List.mem_append.1 member with old | new
    · exact ih old
    · have made : ((Broker.new start).run front).accessAt q
          (((Broker.new start).run front).callOf action) = some a := Option.mem_toList.1 new
      obtain ⟨call, calls, _⟩ := accessAt_eq_some made
      exact inside_of_callOf calls

end Broker

end PeekLock
