import Mathlib.Data.List.Infix
import PeekLock.Proofs.Broker.Station

/-! # When a receive gives up

A receive is pending from the action that starts it until it is handed a message, runs out of
time, or is given up.  Meanwhile it may be told of messages and lose them to others any number of
times, and it looks again each time; but where it waits and until when is settled at the start
(`wait?_run`).  A turn in a pending receive goes one of four ways (`Turned`).  The ingredient
that is not obvious is that running out of time is looked at last: only a task that
is still to be told of messages does, and of such a task `Attended` says that there are none.
-/

namespace PeekLock

namespace Broker

variable {b : Broker} {id : TaskId} {w : Wait}

/-! ## Turns -/

/-- What the turn of a task does to its receive. -/
inductive Turned (b : Broker) (id : TaskId) (w : Wait) (b' : Broker) : Prop
  | goesOn (pending : b'.wait? id = some w)
  | handed (ended : b'.wait? id = none) (e : Envelope) (gets : b'.handed? id = some e)
  | timedOut (ended : b'.wait? id = none) (due : w.deadline ≤ b.now)
      (waits : b.awaiting? id = some w.queue) (registered : b.isRegistered w.queue id)
  | cancelled (ended : b'.wait? id = none) (l : Loop) (there : b.loop? id = some l)
      (dead : b.isCancelled l.scope)

theorem wait?_of_handed? {e : Envelope} (gets : b.handed? id = some e) : b.wait? id = none := by
  simp only [handed?] at gets
  simp only [wait?]
  cases found : b.task? id with
  | none => rfl
  | some t =>
    rw [found] at gets
    cases t with
    | receive r => cases stage : r.stage <;> simp_all [Task.wait?]
    | listen l => cases stage : l.stage <;> simp_all [Task.wait?]

theorem Turned.of_handed? {b' : Broker} {e : Envelope} (gets : b'.handed? id = some e) :
    Turned b id w b' :=
  .handed (wait?_of_handed? gets) e gets

theorem Turned.of_setTask (b' : Broker) {t₀ t : Task} (there : b'.task? id = some t₀)
    (same : t.wait? = some w) : Turned b id w (b'.setTask id t) := by
  refine .goesOn ?_
  rw [wait?, task?_setTask there]
  exact same

theorem turned_stepReceive {r : Receive} (there : b.task? id = some (.receive r))
    (pending : Task.wait? (.receive r) = some w) : Turned b id w (b.stepReceive id r) := by
  have same : w = ⟨r.queue, r.timeout, r.deadline⟩ := by
    simp only [Task.wait?] at pending
    split at pending <;> first | exact (Option.some.inj pending).symm | simp at pending
  subst same
  simp only [stepReceive]
  cases stage : r.stage with
  | entering => exact .of_setTask (b.register r.queue id) there rfl
  | looking =>
    have gets := handed?_stepReceive there stage
    simp only [stepReceive, stage] at gets
    dsimp only
    cases taken : b.lockNext r.queue r.correlationId r.timeout with
    | none => exact .of_setTask (b.arm id r.deadline) there rfl
    | some result =>
      rw [taken] at gets
      exact .of_handed? gets
  | waiting =>
    dsimp only
    -- Told of a message it looks again, even if its time has passed meanwhile.
    split
    · exact .of_setTask (b.disarm id) there rfl
    · rename_i told
      split
      · rename_i due
        refine .timedOut (wait?_setTask (b := b.unawait r.queue id) rfl) due ?_
          (by simpa using told)
        simp only [awaiting?, there, Option.bind_some, Task.awaiting?, stage]
      · exact .goesOn (by rw [wait?, there]; exact pending)
  | ended _ | dropped => simp [Task.wait?, stage] at pending

theorem turned_stepLoop {l : Loop} (there : b.task? id = some (.listen l))
    (pending : Task.wait? (.listen l) = some w) : Turned b id w (b.stepLoop id l) := by
  simp only [stepLoop]
  cases stage : l.stage with
  | entering deadline =>
    obtain rfl : _ = w := by simpa [Task.wait?, stage] using pending
    exact .of_setTask (b.register l.queue id) there rfl
  | looking deadline =>
    obtain rfl : _ = w := by simpa [Task.wait?, stage] using pending
    have gets := handed?_look there deadline
    simp only [look] at gets ⊢
    cases taken : b.lockNext l.queue l.correlationId l.options.receiveTimeout with
    | none => exact .of_setTask (b.arm id deadline) there rfl
    | some result =>
      rw [taken] at gets
      exact .of_handed? gets
  | waiting deadline =>
    obtain rfl : _ = w := by simpa [Task.wait?, stage] using pending
    simp only [resumeWait]
    -- That the loop is cancelled comes before everything else, and the time comes last.
    split
    · rename_i dead
      exact .cancelled (wait?_stop l) l (loop?_eq_some.2 there) dead
    · split
      · exact .of_setTask (b.disarm id) there rfl
      · rename_i told
        split
        · rename_i due
          refine .timedOut (wait?_startPause l) due ?_ (by simpa using told)
          simp only [awaiting?, there, Option.bind_some, Task.awaiting?, stage]
        · exact .goesOn (by rw [wait?, there]; exact pending)
  | _ => simp [Task.wait?, stage] at pending

theorem turned_turn (pending : b.wait? id = some w) : Turned b id w (b.turn id) := by
  obtain ⟨t, there, within⟩ := Option.bind_eq_some_iff.1 pending
  let left : Broker := { b with ready := b.ready.erase id }
  have here : left.task? id = some t := there
  have stepped : Turned left id w (left.stepTask id) := by
    cases t with
    | receive r =>
      rw [show left.stepTask id = left.stepReceive id r by simp only [stepTask, here]]
      exact turned_stepReceive here within
    | listen l =>
      rw [show left.stepTask id = left.stepLoop id l by simp only [stepTask, here]]
      exact turned_stepLoop here within
  have wait : (b.turn id).wait? id = (left.stepTask id).wait? id := by
    rw [wait?, task?_turn, wait?]
  have handed : (b.turn id).handed? id = (left.stepTask id).handed? id := b.handed?_stepTask id
  cases stepped with
  | goesOn pending => exact .goesOn (wait.trans pending)
  | handed ended e gets => exact .handed (wait.trans ended) e (handed.trans gets)
  | timedOut ended due waits registered => exact .timedOut (wait.trans ended) due waits registered
  | cancelled ended l there dead => exact .cancelled (wait.trans ended) l there dead

/-! ## Pending receives -/

theorem wait?_dropReceive (b : Broker) (id : TaskId) :
    (b.dropReceive id).wait? id = b.wait? id ∨ (b.dropReceive id).wait? id = none := by
  simp only [dropReceive]
  split
  · exact .inr (wait?_setTask rfl)
  · exact .inl rfl

/-- Whatever happens, a pending receive is over or is what it was. -/
theorem wait?_act (pending : b.wait? id = some w) (action : Action) :
    (b.act action).wait? id = some w ∨ (b.act action).wait? id = none := by
  by_cases turn : action = .turn id
  · subst turn
    cases turned_turn pending with
    | goesOn pending => exact .inl pending
    | handed ended _ _ => exact .inr ended
    | timedOut ended _ _ _ => exact .inr ended
    | cancelled ended _ _ _ => exact .inr ended
  · by_cases drop : action = .dropReceive id
    · subst drop
      exact (b.wait?_dropReceive id).imp_left (·.trans pending)
    · obtain ⟨t, there, _⟩ := Option.bind_eq_some_iff.1 pending
      rw [wait?, task?_act turn drop (not_starts_of_task? there action)]
      exact .inl pending

theorem eq_turn_of_over (pending : b.wait? id = some w) (action : Action)
    (held : action ≠ .dropReceive id) (ended : (b.act action).wait? id = none) :
    action = .turn id := by
  by_contra turn
  obtain ⟨t, there, _⟩ := Option.bind_eq_some_iff.1 pending
  rw [wait?, task?_act turn held (not_starts_of_task? there action)] at ended
  rw [wait?, ended] at pending
  exact Option.some_ne_none w pending.symm

/-- Whether the receive of a task is pending all the time. -/
def pends (b : Broker) (id : TaskId) : List Action → Bool
  | [] => (b.wait? id).isSome
  | action :: rest => (b.wait? id).isSome && (b.act action).pends id rest

/-- A receive keeps its queue and its deadline for as long as it is pending, whoever else is
    handed the messages. -/
theorem wait?_run (pending : b.wait? id = some w) {actions : List Action}
    (pends : b.pends id actions) : (b.run actions).wait? id = some w := by
  induction actions generalizing b with
  | nil => exact pending
  | cons action rest ih =>
    simp only [Broker.pends, Bool.and_eq_true] at pends
    refine ih ?_ pends.2
    rcases wait?_act pending action with same | ended
    · exact same
    · -- What is over now is not pending when the rest begins.
      cases rest <;> simp [Broker.pends, ended] at pends

theorem pends_or_over (pending : b.wait? id = some w) (actions : List Action) :
    b.pends id actions ∨ ∃ front action, front ++ [action] <+: actions ∧ b.pends id front ∧
      ((b.run front).act action).wait? id = none := by
  induction actions generalizing b with
  | nil => simp [pends, pending]
  | cons action rest ih =>
    rcases wait?_act pending action with same | ended
    · rcases ih same with lasts | ⟨front, last, first, lasts, ended⟩
      · exact .inl (by simp [pends, pending, lasts])
      · refine .inr ⟨action :: front, last, ?_, by simp [pends, pending, lasts], ended⟩
        exact List.prefix_cons_inj action |>.2 first
    · exact .inr ⟨[], action, ⟨rest, rfl⟩, by simp [pends, pending], ended⟩

/-! ## The start of a receive -/

/-- A loop starts a receive at the top of a round, and nowhere else. -/
theorem begins_stepLoop {l : Loop} (there : b.task? id = some (.listen l))
    (idle : Task.wait? (.listen l) = none) (begins : (b.stepLoop id l).wait? id = some w) :
    w.deadline = b.deadlineAfter w.timeout ∧ l.stage = .checking := by
  have same : b.wait? id = none := by rw [wait?, there]; exact idle
  have never {b' : Broker} (ended : b'.wait? id = none) : b'.wait? id ≠ some w := by simp [ended]
  simp only [stepLoop] at begins
  cases stage : l.stage with
  | starting =>
    rw [stage] at begins
    exact absurd begins (never (wait?_setTask rfl))
  | checking =>
    rw [stage] at begins
    dsimp only at begins
    split at begins
    · exact absurd begins (never (wait?_stop l))
    · simp only [startCall] at begins
      split at begins
      · exact absurd begins (never (wait?_startPause _))
      · rw [wait?, setLoop, task?_setTask there] at begins
        obtain rfl := Option.some.inj begins
        exact ⟨rfl, rfl⟩
  | entering deadline | looking deadline | waiting deadline => simp [Task.wait?, stage] at idle
  | taken e =>
    rw [stage] at begins
    exact absurd begins (never (wait?_dispatch l e))
  | handling e plan =>
    rw [stage] at begins
    cases plan with
    | nil => exact absurd begins (never (wait?_startPause l))
    | cons command rest => exact absurd begins (never (wait?_perform l e command rest))
  | delayed due e plan =>
    rw [stage] at begins
    dsimp only at begins
    split at begins
    · exact absurd begins (never (wait?_setTask rfl))
    · exact absurd begins (never same)
  | pausing due =>
    rw [stage] at begins
    dsimp only at begins
    split at begins
    · exact absurd begins (never (wait?_stop l))
    · split at begins
      · exact absurd begins (never (wait?_setTask rfl))
      · exact absurd begins (never same)
  | stopped =>
    rw [stage] at begins
    exact absurd begins (never same)

theorem begins_turn (idle : b.wait? id = none) (begins : (b.turn id).wait? id = some w) :
    w.deadline = b.deadlineAfter w.timeout ∧ b.callOfTask id = none := by
  let left : Broker := { b with ready := b.ready.erase id }
  have begins : (left.stepTask id).wait? id = some w := by
    rw [← begins, wait?, wait?, task?_turn]
  cases there : b.task? id with
  | none =>
    have here : left.task? id = none := there
    simp [stepTask, here, wait?] at begins
  | some t =>
    have here : left.task? id = some t := there
    rw [wait?, there] at idle
    cases t with
    | receive r =>
      -- a receive that is over takes no steps
      have same : left.stepReceive id r = left := by
        simp only [stepReceive]
        cases stage : r.stage <;> first | rfl | simp [Task.wait?, stage] at idle
      simp only [stepTask, here, same, wait?, Option.bind_some] at begins
      exact absurd (begins.symm.trans idle) (Option.some_ne_none w)
    | listen l =>
      simp only [stepTask, here] at begins
      obtain ⟨deadline, stage⟩ := begins_stepLoop here idle begins
      exact ⟨deadline, by simp only [callOfTask, there, Loop.call?, stage, Option.map_none]⟩

/-- An action that starts a receive settles when it ends, and makes no call. -/
theorem begins_act (idle : b.wait? id = none) {action : Action}
    (begins : (b.act action).wait? id = some w) :
    w.deadline = b.deadlineAfter w.timeout ∧ ∃ x, Quiet x b (b.act action) := by
  by_cases turn : action = .turn id
  · subst turn
    obtain ⟨deadline, silent⟩ := begins_turn idle begins
    have quiet := b.quiet_turn id
    rw [silent] at quiet
    exact ⟨deadline, _, quiet⟩
  · by_cases drop : action = .dropReceive id
    · subst drop
      have ended : (b.dropReceive id).wait? id = none :=
        (b.wait?_dropReceive id).elim (·.trans idle) fun ended => ended
      exact absurd (begins.symm.trans ended) (Option.some_ne_none w)
    · by_cases starts : b.Starts action id
      · obtain ⟨t, there, _, _, settled⟩ := starts.task?
        obtain ⟨q, request, rfl, inside, starts, _⟩ := starts
        rw [wait?, there] at begins
        refine ⟨settled w begins, some b.tasks.length, ?_⟩
        have quiet := quiet_ask (b := b) (q := q) request
        have silent : request.call? = none := by
          cases request <;> first | rfl | simp [Request.starts] at starts
        rw [silent] at quiet
        rw [act, if_pos inside]
        exact quiet
      · rw [wait?, task?_act turn drop starts] at begins
        exact absurd (begins.symm.trans idle) (Option.some_ne_none w)

/-- Whether the machine's clock can show the end of a wait that begins now. -/
def Shows (b : Broker) (d : Duration) : Prop :=
  secondsBefore + b.now / 1000 + d.seconds ≤ maxSigned64

instance (b : Broker) (d : Duration) : Decidable (b.Shows d) :=
  inferInstanceAs (Decidable (_ ≤ _))

/-- A wait that begins now does not end before its time has passed, in nanoseconds; one whose end
    cannot be shown takes thirty years. -/
theorem deadlineAfter_spec (b : Broker) (d : Duration) :
    if b.Shows d then b.now * 1000000 + d.nanoseconds ≤ b.deadlineAfter d * 1000000
      else b.deadlineAfter d = b.now + 30 * 365 * 86400 * 1000 := by
  have rounded : d.nanoseconds ≤ d.ceilMillis * 1000000 := by
    simp only [Duration.ceilMillis]
    omega
  by_cases shown : b.Shows d
  · have rounds : b.deadlineAfter d = b.now + d.ceilMillis := congrArg (b.now + ·) (if_pos shown)
    rw [if_pos shown, rounds]
    omega
  · rw [if_neg shown]
    exact congrArg (b.now + ·) (if_neg shown)

/-! ## What a receive changes -/

/-- No message, lock, token or counter is different. -/
structure Spares (b b' : Broker) : Prop where
  storageOf : ∀ q, b'.storageOf q = b.storageOf q
  counters : b'.counters = b.counters

theorem Spares.of_quiet {x : Option TaskId} {b' : Broker} (quiet : Quiet x b b') : Spares b b' :=
  ⟨quiet.storageOf, quiet.counters⟩

theorem callOfTask_of_wait? (pending : b.wait? id = some w) :
    b.callOfTask id = none ∨ b.callOfTask id = some (w.queue, .take w.timeout) := by
  simp only [wait?] at pending
  simp only [callOfTask]
  cases there : b.task? id with
  | none => exact .inl rfl
  | some t =>
    rw [there] at pending
    cases t with
    | receive r =>
      cases stage : r.stage with
      | looking =>
        obtain rfl : _ = w := by simpa [Task.wait?, stage] using pending
        exact .inr (by simp [Receive.call?, stage])
      | _ => exact .inl (by simp [Receive.call?, stage])
    | listen l =>
      cases stage : l.stage with
      | looking deadline =>
        obtain rfl : _ = w := by simpa [Task.wait?, stage] using pending
        exact .inr (by simp [Loop.call?, stage])
      | entering deadline | waiting deadline => exact .inl (by simp [Loop.call?, stage])
      | _ => simp [Task.wait?, stage] at pending

/-- A turn in which a receive is handed nothing changes nothing at the messages. -/
theorem spares_turn (pending : b.wait? id = some w) (nothing : (b.turn id).handed? id = none) :
    Spares b (b.turn id) := by
  have quiet : Quiet (some id) (b.commit (b.callOfTask id)) (b.turn id) := quiet_turn id
  -- Where the call of the turn delivers nothing, it has found no message to lock.
  have idle : b.commit (b.callOfTask id) = b := by
    rcases callOfTask_of_wait? pending with silent | looking
    · rw [silent]
      rfl
    · rw [handed?_turn looking, ← lockNext_delivered (c := ""), Option.map_eq_none_iff] at nothing
      rw [looking]
      exact (commit_take_of_none nothing).1
  rw [idle] at quiet
  exact .of_quiet quiet

/-! ## The end of a receive -/

/-- The task is no loop that has been cancelled. -/
def Live (b : Broker) (id : TaskId) : Prop :=
  ∀ l, b.loop? id = some l → b.isCancelled l.scope = false

/-- All messages of a queue that have become visible are announced: whoever made them visible is
    done. -/
def Announced (b : Broker) (q : QueueId) : Prop :=
  ∀ a ∈ b.owed, a.queue ≠ q

/-- A receive that is over without a message has run out of time, and found none. -/
theorem timedOut_of_nothing (attended : b.Attended id) (pending : b.wait? id = some w)
    (live : b.Live id) (ended : (b.turn id).wait? id = none)
    (nothing : (b.turn id).handed? id = none) :
    w.deadline ≤ b.now ∧ (b.Announced w.queue → (b.storageOf w.queue).visible = []) := by
  cases turned_turn pending with
  | goesOn pending => simp [ended] at pending
  | handed _ e gets => simp [nothing] at gets
  | cancelled _ l there dead => simp [live l there] at dead
  | timedOut _ due waits registered =>
    -- It has been told of nothing since it looked, and nobody is still to tell it.
    refine ⟨due, fun announced => ?_⟩
    rcases attended.told w.queue waits registered with empty | ⟨a, owed, here⟩
    · exact empty
    · exact absurd here (announced a owed)

/-- The schedule ends a receive only by a turn of its own, and gives no turn before all
    announcements are made. -/
theorem tick_of_over (pending : b.wait? id = some w) (ended : b.tick.wait? id = none) :
    b.owed = [] ∧ b.tick = b.turn id := by
  simp only [tick] at ended ⊢
  split at ended
  · have same := eq_turn_of_over pending (.announce 0) nofun ended
    simp at same
  · rename_i first _ nothing _
    have same := eq_turn_of_over pending (.turn first) nofun ended
    obtain rfl := Action.turn.inj same
    exact ⟨nothing, rfl⟩
  · simp [pending] at ended

/-- Nothing keeps a task from the messages of a queue while its receive is pending: there are some,
    they are announced when it takes its turn, and neither is it given up nor its loop
    cancelled. -/
structure Unhindered (b : Broker) (id : TaskId) (q : QueueId) (actions : List Action) : Prop where
  visible : ∀ front, front <+: actions → b.pends id front → ((b.run front).storageOf q).visible ≠ []
  announced : ∀ front, front ++ [.turn id] <+: actions → b.pends id front →
    (b.run front).Announced q
  held : ∀ front, front ++ [.dropReceive id] <+: actions → ¬ b.pends id front
  live : ∀ front, front <+: actions → b.pends id front → (b.run front).Live id

/-- A receive that nothing keeps from the messages is handed one before all is blocked. -/
theorem handed_of_unhindered {start : Timestamp} {actions more : List Action}
    (pending : ((new start).run actions).wait? id = some w)
    (unhindered : ((new start).run actions).Unhindered id w.queue more)
    (blocked : (((new start).run actions).run more).isBlocked) :
    let b := (new start).run actions
    ∃ front, front ++ [.turn id] <+: more ∧ b.pends id front ∧
      ∃ e, ((b.run front).turn id).handed? id = some e := by
  intro b
  have attended (front : List Action) : (b.run front).Attended id := by
    have reached := attended_run start (actions ++ front) id
    rwa [run_append] at reached
  rcases pends_or_over pending more with lasts | ⟨front, action, first, lasts, ended⟩
  · -- Where all are blocked nobody waits beside a message.
    have still := wait?_run pending lasts
    have visible := unhindered.visible more (List.prefix_refl _) lasts
    refine absurd ?_ ((attended more).receiving?_ne blocked visible)
    rw [receiving?_eq, still, Option.map_some]
  · have still := wait?_run pending lasts
    have sooner : front <+: more := (List.prefix_append front [action]).trans first
    obtain rfl := eq_turn_of_over still action
      (fun drop => unhindered.held front (drop ▸ first) lasts) ended
    refine ⟨front, first, lasts, ?_⟩
    cases gets : ((b.run front).turn id).handed? id with
    | some e => exact ⟨e, rfl⟩
    | none =>
      have live := unhindered.live front sooner lasts
      have empty := (timedOut_of_nothing (attended front) still live ended gets).2
        (unhindered.announced front first lasts)
      exact absurd empty (unhindered.visible front sooner lasts)

end Broker

end PeekLock
