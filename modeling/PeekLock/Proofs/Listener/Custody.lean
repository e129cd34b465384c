import Mathlib.Logic.Function.Iterate
import PeekLock.Proofs.Listener.Round
import PeekLock.Proofs.Queue.Rotation

/-! # Messages in the hands of a loop

Between taking a message and passing it on a loop does nothing, so if it goes on at once
the message is still locked for it: the lock is in the table, and has not expired because
no queue gives out locks that last no time at all (`isTimed_run`).  This is what the
schedule sees to, by which a task that can go on is the next in line (`prompt_ticks`).
The main statement, `loses_nothing`, is what is known of a loop then.
-/

namespace PeekLock

/-! ## Timings -/

/-- Neither the pause nor the wait of a queue's loops is none at all. -/
def Settings.IsTimed (s : Settings) : Prop :=
  s.listenPollIntervalMs ≠ 0 ∧ s.listenReceiveTimeoutMs ≠ 0

theorem Settings.isTimed_of_check {s : Settings} (passed : s.check = .ok ()) : s.IsTimed := by
  have timing {key : String} {n : Nat} (passed : checkTiming key n = .ok ()) : n ≠ 0 := by
    intro zero
    simp [checkTiming, zero] at passed
  simp only [check] at passed
  split at passed
  · simp at passed
  · cases poll : checkTiming pollKey s.listenPollIntervalMs with
    | error _ => simp [poll, bind, Except.bind] at passed
    | ok _ =>
      rw [poll] at passed
      exact ⟨timing poll, timing passed⟩

theorem Settings.isTimed_named (name : String) : (Settings.named name).IsTimed :=
  ⟨Nat.succ_ne_zero 999, Nat.succ_ne_zero 999⟩

namespace Broker

variable {b : Broker} {q : QueueId} {id : TaskId} {l : Loop} {e : Envelope}

/-- A queue is only made with settings that have passed the check. -/
theorem isTimed_of_setup? {action : Action} {setup : Settings × Option Nat}
    (made : action.setup? = some setup) : setup.1.IsTimed := by
  cases action with
  | newQueue name counters =>
    obtain rfl := Option.some.inj made
    exact Settings.isTimed_named name.text
  | newQueueOf settings counters =>
    simp only [Action.setup?] at made
    cases passed : settings.check with
    | error _ => simp [passed] at made
    | ok _ =>
      rw [passed] at made
      obtain rfl := Option.some.inj made
      exact Settings.isTimed_of_check passed
  | _ => simp [Action.setup?] at made

/-- Settings stay, and those of a new queue have passed the check. -/
theorem settings_act (b : Broker) (action : Action) :
    (b.act action).queues.map (·.settings) = b.queues.map (·.settings) ∨
      ∃ s, s.IsTimed ∧ (b.act action).queues.map (·.settings) = b.queues.map (·.settings) ++ [s] := by
  have setups := congrArg (List.map Prod.fst) (b.setups_act action)
  rw [List.map_append, List.map_map, List.map_map] at setups
  cases made : action.setup? with
  | none =>
    rw [made] at setups
    exact .inl (setups.trans (List.append_nil _))
  | some setup =>
    rw [made] at setups
    exact .inr ⟨setup.1, isTimed_of_setup? made, setups⟩

theorem isTimed_run {start : Timestamp} {actions : List Action} {queue : Queue}
    (there : ((new start).run actions).queue? q = some queue) : queue.settings.IsTimed := by
  suffices ∀ s ∈ ((new start).run actions).queues.map (·.settings), s.IsTimed from
    this _ (List.mem_map_of_mem (List.mem_of_getElem? there))
  clear there
  induction actions using List.reverseRecOn with
  | nil => exact fun s member => (List.not_mem_nil member).elim
  | append_singleton front action ih =>
    intro s member
    rw [run_append, run_cons, run_nil] at member
    rcases ((new start).run front).settings_act action with same | ⟨new, timed, more⟩
    · exact ih s (same ▸ member)
    · rcases List.mem_append.1 (more ▸ member) with old | added
      · exact ih s old
      · exact List.mem_singleton.1 added ▸ timed

/-! ## What a loop holds -/

theorem callOfTask_of_loop? (there : b.loop? id = some l) :
    b.callOfTask id = (l.call? (b.isCancelled l.scope)).map (l.queue, ·) := by
  simp only [callOfTask, loop?_eq_some.1 there]

/-- A message is locked for its holder: the lock that it refers to is in the table, with just
    this message, and has not expired.  At the last instant all locks have. -/
def Holds (b : Broker) (q : QueueId) (e : Envelope) : Prop :=
  ∃ token lock, ownToken? q e = some token ∧ (b.storageOf q).lock? token = some lock ∧
    lock.message = e ∧ (lock.HasExpired b.time → Timestamp.last ≤ b.time)

end Broker

/-- Whoever takes a message finds it under a lock in the table. -/
theorem Storage.lock?_lockNext {s s' : Storage} {q : QueueId} {now : Timestamp}
    {timeout : Duration} {e : Envelope} (sound : s.Sound q)
    (taken : s.lockNext (Broker.ownerOf q) now timeout = some (e, s')) :
    ∃ token, Broker.ownToken? q e = some token ∧
      s'.lock? token = some ⟨e, now.after timeout, timeout⟩ := by
  have absent := lock?_eq_none_iff.2 (sound.next_not_isLocked (Broker.ownerOf q))
  cases line : s.visible with
  | nil => simp [lockNext, line] at taken
  | cons first rest =>
    rw [lockNext_of_visible line] at taken
    obtain ⟨rfl, rfl⟩ := Prod.mk.inj (Option.some.inj taken)
    refine ⟨_, Option.filter_eq_some_iff.2 ⟨rfl, decide_eq_true rfl⟩, ?_⟩
    simp only [lock?] at absent ⊢
    rw [List.lookup_append, absent]
    simp

namespace Broker

variable {b : Broker} {q : QueueId} {id : TaskId} {l : Loop} {e : Envelope}

theorem lt_length_of_lock? {token : LockToken} {lock : Lock}
    (found : (b.storageOf q).lock? token = some lock) : q < b.queues.length := by
  by_contra outside
  rw [storageOf_of_not_lt outside] at found
  exact absurd found.symm (Option.some_ne_none lock)

theorem holds_of_take (sound : (b.storageOf l.queue).Sound l.queue) (there : b.loop? id = some l)
    {deadline : Nat} (stage : l.stage = .looking deadline)
    (timed : l.options.receiveTimeout.nanoseconds ≠ 0)
    (found : (b.access l.queue (.take l.options.receiveTimeout)).delivered = some e) :
    (b.turn id).Holds l.queue e := by
  have call : b.callOfTask id = some (l.queue, .take l.options.receiveTimeout) := by
    simp only [callOfTask_of_loop? there, Loop.call?, stage, Option.map_some]
  simp only [Access.delivered, access, Option.map_eq_some_iff] at found
  obtain ⟨⟨_, s'⟩, taken, rfl⟩ := found
  have inside : l.queue < b.queues.length := by
    refine lt_length_of_visible fun nothing => ?_
    simp [Storage.lockNext, nothing] at taken
  have storage : (b.turn id).storageOf l.queue = s' := by
    rw [storageOf_turn, call, storageOf_commit]
    simp [accessAt, inside, access, Access.after, taken]
  obtain ⟨token, own, locked⟩ := Storage.lock?_lockNext sound taken
  refine ⟨token, _, own, storage ▸ locked, rfl, fun expired => ?_⟩
  -- Only at the last instant does an addition lead nowhere.
  by_contra early
  rw [time_turn] at expired early
  have before : b.time ≤ Timestamp.last := by
    rw [Timestamp.le_iff_place_le] at early ⊢
    omega
  rcases (Timestamp.after_le_self_iff before).1 expired with none | last
  · exact timed none
  · exact early (last ▸ Timestamp.le_refl _)

/-- A loop that has taken a message takes the next step. -/
def Prompt (b : Broker) (id : TaskId) (actions : List Action) : Prop :=
  ∀ b' action, (b', action) ∈ b.steps actions → (b'.handed? id).isSome → action = .turn id

end Broker

theorem Move.to_taken {l : Loop} {cancelled : Bool} {now : Nat} {next : Option Envelope}
    {s : LoopStage} {e : Envelope} (move : Move l cancelled now next s (.taken e)) :
    next = some e ∧ ∃ deadline, s = .looking deadline := by
  cases move with
  | takes deadline found => exact ⟨found, deadline, rfl⟩
  | stays blocking => simp [LoopStage.isBlocking] at blocking

namespace Broker

variable {b : Broker} {q : QueueId} {id : TaskId} {l l₀ : Loop} {e : Envelope}

theorem Listens.holds_act (listens : b.Listens id l₀)
    (sound : (b.storageOf l₀.queue).Sound l₀.queue)
    (timed : l₀.options.receiveTimeout.nanoseconds ≠ 0) {action : Action}
    (prompt : (b.handed? id).isSome → action = .turn id)
    (handed : (b.act action).handed? id = some e) : (b.act action).Holds l₀.queue e := by
  obtain ⟨l, before, rfl⟩ := listens.loop?
  obtain ⟨l', after, kept⟩ := listens.moves before action
  rw [handed?_of_loop? after] at handed
  rcases kept with ⟨other, rfl⟩ | ⟨rfl, move⟩
  · -- It would have gone on by now.
    refine absurd (prompt ?_) other
    rw [handed?_of_loop? before, handed]
    rfl
  · have taken : l'.stage = .taken e := by
      cases stage : l'.stage <;> simp_all [LoopStage.held?]
    obtain ⟨found, deadline, looking⟩ := (taken ▸ move).to_taken
    exact holds_of_take (l := l) sound before looking timed found

theorem Prompt.front {front : List Action} {action : Action} (prompt : b.Prompt id (front ++ [action]))
    (handed : ((b.run front).handed? id).isSome) : action = .turn id :=
  prompt _ _ (mem_steps b front action []) handed

/-- A message that is given back stands behind all others, and its lock is gone. -/
theorem storageOf_return (there : b.loop? id = some l) (sound : l.faults = {})
    (stage : l.stage = .taken e) (dead : b.isCancelled l.scope) (held : b.Holds l.queue e)
    (early : ¬ Timestamp.last ≤ b.time) :
    ∃ token, ownToken? l.queue e = some token ∧
      (b.turn id).storageOf l.queue =
        { visible := (b.storageOf l.queue).visible ++
            [{ e with sentTime := some b.time, reference := none }]
          locked := (b.storageOf l.queue).locked.filter fun entry => entry.1 ≠ token
          nextSequence := (b.storageOf l.queue).nextSequence } := by
  obtain ⟨token, lock, own, locked, -, live⟩ := held
  have call : b.callOfTask id = some (l.queue, .abandon e) := by
    simp [callOfTask_of_loop? there, Loop.call?, stage, dead, sound]
  have fresh : ¬ lock.HasExpired b.time := fun expired => early (live expired)
  refine ⟨token, own, ?_⟩
  rw [storageOf_turn, call, storageOf_commit]
  simp only [accessAt, lt_length_of_lock? locked, and_self, ↓reduceIte, Access.after, access, own]
  simp only [Storage.abandon, locked, fresh, ↓reduceIte]
  rfl

theorem storageOf_endsRound (there : b.loop? id = some l) {plan : List Command}
    (stage : l.stage = .handling e plan) (ends : l.stage.endsRound) (q : QueueId) :
    (b.turn id).storageOf q = b.storageOf q := by
  have call : b.callOfTask id = none := by
    simp only [callOfTask_of_loop? there, Loop.call?, stage]
    rw [stage] at ends
    cases plan with
    | nil => rfl
    | cons command rest =>
      cases command <;> first | rfl | simp [LoopStage.endsRound] at ends
  rw [storageOf_turn, call]
  rfl

/-! ## The schedule -/

/-- The action that the schedule takes next. -/
def next? (b : Broker) : Option Action :=
  match b.owed, b.ready with
  | _ :: _, _ => some (.announce 0)
  | [], id :: _ => some (.turn id)
  | [], [] => none

def ticks : Nat → Broker → List Action
  | 0, _ => []
  | n + 1, b =>
    match b.next? with
    | some action => action :: ticks n (b.act action)
    | none => []

theorem tick_eq (b : Broker) : b.tick = (b.next?.map b.act).getD b := by
  simp only [tick, next?]
  cases b.owed with
  | nil => cases b.ready <;> rfl
  | cons => rfl

theorem run_ticks (n : Nat) (b : Broker) : b.run (b.ticks n) = tick^[n] b := by
  induction n generalizing b with
  | zero => rfl
  | succ n ih =>
    rw [Function.iterate_succ_apply, tick_eq, ticks]
    cases next : b.next? with
    | none =>
      have idle : b.tick = b := by rw [tick_eq, next]; rfl
      exact (Function.iterate_fixed idle n).symm
    | some action => exact ih (b.act action)

/-- If a loop has taken a message it is the next to go on. -/
def Poised (b : Broker) (id : TaskId) : Prop :=
  (b.handed? id).isSome → b.next? = some (.turn id)

theorem Listens.poised_act (listens : b.Listens id l₀) (poised : b.Poised id) {action : Action}
    (next : b.next? = some action) : (b.act action).Poised id := by
  obtain ⟨l, before, -⟩ := listens.loop?
  obtain ⟨l', after, kept⟩ := listens.moves before action
  intro handed
  rw [handed?_of_loop? after] at handed
  rcases kept with ⟨other, rfl⟩ | ⟨rfl, move⟩
  · have same : action = .turn id := by
      refine Option.some.inj (next.symm.trans (poised ?_))
      rwa [handed?_of_loop? before]
    exact absurd same other
  · obtain ⟨e, taken⟩ : ∃ e, l'.stage = .taken e := by
      cases stage : l'.stage <;> simp_all [LoopStage.held?]
    obtain ⟨-, deadline, looking⟩ := (taken ▸ move).to_taken
    -- Nothing was owed, or this would not have been its turn, and a look owes nothing.
    have nothing : b.owed = [] := by
      simp only [next?] at next
      cases owed : b.owed with
      | nil => rfl
      | cons a rest => simp [owed] at next
    have call : b.callOfTask id = some (l.queue, .take l.options.receiveTimeout) := by
      simp only [callOfTask_of_loop? before, Loop.call?, looking, Option.map_some]
    have owed : (b.turn id).owed = [] := by
      rw [(quiet_turn id).owed, call]
      simp [commit, nothing, Access.enqueued, access]
    rw [show b.act (.turn id) = b.turn id from rfl] at after ⊢
    have first : ∃ rest, (b.turn id).ready = id :: rest := by
      simp only [turn] at after ⊢
      split
      · exact ⟨_, rfl⟩
      · rename_i passive
        rw [if_neg passive] at after
        have rests := mayRest_of_not_isActive after (Bool.eq_false_iff.2 passive)
        simp [Loop.mayRest, taken] at rests
    obtain ⟨rest, first⟩ := first
    simp only [next?, owed, first]

/-- Where tasks take turns as the schedule has it, a loop that has taken a message goes on at
    once. -/
theorem Listens.prompt_ticks (listens : b.Listens id l₀) (h : b.Scoped) (poised : b.Poised id)
    (n : Nat) : b.Prompt id (b.ticks n) := by
  induction n generalizing b with
  | zero => exact fun b' action step => (List.not_mem_nil step).elim
  | succ n ih =>
    intro b' action step handed
    rw [ticks] at step
    cases next : b.next? with
    | none =>
      rw [next] at step
      exact (List.not_mem_nil step).elim
    | some first =>
      rw [next] at step
      rcases List.mem_cons.1 step with now | later
      · obtain ⟨rfl, rfl⟩ := Prod.mk.inj now
        exact Option.some.inj (next.symm.trans (poised handed))
      · exact ih (listens.act h first) (h.act first) (listens.poised_act poised next) b' action later
          handed

/-! ## Nothing is lost -/

namespace Listens

/-- What a loop has taken it holds, unless it has let something else happen first. -/
theorem holds_run (listens : b.Listens id l₀) (h : b.Scoped) (fresh : b.handed? id = none)
    (sound : ∀ actions, ((b.run actions).storageOf l₀.queue).Sound l₀.queue)
    (timed : l₀.options.receiveTimeout.nanoseconds ≠ 0) {more : List Action}
    (prompt : b.Prompt id more) (handed : (b.run more).handed? id = some e) :
    (b.run more).Holds l₀.queue e := by
  -- Only the last action counts: the one that has led to the loop holding a message.
  rcases List.eq_nil_or_concat more with rfl | ⟨most, last, rfl⟩
  · rw [run_nil, fresh] at handed
    exact absurd handed (by simp)
  · rw [List.concat_eq_append] at prompt handed ⊢
    rw [run_append, run_cons, run_nil] at handed ⊢
    exact (listens.run h most).holds_act (sound most) timed prompt.front handed

theorem passesOn (listens : b.Listens id l₀) (handed : b.handed? id = some e) :
    b.event? id (.turn id) = some (.calls e) ∨ b.event? id (.turn id) = some (.returns e) := by
  obtain ⟨l, before, -⟩ := listens.loop?
  obtain ⟨l', event, move⟩ := listens.turns before
  rw [handed?_of_loop? before] at handed
  rw [event]
  exact move.of_held? handed

/-- What its queue hands out to a loop is what the loop takes. -/
theorem takes (listens : b.Listens id l₀) (there : b.loop? id = some l) {timeout : Duration}
    (looks : b.callOfTask id = some (q, .take timeout)) :
    b.event? id (.turn id) = (b.access q (.take timeout)).delivered.map .takes := by
  rcases callOfTask_take looks with ⟨r, receive, -⟩ | ⟨l₁, deadline, there₁, stage, rfl, rfl⟩
  · rw [loop?_eq_some.1 there] at receive
    simp at receive
  · obtain rfl := Option.some.inj (there.symm.trans (loop?_eq_some.2 there₁))
    obtain ⟨l', event, move⟩ := listens.turns there
    rw [event, stage]
    exact (stage ▸ move).of_looking

theorem calls (listens : b.Listens id l₀) (there : b.loop? id = some l) {action : Action}
    (event : b.event? id action = some (.calls e)) :
    b.isCancelled l.scope = false ∧ b.handed? id = some e := by
  obtain ⟨l', -, -, seen, move⟩ := listens.of_event there event
  obtain ⟨live, taken, -⟩ := move.of_calls seen
  refine ⟨live, ?_⟩
  rw [handed?_of_loop? there, taken]
  rfl

theorem returns (listens : b.Listens id l₀) (there : b.loop? id = some l) {action : Action}
    (event : b.event? id action = some (.returns e)) :
    b.isCancelled l.scope ∧ b.handed? id = some e ∧
      (b.Holds l.queue e → ¬ Timestamp.last ≤ b.time →
        ∃ token, ownToken? l.queue e = some token ∧
          (b.act action).storageOf l.queue =
            { visible := (b.storageOf l.queue).visible ++
                [{ e with sentTime := some b.time, reference := none }]
              locked := (b.storageOf l.queue).locked.filter fun entry => entry.1 ≠ token
              nextSequence := (b.storageOf l.queue).nextSequence }) := by
  obtain ⟨l', -, rfl, seen, move⟩ := listens.of_event there event
  obtain ⟨dead, taken, -⟩ := move.of_returns seen
  refine ⟨dead, ?_, storageOf_return there (listens.faults_eq there) taken dead⟩
  rw [handed?_of_loop? there, taken]
  rfl

/-- A receiver that fails has come to its end, and all messages are left as they are. -/
theorem fails (listens : b.Listens id l₀) (there : b.loop? id = some l) {reason : String}
    {rest : List Command} (stage : l.stage = .handling e (.fail reason :: rest)) :
    b.event? id (.turn id) = some .ends ∧ ∀ q, (b.turn id).storageOf q = b.storageOf q := by
  have ends : l.stage.endsRound := by rw [stage]; rfl
  refine ⟨?_, storageOf_endsRound there stage ends⟩
  obtain ⟨l', event, move⟩ := listens.turns there
  rw [event, stage]
  exact (stage ▸ move).of_endsRound (stage ▸ ends)

/-- From the end of a call to the next one it takes the time of a pause. -/
theorem ends (listens : b.Listens id l₀) (h : b.Scoped) (there : b.loop? id = some l)
    {action : Action} (event : b.event? id action = some .ends) {later : List Action} {b' : Broker}
    {action' : Action} (step : (b', action') ∈ (b.act action).steps later)
    (next : b'.event? id action' = some (.calls e)) : b.now + l.gap ≤ b'.now := by
  obtain ⟨l', after, -, seen, move⟩ := listens.of_event there event
  have rested := (move.of_ends seen).later (b.now_le_act action)
  exact (listens.act h action).rests (h.act action) after rested step next

end Listens

/-- What is known of a loop that was started by listening at a queue, after any run and whatever
    happens next.  It takes what the queue hands out to it, and what it takes it passes on, to
    its receiver or back, in this order and once each; a message that it has just taken is
    passed on in its next turn, and it is in line for that.  The receiver is called by a live
    loop only, and messages are given back by a cancelled one only.  If the loop goes on at
    once, it holds the message that it has taken, so the receiver is given a lock that has not
    expired, and what is given back stands behind all others, with the instant of its return and
    without the token, which is gone from the table too; but at the last instant locks expire
    at once, and such messages are dropped.  A loop that is cancelled while it waits sees no
    more messages.  A receiver that fails leaves all messages as they are, and the loop ends only
    if it has been cancelled.  Between a call and the next one lies the time of a pause, but never
    more than the longest. -/
theorem loses_nothing {start : Timestamp} {front : List Action} {q : QueueId} {queue : Queue}
    (there : ((new start).run front).queue? q = some queue) (c : String) (receiver : Receiver)
    (more : List Action) (action : Action) (later : List Action) :
    let before := (new start).run front
    let id := before.tasks.length
    let started := before.act (.ask q (.listen c receiver))
    let b := started.run more
    let seen := started.events id more
    ∃ l, b.loop? id = some l ∧ l.queue = q ∧ l.receiver = receiver ∧
      (∀ timeout, b.callOfTask id = some (q, .take timeout) →
        b.event? id (.turn id) = (b.access q (.take timeout)).delivered.map .takes) ∧
      seen.filterMap LoopEvent.taken? =
        seen.filterMap LoopEvent.passedOn? ++ (b.handed? id).toList ∧
      (∀ e, b.handed? id = some e →
        id ∈ b.ready ∧ (b.event? id (.turn id) = some (.calls e) ∨
          b.event? id (.turn id) = some (.returns e)) ∧
        (started.Prompt id more → b.Holds q e)) ∧
      (∀ e, b.event? id action = some (.calls e) →
        b.isCancelled l.scope = false ∧ b.handed? id = some e) ∧
      (∀ e, b.event? id action = some (.returns e) →
        b.isCancelled l.scope ∧ b.handed? id = some e ∧
        (b.Holds q e → ¬ Timestamp.last ≤ b.time →
          ∃ token, ownToken? q e = some token ∧
            (b.act action).storageOf q =
              { visible := (b.storageOf q).visible ++
                  [{ e with sentTime := some b.time, reference := none }]
                locked := (b.storageOf q).locked.filter fun entry => entry.1 ≠ token
                nextSequence := (b.storageOf q).nextSequence })) ∧
      (b.isCancelled l.scope → l.stage.isBetween → b.events id later = []) ∧
      (∀ e reason rest, l.stage = .handling e (.fail reason :: rest) →
        b.event? id (.turn id) = some .ends ∧
          ∀ q', (b.turn id).storageOf q' = b.storageOf q') ∧
      (l.stage = .stopped → b.isCancelled l.scope) ∧
      (b.event? id action = some .ends → ∀ b' action' e,
        (b', action') ∈ (b.act action).steps later → b'.event? id action' = some (.calls e) →
          b.now + min queue.settings.listenPollIntervalMs longestPause ≤ b'.now) := by
  intro before id started b seen
  obtain ⟨inside, _⟩ := List.getElem?_eq_some_iff.1 there
  obtain ⟨h, loop, listens, -⟩ := (scoped_run start front).listens inside c receiver
  have listens' := listens.run h more
  have h' : b.Scoped := h.run more
  obtain ⟨l, found, same⟩ := listens'.loop?
  have whole (actions : List Action) :
      started.run actions = (new start).run (front ++ .ask q (.listen c receiver) :: actions) := by
    rw [run_append, run_cons]
  have fresh : started.handed? id = none := by
    rw [handed?_of_loop? loop]
    rfl
  have options : before.optionsOf q = queue.settings.listenOptions := by
    rw [optionsOf, there]
  have timed : (before.optionsOf q).receiveTimeout.nanoseconds ≠ 0 := by
    rw [options]
    exact Nat.mul_ne_zero (isTimed_run there).2 (by decide)
  have gap : l.gap = min queue.settings.listenPollIntervalMs longestPause := by
    have timings : l.options = before.optionsOf q := congrArg (·.options) same
    rw [Loop.gap, timings, options]
    simp only [Settings.listenOptions, Duration.ofMillis, Duration.ceilMillis]
    omega
  obtain rfl : l.queue = q := congrArg (·.queue) same
  refine ⟨l, found, rfl, congrArg (·.receiver) same, ?_, ?_, ?_, ?_, ?_, ?_, ?_, ?_, ?_⟩
  · exact fun timeout => listens'.takes found
  · have balance := listens.balance h more
    rw [fresh] at balance
    exact balance
  · intro e handed
    have reached : b = (new start).run (front ++ .ask l.queue (.listen c receiver) :: more) :=
      whole more
    have inLine := (reached ▸ wakeful_run start _ : b.Wakeful).heeds id l found
    -- A loop that holds a message is not blocked, and so it stands in line.
    refine ⟨inLine.resolve_right ?_, listens'.passesOn handed, fun prompt => ?_⟩
    · rw [handed?_of_loop? found] at handed
      cases stage : l.stage <;> simp_all [LoopStage.held?, Loop.mayRest]
    · exact listens.holds_run h fresh (fun actions => whole actions ▸ sound_run start _ _) timed
        prompt handed
  · exact fun e => listens'.calls found
  · exact fun e => listens'.returns found
  · exact fun dead between => listens'.events_of_cancelled h' found between dead later
  · exact fun e reason rest => listens'.fails found
  · exact listens.isCancelled_of_stopped h loop rfl more found
  · intro ends b' action' e step next
    rw [← gap]
    exact listens'.ends h' found ends step next

/-- Left to the schedule, a loop takes the one message that there is, and is about to call its
    receiver. -/
theorem loses_nothing_of_one_message :
    let front : List Action := [.newQueue ⟨"jobs"⟩ none, .ask 0 (.send "" .empty)]
    let before := (new .epoch).run front
    let started := before.act (.ask 0 (.listen "" default))
    let b := tick^[5] started
    (∃ queue, before.queue? 0 = some queue) ∧ started.Prompt 0 (started.ticks 5) ∧
      ∃ e, b.handed? 0 = some e ∧ 0 ∈ b.ready ∧ b.Holds 0 e := by
  intro front before started b
  obtain ⟨queue, there⟩ : ∃ queue, before.queue? 0 = some queue := ⟨_, rfl⟩
  obtain ⟨inside, -⟩ := List.getElem?_eq_some_iff.1 there
  have place : before.tasks.length = 0 := by decide
  have prompt : started.Prompt 0 (started.ticks 5) := by
    obtain ⟨h, -, listens, -⟩ := (scoped_run .epoch front).listens inside "" default
    rw [place] at listens
    exact listens.prompt_ticks h (fun handed => absurd handed (by decide)) 5
  obtain ⟨e, handed⟩ : ∃ e, b.handed? 0 = some e := Option.isSome_iff_exists.1 (by decide)
  obtain ⟨l, -, -, -, -, -, holds, -⟩ :=
    loses_nothing there "" default (started.ticks 5) (.turn 0) []
  rw [place, run_ticks] at holds
  obtain ⟨inLine, -, held⟩ := holds e handed
  exact ⟨⟨queue, there⟩, prompt, e, handed, inLine, held prompt⟩

/-- Two calls are closer to each other than the poll interval if that is longer than the longest
    pause, and at the last instant a message comes with a lock that has expired. -/
theorem calls_too_early_and_too_late :
    (let settings : Settings := ⟨"jobs", 946080000001, 1000⟩
      let front : List Action :=
        [.newQueueOf settings none, .ask 0 (.send "" .empty), .ask 0 (.send "" .empty)]
      let started := ((new .epoch).run front).act (.ask 0 (.listen "" default))
      let first := started.run (.replicate 5 (.turn 0))
      let second := (first.act (.turn 0)).run (.advance 946080000000 :: .replicate 4 (.turn 0))
      settings.check = .ok () ∧ first.event? 0 (.turn 0) = some .ends ∧
        (∃ e, second.event? 0 (.turn 0) = some (.calls e)) ∧
        second.now < first.now + settings.listenPollIntervalMs) ∧
    (let front : List Action := [.newQueue ⟨"jobs"⟩ none, .ask 0 (.send "" .empty)]
      let started := ((new .last).run front).act (.ask 0 (.listen "" default))
      let b := started.run (.replicate 4 (.turn 0))
      ∃ e token lock, b.event? 0 (.turn 0) = some (.calls e) ∧ ownToken? 0 e = some token ∧
        (b.storageOf 0).lock? token = some lock ∧ lock.HasExpired b.time) := by
  constructor
  · intro settings front started first second
    let e : Envelope := { Envelope.empty with sentTime := some .epoch, reference := some ⟨1, 1⟩ }
    have passed : settings.check = .ok () := by decide +kernel
    have ends : first.event? 0 (.turn 0) = some .ends := by decide +kernel
    have calls : second.event? 0 (.turn 0) = some (.calls e) := by decide +kernel
    have early : second.now < first.now + settings.listenPollIntervalMs := by decide +kernel
    exact ⟨passed, ends, ⟨e, calls⟩, early⟩
  · intro front started b
    let e : Envelope := { Envelope.empty with sentTime := some .last, reference := some ⟨1, 0⟩ }
    have calls : b.event? 0 (.turn 0) = some (.calls e) := by decide +kernel
    have locked : (b.storageOf 0).lock? ⟨1, 0⟩ = some ⟨e, .last, .ofMillis 1000⟩ := by
      decide +kernel
    have late : Timestamp.last ≤ b.time := by decide +kernel
    exact ⟨e, _, _, calls, rfl, locked, late⟩

end Broker

end PeekLock
