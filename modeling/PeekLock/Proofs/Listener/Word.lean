import PeekLock.Proofs.Broker.History
import PeekLock.Proofs.Listener.Move

/-! # Word of a loop

Those who wait for messages to be processed learn of it by the signal of the receiver alone, so
every message that is counted must be followed by a signal (`Command.tellsAll`).  A loop whose
receiver has such plans goes on to have them, and `Word` tells what any action means to those who
wait for its signal (`Broker.Tells.act`): the signal is given, and whoever is told by it is in line;
or it is not, and is owed once a message has been counted.  Nobody loses its place in line or its
timer by an action of another.
-/

namespace PeekLock

/-! ## Signals -/

namespace Signal

variable {s : Signal} {id : TaskId}

/-- Word is kept if nobody has asked for it. -/
theorem tell_of_nobody (nobody : s.asking = []) : s.tell = ([], ⟨true, []⟩) := by
  rw [tell, nobody]

theorem tell_of_asking (asks : s.asking = [id]) : s.tell = ([id], ⟨s.kept, []⟩) := by
  rw [tell, asks]

end Signal

namespace Command

/-- Whether a plan gives a signal before it ends, and before it pauses. -/
def signals : List Command → Bool
  | [] | .pause _ :: _ | .fail _ :: _ => false
  | .signal :: _ => true
  | _ :: rest => signals rest

/-- Whether a plan gives a signal behind every message that it counts. -/
def tellsAll : List Command → Bool
  | [] => true
  | .tally _ :: rest => signals rest && tellsAll rest
  | _ :: rest => tellsAll rest

theorem tellsAll_tail {command : Command} {rest : List Command}
    (tells : tellsAll (command :: rest)) : tellsAll rest := by
  cases command with
  | tally completed => exact (Bool.and_eq_true_iff.1 tells).2
  | _ => exact tells

end Command

namespace LoopStage

/-- The commands that the receiver has yet to carry out. -/
def plan : LoopStage → List Command
  | .handling _ plan | .delayed _ _ plan => plan
  | _ => []

/-- Whether the receiver is at work and gives a signal before it is blocked. -/
def owesSignal : LoopStage → Bool
  | .handling _ plan => Command.signals plan
  | _ => false

theorem exists_handling {s : LoopStage} (owes : s.owesSignal) : ∃ e plan, s = .handling e plan := by
  cases s with
  | handling e plan => exact ⟨e, plan, rfl⟩
  | _ => exact absurd owes Bool.false_ne_true

end LoopStage

namespace Move

variable {l : Loop} {cancelled : Bool} {now : Nat} {next : Option Envelope} {s s' : LoopStage}

/-- A plan that has been begun is carried out to its end. -/
theorem owesSignal_of_handling {e : Envelope} {command : Command} {rest : List Command}
    (move : Move l cancelled now next (.handling e (command :: rest)) s')
    (more : (LoopStage.handling e (command :: rest)).endsRound = false)
    (signals : Command.signals rest) (ahead : ∀ d, command ≠ .pause d) : s'.owesSignal := by
  have goesOn : ¬ (LoopStage.handling e (command :: rest)).endsRound := by
    rw [more]
    exact Bool.false_ne_true
  cases move with
  | works _ => exact signals
  | delays _ d _ _ => exact absurd rfl (ahead d)
  | pauses ends _ => exact absurd ends goesOn
  | goesOn ends _ => exact absurd ends goesOn
  | stops heeds _ => exact absurd heeds goesOn
  | stays blocking => exact absurd blocking Bool.false_ne_true

/-- Every plan that a receiver follows is a rest of one that it has made. -/
theorem tellsAll (plans : ∀ n e, Command.tellsAll (l.receiver.plan n e))
    (move : Move l cancelled now next s s') (tells : Command.tellsAll s.plan) :
    Command.tellsAll s'.plan := by
  cases move with
  | calls _ e => exact plans _ e
  | works _ => exact Command.tellsAll_tail tells
  | delays _ _ _ _ | resumes _ _ _ | stays _ => exact tells
  | _ => rfl

end Move

/-- What becomes of the notebook of a receiver in any turn, and of its debt of a signal. -/
inductive Word (b' : Broker) (n n' : Notebook) (owed owed' : Bool) : Prop
  /-- The signal has been given, and whoever is told by it is in line. -/
  | given (notebook : n' = { n with progress := n.progress.tell.2 })
      (awake : ∀ id ∈ n.progress.tell.1, id ∈ b'.ready)
  /-- No signal has been given.  One is owed if it was before or if a message has been counted. -/
  | owed (progress : n'.progress = n.progress) (counted : n.processed ≤ n'.processed)
      (owes : owed ∨ n.processed < n'.processed → owed')

namespace Word

variable {b' : Broker} {n n' : Notebook} {owed owed' : Bool} {l l' : Loop}

theorem of_same (progress : n'.progress = n.progress) (processed : n'.processed = n.processed)
    (owes : owed → owed') : Word b' n n' owed owed' := by
  refine .owed progress (Nat.le_of_eq processed.symm) fun either => ?_
  rw [processed] at either
  exact owes (either.resolve_right (Nat.lt_irrefl _))

/-- Messages are counted and signals given only as the plan of the receiver says. -/
theorem of_move {cancelled : Bool} {now : Nat} {next : Option Envelope} {s : LoopStage}
    (move : Move l cancelled now next s l'.stage) (stage : l.stage = s)
    (notes : l'.notebook = l.notes) (tells : Command.tellsAll s.plan)
    (awake : ∀ e rest, s = .handling e (.signal :: rest) →
      ∀ id ∈ l.notebook.progress.tell.1, id ∈ b'.ready) :
    Word b' l.notebook l'.notebook s.owesSignal l'.stage.owesSignal := by
  have idle (same : l'.notebook = l.notebook) (nothing : s.owesSignal = false) :
      Word b' l.notebook l'.notebook s.owesSignal l'.stage.owesSignal := by
    refine of_same (congrArg _ same) (congrArg _ same) fun before => ?_
    rw [nothing] at before
    exact absurd before Bool.false_ne_true
  rw [Loop.notes, stage] at notes
  cases s with
  | handling e plan =>
    cases plan with
    | nil => exact idle notes rfl
    | cons command rest =>
      cases command with
      | signal => exact .given notes (awake e rest rfl)
      | fail _ | pause _ => exact idle notes rfl
      | tally completed =>
        have notes : l'.notebook = l.notebook.tally completed := notes
        apply Word.owed
        · rw [notes]
          rfl
        · rw [notes]
          exact Nat.le_succ _
        · -- The plan goes on to give a signal, whatever was owed before.
          intro _
          exact move.owesSignal_of_handling rfl (Bool.and_eq_true_iff.1 tells).1 (by simp)
      | _ =>
        exact of_same ((congrArg Notebook.progress notes).trans rfl)
          ((congrArg Notebook.processed notes).trans rfl) fun before =>
            move.owesSignal_of_handling rfl before (by simp)
  | _ => exact idle notes rfl

end Word

/-! ## What a loop tells -/

/-- Whether an action is one of those that go on by themselves: a task takes its turn, an
    announcement is made, or time passes. -/
def Action.isOfSchedule : Action → Bool
  | .turn _ | .announce _ | .advance _ => true
  | _ => false

theorem Action.arranges_of_isOfSchedule {action : Action} (scheduled : action.isOfSchedule) :
    action.arranges = false := by
  cases action with
  | turn _ | announce _ | advance _ => rfl
  | _ => exact absurd scheduled Bool.false_ne_true

namespace Broker

variable {b : Broker} {id : TaskId} {l : Loop} {action : Action}

/-- A loop whose receiver gives a signal behind every message that it counts, and is in line while
    it is at work. -/
structure Tells (b : Broker) (id : TaskId) (l : Loop) : Prop where
  there : b.loop? id = some l
  sound : l.faults = {}
  plans : ∀ n e, Command.tellsAll (l.receiver.plan n e)
  plan : Command.tellsAll l.stage.plan
  awake : ∀ e plan, l.stage = .handling e plan → id ∈ b.ready

theorem mem_ready_turn_of_signal (there : b.loop? id = some l) {e : Envelope} {rest : List Command}
    (stage : l.stage = .handling e (.signal :: rest)) {other : TaskId}
    (told : other ∈ l.notebook.progress.tell.1) : other ∈ (b.turn id).ready := by
  let left : Broker := { b with ready := b.ready.erase id }
  have here : left.task? id = some (.listen l) := loop?_eq_some.1 there
  have woken : other ∈ (stepTask left id).ready := by
    simp only [stepTask, here, stepLoop, stage, perform]
    exact mem_ready_wakeAll told left
  simp only [turn]
  split
  · exact List.mem_cons_of_mem _ woken
  · exact woken

theorem mem_ready_turn_of_handling (there : (b.turn id).loop? id = some l) {e : Envelope}
    {plan : List Command} (stage : l.stage = .handling e plan) : id ∈ (b.turn id).ready := by
  rw [loop?_turn, loop?_eq_some] at there
  have active : (stepTask { b with ready := b.ready.erase id } id).isActive id := by
    simp only [isActive, there, stage]
  simp only [turn, active, ↓reduceIte]
  exact List.mem_cons_self ..

theorem ready_act (plain : action.arranges = false) {other : TaskId}
    (others : action.actor? ≠ some other) (member : other ∈ b.ready) :
    other ∈ (b.act action).ready := by
  obtain ⟨s?, calm, -⟩ := b.calm_act plain
  refine calm.ready other (Ne.symm others) ?_
  cases s? with
  | none => exact member
  | some s => exact mem_ready_cancel.2 (.inl member)

theorem mem_timers_notify (b : Broker) (q : QueueId) {t : Timer} (armed : t ∈ b.timers) :
    t ∈ (b.notify q).timers := by
  simp only [notify]
  split
  · exact (Quiet.wakeAll (x := none) _ _).timer t (Option.some_ne_none _) armed
  · exact armed

/-- A timer stays armed until its time has come, and then the task is in line. -/
theorem timer_act (scheduled : action.isOfSchedule) {t : Timer}
    (others : action.actor? ≠ some t.task) (armed : t ∈ b.timers) (ahead : b.now < t.due) :
    (b.act action).now < t.due ∧ t ∈ (b.act action).timers ∨
      t.due ≤ (b.act action).now ∧ t.task ∈ (b.act action).ready := by
  cases action with
  | turn id =>
    have quiet := b.quiet_turn id
    have same : (b.commit (b.callOfTask id)).now = b.now ∧
        (b.commit (b.callOfTask id)).timers = b.timers := by
      cases b.callOfTask id <;> exact ⟨rfl, rfl⟩
    refine .inl ⟨?_, quiet.timer t (Ne.symm others) ?_⟩
    · show (b.turn id).now < t.due
      rw [quiet.now, same.1]
      exact ahead
    · rw [same.2]
      exact armed
  | announce i =>
    refine .inl ⟨?_, ?_⟩
    · show (b.announce i).now < t.due
      rw [now_announce]
      exact ahead
    · simp only [act, announce]
      split
      · rw [count_timers]
        exact mem_timers_notify _ _ armed
      · exact armed
  | advance moment =>
    have now : (b.act (.advance moment)).now = max b.now moment :=
      (Quiet.wakeAll (x := none) _ _).now
    rw [now]
    cases Nat.lt_or_ge (max b.now moment) t.due with
    | inl later =>
      refine .inl ⟨later, (Quiet.wakeAll (x := none) _ _).timer t (Option.some_ne_none _) ?_⟩
      exact List.mem_filter.2 ⟨armed, decide_eq_true later⟩
    | inr due =>
      refine .inr ⟨due, mem_ready_wakeAll (List.mem_map.2 ⟨t, ?_, rfl⟩) _⟩
      exact List.mem_filter.2 ⟨armed, decide_eq_true due⟩
  | _ => exact absurd scheduled Bool.false_ne_true

theorem origin?_act (b : Broker) (plain : action.arranges = false) (id : TaskId) :
    (b.act action).origin? id = b.origin? id := by
  obtain ⟨s?, calm, -⟩ := b.calm_act plain
  rw [calm.origin?, origin?_cancelIf]

/-- The loop goes on to tell of every message that it counts. -/
theorem Tells.act (tells : b.Tells id l) (plain : action.arranges = false) :
    ∃ l', (b.act action).Tells id l' ∧
      Word (b.act action) l.notebook l'.notebook l.stage.owesSignal l'.stage.owesSignal := by
  by_cases own : action = .turn id
  · subst own
    obtain ⟨l', there, notes, move⟩ := moved_turn tells.there tells.sound
    have origin : l'.asStarted = l.asStarted := by
      have same : (b.turn id).origin? id = b.origin? id := b.origin?_act plain id
      rw [origin?_of_loop? there, origin?_of_loop? tells.there] at same
      exact Option.some.inj same
    have faults : l'.faults = l.faults := congrArg (·.faults) origin
    have receiver : l'.receiver = l.receiver := congrArg (·.receiver) origin
    refine ⟨l', ⟨there, faults.trans tells.sound, ?_, move.tellsAll tells.plans tells.plan,
      fun e plan => mem_ready_turn_of_handling there⟩,
      .of_move move rfl notes tells.plan fun e rest stage id' told =>
        mem_ready_turn_of_signal tells.there stage told⟩
    rw [receiver]
    exact tells.plans
  · have kept := loop?_act (Option.isSome_of_eq_some tells.there) own
    have other : action.actor? ≠ some id := by
      cases action with
      | turn id' => exact fun same => own (congrArg Action.turn (Option.some.inj same))
      | _ => exact Ne.symm (Option.some_ne_none id)
    have awake (e : Envelope) (plan : List Command) (stage : l.stage = .handling e plan) :
        id ∈ (b.act action).ready := ready_act plain other (tells.awake e plan stage)
    exact ⟨l, { tells with there := kept.trans tells.there, awake },
      .of_same rfl rfl fun owes => owes⟩

end Broker

end PeekLock
