import PeekLock.Proofs.Listener.Move

/-! # Rounds of a loop

What can be seen of a loop from outside is little: it takes a message, it calls its
receiver with it or gives it back, and the call comes to its end.  This module tells in
which order these events follow each other, at any time and whatever else happens in
between: nothing that is taken is lost or passed on twice (`Listens.balance`), a loop
that has been cancelled between two messages sees no more of them
(`Listens.events_of_cancelled`), and after a call nothing happens for the time of a pause
(`Listens.rests`).  Each of them is a fact about one move, and what is left is induction.
-/

namespace PeekLock

/-! ## Events -/

inductive LoopEvent where
  | takes (e : Envelope)
  /-- It calls its receiver. -/
  | calls (e : Envelope)
  /-- It gives a message back. -/
  | returns (e : Envelope)
  /-- Its receiver has come to its end, well or not. -/
  | ends
deriving DecidableEq, Repr

namespace LoopEvent

def taken? : LoopEvent → Option Envelope
  | .takes e => some e
  | _ => none

/-- The message that leaves the loop, for its receiver or back to the queue. -/
def passedOn? : LoopEvent → Option Envelope
  | .calls e | .returns e => some e
  | _ => none

end LoopEvent

namespace LoopStage

/-- What can be seen when a loop goes from one stage to another. -/
def eventTo? : LoopStage → LoopStage → Option LoopEvent
  | .looking _, .taken e => some (.takes e)
  | .taken _, .handling e _ => some (.calls e)
  | .taken e, .stopped => some (.returns e)
  | .handling .., .checking | .handling .., .pausing _ | .handling .., .stopped => some .ends
  | _, _ => none

/-- The message that has been taken and not passed on yet. -/
def held? : LoopStage → Option Envelope
  | .taken e => some e
  | _ => none

/-- Whether a loop has nothing to do with messages here, but may wait for one. -/
def isBetween : LoopStage → Bool
  | .starting | .checking | .waiting _ | .pausing _ | .stopped => true
  | _ => false

/-- Whether a loop calls its receiver no earlier than at `due`: it is over, or in a pause that
    lasts that long, or it is time already. -/
def RestsUntil (due now : Nat) (stage : LoopStage) : Prop :=
  stage = .stopped ∨ (∃ due', stage = .pausing due' ∧ due ≤ due') ∨ due ≤ now

variable {s s' : LoopStage} {e : Envelope}

theorem eventTo?_self (s : LoopStage) : s.eventTo? s = none := by
  cases s <;> rfl

theorem RestsUntil.later {due earlier later : Nat} (rests : s.RestsUntil due earlier)
    (after : earlier ≤ later) : s.RestsUntil due later :=
  rests.imp_right (.imp_right (Nat.le_trans · after))

theorem of_calls (event : s.eventTo? s' = some (.calls e)) :
    (∃ e', s = .taken e') ∧ ∃ plan, s' = .handling e plan := by
  cases s <;> cases s' <;> simp_all [eventTo?]

theorem of_returns (event : s.eventTo? s' = some (.returns e)) : s = .taken e ∧ s' = .stopped := by
  cases s <;> cases s' <;> simp_all [eventTo?]

theorem of_ends (event : s.eventTo? s' = some .ends) : ∃ e plan, s = .handling e plan := by
  cases s <;> cases s' <;> simp_all [eventTo?]

end LoopStage

/-! ## What a move shows -/

namespace Move

variable {l : Loop} {cancelled : Bool} {now : Nat} {next : Option Envelope} {s s' : LoopStage}
  {e : Envelope} {plan : List Command}

/-- A loop that looks for a message takes the one that it is given. -/
theorem of_looking {deadline : Nat} (move : Move l cancelled now next (.looking deadline) s') :
    (LoopStage.looking deadline).eventTo? s' = next.map .takes := by
  cases move with
  | takes _ found => rw [found]; rfl
  | waits _ nothing => rw [nothing]; rfl
  | pauses ends | goesOn ends => simp [LoopStage.endsRound] at ends
  | stops heeds => simp [LoopStage.heedsScope, LoopStage.endsRound] at heeds
  | stays blocking => simp [LoopStage.isBlocking] at blocking

/-- The receiver is called with the message that was taken, and only by a live loop. -/
theorem of_calls (move : Move l cancelled now next s s')
    (event : s.eventTo? s' = some (.calls e)) :
    cancelled = false ∧ s = .taken e ∧ s' = .handling e (l.receiver.plan l.notebook e) := by
  obtain ⟨⟨e', rfl⟩, plan, rfl⟩ := LoopStage.of_calls event
  cases move with
  | calls live _ => exact ⟨live, rfl, rfl⟩

theorem of_returns (move : Move l cancelled now next s s')
    (event : s.eventTo? s' = some (.returns e)) : cancelled ∧ s = .taken e ∧ s' = .stopped := by
  obtain ⟨rfl, rfl⟩ := LoopStage.of_returns event
  cases move with
  | stops _ dead => exact ⟨dead, rfl, rfl⟩

theorem of_held? (move : Move l cancelled now next s s') (held : s.held? = some e) :
    s.eventTo? s' = some (.calls e) ∨ s.eventTo? s' = some (.returns e) := by
  obtain rfl : s = .taken e := by
    cases s <;> simp_all [LoopStage.held?]
  cases move with
  | calls => exact .inl rfl
  | stops => exact .inr rfl
  | pauses ends | goesOn ends => simp [LoopStage.endsRound] at ends
  | stays blocking => simp [LoopStage.isBlocking] at blocking

/-- After a call a loop that is not over rests. -/
theorem of_ends (move : Move l cancelled now next s s') (event : s.eventTo? s' = some .ends) :
    s'.RestsUntil (now + l.gap) now := by
  obtain ⟨e, plan, rfl⟩ := LoopStage.of_ends event
  -- Working on and waiting show nothing: the receiver has not come to its end.
  cases move with
  | works more => simp [LoopStage.eventTo?] at event
  | delays => simp [LoopStage.eventTo?] at event
  | pauses ends live => exact .inr (.inl ⟨_, rfl, Nat.le_refl _⟩)
  | goesOn ends elapsed => exact .inr (.inr elapsed)
  | stops => exact .inl rfl
  | stays blocking => simp [LoopStage.eventTo?] at event

/-- A receiver that has come to its end leads out of the round, whether it fails or not. -/
theorem of_endsRound (move : Move l cancelled now next (.handling e plan) s')
    (ends : (LoopStage.handling e plan).endsRound) :
    (LoopStage.handling e plan).eventTo? s' = some .ends := by
  cases move with
  | works more => exact absurd ends (by simp [more])
  | delays => simp [LoopStage.endsRound] at ends
  | pauses | goesOn | stops => rfl
  | stays blocking => simp [LoopStage.isBlocking] at blocking

/-- What was held before and what is taken now has been passed on or is held then. -/
theorem held? (move : Move l cancelled now next s s') :
    s.held?.toList ++ ((s.eventTo? s').bind LoopEvent.taken?).toList =
      ((s.eventTo? s').bind LoopEvent.passedOn?).toList ++ s'.held?.toList := by
  cases move with
  | pauses ends | goesOn ends => cases s <;> first | rfl | simp [LoopStage.endsRound] at ends
  | stops | stays => cases s <;> rfl
  | _ => rfl

theorem isBetween (move : Move l cancelled now next s s') (dead : cancelled) (between : s.isBetween) :
    s'.isBetween ∧ s.eventTo? s' = none := by
  subst dead
  -- The moves into a receive are those of a live loop.
  cases move with
  | begins | returns => exact ⟨rfl, rfl⟩
  | stops => cases s <;> first | exact ⟨rfl, rfl⟩ | simp [LoopStage.isBetween] at between
  | stays => exact ⟨between, s.eventTo?_self⟩
  | goesOn => cases s <;> first | exact ⟨rfl, rfl⟩ | simp [LoopStage.isBetween] at between
  | receives live | wakes live | calls live | pauses _ live => simp at live
  | _ => simp [LoopStage.isBetween] at between

theorem restsUntil {due : Nat} (move : Move l cancelled now next s s')
    (rests : s.RestsUntil due now) : s'.RestsUntil due now := by
  rcases rests with rfl | ⟨due', rfl, later⟩ | elapsed
  · cases move with
    | stops | stays => exact .inl rfl
    | pauses ends | goesOn ends => simp [LoopStage.endsRound] at ends
  · cases move with
    | returns elapsed => exact .inr (.inr (Nat.le_trans later elapsed))
    | stops => exact .inl rfl
    | stays => exact .inr (.inl ⟨due', rfl, later⟩)
    | pauses ends | goesOn ends => simp [LoopStage.endsRound] at ends
  · exact .inr (.inr elapsed)

/-- Only cancellation ends a loop. -/
theorem stopped (move : Move l cancelled now next s s') (finished : s' = .stopped) :
    cancelled ∨ s = .stopped := by
  subst finished
  cases move with
  | stops _ dead => exact .inl dead
  | stays => exact .inr rfl

end Move

namespace Broker

variable {b : Broker} {id : TaskId} {l : Loop}

/-! ## Events of a run -/

/-- What can be seen of a loop in one step. -/
def event? (b : Broker) (id : TaskId) (action : Action) : Option LoopEvent :=
  match b.loop? id, (b.act action).loop? id with
  | some l, some l' => l.stage.eventTo? l'.stage
  | _, _ => none

def events (id : TaskId) (b : Broker) : List Action → List LoopEvent
  | [] => []
  | action :: rest => (b.event? id action).toList ++ events id (b.act action) rest

theorem event?_eq {l l' : Loop} {action : Action} (before : b.loop? id = some l)
    (after : (b.act action).loop? id = some l') :
    b.event? id action = l.stage.eventTo? l'.stage := by
  simp only [event?, before, after]

theorem handed?_of_loop? (there : b.loop? id = some l) : b.handed? id = l.stage.held? := by
  simp only [handed?, loop?_eq_some.1 there]
  cases l.stage <;> rfl

namespace Listens

variable {l₀ : Loop}

/-- An event is seen in a turn of the loop, with the move that it makes. -/
theorem of_event (listens : b.Listens id l₀) (there : b.loop? id = some l) {action : Action}
    {v : LoopEvent} (seen : b.event? id action = some v) :
    ∃ l', (b.act action).loop? id = some l' ∧ action = .turn id ∧
      l.stage.eventTo? l'.stage = some v ∧
      Move l (b.isCancelled l.scope) b.now
        (b.access l.queue (.take l.options.receiveTimeout)).delivered l.stage l'.stage := by
  obtain ⟨l', after, ⟨_, rfl⟩ | ⟨acts, move⟩⟩ := listens.moves there action
  · rw [event?_eq there after, LoopStage.eventTo?_self] at seen
    exact absurd seen (by simp)
  · exact ⟨l', after, acts, event?_eq there after ▸ seen, move⟩

/-- What is seen in its turn is seen of a move. -/
theorem turns (listens : b.Listens id l₀) (there : b.loop? id = some l) :
    ∃ l' : Loop, b.event? id (.turn id) = l.stage.eventTo? l'.stage ∧
      Move l (b.isCancelled l.scope) b.now
        (b.access l.queue (.take l.options.receiveTimeout)).delivered l.stage l'.stage := by
  obtain ⟨l', after, ⟨other, -⟩ | ⟨-, move⟩⟩ := listens.moves there (.turn id)
  · exact absurd rfl other
  · exact ⟨l', event?_eq there after, move⟩

theorem cancelled_act {l l' : Loop} (listens : b.Listens id l₀) (h : b.Scoped) {action : Action}
    (before : b.loop? id = some l) (after : (b.act action).loop? id = some l')
    (dead : b.isCancelled l.scope) : (b.act action).isCancelled l'.scope := by
  have scope : l₀.scope = l.scope := congrArg (·.scope) (listens.asStarted_eq before).symm
  have scope' : l'.scope = l₀.scope :=
    congrArg (·.scope) ((listens.act h action).asStarted_eq after)
  rw [scope', isCancelled_act h listens, scope]
  exact .inl dead

/-! ## Nothing is lost -/

theorem balance_act (listens : b.Listens id l₀) (action : Action) :
    (b.handed? id).toList ++ ((b.event? id action).bind LoopEvent.taken?).toList =
      ((b.event? id action).bind LoopEvent.passedOn?).toList ++
        ((b.act action).handed? id).toList := by
  obtain ⟨l, before, -⟩ := listens.loop?
  obtain ⟨l', after, kept⟩ := listens.moves before action
  rw [event?_eq before after, handed?_of_loop? before, handed?_of_loop? after]
  rcases kept with ⟨_, rfl⟩ | ⟨_, move⟩
  · rw [LoopStage.eventTo?_self]
    exact List.append_nil _
  · exact move.held?

/-- What a loop takes it passes on, in this order and once each, and what it has not passed on
    yet it holds. -/
theorem balance (listens : b.Listens id l₀) (h : b.Scoped) (more : List Action) :
    (b.handed? id).toList ++ (b.events id more).filterMap LoopEvent.taken? =
      (b.events id more).filterMap LoopEvent.passedOn? ++ ((b.run more).handed? id).toList := by
  have project (f : LoopEvent → Option Envelope) (v : Option LoopEvent) :
      v.toList.filterMap f = (v.bind f).toList := by
    cases v with
    | none => rfl
    | some v => cases image : f v <;> simp [image]
  induction more generalizing b with
  | nil => simp [events]
  | cons action rest ih =>
    have later := ih (listens.act h action) (h.act action)
    simp only [events, List.filterMap_append, project, run_cons]
    rw [← List.append_assoc, listens.balance_act action, List.append_assoc, later, List.append_assoc]

/-! ## Nothing is taken after the end -/

/-- A loop that is cancelled while it has no message sees no more of them. -/
theorem events_of_cancelled (listens : b.Listens id l₀) (h : b.Scoped) (there : b.loop? id = some l)
    (between : l.stage.isBetween) (dead : b.isCancelled l.scope) (more : List Action) :
    b.events id more = [] := by
  induction more generalizing b l with
  | nil => rfl
  | cons action rest ih =>
    obtain ⟨l', after, kept⟩ := listens.moves there action
    have next : l'.stage.isBetween ∧ l.stage.eventTo? l'.stage = none := by
      rcases kept with ⟨_, rfl⟩ | ⟨_, move⟩
      · exact ⟨between, LoopStage.eventTo?_self _⟩
      · exact move.isBetween dead between
    have dead' := listens.cancelled_act h there after dead
    rw [events, event?_eq there after, next.2]
    exact ih (listens.act h action) (h.act action) after next.1 dead'

/-- A loop is over only if it has been cancelled. -/
theorem isCancelled_of_stopped (listens : b.Listens id l₀) (h : b.Scoped)
    (fresh : b.loop? id = some l₀) (live : l₀.stage = .starting) (more : List Action)
    (there : (b.run more).loop? id = some l) (finished : l.stage = .stopped) :
    (b.run more).isCancelled l.scope := by
  induction more using List.reverseRecOn generalizing l with
  | nil =>
    obtain rfl := Option.some.inj (fresh.symm.trans there)
    exact absurd (live.symm.trans finished) (by simp)
  | append_singleton front action ih =>
    rw [run_append, run_cons, run_nil] at there ⊢
    have listens' := listens.run h front
    obtain ⟨l₁, before, -⟩ := listens'.loop?
    obtain ⟨l', after, kept⟩ := listens'.moves before action
    obtain rfl := Option.some.inj (there.symm.trans after)
    -- If it was over before, the scope was cancelled before; and else the move has seen it.
    have dead : (b.run front).isCancelled l₁.scope := by
      rcases kept with ⟨_, rfl⟩ | ⟨_, move⟩
      · exact ih before finished
      · exact (move.stopped finished).elim (fun dead => dead) (ih before)
    exact listens'.cancelled_act (h.run front) before after dead

/-! ## A pause after each call -/

/-- A loop that rests calls its receiver only when it is time. -/
theorem rests (listens : b.Listens id l₀) (h : b.Scoped) {due : Nat} (there : b.loop? id = some l)
    (rests : l.stage.RestsUntil due b.now) {more : List Action} {b' : Broker} {action : Action}
    (step : (b', action) ∈ b.steps more) {e : Envelope}
    (calls : b'.event? id action = some (.calls e)) : due ≤ b'.now := by
  induction more generalizing b l with
  | nil => exact (List.not_mem_nil step).elim
  | cons first rest ih =>
    rcases List.mem_cons.1 step with now | later
    · obtain ⟨rfl, rfl⟩ := Prod.mk.inj now
      obtain ⟨l', -, -, seen, -⟩ := listens.of_event there calls
      obtain ⟨⟨e', holding⟩, -⟩ := LoopStage.of_calls seen
      rw [holding] at rests
      rcases rests with finished | ⟨_, pausing, _⟩ | due
      · simp at finished
      · simp at pausing
      · exact due
    · obtain ⟨l', after, kept⟩ := listens.moves there first
      have rested : l'.stage.RestsUntil due b.now := by
        rcases kept with ⟨_, rfl⟩ | ⟨_, move⟩
        · exact rests
        · exact move.restsUntil rests
      exact ih (listens.act h first) (h.act first) after (rested.later (b.now_le_act first)) later

end Listens

end Broker

end PeekLock
