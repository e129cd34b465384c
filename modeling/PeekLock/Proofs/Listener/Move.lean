import PeekLock.Proofs.Broker.Station
import PeekLock.Proofs.Listener.Ending

/-! # Moves of a loop

A loop goes from stage to stage, and only in its own turns.  `Move` tells once what a
turn can do to the stage of a loop that nothing goes wrong with on purpose, and what
that depends on: whether the loop has been cancelled, what time it is, and which message
a look for one delivers.  Whatever holds of loops at all times is derived from it, by
cases of one move (`Listens.moves`).
-/

namespace PeekLock

namespace LoopStage

/-- Whether a round may end here: the wait is over, or the receiver has come to its end. -/
def endsRound : LoopStage → Bool
  | .waiting _ | .handling _ [] | .handling _ (.fail _ :: _) => true
  | _ => false

/-- Whether a loop looks here whether it has been cancelled. -/
def heedsScope : LoopStage → Bool
  | .checking | .taken _ | .pausing _ => true
  | stage => stage.endsRound

theorem heedsScope_of_endsRound {stage : LoopStage} (ends : stage.endsRound) : stage.heedsScope := by
  cases stage <;> first | rfl | exact ends

/-- Whether a loop may be found blocked here. -/
def isBlocking : LoopStage → Bool
  | .waiting _ | .delayed .. | .pausing _ | .stopped => true
  | _ => false

end LoopStage

/-- What a command leaves in the notebook of the receiver. -/
def Command.noted (n : Notebook) : Command → Notebook
  | .remember payload => n.remember payload
  | .tally completed => n.tally completed
  | .signal => { n with progress := n.progress.tell.2 }
  | _ => n

/-- The notebook of a loop after its next turn. -/
def Loop.notes (l : Loop) : Notebook :=
  match l.stage with
  | .handling _ (command :: _) => command.noted l.notebook
  | _ => l.notebook

/-- Where a loop looks whether it has been cancelled, nothing is written down. -/
theorem Loop.notes_of_heedsScope {l : Loop} (heeds : l.stage.heedsScope) : l.notes = l.notebook := by
  simp only [notes]
  cases stage : l.stage with
  | handling e plan =>
    cases plan with
    | nil => rfl
    | cons command rest =>
      rw [stage] at heeds
      cases command <;> first | rfl | simp [LoopStage.heedsScope, LoopStage.endsRound] at heeds
  | _ => rfl

/-- The time between two rounds of a loop, in milliseconds. -/
def Loop.gap (l : Loop) : Nat :=
  min l.options.pollInterval.ceilMillis Broker.longestPause

/-- What a turn may do to the stage of a loop.  It can be cancelled by then or not, `now` is
    the moment, and `next` the message that a look delivers. -/
inductive Move (l : Loop) (cancelled : Bool) (now : Nat) (next : Option Envelope) :
    LoopStage → LoopStage → Prop
  | begins : Move l cancelled now next .starting .checking
  | receives (live : cancelled = false) (deadline : Nat) :
      Move l cancelled now next .checking (.entering deadline)
  | enters (deadline : Nat) : Move l cancelled now next (.entering deadline) (.looking deadline)
  | takes (deadline : Nat) {e : Envelope} (found : next = some e) :
      Move l cancelled now next (.looking deadline) (.taken e)
  | waits (deadline : Nat) (nothing : next = none) :
      Move l cancelled now next (.looking deadline) (.waiting deadline)
  | wakes (live : cancelled = false) (deadline : Nat) :
      Move l cancelled now next (.waiting deadline) (.entering deadline)
  | calls (live : cancelled = false) (e : Envelope) :
      Move l cancelled now next (.taken e) (.handling e (l.receiver.plan l.notebook e))
  | works {e e' : Envelope} {command : Command} {rest : List Command}
      (more : (LoopStage.handling e (command :: rest)).endsRound = false) :
      Move l cancelled now next (.handling e (command :: rest)) (.handling e' rest)
  | delays (e : Envelope) (d : Duration) (rest : List Command) (due : Nat) :
      Move l cancelled now next (.handling e (.pause d :: rest)) (.delayed due e rest)
  | resumes {due : Nat} (elapsed : due ≤ now) (e : Envelope) (plan : List Command) :
      Move l cancelled now next (.delayed due e plan) (.handling e plan)
  | pauses {stage : LoopStage} (ends : stage.endsRound) (live : cancelled = false) :
      Move l cancelled now next stage (.pausing (now + l.gap))
  | goesOn {stage : LoopStage} (ends : stage.endsRound) (elapsed : now + l.gap ≤ now) :
      Move l cancelled now next stage .checking
  | returns {due : Nat} (elapsed : due ≤ now) : Move l cancelled now next (.pausing due) .checking
  | stops {stage : LoopStage} (heeds : stage.heedsScope) (dead : cancelled = true) :
      Move l cancelled now next stage .stopped
  | stays {stage : LoopStage} (blocking : stage.isBlocking) : Move l cancelled now next stage stage

namespace Broker

variable {b : Broker} {id : TaskId} {l : Loop}

/-! ## What a turn leads to -/

theorem loop?_setLoop (there : (b.loop? id).isSome) (l : Loop) (stage : LoopStage) :
    (b.setLoop id l stage).loop? id = some { l with stage := stage } := by
  obtain ⟨l₀, there⟩ := Option.isSome_iff_exists.1 there
  exact loop?_eq_some.2 (task?_setTask (loop?_eq_some.1 there) _)

/-- The loop has moved on, by a move that it could make in `b`, and its receiver has written down
    what it was to. -/
def Moved (b : Broker) (id : TaskId) (l : Loop) (b' : Broker) : Prop :=
  ∃ l', b'.loop? id = some l' ∧ l'.notebook = l.notes ∧
    Move l (b.isCancelled l.scope) b.now
      (b.access l.queue (.take l.options.receiveTimeout)).delivered l.stage l'.stage

theorem moved_setLoop (b' : Broker) (there : (b'.loop? id).isSome) {l' : Loop}
    (notes : l'.notebook = l.notes) {stage : LoopStage}
    (move : Move l (b.isCancelled l.scope) b.now
      (b.access l.queue (.take l.options.receiveTimeout)).delivered l.stage stage) :
    Moved b id l (b'.setLoop id l' stage) :=
  ⟨_, loop?_setLoop there l' stage, notes, move⟩

theorem moved_stop (b' : Broker) (there : (b'.loop? id).isSome) (heeds : l.stage.heedsScope)
    (dead : b.isCancelled l.scope) :
    Moved b id l (b'.stop id l) :=
  moved_setLoop b' there (Loop.notes_of_heedsScope heeds).symm (.stops heeds dead)

theorem moved_startPause (b' : Broker) (there : (b'.loop? id).isSome) (ends : l.stage.endsRound)
    (now : b'.now = b.now) (scopes : b'.scopes = b.scopes) : Moved b id l (b'.startPause id l) := by
  have cancelled : b'.isCancelled l.scope = b.isCancelled l.scope := by
    simp only [isCancelled, scopes]
  have due : b'.afterPause l.options.pollInterval = b.now + l.gap := by
    simp only [afterPause, now, Loop.gap]
  have heeds : l.stage.heedsScope := LoopStage.heedsScope_of_endsRound ends
  have notes : l.notebook = l.notes := (Loop.notes_of_heedsScope heeds).symm
  simp only [startPause]
  rw [cancelled, due, now]
  split
  · rename_i dead
    exact moved_stop b' there heeds dead
  · rename_i live
    split
    · rename_i elapsed
      exact moved_setLoop b' there notes (.goesOn ends elapsed)
    · exact moved_setLoop (b'.arm id _) there notes (.pauses ends (Bool.eq_false_iff.2 live))

theorem afterCall_of_sound (b : Broker) (sound : l.faults = {}) : b.afterCall l = b := by
  simp [afterCall, sound]

theorem moved_look (there : b.loop? id = some l) (sound : l.faults = {}) {deadline : Nat}
    (stage : l.stage = .looking deadline) : Moved b id l (b.look id l deadline) := by
  have notes : l.notebook = l.notes := by rw [Loop.notes, stage]
  have delivered : (b.lockNext l.queue l.correlationId l.options.receiveTimeout).map (·.1) =
      (b.access l.queue (.take l.options.receiveTimeout)).delivered := lockNext_delivered
  simp only [look]
  cases taken : b.lockNext l.queue l.correlationId l.options.receiveTimeout with
  | none =>
    have nothing : (b.access l.queue (.take l.options.receiveTimeout)).delivered = none := by
      rw [← delivered, taken]
      rfl
    exact moved_setLoop (b.arm id deadline) (Option.isSome_of_eq_some there) notes
      (stage ▸ .waits deadline nothing)
  | some result =>
    obtain ⟨e, b'⟩ := result
    -- Taking the message has changed the queue, but not the loop.
    have still : (b'.deregister l.queue id).loop? id = some l := by
      rw [loop?_eq_some] at there ⊢
      exact (task?_lockNext taken id).trans there
    have found : (b.access l.queue (.take l.options.receiveTimeout)).delivered = some e := by
      rw [← delivered, taken]
      rfl
    dsimp only
    rw [afterCall_of_sound _ sound]
    exact moved_setLoop _ (Option.isSome_of_eq_some still) notes (stage ▸ .takes deadline found)

theorem moved_resumeWait (there : b.loop? id = some l) (sound : l.faults = {}) {deadline : Nat}
    (stage : l.stage = .waiting deadline) : Moved b id l (b.resumeWait id l deadline) := by
  have notes : l.notebook = l.notes := by rw [Loop.notes, stage]
  have still : ((b.unawait l.queue id).loop? id).isSome := Option.isSome_of_eq_some there
  simp only [resumeWait]
  split
  · rename_i dead
    exact moved_stop _ still (by rw [stage]; rfl) dead
  · rename_i live
    split
    · exact moved_setLoop (b.disarm id) still notes
        (stage ▸ .wakes (Bool.eq_false_iff.2 live) deadline)
    · split
      · rw [afterCall_of_sound _ sound]
        exact moved_startPause _ still (by rw [stage]; rfl) rfl rfl
      · exact ⟨l, there, notes, .stays (by rw [stage]; rfl)⟩

theorem moved_dispatch (there : b.loop? id = some l) {e : Envelope} (stage : l.stage = .taken e) :
    Moved b id l (b.dispatch id l e) := by
  simp only [dispatch]
  split
  · rename_i dead
    have still : ((b.returnMessage l e).loop? id).isSome := by
      refine Option.isSome_of_eq_some (Eq.trans ?_ there)
      simp only [returnMessage]
      split
      · rfl
      · simp only [loop?, (quiet_abandon (x := none) e).task id (Option.some_ne_none id)]
        rfl
    exact moved_stop _ still (by rw [stage]; rfl) dead
  · rename_i live
    exact moved_setLoop (b.note _) (Option.isSome_of_eq_some there) (by rw [Loop.notes, stage])
      (stage ▸ .calls (Bool.eq_false_iff.2 live) e)

theorem moved_perform (there : b.loop? id = some l) (sound : l.faults = {}) {e : Envelope}
    {command : Command} {rest : List Command} (stage : l.stage = .handling e (command :: rest)) :
    Moved b id l (b.perform id l e command rest) := by
  have noted : command.noted l.notebook = l.notes := by rw [Loop.notes, stage]
  have on (more : (LoopStage.handling e (command :: rest)).endsRound = false) {b' : Broker}
      (same : b'.loop? id = b.loop? id) {l' : Loop} (writes : l'.notebook = command.noted l.notebook)
      (e' : Envelope) : Moved b id l (b'.setLoop id l' (.handling e' rest)) :=
    moved_setLoop b' (Option.isSome_of_eq_some (same.trans there)) (writes.trans noted)
      (stage ▸ .works more)
  -- Whatever a command does at the queue, the loop is where it was until it is set.
  have quiet {c : Option (QueueId × Call)} {b' : Broker} (h : Quiet none (b.commit c) b') :
      b'.loop? id = b.loop? id := by
    simp only [loop?, h.task id (Option.some_ne_none id)]
    cases c <;> rfl
  cases command with
  | pause d =>
    simp only [perform]
    split
    · exact on rfl rfl rfl e
    · exact moved_setLoop (b.arm id _) (Option.isSome_of_eq_some there) noted
        (stage ▸ .delays e d rest _)
  | complete => exact on rfl (quiet (quiet_complete e)) rfl _
  | deadLetter => exact on rfl (quiet (quiet_deadLetter e)) rfl _
  | abandon =>
    simp only [perform]
    rw [if_neg (by simp [sound])]
    exact on rfl (quiet (quiet_abandon e)) rfl _
  | renew => exact on rfl (quiet (quiet_renew e)) rfl e
  | send message => exact on rfl (quiet (quiet_send _ message)) rfl e
  | endListen => exact on rfl (quiet (c := none) (quiet_endListen _)) rfl e
  | close => exact on rfl (quiet (c := none) (quiet_closeQueue _)) rfl e
  | replacePayload _ | remember _ | tally _ => exact on rfl rfl rfl _
  | signal => exact on rfl (quiet (c := none) (.wakeAll b _)) rfl e
  | fail reason =>
    exact moved_startPause (b.note _) (Option.isSome_of_eq_some there) (by rw [stage]; rfl)
      rfl rfl

theorem moved_stepLoop (there : b.loop? id = some l) (sound : l.faults = {}) :
    Moved b id l (b.stepLoop id l) := by
  have some : (b.loop? id).isSome := Option.isSome_of_eq_some there
  simp only [stepLoop]
  cases stage : l.stage with
  | starting =>
    exact moved_setLoop (b.note _) some (by rw [Loop.notes, stage]) (stage ▸ .begins)
  | checking =>
    dsimp only
    split
    · rename_i dead
      exact moved_stop b some (by rw [stage]; rfl) dead
    · rename_i live
      simp only [startCall, sound, List.contains_nil, Bool.false_eq_true, ↓reduceIte]
      exact moved_setLoop b some (by rw [Loop.notes, stage])
        (stage ▸ .receives (Bool.eq_false_iff.2 live) _)
  | entering deadline =>
    exact moved_setLoop (b.register l.queue id) some (by rw [Loop.notes, stage])
      (stage ▸ .enters deadline)
  | looking deadline => exact moved_look there sound stage
  | waiting deadline => exact moved_resumeWait there sound stage
  | taken e => exact moved_dispatch there stage
  | handling e plan =>
    cases plan with
    | nil => exact moved_startPause b some (by rw [stage]; rfl) rfl rfl
    | cons command rest => exact moved_perform there sound stage
  | delayed due e plan =>
    have notes : l.notebook = l.notes := by rw [Loop.notes, stage]
    dsimp only
    split
    · rename_i elapsed
      exact moved_setLoop b some notes (stage ▸ .resumes elapsed e plan)
    · exact ⟨l, there, notes, .stays (by rw [stage]; rfl)⟩
  | pausing due =>
    have notes : l.notebook = l.notes := by rw [Loop.notes, stage]
    dsimp only
    split
    · rename_i dead
      exact moved_stop (b.disarm id) some (by rw [stage]; rfl) dead
    · split
      · rename_i elapsed
        exact moved_setLoop b some notes (stage ▸ .returns elapsed)
      · exact ⟨l, there, notes, .stays (by rw [stage]; rfl)⟩
  | stopped => exact ⟨l, there, by rw [Loop.notes, stage], .stays (by rw [stage]; rfl)⟩

theorem moved_turn (there : b.loop? id = some l) (sound : l.faults = {}) :
    Moved b id l (b.turn id) := by
  -- The turn is a step of the broker that the loop has left the line of.
  let left : Broker := { b with ready := b.ready.erase id }
  have here : left.loop? id = some l := there
  have stepped : stepTask left id = left.stepLoop id l := by
    simp only [stepTask, loop?_eq_some.1 here]
  obtain ⟨l', there', notes, move⟩ := moved_stepLoop here sound
  rw [← stepped, ← loop?_turn] at there'
  exact ⟨l', there', notes, move⟩

/-! ## What other actions leave alone -/

/-- A loop is where it was unless it has taken its turn. -/
theorem loop?_act (there : (b.loop? id).isSome) {action : Action} (other : action ≠ .turn id) :
    (b.act action).loop? id = b.loop? id := by
  obtain ⟨l, there⟩ := Option.isSome_iff_exists.1 there
  have found := loop?_eq_some.1 there
  by_cases drop : action = .dropReceive id
  · -- what is given up is a receive, and no loop
    rw [drop, act, dropReceive, found]
  · rw [loop?, loop?, task?_act other drop (not_starts_of_task? found action)]

/-- What one action means to a loop that listens: it takes its turn and makes a move, or it is
    left alone. -/
theorem Listens.moves {l₀ : Loop} (listens : b.Listens id l₀) (there : b.loop? id = some l)
    (action : Action) :
    ∃ l', (b.act action).loop? id = some l' ∧
      (action ≠ .turn id ∧ l' = l ∨ action = .turn id ∧
        Move l (b.isCancelled l.scope) b.now
          (b.access l.queue (.take l.options.receiveTimeout)).delivered l.stage l'.stage) := by
  by_cases own : action = .turn id
  · subst own
    obtain ⟨l', there', -, move⟩ := moved_turn there (listens.faults_eq there)
    exact ⟨l', there', .inr ⟨rfl, move⟩⟩
  · have kept := loop?_act (Option.isSome_of_eq_some there) own
    exact ⟨l, kept.trans there, .inl ⟨own, rfl⟩⟩

end Broker

end PeekLock
