import PeekLock.Demo.Wait
import PeekLock.Proofs.Listener.Word

/-! # No signal is lost

A wait and the loop that it waits for may take their turns in any order.  The loop may count a
message and give its signal after the wait has looked and before it has asked, or between two turns
of a wait that has asked.  Neither is missed: word that comes too early for the question is kept,
and word that answers it puts the wait in line.  `Wait.Heeds` says so for one moment, and it lasts
whatever task has the turn (`Wait.Heeds.act`).  So nobody is asleep while all messages are
processed, and once the loop has given its signal two turns of its own end the wait, whatever else
happens between them (`Wait.MissesNothing`).
-/

namespace PeekLock.Demo

/-! ## The signal of a loop -/

variable {b : Broker} {id : TaskId} {l : Loop}

theorem notebook_of_loop? (there : b.loop? id = some l) : notebook b id = l.notebook := by
  rw [notebook, Broker.loop?_eq_some.1 there]

/-- The signal of a receiver can be changed without anything else. -/
theorem tells_setProgress (tells : b.Tells id l) (progress : Signal) :
    (setProgress b id progress).Tells id
      { l with notebook := { l.notebook with progress } } := by
  have sets : setProgress b id progress =
      b.setLoop id { l with notebook := { l.notebook with progress } } l.stage := by
    rw [setProgress, Broker.loop?_eq_some.1 tells.there]
  rw [sets]
  exact { tells with there := Broker.loop?_setLoop (Option.isSome_of_eq_some tells.there) _ _ }

namespace Wait

/-! ## Turns in any order -/

/-- A wait at whose broker something has happened. -/
def withBroker (w : Wait) (b : Broker) : Wait :=
  { w with broker := b }

/-- What an action does to a wait: in its own turn the wait takes a step, and everything else
    happens at the broker. -/
def act (w : Wait) (action : Action) : Wait :=
  if action.actor? = some w.task then w.turn else w.withBroker (w.broker.act action)

/-- A run of a wait, with turns in any order. -/
def acts (w : Wait) (actions : List Action) : Wait :=
  actions.foldl act w

/-- Whether the loop is at work and is to give a signal before it is blocked. -/
def isOwed (w : Wait) : Bool :=
  (w.broker.loop? w.loop).any (·.stage.owesSignal)

/-- The timer that ends a wait. -/
def alarm (w : Wait) : Timer :=
  ⟨w.deadline, w.task⟩

/-- What a wait and a loop that tells of all its messages leave to one another.  Either the wait
    has not asked, or it waits for the answer.  If it has looked before the last message was
    counted, the word of that message is kept or has yet to be given. -/
structure Heard (w : Wait) : Prop where
  tells : ∃ l, w.broker.Tells w.loop l
  apart : w.loop ≠ w.task
  asking : w.progress.asking = [] ∨ w.progress.asking = [w.task] ∧ w.stage = .waiting
  kept : w.progress.kept → w.progress.asking = []
  owed : w.count ≤ w.processed → w.stage = .asking ∨ w.progress.asking ≠ [] →
    w.progress.kept ∨ w.isOwed
  armed : w.isOver = false → w.broker.now < w.deadline → w.alarm ∈ w.broker.timers
  drained : w.stage = .ended true → w.count ≤ w.processed
  late : w.stage = .ended false → w.deadline ≤ w.broker.now

/-- Besides, a wait that can go on is in line. -/
structure Heeds (w : Wait) : Prop extends w.Heard where
  awake : w.isActive → w.task ∈ w.broker.ready

variable {w : Wait} {action : Action}

theorem isOwed_of_tells (tells : w.broker.Tells w.loop l) : w.isOwed = l.stage.owesSignal := by
  rw [isOwed, tells.there]
  rfl

/-- A loop that owes a signal is in line. -/
theorem Heard.ready_of_isOwed (h : w.Heard) (owed : w.isOwed) : w.loop ∈ w.broker.ready := by
  obtain ⟨l, tells⟩ := h.tells
  rw [isOwed_of_tells tells] at owed
  obtain ⟨e, plan, stage⟩ := LoopStage.exists_handling owed
  exact tells.awake e plan stage

/-! ## The turns of others -/

/-- What happens at the broker of a wait in the turn of another task: the loop gives word or not,
    and the wait keeps its place in line and its timer. -/
structure Goes (w : Wait) (b : Broker) : Prop where
  tells : ∃ l, b.Tells w.loop l
  word : Word b (notebook w.broker w.loop) (notebook b w.loop) w.isOwed (w.withBroker b).isOwed
  later : w.broker.now ≤ b.now
  stays : w.task ∈ w.broker.ready → w.task ∈ b.ready
  fires : w.alarm ∈ w.broker.timers → w.broker.now < w.deadline →
    b.now < w.deadline ∧ w.alarm ∈ b.timers ∨ w.deadline ≤ b.now ∧ w.task ∈ b.ready

theorem Heard.goes (h : w.Heard) (scheduled : action.isOfSchedule)
    (other : action.actor? ≠ some w.task) : w.Goes (w.broker.act action) := by
  obtain ⟨l, tells⟩ := h.tells
  have plain := action.arranges_of_isOfSchedule scheduled
  obtain ⟨l', tells', word⟩ := tells.act plain
  refine ⟨⟨l', tells'⟩, ?_, w.broker.now_le_act action, Broker.ready_act plain other,
    Broker.timer_act scheduled other⟩
  rw [notebook_of_loop? tells.there, notebook_of_loop? tells'.there, isOwed_of_tells tells,
    isOwed_of_tells (w := w.withBroker (w.broker.act action)) tells']
  exact word

variable {b : Broker}

theorem isActive_of_nobody (nobody : w.progress.asking = []) (on : w.isOver = false) :
    w.isActive := by
  simp only [isActive, isOver] at on ⊢
  cases stage : w.stage with
  | looking | asking => rfl
  | waiting => simp [Signal.isAsking, nobody]
  | ended drained => simp [stage] at on

theorem isOver_of_isActive (active : w.isActive) : w.isOver = false := by
  simp only [isActive, isOver] at active ⊢
  cases stage : w.stage with
  | ended drained => simp [stage] at active
  | _ => rfl

/-- A wait that is blocked has asked, and its time is not up. -/
theorem waits_of_blocked (blocked : w.isActive = false) (on : w.isOver = false) :
    w.stage = .waiting ∧ w.progress.isAsking w.task ∧ w.broker.now < w.deadline := by
  simp only [isActive, isOver] at blocked on
  cases stage : w.stage with
  | looking | asking => simp [stage] at blocked
  | waiting =>
    simp only [stage, Bool.or_eq_false_iff, Bool.not_eq_false', decide_eq_false_iff_not,
      Nat.not_le] at blocked
    exact ⟨rfl, blocked⟩
  | ended drained => simp [stage] at on

theorem isActive_of_waits (waiting : w.stage = .waiting) (asks : w.progress.isAsking w.task)
    (early : w.broker.now < w.deadline) : w.isActive = false := by
  simp [isActive, waiting, asks, early]

theorem Heard.armed_of_goes (h : w.Heard) (goes : w.Goes b) (on : w.isOver = false)
    (early : b.now < w.deadline) : w.alarm ∈ b.timers := by
  have before : w.broker.now < w.deadline := Nat.lt_of_le_of_lt goes.later early
  cases goes.fires (h.armed on before) before with
  | inl still => exact still.2
  | inr fired => exact absurd early (Nat.not_lt.2 fired.1)

/-- A wait that is not told can be brought into line by its timer alone. -/
theorem Heeds.awake_of_goes (h : w.Heeds) (goes : w.Goes b)
    (same : (w.withBroker b).progress = w.progress) (active : (w.withBroker b).isActive) :
    w.task ∈ b.ready := by
  cases before : w.isActive with
  | true => exact goes.stays (h.awake before)
  | false =>
    have on : (w.withBroker b).isOver = false := isOver_of_isActive active
    obtain ⟨waiting, asks, early⟩ := waits_of_blocked before on
    cases goes.fires (h.armed on early) early with
    | inl still =>
      have blocked := isActive_of_waits (w := w.withBroker b) waiting (same ▸ asks) still.1
      exact absurd active (Bool.eq_false_iff.1 blocked)
    | inr fired => exact fired.2

/-- Word that is given is kept for the wait, or puts it in line. -/
theorem Heeds.given (h : w.Heeds) (goes : w.Goes b)
    (progress : (w.withBroker b).progress = w.progress.tell.2)
    (processed : (w.withBroker b).processed = w.processed)
    (awake : ∀ id ∈ w.progress.tell.1, id ∈ b.ready) : (w.withBroker b).Heeds := by
  have nobody : (w.withBroker b).progress.asking = [] := by
    rw [progress]
    cases h.asking with
    | inl before => rw [Signal.tell_of_nobody before]
    | inr asks => rw [Signal.tell_of_asking asks.1]
  have on (active : (w.withBroker b).isActive) : (w.withBroker b).isOver = false :=
    isOver_of_isActive active
  exact {
    tells := goes.tells
    apart := h.apart
    asking := .inl nobody
    kept := fun _ => nobody
    owed := fun _ some => by
      have asking : w.stage = .asking := some.resolve_right (absurd nobody)
      cases h.asking with
      | inl before =>
        rw [progress, Signal.tell_of_nobody before]
        exact .inl rfl
      | inr asks =>
        -- Whoever has asked already is not about to ask.
        simp [asks.2] at asking
    armed := h.armed_of_goes goes
    drained := fun ended => processed.symm ▸ h.drained ended
    late := fun ended => Nat.le_trans (h.late ended) goes.later
    awake := fun active => by
      cases h.asking with
      | inl before => exact goes.stays (h.awake (isActive_of_nobody before (on active)))
      | inr asks =>
        rw [Signal.tell_of_asking asks.1] at awake
        exact awake _ (List.mem_singleton_self _) }

/-- Where none is given, nothing changes but that a message may have been counted. -/
theorem Heeds.owing (h : w.Heeds) (goes : w.Goes b)
    (progress : (w.withBroker b).progress = w.progress)
    (counted : w.processed ≤ (w.withBroker b).processed)
    (owes : w.isOwed ∨ w.processed < (w.withBroker b).processed → (w.withBroker b).isOwed) :
    (w.withBroker b).Heeds where
  tells := goes.tells
  apart := h.apart
  asking := progress.symm ▸ h.asking
  kept := progress.symm ▸ h.kept
  owed enough some := by
    rw [progress] at some ⊢
    by_cases before : w.count ≤ w.processed
    · exact (h.owed before some).imp_right fun owed => owes (.inl owed)
    · -- The last message has been counted just now, and its signal is to come.
      exact .inr (owes (.inr (Nat.lt_of_lt_of_le (Nat.not_le.1 before) enough)))
  armed := h.armed_of_goes goes
  drained ended := Nat.le_trans (h.drained ended) counted
  late ended := Nat.le_trans (h.late ended) goes.later
  awake active := h.awake_of_goes goes progress active

theorem Heeds.other (h : w.Heeds) (goes : w.Goes b) : (w.withBroker b).Heeds := by
  cases goes.word with
  | given given awake =>
    have processed : (notebook b w.loop).processed = (notebook w.broker w.loop).processed := by
      rw [given]
    exact h.given goes (congrArg Notebook.progress given) processed awake
  | owed progress counted owes => exact h.owing goes progress counted owes

theorem Heard.enterLine (h : w.Heard) : w.enterLine.Heard := by
  obtain ⟨l, tells⟩ := h.tells
  have awake (e : Envelope) (plan : List Command) (stage : l.stage = .handling e plan) :
      w.loop ∈ w.enterLine.broker.ready := List.mem_cons_of_mem _ (tells.awake e plan stage)
  exact { h with tells := ⟨l, { tells with awake }⟩ }

theorem Heard.leaveLine (h : w.Heard) : w.leaveLine.Heard := by
  obtain ⟨l, tells⟩ := h.tells
  have awake (e : Envelope) (plan : List Command) (stage : l.stage = .handling e plan) :
      w.loop ∈ w.leaveLine.broker.ready :=
    (List.mem_erase_of_ne h.apart).2 (tells.awake e plan stage)
  exact { h with tells := ⟨l, { tells with awake }⟩ }

/-! ## Its own turn -/

/-- A wait that has changed the signal and gone on to another stage. -/
def goOn (w : Wait) (progress : Signal) (stage : WaitStage) : Wait :=
  { w with broker := setProgress w.broker w.loop progress, stage }

theorem notebook_goOn (tells : w.broker.Tells w.loop l) (progress : Signal) (stage : WaitStage) :
    notebook (w.goOn progress stage).broker w.loop =
      { notebook w.broker w.loop with progress } := by
  rw [notebook_of_loop? tells.there]
  exact notebook_of_loop? (tells_setProgress tells progress).there

/-- To change the signal leaves what is processed, the debt of the receiver and the clock alone. -/
theorem Heard.goOn (h : w.Heard) (on : w.isOver = false) {progress : Signal} {stage : WaitStage}
    (asking : progress.asking = [] ∨ progress.asking = [w.task] ∧ stage = .waiting)
    (kept : progress.kept → progress.asking = [])
    (owed : w.count ≤ w.processed → stage = .asking ∨ progress.asking ≠ [] →
      progress.kept ∨ w.isOwed)
    (drained : stage = .ended true → w.count ≤ w.processed)
    (late : stage = .ended false → w.deadline ≤ w.broker.now) : (w.goOn progress stage).Heard := by
  obtain ⟨l, tells⟩ := h.tells
  have set : (w.goOn progress stage).broker.Tells w.loop _ := tells_setProgress tells progress
  have after := notebook_goOn tells progress stage
  have progress' : (w.goOn progress stage).progress = progress := congrArg Notebook.progress after
  have processed : (w.goOn progress stage).processed = w.processed :=
    (congrArg Notebook.processed after).trans rfl
  have owed' : (w.goOn progress stage).isOwed = w.isOwed := by
    rw [isOwed_of_tells tells]
    exact (isOwed_of_tells (w := w.goOn progress stage) set).trans rfl
  have clock : (w.goOn progress stage).broker.now = w.broker.now ∧
      (w.goOn progress stage).broker.timers = w.broker.timers := by
    simp only [Wait.goOn, setProgress, Broker.loop?_eq_some.1 tells.there]
    exact ⟨rfl, rfl⟩
  constructor
  · exact ⟨_, set⟩
  · exact h.apart
  · rw [progress']
    exact asking
  · rw [progress']
    exact kept
  · rw [progress', processed, owed']
    exact owed
  · rw [clock.1, clock.2]
    exact fun _ => h.armed on
  · rw [processed]
    exact drained
  · rw [clock.1]
    exact late

theorem Heard.nobody (h : w.Heard) (stage : w.stage ≠ .waiting) : w.progress.asking = [] :=
  h.asking.resolve_right fun asks => stage asks.2

/-- A wait that is over asks for nothing any more. -/
theorem Heard.finish (h : w.Heard) (on : w.isOver = false) {drained : Bool}
    (done : drained = true → w.count ≤ w.processed)
    (late : drained = false → w.deadline ≤ w.broker.now) : (w.finish drained).Heard := by
  have nobody : (w.progress.withdraw w.task).asking = [] := by
    rw [Signal.withdraw]
    cases h.asking with
    | inl nobody => simp [nobody]
    | inr asks => simp [asks.1]
  have gone : (w.goOn (w.progress.withdraw w.task) (.ended drained)).Heard :=
    h.goOn on (.inl nobody) (fun _ => nobody) (fun _ some => by simp [nobody] at some)
      (fun ended => done (WaitStage.ended.inj ended))
      (fun ended => late (WaitStage.ended.inj ended))
  obtain ⟨l, tells⟩ := gone.tells
  exact { gone with
    tells := ⟨l, { tells with }⟩
    armed := fun on => by simp [isOver, Wait.finish] at on }

/-- A wait that has not asked can go on to look, or to ask if it has found too few messages. -/
theorem Heard.goTo (h : w.Heard) (on : w.isOver = false) {stage : WaitStage}
    (nobody : w.progress.asking = [])
    (few : stage = .asking → ¬ w.count ≤ w.processed) (goesOn : ∀ drained, stage ≠ .ended drained) :
    { w with stage }.Heard where
  tells := h.tells
  apart := h.apart
  asking := .inl nobody
  kept := h.kept
  owed enough some := some.elim (fun asking => absurd enough (few asking)) (absurd nobody)
  armed _ := h.armed on
  drained ended := absurd ended (goesOn true)
  late ended := absurd ended (goesOn false)

/-- A wait that has been told looks again, and one that has found too few messages asks. -/
theorem Heard.step (h : w.Heard) : w.step.Heard := by
  simp only [Wait.step]
  cases stage : w.stage with
  | looking =>
    have on : w.isOver = false := by simp [isOver, stage]
    have nobody := h.nobody (by simp [stage])
    dsimp only
    split
    · rename_i done
      exact h.finish on (fun _ => done) (by simp)
    · rename_i few
      exact h.goTo on nobody (fun _ => few) (by simp)
  | asking =>
    have on : w.isOver = false := by simp [isOver, stage]
    have nobody := h.nobody (by simp [stage])
    dsimp only
    split
    · exact h.goOn on (.inl nobody) (fun _ => nobody) (by simp [Signal.use, nobody]) (by simp)
        (by simp)
    · rename_i unheard
      split
      · rename_i late
        exact h.finish on (by simp) fun _ => late
      · -- What has been counted since the look is still to be told.
        exact h.goOn on (.inr ⟨by simp [Signal.ask, nobody], rfl⟩)
          (fun kept => absurd kept unheard) (fun enough _ => h.owed enough (.inl stage)) (by simp)
          (by simp)
  | waiting =>
    have on : w.isOver = false := by simp [isOver, stage]
    dsimp only
    split
    · rename_i told
      have nobody : w.progress.asking = [] := by
        refine h.asking.resolve_right fun asks => ?_
        simp [Signal.isAsking, asks.1] at told
      exact h.goTo on nobody (by simp) (by simp)
    · split
      · rename_i late
        exact h.finish on (by simp) fun _ => late
      · exact h
  | ended drained => exact h

theorem Heard.turn (h : w.Heard) : w.turn.Heeds := by
  have stepped := h.leaveLine.step
  simp only [Wait.turn]
  split
  · exact { stepped.enterLine with awake := fun _ => List.mem_cons_self .. }
  · rename_i blocked
    exact { stepped with awake := fun active => absurd active blocked }

/-- No turn of the wait or of another task makes it miss a signal. -/
theorem Heeds.act (h : w.Heeds) (scheduled : action.isOfSchedule) : (w.act action).Heeds := by
  simp only [Wait.act]
  split
  · exact h.turn
  · rename_i other
    exact h.other (h.goes scheduled other)

theorem Heeds.acts (h : w.Heeds) {actions : List Action}
    (scheduled : ∀ action ∈ actions, action.isOfSchedule) : (w.acts actions).Heeds := by
  induction actions generalizing w with
  | nil => exact h
  | cons action rest ih =>
    exact ih (h.act (scheduled action (List.mem_cons_self ..)))
      fun later member => scheduled later (List.mem_cons_of_mem _ member)

/-! ## Once all messages are processed -/

/-- So many turns of its own at most lead the wait to a look, which ends it if all messages are
    processed by then. -/
inductive Nears (w : Wait) : Nat → Prop
  | isOver (stage : w.stage = .ended true) (n : Nat) : Nears w n
  | looks (stage : w.stage = .looking) (n : Nat) : Nears w (n + 1)
  | uses (stage : w.stage = .asking) (kept : w.progress.kept) (n : Nat) : Nears w (n + 2)
  | wakes (stage : w.stage = .waiting) (told : w.progress.asking = []) (n : Nat) : Nears w (n + 2)

theorem Heard.nears (h : w.Heard) (enough : w.count ≤ w.processed) (given : w.isOwed = false)
    (early : w.stage ≠ .ended false) : w.Nears 2 := by
  have word (some : w.stage = .asking ∨ w.progress.asking ≠ []) : w.progress.kept :=
    (h.owed enough some).resolve_right (by simp [given])
  cases stage : w.stage with
  | looking => exact .looks stage 1
  | asking => exact .uses stage (word (.inl stage)) 0
  | waiting =>
    refine .wakes stage (Classical.byContradiction fun asks => ?_) 0
    exact asks (h.kept (word (.inr asks)))
  | ended drained =>
    cases drained with
    | true => exact .isOver stage 2
    | false => exact absurd stage early

theorem Nears.isActive {n : Nat} (near : w.Nears n) (on : w.isOver = false) : w.isActive := by
  cases near with
  | isOver stage _ => simp [Wait.isOver, stage] at on
  | looks stage _ | uses stage _ _ => simp [Wait.isActive, stage]
  | wakes _ told _ => exact isActive_of_nobody told on

/-- No turn of another task takes back what the wait has been told. -/
theorem Nears.other {n : Nat} (near : w.Nears n) (h : w.Heard) (goes : w.Goes b) :
    (w.withBroker b).Nears n := by
  have stays (nobody : w.progress.asking = []) :
      (w.withBroker b).progress.asking = [] ∧
        (w.progress.kept → (w.withBroker b).progress.kept) := by
    cases goes.word with
    | given given awake =>
      have told : (w.withBroker b).progress = w.progress.tell.2 := congrArg Notebook.progress given
      rw [told, Signal.tell_of_nobody nobody]
      exact ⟨rfl, fun _ => rfl⟩
    | owed progress counted owes =>
      have same : (w.withBroker b).progress = w.progress := progress
      rw [same]
      exact ⟨nobody, fun kept => kept⟩
  have same : (w.withBroker b).stage = w.stage := rfl
  cases near with
  | isOver stage n => exact .isOver (same.trans stage) n
  | looks stage n => exact .looks (same.trans stage) n
  | uses stage kept n => exact .uses (same.trans stage) ((stays (h.kept kept)).2 kept) n
  | wakes stage told n => exact .wakes (same.trans stage) (stays told).1 n

/-- Its own turn brings the wait nearer to its end. -/
theorem Nears.turn {n : Nat} (near : w.Nears n) (enough : w.count ≤ w.processed) :
    w.turn.Nears (n - 1) := by
  have stage : w.turn.stage = w.leaveLine.step.stage := by
    simp only [Wait.turn]
    split <;> rfl
  cases near with
  | isOver ended n =>
    refine .isOver (stage.trans ?_) _
    simp only [Wait.step, leaveLine, ended]
  | looks looking n =>
    refine .isOver (stage.trans ?_) _
    have here : w.leaveLine.stage = .looking := looking
    have enough : w.leaveLine.count ≤ w.leaveLine.processed := enough
    simp only [Wait.step, here, enough, ↓reduceIte, Wait.finish]
  | uses asking kept n =>
    refine .looks (stage.trans ?_) n
    have here : w.leaveLine.stage = .asking := asking
    have kept : w.leaveLine.progress.kept = true := kept
    simp only [Wait.step, here, kept, ↓reduceIte]
  | wakes waiting told n =>
    refine .looks (stage.trans ?_) n
    have here : w.leaveLine.stage = .waiting := waiting
    have told : w.leaveLine.progress.asking = [] := told
    simp [Wait.step, here, Signal.isAsking, told]

/-- A step of a wait processes no message. -/
theorem Heard.processed_step (h : w.Heard) : w.step.processed = w.processed := by
  obtain ⟨l, tells⟩ := h.tells
  have goOn (progress : Signal) (stage : WaitStage) :
      (w.goOn progress stage).processed = w.processed :=
    (congrArg Notebook.processed (notebook_goOn tells progress stage)).trans rfl
  have finish (drained : Bool) : (w.finish drained).processed = w.processed :=
    goOn _ (.ended drained)
  simp only [Wait.step]
  split
  · split
    · exact finish true
    · rfl
  · split
    · exact goOn _ .looking
    · split
      · exact finish false
      · exact goOn _ .waiting
  · split
    · rfl
    · split
      · exact finish false
      · rfl
  · rfl

theorem count_step (w : Wait) : w.step.count = w.count ∧ w.step.task = w.task := by
  simp only [Wait.step, Wait.finish]
  split <;> (try split) <;> (try split) <;> exact ⟨rfl, rfl⟩

theorem count_turn (w : Wait) : w.turn.count = w.count ∧ w.turn.task = w.task := by
  simp only [Wait.turn]
  split <;> exact w.leaveLine.count_step

theorem Heard.processed_turn (h : w.Heard) : w.turn.processed = w.processed := by
  simp only [Wait.turn]
  split <;> exact h.leaveLine.processed_step

theorem Nears.act {n : Nat} (near : w.Nears n) (h : w.Heeds) (enough : w.count ≤ w.processed)
    (scheduled : action.isOfSchedule) :
    (w.act action).task = w.task ∧ (w.act action).count ≤ (w.act action).processed ∧
      (w.act action).Nears (if action.actor? = some w.task then n - 1 else n) := by
  simp only [Wait.act]
  split
  · refine ⟨w.count_turn.2, ?_, near.turn enough⟩
    rw [w.count_turn.1, h.processed_turn]
    exact enough
  · rename_i other
    have goes := h.goes scheduled other
    refine ⟨rfl, Nat.le_trans enough ?_, near.other h.toHeard goes⟩
    cases goes.word with
    | given given _ => exact Nat.le_of_eq ((congrArg Notebook.processed given).trans rfl).symm
    | owed _ counted _ => exact counted

/-- The turns of a wait whose messages are all processed lead to its end, whatever happens between
    them. -/
theorem Heeds.ends (h : w.Heeds) (enough : w.count ≤ w.processed) {n : Nat} (near : w.Nears n)
    {actions : List Action} (scheduled : ∀ action ∈ actions, action.isOfSchedule)
    (turns : n ≤ actions.countP fun action => action.actor? = some w.task) :
    (w.acts actions).stage = .ended true := by
  induction actions generalizing w n with
  | nil =>
    obtain rfl : n = 0 := Nat.le_zero.1 turns
    cases near with
    | isOver stage _ => exact stage
  | cons action rest ih =>
    have first := scheduled action (List.mem_cons_self ..)
    obtain ⟨task, enough', near'⟩ := near.act h enough first
    refine ih (h.act first) enough' near'
      (fun later member => scheduled later (List.mem_cons_of_mem _ member)) ?_
    rw [List.countP_cons] at turns
    rw [task]
    by_cases own : action.actor? = some w.task
    · rw [if_pos (decide_eq_true own)] at turns
      rw [if_pos own]
      exact Nat.sub_le_of_le_add turns
    · rw [if_neg (by simp [own])] at turns
      rw [if_neg own]
      exact turns

/-- A wait is over only with all messages processed or at its deadline.  Where nobody is in line
    before that, some message has not been processed, and a timer is to wake the wait when its time
    is up.  Once all messages are processed and the loop has given its signal the wait is in line,
    and its next two turns lead to its end, whatever happens between them. -/
structure MissesNothing (w : Wait) : Prop where
  drained : w.stage = .ended true → w.count ≤ w.processed
  late : w.stage = .ended false → w.deadline ≤ w.broker.now
  asleep : w.isOver = false → w.broker.ready = [] →
    w.processed < w.count ∧ w.broker.now < w.deadline ∧
      ⟨w.deadline, w.task⟩ ∈ w.broker.timers
  told : w.isOver = false → w.count ≤ w.processed → w.isOwed = false →
    w.task ∈ w.broker.ready ∧
      ∀ actions : List Action, (∀ action ∈ actions, action.isOfSchedule) →
        2 ≤ actions.countP (fun action => action.actor? = some w.task) →
          (w.acts actions).stage = .ended true

theorem Heeds.missesNothing (h : w.Heeds) : w.MissesNothing where
  drained := h.drained
  late := h.late
  asleep on nobody := by
    have absent (id : TaskId) : id ∉ w.broker.ready := by
      rw [nobody]
      exact List.not_mem_nil
    have blocked : w.isActive = false := Bool.eq_false_iff.2 fun active => absent _ (h.awake active)
    obtain ⟨-, asks, early⟩ := waits_of_blocked blocked on
    refine ⟨Nat.lt_of_not_le fun enough => ?_, early, h.armed on early⟩
    -- The word of the last message is neither kept, as the wait has asked, nor owed by anyone.
    have some : w.progress.asking ≠ [] := fun none => by simp [Signal.isAsking, none] at asks
    cases h.owed enough (.inr some) with
    | inl kept => exact some (h.kept kept)
    | inr owed => exact absent _ (h.ready_of_isOwed owed)
  told on enough given := by
    have near : w.Nears 2 := h.nears enough given fun late => by simp [isOver, late] at on
    exact ⟨h.awake (near.isActive on), fun _ scheduled turns => h.ends enough near scheduled turns⟩

/-- A wait for a loop whose signal nobody has used. -/
theorem heeds_start (tells : b.Tells id l) (unused : l.notebook.progress = {})
    (count deadline : Nat) :
    (start b id count deadline).Heeds := by
  have progress : (start b id count deadline).progress = {} :=
    (congrArg Notebook.progress (notebook_of_loop? tells.there)).trans unused
  have inside : id < b.tasks.length :=
    (List.getElem?_eq_some_iff.1 (Broker.loop?_eq_some.1 tells.there)).1
  have awake (e : Envelope) (plan : List Command) (stage : l.stage = .handling e plan) :
      id ∈ (start b id count deadline).broker.ready :=
    List.mem_cons_of_mem _ (tells.awake e plan stage)
  exact {
    tells := ⟨l, { tells with awake }⟩
    apart := Nat.ne_of_lt inside
    asking := .inl (by rw [progress])
    kept := fun _ => by rw [progress]
    owed := fun _ some => by
      rw [progress] at some
      simp [start] at some
    armed := fun _ _ => List.mem_append_right _ (List.mem_singleton_self _)
    drained := fun ended => by simp [start] at ended
    late := fun ended => by simp [start] at ended
    awake := fun _ => List.mem_cons_self .. }

/-! ## The schedule -/

theorem act_of_other (w : Wait) {action : Action} (other : action.actor? ≠ some w.task) :
    w.act action = { w with broker := w.broker.act action } :=
  if_neg other

/-- What comes next as the schedule has it is one of its actions. -/
theorem next_eq_act (w : Wait) :
    ∃ action : Action, action.isOfSchedule ∧ w.next = w.act action := by
  cases owed : w.broker.owed with
  | cons a rest =>
    refine ⟨.announce 0, rfl, ?_⟩
    rw [w.act_of_other (by simp [Action.actor?])]
    simp [next, hasTurn, Broker.isBlocked, Broker.tick, Broker.act, owed]
  | nil =>
    cases ready : w.broker.ready with
    | cons id rest =>
      refine ⟨.turn id, rfl, ?_⟩
      by_cases own : id = w.task
      · simp [next, hasTurn, Broker.isBlocked, act, Action.actor?, owed, ready, own]
      · rw [w.act_of_other (by simp [Action.actor?, own])]
        simp [next, hasTurn, Broker.isBlocked, Broker.tick, Broker.act, owed, ready, own]
    | nil =>
      cases timer : w.broker.nextDue with
      | some due =>
        refine ⟨.advance due, rfl, ?_⟩
        rw [w.act_of_other (by simp [Action.actor?])]
        simp [next, Broker.isBlocked, Broker.act, owed, ready, timer]
      | none =>
        -- Nothing goes on any more, and to announce nothing changes nothing.
        refine ⟨.announce 0, rfl, ?_⟩
        rw [w.act_of_other (by simp [Action.actor?])]
        simp [next, Broker.isBlocked, Broker.act, Broker.announce, owed, ready, timer]

theorem run_eq_acts (w : Wait) (fuel : Nat) :
    ∃ actions : List Action, (∀ action ∈ actions, action.isOfSchedule) ∧
      w.run fuel = w.acts actions := by
  induction fuel generalizing w with
  | zero => exact ⟨[], by simp, rfl⟩
  | succ fuel ih =>
    rw [run]
    split
    · exact ⟨[], by simp, rfl⟩
    · obtain ⟨action, scheduled, next⟩ := w.next_eq_act
      obtain ⟨actions, all, runs⟩ := ih w.next
      refine ⟨action :: actions, ?_, by rw [runs, next]; rfl⟩
      intro a member
      cases member with
      | head => exact scheduled
      | tail _ later => exact all a later

end Wait

end PeekLock.Demo
