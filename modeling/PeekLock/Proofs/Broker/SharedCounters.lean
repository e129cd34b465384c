import PeekLock.Proofs.Broker.Books
import PeekLock.Proofs.Broker.Uncounted

/-! # Queues that share counters

However many queues count into the same counters, each finds there what it would find in counters
of its own.  Of a run there is another one (`Action.apart`) in which every queue has counters
of its own, and which differs in counters alone.  In both a queue that shares its
counters with no namesake counts the same events; and no other queue ever counts under its
names, since a counter belongs to one queue name and one event (`counterName_inj`).
-/

namespace PeekLock

namespace Action

/-- An action as it is where the queue that it makes, if any, is to count into some counters. -/
def countingInto (i : Nat) : Action → Action
  | .newQueue name _ => .newQueue name (some i)
  | .newQueueOf settings _ => .newQueueOf settings (some i)
  | action => action

/-- The actions of a run as they are where every queue has counters of its own, which are added
    right before it is made.  There are `n` queues so far. -/
def apart : (n : Nat) → List Action → List Action
  | _, [] => []
  | n, action :: rest =>
    match action.setup? with
    | some _ => .addCounters :: action.countingInto n :: apart (n + 1) rest
    | none => action.uncounted?.toList ++ apart n rest

theorem setup?_countingInto (i : Nat) (action : Action) :
    (action.countingInto i).setup? = action.setup?.map fun setup => (setup.1, some i) := by
  cases action with
  | newQueueOf settings counters =>
    simp only [countingInto, setup?]
    cases settings.check <;> rfl
  | _ => rfl

theorem uncounted?_countingInto (i : Nat) (action : Action) :
    (action.countingInto i).uncounted? = action.uncounted? := by
  cases action <;> rfl

/-- What is left of an action without its counters has none, and makes a queue if the action
    does. -/
theorem uncounted?_of_uncounted? {action action' : Action}
    (same : action.uncounted? = some action') :
    action'.uncounted? = some action' ∧ action'.setup?.isSome = action.setup?.isSome ∧
      Broker.addedCounters action' = [] := by
  cases action with
  | addCounters => cases same
  | newQueueOf settings counters =>
    cases same
    refine ⟨rfl, ?_, rfl⟩
    simp only [setup?]
    cases settings.check <;> rfl
  | _ =>
    cases same
    exact ⟨rfl, rfl, rfl⟩

/-- A run and the run in which every queue has counters of its own differ in counters alone. -/
theorem filterMap_uncounted?_apart (n : Nat) (actions : List Action) :
    (apart n actions).filterMap uncounted? = actions.filterMap uncounted? := by
  induction actions generalizing n with
  | nil => rfl
  | cons action rest ih =>
    simp only [apart]
    cases makes : action.setup? with
    | some setup =>
      have adds : uncounted? .addCounters = none := rfl
      simp only [List.filterMap_cons, adds, uncounted?_countingInto, ih]
    | none =>
      simp only [List.filterMap_append, ih]
      cases kind : action.uncounted? with
      | none => rw [List.filterMap_cons_none kind]; rfl
      | some action' =>
        rw [List.filterMap_cons_some kind, Option.toList_some,
          List.filterMap_cons_some (uncounted?_of_uncounted? kind).1]
        rfl

end Action

namespace Broker

variable {b b' : Broker} {q : QueueId} {event : QueueEvent}

/-! ## Every queue with counters of its own -/

/-- Every queue counts into the counters of its own number, and there are no others. -/
structure Separate (b : Broker) : Prop where
  length : b.counters.length = b.queues.length
  own : ∀ q, q < b.queues.length → b.countersOf? q = some q

/-- No two queues count at the same place. -/
theorem Separate.alone (h : b.Separate) {p : Nat × String} (counts : b.place? q event = some p) :
    b.Alone q p := by
  have own {q : QueueId} {event : QueueEvent} (there : b.place? q event = some p) : q = p.1 :=
    Option.some.inj ((h.own q (lt_length_of_place? there)).symm.trans (countersOf?_of_place? there))
  intro q' event' there
  rw [own there, own counts]

theorem countersOf?_eq (b : Broker) (q : QueueId) :
    b.countersOf? q = ((b.queues.map Queue.setup)[q]?).bind Prod.snd := by
  rw [countersOf?, queue?, List.getElem?_map]
  cases b.queues[q]? <;> rfl

theorem Separate.act (h : b.Separate) {action : Action} (makes : action.setup? = none)
    (adds : addedCounters action = []) : (b.act action).Separate where
  length := by rw [length_counters_act, length_act, adds, makes, h.length]; rfl
  own q inside := by
    rw [length_act, makes] at inside
    rw [countersOf?_eq, setups_act, makes, Option.toList_none, List.append_nil, ← countersOf?_eq]
    exact h.own q inside

/-- A queue that counts into counters which have been added for it has them alone. -/
theorem Separate.act_countingInto (h : b.Separate) {action : Action} {setup : Settings × Option Nat}
    (makes : action.setup? = some setup) :
    let made := action.countingInto b.queues.length
    b.addCounters.1.provides made ∧ (b.addCounters.1.act made).Separate := by
  intro made
  have setup? : made.setup? = some (setup.1, some b.queues.length) := by
    rw [action.setup?_countingInto, makes]
    rfl
  have adds : addedCounters made = [] := by
    cases action <;> first | rfl | simp [Action.setup?] at makes
  have room : b.addCounters.1.counters.length = b.queues.length + 1 :=
    List.length_append.trans (congrArg (· + 1) h.length)
  refine ⟨?_, ?_, ?_⟩
  · simp only [provides, setup?, room, decide_eq_true_eq]
    exact Nat.lt_succ_self _
  · rw [length_counters_act, length_act, adds, setup?, room]
    rfl
  · intro q inside
    have queues : b.addCounters.1.queues = b.queues := rfl
    rw [length_act, setup?, queues] at inside
    rw [countersOf?_eq, setups_act, setup?, queues]
    rcases Nat.lt_or_eq_of_le (Nat.le_of_lt_succ inside) with old | rfl
    · rw [List.getElem?_append_left (by simpa using old), ← countersOf?_eq]
      exact h.own q old
    · rw [List.getElem?_append_right (by simp)]
      simp

/-- Where every queue gets counters of its own it has them alone at the end, and no queue is made
    with counters that are missing. -/
theorem Separate.run_apart (h : b.Separate) (actions : List Action) :
    (b.run (Action.apart b.queues.length actions)).Separate ∧
      ∀ step ∈ b.steps (Action.apart b.queues.length actions), step.1.provides step.2 := by
  -- One action may turn into two, so the brokers between them are followed as well.
  induction actions generalizing b with
  | nil => exact ⟨h, fun _ member => absurd member List.not_mem_nil⟩
  | cons action rest ih =>
    simp only [Action.apart]
    cases makes : action.setup? with
    | some setup =>
      dsimp only
      obtain ⟨provided, made⟩ := h.act_countingInto makes
      have one : (b.addCounters.1.act (action.countingInto b.queues.length)).queues.length =
          b.queues.length + 1 := by
        rw [length_act, action.setup?_countingInto, makes]
        rfl
      obtain ⟨separate, later⟩ := ih made
      rw [one] at separate later
      -- There is always room for more counters, and then for the queue.
      exact ⟨separate, List.forall_mem_cons.2 ⟨rfl, List.forall_mem_cons.2 ⟨provided, later⟩⟩⟩
    | none =>
      dsimp only
      cases kind : action.uncounted? with
      | none => exact ih h
      | some action' =>
        obtain ⟨-, makes', adds⟩ := Action.uncounted?_of_uncounted? kind
        have none' : action'.setup? = none := by simpa [makes] using makes'
        have same : (b.act action').queues.length = b.queues.length := by
          rw [length_act, none']
          rfl
        obtain ⟨separate, later⟩ := ih (h.act none' adds)
        rw [same] at separate later
        have provided : b.provides action' := by simp only [provides, none']
        exact ⟨separate, List.forall_mem_cons.2 ⟨provided, later⟩⟩

/-! ## Totals of two runs -/

theorem pending_uncounted (b : Broker) (q : QueueId) (event : QueueEvent) :
    b.uncounted.pending q event = b.pending q event := by
  cases event <;> rfl

theorem place?_eq_nameOf {i : Nat} (counts : b.countersOf? q = some i) (event : QueueEvent) :
    b.place? q event = some (i, counterName (b.nameOf q) event.suffix) := by
  simp only [countersOf?, Option.bind_eq_some_iff] at counts
  obtain ⟨queue, there, counters⟩ := counts
  simp only [place?, nameOf, there, Option.bind_some, placeOf, Queue.setup, counters,
    Option.map_some]

/-- A queue shares its place with no queue of another name. -/
theorem alone_of_distinct {i : Nat}
    (distinct : ∀ q', b.countersOf? q' = some i → b.nameOf q' = b.nameOf q → q' = q)
    (event : QueueEvent) : b.Alone q (i, counterName (b.nameOf q) event.suffix) := by
  intro q' event' there
  have counts' : b.countersOf? q' = some i := countersOf?_of_place? there
  have names := (place?_eq_nameOf counts' event').symm.trans there
  exact distinct q' counts' (counterName_inj (Prod.mk.inj (Option.some.inj names)).2).1

/-- Where the same has happened, and the same is still to be announced, a queue that shares no
    place has the same totals. -/
theorem InBalance.total_eq {history : QueueId → List Access} (h : b.InBalance history)
    (h' : b'.InBalance history) (same : b'.uncounted = b.uncounted) {p p' : Nat × String}
    (counts : b.place? q event = some p) (alone : b.Alone q p)
    (counts' : b'.place? q event = some p') (alone' : b'.Alone q p') :
    b.total q event = b'.total q event := by
  obtain ⟨n, total, tally⟩ := h.balance q event p counts alone
  obtain ⟨n', total', tally'⟩ := h'.balance q event p' counts' alone'
  have pending : b'.pending q event = b.pending q event := by
    rw [← pending_uncounted, same, pending_uncounted]
  have equal : n = n' := by omega
  simp only [Broker.total, counts, counts', Option.map_some, Option.getD_some, total, total', equal]

/-- Queues that share counters do not mix events.  A counter belongs to one queue name and one
    event.  So if no other queue that counts into the same counters has its name, then a queue
    has the totals that it has where every queue has counters of its own, in a run that is the same
    in everything but counters. -/
theorem shared_counters_never_mix :
    (∀ (name name' : String) (event event' : QueueEvent),
      counterName name event.suffix = counterName name' event'.suffix →
        name = name' ∧ event = event') ∧
    ∀ (start : Timestamp) (actions : List Action) (q : QueueId) (i : Nat),
      let b := (new start).run actions
      let own := (new start).run (Action.apart 0 actions)
      (∀ step ∈ (new start).steps actions, step.1.provides step.2) →
        b.countersOf? q = some i →
        (∀ q', b.countersOf? q' = some i → b.nameOf q' = b.nameOf q → q' = q) →
          own.Separate ∧ own.uncounted = b.uncounted ∧
          ∀ event, b.total q event = own.total q event := by
  refine ⟨fun _ _ _ _ => counterName_inj, ?_⟩
  intro start actions q i b own provided counts distinct
  have fresh : (new start).Separate := ⟨rfl, fun _ inside => absurd inside (Nat.not_lt_zero _)⟩
  obtain ⟨separate, provided'⟩ := fresh.run_apart actions
  have alike := Action.filterMap_uncounted?_apart 0 actions
  have same : own.uncounted = b.uncounted := by
    simp only [b, own, uncounted_run, alike]
  have length : own.queues.length = b.queues.length := by
    rw [← length_uncounted, same, length_uncounted]
  have inside : q < b.queues.length := lt_length_of_place? (place?_eq_nameOf counts .sent)
  have counts' : own.countersOf? q = some q := separate.own q (length ▸ inside)
  have history : (fun q => (new start).accesses q (Action.apart 0 actions)) =
      fun q => (new start).accesses q actions := by
    funext q
    rw [← accesses_uncounted, alike, accesses_uncounted]
  refine ⟨separate, same, fun event => ?_⟩
  have place := place?_eq_nameOf counts event
  have place' := place?_eq_nameOf counts' event
  exact (inBalance_run provided).total_eq (history ▸ inBalance_run provided') same
    place (alone_of_distinct distinct event) place' (separate.alone place')

/-- Two queues whose names differ by the word for an event: both count what is sent, and one has
    handed out a message besides. -/
theorem shared_counters_never_mix_for_confusable_names :
    let actions : List Action := [.addCounters, .newQueue ⟨"a"⟩ (some 0),
      .newQueue ⟨"a.sentmessages"⟩ (some 0), .ask 0 (.send "" .empty), .ask 1 (.send "" .empty),
      .announce 1, .ask 1 (.send "" .empty), .announce 0, .announce 0,
      .ask 0 (.receive "" (.ofMillis 1000)), .turn 0, .turn 0]
    let b := (new .epoch).run actions
    let own := (new .epoch).run (Action.apart 0 actions)
    b.total 0 .received = 1 ∧ b.total 1 .sent = 2 ∧ own.total 1 .sent = 2 ∧
      b.total 1 .received = own.total 1 .received := by
  intro actions b own
  have two : b.queues.length = 2 := by decide
  have distinct (q : QueueId) (counts : b.countersOf? q = some 0)
      (same : b.nameOf q = b.nameOf 1) : q = 1 := by
    match q with
    | 0 => exact absurd same (by decide)
    | 1 => rfl
    | n + 2 =>
      have outside : b.queue? (n + 2) = none := List.getElem?_eq_none (two ▸ Nat.le_add_left 2 n)
      simp [countersOf?, outside] at counts
  have provided : ∀ step ∈ (new .epoch).steps actions, step.1.provides step.2 := by decide
  obtain ⟨-, -, totals⟩ :=
    shared_counters_never_mix.2 .epoch actions 1 0 provided (by decide) distinct
  have sent : b.total 1 .sent = 2 := by decide
  exact ⟨by decide, sent, (totals .sent).symm.trans sent, totals .received⟩

end Broker

end PeekLock
