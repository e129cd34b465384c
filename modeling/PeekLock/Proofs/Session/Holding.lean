import PeekLock.Proofs.Broker.Origin
import PeekLock.Proofs.Session.Reach

/-! # What can be held

`Obtainable` says which envelopes a caller or receiver can come to hold in the course of
a run: those that are made, read from a text, shown by a queue or in the hands of a
task, and what becomes of them by edits and settlements.  Copies are not told apart from
what they are copies of.  All that a session has in its slots is obtainable
(`Session.Honest`), and tokens on what is obtainable cannot be forged: they stem from
deliveries.
-/

namespace PeekLock

/-- After a run somebody can hold the envelope. -/
inductive Obtainable (start : Timestamp) : List Action → Envelope → Prop
  /-- Made without contents, of contents, of a document, or read from its wire form. -/
  | made (actions : List Action) {draft : Draft} {next next' : Nat} {e : Envelope}
      (done : draft.make next = .ok (e, next')) : Obtainable start actions e
  | edited {actions : List Action} {e : Envelope} (has : Obtainable start actions e)
      (edit : Edit) : Obtainable start actions (edit.apply e).1
  | peeked {actions : List Action} {q : QueueId} {c : String} {e : Envelope}
      (seen : (((Broker.new start).run actions).peek q c).1 = some e) : Obtainable start actions e
  | peekedBatch {actions : List Action} {q : QueueId} {c : String} {most : Nat} {e : Envelope}
      (seen : e ∈ (((Broker.new start).run actions).peekBatch q c most).1) :
      Obtainable start actions e
  /-- A receive has ended with it, or a loop and its receiver have it. -/
  | inHand {actions : List Action} {id : TaskId} {e : Envelope}
      (hand : ((Broker.new start).run actions).inHand? id = some e) : Obtainable start actions e
  | completed {actions : List Action} {e : Envelope} (has : Obtainable start actions e)
      (q : QueueId) : Obtainable start actions (((Broker.new start).run actions).complete q e).1
  | deadLettered {actions : List Action} {e : Envelope} (has : Obtainable start actions e)
      (q : QueueId) : Obtainable start actions (((Broker.new start).run actions).deadLetter q e).1
  | abandoned {actions : List Action} {e : Envelope} (has : Obtainable start actions e)
      (q : QueueId) : Obtainable start actions (((Broker.new start).run actions).abandon q e).1
  /-- Kept while something happens. -/
  | later {actions : List Action} {e : Envelope} (has : Obtainable start actions e)
      (action : Action) : Obtainable start (actions ++ [action]) e

namespace Broker

variable {start : Timestamp} {actions : List Action} {q : QueueId} {e : Envelope}

theorem reference_peek {c : String}
    (seen : (((new start).run actions).peek q c).1 = some e) : e.reference = none := by
  have sound := sound_run start q actions
  simp only [peek] at seen
  split at seen
  · simp at seen
  · rename_i first rest line
    obtain rfl := Option.some.inj seen
    exact sound.visible_unlocked first (line ▸ List.mem_cons_self ..)

theorem reference_peekBatch {c : String} {most : Nat}
    (seen : e ∈ (((new start).run actions).peekBatch q c most).1) : e.reference = none :=
  (sound_run start q actions).visible_unlocked e (List.mem_of_mem_take seen)

end Broker

namespace Obtainable

variable {start : Timestamp} {actions : List Action} {e : Envelope} {t : LockToken}

theorem append (has : Obtainable start actions e) (more : List Action) :
    Obtainable start (actions ++ more) e := by
  induction more using List.reverseRecOn with
  | nil => simpa using has
  | append_singleton front action ih =>
    rw [← List.append_assoc]
    exact ih.later action

/-- A token on what can be held stems from a delivery. -/
theorem stems (has : Obtainable start actions e) (carries : e.reference = some t) :
    ∃ q, Stems ((Broker.new start).accesses q actions) t e := by
  -- A settlement keeps all, or takes the token off.
  have settled {actions : List Action} {e e' : Envelope}
      (ih : e.reference = some t → ∃ q, Stems ((Broker.new start).accesses q actions) t e)
      (either : e' = e ∨ e' = e.withoutReference) (carries : e'.reference = some t) :
      ∃ q, Stems ((Broker.new start).accesses q actions) t e' := by
    rcases either with rfl | rfl
    · exact ih carries
    · simp [Envelope.withoutReference] at carries
  induction has with
  | made actions done => simp [Draft.reference_make done] at carries
  | @edited actions e _ edit ih =>
    have descends := Envelope.Descends.edit e edit
    obtain ⟨q, stems⟩ := ih (descends.reference carries)
    exact ⟨q, stems.descends descends⟩
  | peeked seen => simp [Broker.reference_peek seen] at carries
  | peekedBatch seen => simp [Broker.reference_peekBatch seen] at carries
  | inHand hand => exact Broker.stems_of_inHand? hand carries
  | completed _ q ih => exact settled ih (Broker.complete_fst ..) carries
  | deadLettered _ q ih => exact settled ih (Broker.deadLetter_fst ..) carries
  | abandoned _ q ih => exact settled ih (Broker.abandon_fst ..) carries
  | later _ action ih =>
    obtain ⟨q, stems⟩ := ih carries
    exact ⟨q, Broker.accesses_append .. ▸ stems.append _⟩

end Obtainable

namespace Session

variable {s s' : Session}

/-! ## Slots -/

/-- The broker of a session is where a run leads, and what is in the slots can be held then. -/
structure Honest (start : Timestamp) (actions : List Action) (s : Session) : Prop where
  broker : (Broker.new start).run actions = s.broker
  slots : ∀ p ∈ s.slots, Obtainable start actions p.2

variable {start : Timestamp} {actions : List Action} {e : Envelope} {name : String}

theorem Honest.slot (honest : s.Honest start actions) (found : s.slot name = .ok e) :
    Obtainable start actions e := by
  simp only [Session.slot, slot?] at found
  split at found
  · rename_i entry
    obtain rfl := Except.ok.inj found
    exact honest.slots (name, _) (mem_of_get? entry)
  · simp at found

/-- An envelope that could be held before a step, or is in the hands of a task after it. -/
def Gain (start : Timestamp) (actions : List Action) (s' : Session) (e : Envelope) : Prop :=
  Obtainable start actions e ∨ ∃ id, s'.broker.inHand? id = some e

theorem Honest.same (honest : s.Honest start actions) (slots : s'.slots = s.slots) :
    ∀ p ∈ s'.slots, Gain start actions s' p.2 :=
  fun p member => .inl (honest.slots p (slots ▸ member))

theorem Honest.fill (honest : s.Honest start actions)
    (slots : s'.slots = Keyed.insert name e s.slots) (gain : Gain start actions s' e) :
    ∀ p ∈ s'.slots, Gain start actions s' p.2 := by
  intro p member
  rcases mem_insert (slots ▸ member) with rfl | old
  · exact gain
  · exact .inl (honest.slots p old)

theorem Honest.fillWith (honest : s.Honest start actions) (s₁ : Session)
    (slots : s₁.slots = s.slots) (target : Option String) {found : Option Envelope}
    (gain : ∀ e, found = some e → Gain start actions (s₁.fillWith target found) e) :
    ∀ p ∈ (s₁.fillWith target found).slots, Gain start actions (s₁.fillWith target found) p.2 := by
  cases target with
  | none => exact honest.same slots
  | some name =>
    cases found with
    | none => exact honest.same slots
    | some e => exact honest.fill (congrArg _ slots) (gain e rfl)

theorem Honest.settleSlot (honest : s.Honest start actions) {queue slot : String}
    {f : Broker → QueueId → Envelope → Envelope × Broker} {a : Answer}
    (settles : ∀ q e, Obtainable start actions e → Obtainable start actions (f s.broker q e).1)
    (done : s.settleSlot queue slot f = .ok (s', a)) :
    ∀ p ∈ s'.slots, Gain start actions s' p.2 := by
  obtain ⟨q, _, done⟩ := bind_eq_ok done
  obtain ⟨e, found, done⟩ := bind_eq_ok done
  obtain ⟨rfl, _⟩ := Prod.mk.inj (Except.ok.inj done)
  exact honest.fill rfl (.inl (settles q e (honest.slot found)))

theorem slots_makeEnvelope {draft : Draft} (made : s.makeEnvelope draft = .ok (e, s')) :
    s'.slots = s.slots ∧ Obtainable start actions e := by
  simp only [makeEnvelope] at made
  split at made
  · rename_i done
    obtain ⟨rfl, rfl⟩ := Prod.mk.inj (Except.ok.inj made)
    exact ⟨rfl, .made actions done⟩
  · simp at made

theorem inHand?_of_outcome? {b : Broker} {id : TaskId} (ended : outcome? b id = some (some e)) :
    b.inHand? id = some e := by
  simp only [outcome?] at ended
  split at ended
  · rename_i r there
    split at ended
    · rename_i stage
      simp only [Broker.inHand?, there, Option.bind_some, Task.inHand?, stage]
      exact Option.some.inj ended
    · simp at ended
  · simp at ended

theorem Honest.gains (honest : s.Honest start actions) {step : Step} {a : Answer}
    (done : s.perform step = .ok (s', a)) : ∀ p ∈ s'.slots, Gain start actions s' p.2 := by
  cases step with
  | newQueue name source counters =>
    obtain ⟨_, _, done⟩ := bind_eq_ok done
    obtain ⟨_, _, done⟩ := bind_eq_ok done
    obtain ⟨rfl, _⟩ := Prod.mk.inj (Except.ok.inj done)
    exact honest.same rfl
  | cloneQueue | settings | describe | capabilities | count | counters | openQueue | closeQueue
  | clear | endListen | peekBatch | startReceive | drop | releaseExpired | listen | listenWith
  | stop | state | join =>
    obtain ⟨_, _, done⟩ := bind_eq_ok done
    obtain ⟨rfl, _⟩ := Prod.mk.inj (Except.ok.inj done)
    exact honest.same rfl
  | equal | token | compareTokens | sleep | now =>
    obtain ⟨rfl, _⟩ := Prod.mk.inj (Except.ok.inj done)
    exact honest.same rfl
  | lockExpiration queue slot =>
    obtain ⟨_, _, done⟩ := bind_eq_ok done
    split at done <;>
    · obtain ⟨rfl, _⟩ := Prod.mk.inj (Except.ok.inj done)
      exact honest.same rfl
  | makeEnvelope slot draft =>
    obtain ⟨⟨e, s₁⟩, made, done⟩ := bind_eq_ok done
    obtain ⟨rfl, _⟩ := Prod.mk.inj (Except.ok.inj done)
    obtain ⟨slots, has⟩ := slots_makeEnvelope made
    exact honest.fill (congrArg (Keyed.insert slot e) slots) (.inl has)
  | edit slot edit =>
    obtain ⟨e, found, done⟩ := bind_eq_ok done
    obtain ⟨rfl, _⟩ := Prod.mk.inj (Except.ok.inj done)
    exact honest.fill rfl (.inl ((honest.slot found).edited edit))
  | copy slot target =>
    obtain ⟨e, found, done⟩ := bind_eq_ok done
    obtain ⟨rfl, _⟩ := Prod.mk.inj (Except.ok.inj done)
    exact honest.fill rfl (.inl (honest.slot found))
  | sendDraft queue c draft =>
    obtain ⟨_, _, done⟩ := bind_eq_ok done
    obtain ⟨⟨e, s₁⟩, made, done⟩ := bind_eq_ok done
    obtain ⟨rfl, _⟩ := Prod.mk.inj (Except.ok.inj done)
    have made : s₁.slots = s.slots ∧ Obtainable start actions e := slots_makeEnvelope made
    exact honest.same made.1
  | sendCopy queue c slot =>
    obtain ⟨_, _, done⟩ := bind_eq_ok done
    obtain ⟨_, _, done⟩ := bind_eq_ok done
    obtain ⟨rfl, _⟩ := Prod.mk.inj (Except.ok.inj done)
    exact honest.same rfl
  | peek queue c target =>
    obtain ⟨q, _, done⟩ := bind_eq_ok done
    obtain ⟨rfl, _⟩ := Prod.mk.inj (Except.ok.inj done)
    refine honest.fillWith { s with broker := (s.broker.peek q c).2 } rfl target
      fun e seen => .inl ?_
    rw [← honest.broker] at seen
    exact .peeked seen
  | receive queue c timeout target =>
    obtain ⟨q, _, done⟩ := bind_eq_ok done
    obtain ⟨rfl, _⟩ := Prod.mk.inj (Except.ok.inj done)
    let id := (s.broker.startReceive q c timeout).2
    let b := (s.broker.startReceive q c timeout).1.runUntilReached (hasEnded id)
    refine honest.fillWith { s with broker := b } rfl target fun e ended => .inr ⟨id, ?_⟩
    rw [broker_fillWith]
    -- Nothing is found where the receive has not ended.
    refine inHand?_of_outcome? ?_
    have ended : (outcome? b id).getD none = some e := ended
    cases outcome : outcome? b id with
    | none => simp [outcome] at ended
    | some found =>
      rw [outcome] at ended
      exact congrArg some ended
  | take waiter target =>
    obtain ⟨id, _, done⟩ := bind_eq_ok done
    split at done
    · obtain ⟨rfl, _⟩ := Prod.mk.inj (Except.ok.inj done)
      exact honest.same rfl
    · rename_i e outcome
      obtain ⟨rfl, _⟩ := Prod.mk.inj (Except.ok.inj done)
      refine honest.fillWith { s with waiters := forget waiter s.waiters } rfl target
        fun e' ended => .inr ⟨id, ?_⟩
      rw [broker_fillWith]
      exact inHand?_of_outcome? (outcome.trans (congrArg some ended))
  | renew queue slot timeout =>
    exact honest.settleSlot (f := fun b q e => (e, b.renew q e)) (fun _ _ has => has) done
  | complete queue slot =>
    exact honest.settleSlot (f := Broker.complete)
      (fun q _ has => honest.broker ▸ has.completed q) done
  | abandon queue slot =>
    exact honest.settleSlot (f := Broker.abandon)
      (fun q _ has => honest.broker ▸ has.abandoned q) done
  | deadLetter queue slot =>
    exact honest.settleSlot (f := Broker.deadLetter)
      (fun q _ has => honest.broker ▸ has.deadLettered q) done

theorem Honest.step (honest : s.Honest start actions) (named : s.Named) (step : Step) :
    ∃ more, (s.step step).1.Honest start (actions ++ more) := by
  simp only [Session.step]
  cases done : s.perform step with
  | error _ => exact ⟨[], by simpa using honest⟩
  | ok result =>
    obtain ⟨s', a⟩ := result
    obtain ⟨acted, reached⟩ := (reaches_perform named done).broker
    obtain ⟨settling, settled⟩ := Broker.leadsTo_settle Broker.manySteps s'.broker
    -- What the step does itself comes first, and then all that can go on without the clock.
    have whole : (Broker.new start).run (actions ++ acted) = s'.broker := by
      rw [Broker.run_append, honest.broker, reached]
    refine ⟨acted ++ settling, ?_, fun p member => ?_⟩
    · rw [← List.append_assoc, Broker.run_append, whole, settled]
      rfl
    · rw [← List.append_assoc]
      rcases honest.gains done p member with before | ⟨id, hand⟩
      · exact (before.append acted).append settling
      · exact (Obtainable.inHand (whole.symm ▸ hand)).append settling

theorem honest_steps (start : Timestamp) (steps : List Step) :
    ∃ actions, (steps.foldl (fun s step => (s.step step).1) (Session.new start)).Honest
      start actions := by
  have all : ∀ (s : Session) (actions : List Action), s.Honest start actions → s.Named →
      ∃ actions', (steps.foldl (fun s step => (s.step step).1) s).Honest start actions' := by
    induction steps with
    | nil => exact fun s actions honest _ => ⟨actions, honest⟩
    | cons step rest ih =>
      intro s actions honest named
      obtain ⟨more, honest'⟩ := honest.step named step
      exact ih _ _ honest' (reaches_step named step).named
  refine all (Session.new start) [] ⟨rfl, fun p member => ?_⟩ fun p member => ?_
  · exact (List.not_mem_nil (a := p) member).elim
  · exact (List.not_mem_nil (a := p) member).elim

end Session

/-- Tokens cannot be forged.  Whoever holds an envelope with a token holds a descendant of one
    that a receive or a loop has been handed, by the one queue whose number the token has and
    under this token.  Neither what is read from a text nor what a queue shows has a token.  All
    that a session has in its slots is among what can be held. -/
theorem tokens_stem_from_deliveries (start : Timestamp) :
    (∀ actions e t, Obtainable start actions e → e.reference = some t →
      let b := (Broker.new start).run actions
      ∃ q, q < b.queues.length ∧ t.owner = Broker.ownerOf q ∧
        (∀ q', t.owner = Broker.ownerOf q' → q' = q) ∧
        t.sequence < (b.storageOf q).nextSequence ∧
        ∃ a ∈ (Broker.new start).accesses q actions, ∃ e₀, a.delivered = some e₀ ∧
          e₀.reference = some t ∧ e₀.Descends e) ∧
      (∀ json e, Envelope.ofJson json = .ok e → e.reference = none) ∧
      (∀ actions q c,
        let b := (Broker.new start).run actions
        (∀ e, (b.peek q c).1 = some e → e.reference = none) ∧
          ∀ most, ∀ e ∈ (b.peekBatch q c most).1, e.reference = none) ∧
      ∀ steps : List Step,
        let s := steps.foldl (fun s step => (s.step step).1) (Session.new start)
        ∃ actions, (Broker.new start).run actions = s.broker ∧
          ∀ name e, s.slot? name = some e → Obtainable start actions e := by
  refine ⟨fun actions e t has carries => ?_, fun json e read => Envelope.reference_ofJson read,
    fun actions q c => ⟨fun e seen => Broker.reference_peek seen,
      fun most e seen => Broker.reference_peekBatch seen⟩, fun steps => ?_⟩
  · obtain ⟨q, stems⟩ := has.stems carries
    obtain ⟨owner, below⟩ := (Broker.accounted_run start q actions).mem_minted.1 stems.mem_minted
    obtain ⟨a, member, delivery⟩ := stems
    refine ⟨q, Broker.inside_of_mem_accesses member, owner, fun q' other => ?_, below, a, member,
      delivery⟩
    -- No two queues have the same number.
    exact Nat.succ.inj (other.symm.trans owner)
  · obtain ⟨actions, honest⟩ := Session.honest_steps start steps
    exact ⟨actions, honest.broker, fun name e found =>
      honest.slots (name, e) (Session.mem_of_get? found)⟩

/-- A message is sent and received, and the receiver changes its type. -/
theorem tokens_stem_from_deliveries_edited :
    let actions : List Action := [.newQueue ⟨"jobs"⟩ none, .newQueue ⟨"mail"⟩ none,
      .ask 1 (.send "" .empty), .ask 1 (.receive "" (.ofMillis 1000)), .turn 0, .turn 0]
    let received : Envelope :=
      { Envelope.empty with sentTime := some .epoch, reference := some ⟨2, 0⟩ }
    ∃ q, q < ((Broker.new .epoch).run actions).queues.length ∧ 2 = Broker.ownerOf q ∧
      ∃ a ∈ (Broker.new .epoch).accesses q actions, ∃ e₀, a.delivered = some e₀ ∧
        e₀.reference = some ⟨2, 0⟩ ∧ e₀.Descends { received with messageType := "done" } := by
  intro actions received
  have hand : ((Broker.new .epoch).run actions).inHand? 0 = some received := by decide
  have has : Obtainable .epoch actions received := .inHand hand
  obtain ⟨q, inside, owner, _, _, delivery⟩ :=
    (tokens_stem_from_deliveries .epoch).1 actions _ ⟨2, 0⟩
      (has.edited (.setMessageType "done")) rfl
  exact ⟨q, inside, owner, delivery⟩

end PeekLock
