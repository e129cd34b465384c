import PeekLock.Proofs.Broker.Isolation
import PeekLock.Proofs.Broker.Origin
import PeekLock.Proofs.Counters
import PeekLock.Proofs.Session.Reach

/-! # Queues are isolated from one another

A name of a queue is given when the queue is made, or when the queue is cloned from
another name.  `Annals` keep count of this by the steps alone: of each name they tell
which step made the queue that it stands for.  Two names then stand for queues of one
number if and only if the same step made both, that is, if they are clones
(`Annals.Faithful`).  As tokens carry the number of their queue, no other queue takes
them for its own, and the rest is what `Broker.sight?` says of all operations.
-/

namespace PeekLock

namespace Session

variable {s s' : Session}

theorem queue_eq_ok {name : String} {q : QueueId} :
    s.queue name = .ok q ↔ Keyed.get? name s.queues = some q := by
  simp only [queue]
  cases Keyed.get? name s.queues <;> simp

/-! ## What a step does to names of queues -/

theorem queues_makeEnvelope {draft : Draft} {e : Envelope}
    (made : s.makeEnvelope draft = .ok (e, s')) : s'.queues = s.queues := by
  simp only [makeEnvelope] at made
  split at made
  · obtain ⟨_, rfl⟩ := Prod.mk.inj (Except.ok.inj made)
    rfl
  · simp at made

theorem queues_settleSlot {queue slot : String}
    {f : Broker → QueueId → Envelope → Envelope × Broker} {a : Answer}
    (done : s.settleSlot queue slot f = .ok (s', a)) : s'.queues = s.queues := by
  obtain ⟨_, _, done⟩ := bind_eq_ok done
  obtain ⟨_, _, done⟩ := bind_eq_ok done
  obtain ⟨rfl, _⟩ := Prod.mk.inj (Except.ok.inj done)
  rfl

theorem length_chooseCounters {counters : CountersSource} {chosen : Broker × Option Nat}
    (done : s.chooseCounters counters = .ok chosen) :
    chosen.1.queues.length = s.broker.queues.length := by
  cases counters with
  | none | fresh =>
    obtain rfl := Except.ok.inj done
    rfl
  | shared name =>
    obtain ⟨_, _, done⟩ := bind_eq_ok done
    obtain rfl := Except.ok.inj done
    rfl

theorem queues_newQueue {name : String} {source : QueueSource} {counters : CountersSource}
    {a : Answer} (done : s.newQueue name source counters = .ok (s', a)) :
    s'.queues = Keyed.insert name s.broker.queues.length s.queues ∧
      s.broker.queues.length < s'.broker.queues.length := by
  obtain ⟨⟨b, chosen⟩, choosing, done⟩ := bind_eq_ok done
  obtain ⟨⟨b', q⟩, making, done⟩ := bind_eq_ok done
  obtain ⟨rfl, _⟩ := Prod.mk.inj (Except.ok.inj done)
  have same : b.queues.length = s.broker.queues.length := length_chooseCounters choosing
  -- Of a name or of settings, once it passes the check it is added at the end.
  have added (settings : Settings) (made : b.addQueue settings chosen = (b', q)) :
      q = s.broker.queues.length ∧ s.broker.queues.length < b'.queues.length := by
    obtain ⟨rfl, rfl⟩ := Prod.mk.inj made
    rw [List.length_append]
    exact ⟨same, same ▸ Nat.lt_succ_self _⟩
  obtain ⟨rfl, longer⟩ : q = s.broker.queues.length ∧
      s.broker.queues.length < b'.queues.length := by
    cases source with
    | name text =>
      dsimp only at making
      split at making
      · exact added _ (Except.ok.inj making)
      · simp at making
    | settings settings =>
      simp only [Broker.newQueueOf] at making
      cases passes : settings.check with
      | error _ => simp [passes] at making
      | ok _ =>
        rw [passes] at making
        exact added settings (Except.ok.inj making)
  exact ⟨rfl, longer⟩

theorem queues_cloneQueue {queue target : String} {a : Answer}
    (done : s.perform (.cloneQueue queue target) = .ok (s', a)) :
    ∃ q, s.queue queue = .ok q ∧ s'.queues = Keyed.insert target q s.queues := by
  obtain ⟨q, found, done⟩ := bind_eq_ok done
  obtain ⟨rfl, _⟩ := Prod.mk.inj (Except.ok.inj done)
  exact ⟨q, found, rfl⟩

theorem queues_perform {step : Step} {a : Answer}
    (makes : ∀ name source counters, step ≠ .newQueue name source counters)
    (clones : ∀ queue target, step ≠ .cloneQueue queue target)
    (done : s.perform step = .ok (s', a)) : s'.queues = s.queues := by
  cases step with
  | newQueue name source counters => exact absurd rfl (makes name source counters)
  | cloneQueue queue target => exact absurd rfl (clones queue target)
  | settings | describe | capabilities | count | counters | openQueue | closeQueue | clear
  | endListen | edit | copy | peekBatch | startReceive | drop | releaseExpired | listen | listenWith
  | stop | state | join =>
    obtain ⟨_, _, done⟩ := bind_eq_ok done
    obtain ⟨rfl, _⟩ := Prod.mk.inj (Except.ok.inj done)
    rfl
  | equal | token | compareTokens | sleep | now =>
    obtain ⟨rfl, _⟩ := Prod.mk.inj (Except.ok.inj done)
    rfl
  | lockExpiration queue slot =>
    obtain ⟨_, _, done⟩ := bind_eq_ok done
    split at done <;>
    · obtain ⟨rfl, _⟩ := Prod.mk.inj (Except.ok.inj done)
      rfl
  | makeEnvelope slot draft =>
    obtain ⟨⟨_, s₁⟩, made, done⟩ := bind_eq_ok done
    obtain ⟨rfl, _⟩ := Prod.mk.inj (Except.ok.inj done)
    have made : s₁.queues = s.queues := queues_makeEnvelope made
    exact made
  | sendDraft queue c draft =>
    obtain ⟨_, _, done⟩ := bind_eq_ok done
    obtain ⟨⟨_, s₁⟩, made, done⟩ := bind_eq_ok done
    obtain ⟨rfl, _⟩ := Prod.mk.inj (Except.ok.inj done)
    have made : s₁.queues = s.queues := queues_makeEnvelope made
    exact made
  | sendCopy queue c slot =>
    obtain ⟨_, _, done⟩ := bind_eq_ok done
    obtain ⟨_, _, done⟩ := bind_eq_ok done
    obtain ⟨rfl, _⟩ := Prod.mk.inj (Except.ok.inj done)
    rfl
  | peek | receive =>
    obtain ⟨_, _, done⟩ := bind_eq_ok done
    obtain ⟨rfl, _⟩ := Prod.mk.inj (Except.ok.inj done)
    exact queues_fillWith ..
  | take waiter target =>
    obtain ⟨_, _, done⟩ := bind_eq_ok done
    split at done
    · obtain ⟨rfl, _⟩ := Prod.mk.inj (Except.ok.inj done)
      rfl
    · obtain ⟨rfl, _⟩ := Prod.mk.inj (Except.ok.inj done)
      exact queues_fillWith ..
  | renew queue slot timeout =>
    exact queues_settleSlot (f := fun b q e => (e, b.renew q e)) done
  | complete queue slot => exact queues_settleSlot (f := Broker.complete) done
  | abandon queue slot => exact queues_settleSlot (f := Broker.abandon) done
  | deadLetter queue slot => exact queues_settleSlot (f := Broker.deadLetter) done

/-! ## Who made a queue -/

/-- A session with its past: the number of steps that it took, and by name of a queue the number
    of the step that made the queue, under this name or under one that it was cloned from. -/
structure Annals where
  session : Session
  length : Nat
  makers : List (String × Nat)

namespace Annals

def new (start : Timestamp) : Annals :=
  ⟨.new start, 0, []⟩

def makersAfter (c : Annals) : Step → List (String × Nat)
  | .newQueue name _ _ => Keyed.insert name c.length c.makers
  | .cloneQueue queue target =>
    match Keyed.get? queue c.makers with
    | some maker => Keyed.insert target maker c.makers
    | none => c.makers
  | _ => c.makers

def step (c : Annals) (step : Step) : Annals :=
  ⟨(c.session.step step).1, c.length + 1,
    match c.session.perform step with
    | .ok _ => c.makersAfter step
    | .error _ => c.makers⟩

def run (c : Annals) (steps : List Step) : Annals :=
  steps.foldl step c

variable {c : Annals}

theorem session_run (c : Annals) (steps : List Step) :
    (c.run steps).session = steps.foldl (fun s step => (s.step step).1) c.session := by
  induction steps generalizing c with
  | nil => rfl
  | cons step rest ih => exact ih (c.step step)

def Stands (c : Annals) (name : String) (q : QueueId) (maker : Nat) : Prop :=
  Keyed.get? name c.session.queues = some q ∧ Keyed.get? name c.makers = some maker

/-- The number of a queue tells which step made it. -/
structure Faithful (c : Annals) : Prop where
  named : c.session.Named
  known : ∀ name q, Keyed.get? name c.session.queues = some q → ∃ maker, c.Stands name q maker
  past : ∀ name q maker, c.Stands name q maker → maker < c.length
  same : ∀ name name' q q' maker maker', c.Stands name q maker → c.Stands name' q' maker' →
    (q = q' ↔ maker = maker')

theorem Faithful.inside (h : c.Faithful) {name : String} {q : QueueId} {maker : Nat}
    (stands : c.Stands name q maker) : q < c.session.broker.queues.length :=
  h.named (name, q) (mem_of_get? stands.1)

theorem faithful_new (start : Timestamp) : (new start).Faithful where
  named _ member := (List.not_mem_nil member).elim
  known _ _ found := (Option.some_ne_none _ found.symm).elim
  past _ _ _ stands := (Option.some_ne_none _ stands.1.symm).elim
  same _ _ _ _ _ _ stands := (Option.some_ne_none _ stands.1.symm).elim

variable {c' : Annals}

/-- What a step can do: it makes a queue, or gives one another name, or does neither. -/
theorem step_cases (h : c.Faithful) (step : Step) :
    (∃ name, (c.step step).session.queues =
          Keyed.insert name c.session.broker.queues.length c.session.queues ∧
        (c.step step).makers = Keyed.insert name c.length c.makers) ∨
      (∃ source target q maker, c.Stands source q maker ∧
        (c.step step).session.queues = Keyed.insert target q c.session.queues ∧
        (c.step step).makers = Keyed.insert target maker c.makers) ∨
      ((c.step step).session.queues = c.session.queues ∧ (c.step step).makers = c.makers) := by
  simp only [Annals.step, Session.step]
  cases done : c.session.perform step with
  | error _ => exact .inr (.inr ⟨rfl, rfl⟩)
  | ok result =>
    obtain ⟨s', a⟩ := result
    cases step with
    | newQueue name source counters => exact .inl ⟨name, (queues_newQueue done).1, rfl⟩
    | cloneQueue source target =>
      obtain ⟨q, found, queues⟩ := queues_cloneQueue done
      obtain ⟨maker, stands⟩ := h.known source q (queue_eq_ok.1 found)
      refine .inr (.inl ⟨source, target, q, maker, stands, queues, ?_⟩)
      simp only [makersAfter, stands.2]
    | _ =>
      have queues : s'.queues = c.session.queues := queues_perform (by simp) (by simp) done
      exact .inr (.inr ⟨queues, rfl⟩)

theorem stands_insert {name : String} {q : QueueId} {maker : Nat}
    (queues : c'.session.queues = Keyed.insert name q c.session.queues)
    (makers : c'.makers = Keyed.insert name maker c.makers) {name' : String} {q' : QueueId}
    {maker' : Nat} :
    c'.Stands name' q' maker' ↔
      if name' = name then q = q' ∧ maker = maker' else c.Stands name' q' maker' := by
  simp only [Stands, queues, makers, Keyed.get?_insert]
  split <;> simp

theorem Faithful.known_insert (h : c.Faithful) {name : String} {q : QueueId} {maker : Nat}
    (queues : c'.session.queues = Keyed.insert name q c.session.queues)
    (makers : c'.makers = Keyed.insert name maker c.makers) (name' : String) (q' : QueueId)
    (found : Keyed.get? name' c'.session.queues = some q') :
    ∃ maker', c'.Stands name' q' maker' := by
  simp only [stands_insert queues makers]
  rw [queues, Keyed.get?_insert] at found
  split
  · rename_i here
    rw [if_pos here] at found
    exact ⟨maker, Option.some.inj found, rfl⟩
  · rename_i elsewhere
    rw [if_neg elsewhere] at found
    exact h.known name' q' found

theorem Faithful.of_old (h : c.Faithful) (named : c'.session.Named)
    (known : ∀ name q, Keyed.get? name c'.session.queues = some q → ∃ maker, c'.Stands name q maker)
    (later : c.length ≤ c'.length)
    (old : ∀ name q maker, c'.Stands name q maker → ∃ name₀, c.Stands name₀ q maker) :
    c'.Faithful where
  named := named
  known := known
  past name q maker stands := by
    obtain ⟨name₀, before⟩ := old name q maker stands
    exact Nat.lt_of_lt_of_le (h.past name₀ q maker before) later
  same name name' q q' maker maker' stands stands' := by
    obtain ⟨_, before⟩ := old name q maker stands
    obtain ⟨_, before'⟩ := old name' q' maker' stands'
    exact h.same _ _ _ _ _ _ before before'

theorem Faithful.step (h : c.Faithful) (step : Step) : (c.step step).Faithful := by
  have named : (c.step step).session.Named := (reaches_step h.named step).named
  have later : c.length ≤ (c.step step).length := Nat.le_succ _
  rcases c.step_cases h step with ⟨name, queues, makers⟩ |
      ⟨source, target, q, maker, stands, queues, makers⟩ | ⟨queues, makers⟩
  · -- The new queue stands behind all others, and no step before has this one's number.
    have after {name' : String} {q : QueueId} {maker : Nat}
        (stands : (c.step step).Stands name' q maker) :
        (q = c.session.broker.queues.length ∧ maker = c.length) ∨
          (q < c.session.broker.queues.length ∧ maker < c.length ∧ c.Stands name' q maker) := by
      rw [stands_insert queues makers] at stands
      split at stands
      · exact .inl ⟨stands.1.symm, stands.2.symm⟩
      · exact .inr ⟨h.inside stands, h.past _ _ _ stands, stands⟩
    refine ⟨named, h.known_insert queues makers, fun name' q maker stands => ?_,
      fun name₁ name₂ q₁ q₂ maker₁ maker₂ stands₁ stands₂ => ?_⟩
    · rcases after stands with ⟨-, rfl⟩ | ⟨-, past, -⟩
      · exact Nat.lt_succ_self _
      · exact Nat.lt_succ_of_lt past
    · rcases after stands₁ with ⟨rfl, rfl⟩ | ⟨inside₁, past₁, before₁⟩ <;>
        rcases after stands₂ with ⟨rfl, rfl⟩ | ⟨inside₂, past₂, before₂⟩
      · simp
      · exact iff_of_false (Nat.ne_of_gt inside₂) (Nat.ne_of_gt past₂)
      · exact iff_of_false (Nat.ne_of_lt inside₁) (Nat.ne_of_lt past₁)
      · exact h.same _ _ _ _ _ _ before₁ before₂
  · -- A clone shares its number and its maker with the name that it was cloned from.
    refine h.of_old named (h.known_insert queues makers) later fun name' q' maker' stands' => ?_
    rw [stands_insert queues makers] at stands'
    split at stands'
    · obtain ⟨rfl, rfl⟩ := stands'
      exact ⟨source, stands⟩
    · exact ⟨name', stands'⟩
  · refine h.of_old named (fun name q found => ?_) later fun name q maker stands => ⟨name, ?_⟩
    · rw [queues] at found
      simp only [Stands, queues, makers]
      exact h.known name q found
    · rwa [Stands, queues, makers] at stands

theorem Faithful.run (h : c.Faithful) (steps : List Step) : (c.run steps).Faithful := by
  induction steps generalizing c with
  | nil => exact h
  | cons step rest ih => exact ih (h.step step)

end Annals

end Session

/-! ## The main theorem -/

/-- Queues are isolated from one another.  Two names stand for queues of one number if and only if
    the same step made both.  Whatever is done, a queue is as it was, with its messages, locks,
    tokens and listening, unless something is done there.  And a token of another queue leaves
    everything as it is, the envelope that carries it included. -/
theorem queues_are_isolated (start : Timestamp) :
    (∀ steps name name' q q',
      let s := steps.foldl (fun s step => (s.step step).1) (Session.new start)
      let makers := ((Session.Annals.new start).run steps).makers
      s.queue name = .ok q → s.queue name' = .ok q' →
        ∃ maker maker', Keyed.get? name makers = some maker ∧
          Keyed.get? name' makers = some maker' ∧
          (Broker.ownerOf q = Broker.ownerOf q' ↔ maker = maker')) ∧
      (∀ actions more q,
        let b := (Broker.new start).run actions
        q < b.queues.length → (∀ step ∈ b.steps more, step.1.siteOf? step.2 ≠ some q) →
          (b.run more).sight? q = b.sight? q) ∧
      ∀ actions q q' e t, q' ≠ q → e.reference = some t →
        t ∈ ((Broker.new start).accesses q' actions).filterMap Access.minted →
        let b := (Broker.new start).run actions
        b.complete q e = (e, b) ∧ b.abandon q e = (e, b) ∧ b.deadLetter q e = (e, b) ∧
          b.renew q e = b := by
  refine ⟨?_, ?_, ?_⟩
  · intro steps name name' q q' s makers found found'
    have faithful := (Session.Annals.faithful_new start).run steps
    have recorded : ((Session.Annals.new start).run steps).session = s :=
      Session.Annals.session_run _ steps
    obtain ⟨maker, stands⟩ := faithful.known name q (recorded ▸ Session.queue_eq_ok.1 found)
    obtain ⟨maker', stands'⟩ := faithful.known name' q' (recorded ▸ Session.queue_eq_ok.1 found')
    have numbers : Broker.ownerOf q = Broker.ownerOf q' ↔ q = q' :=
      ⟨Nat.succ.inj, congrArg Broker.ownerOf⟩
    exact ⟨maker, maker', stands.2, stands'.2,
      numbers.trans (faithful.same name name' q q' maker maker' stands stands')⟩
  · intro actions more q b inside elsewhere
    exact (Broker.scoped_run start actions).sight?_run inside elsewhere
  · intro actions q q' e t other carries minted
    exact Broker.settle_of_not_own (Broker.ownToken?_of_minted other carries minted)

/-- Two queues of one name have each handed out a message under the number zero.  The token of
    one is none of the other's, and what is done at one is not seen at the other. -/
theorem queues_are_isolated_of_one_name :
    let actions : List Action := [.newQueue ⟨"jobs"⟩ none, .newQueue ⟨"jobs"⟩ none,
      .ask 0 (.send "" .empty), .ask 0 (.receive "" (.ofMillis 1000)), .turn 0, .turn 0,
      .ask 1 (.send "" .empty), .ask 1 (.receive "" (.ofMillis 1000)), .turn 1, .turn 1]
    let more : List Action := [.ask 0 (.closeQueue ""), .ask 0 (.clear ""), .announce 0]
    let b := (Broker.new .epoch).run actions
    let e : Envelope := { Envelope.empty with reference := some ⟨1, 0⟩ }
    (b.storageOf 1).lock? ⟨2, 0⟩ ≠ none ∧ b.complete 1 e = (e, b) ∧
      (b.run more).sight? 1 = b.sight? 1 := by
  intro actions more b e
  obtain ⟨_, seen, settled⟩ := queues_are_isolated .epoch
  have elsewhere : ∀ step ∈ b.steps more, step.1.siteOf? step.2 ≠ some 1 := by decide
  have minted : ⟨1, 0⟩ ∈ ((Broker.new .epoch).accesses 0 actions).filterMap Access.minted := by
    decide
  exact ⟨by decide, (settled actions 1 0 e ⟨1, 0⟩ (by decide) rfl minted).1,
    seen actions more 1 (by decide) elsewhere⟩

end PeekLock
