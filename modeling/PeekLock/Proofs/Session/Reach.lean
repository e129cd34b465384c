import PeekLock.Proofs.Broker.Effect
import PeekLock.Proofs.Json.Record
import PeekLock.Session.Run

/-! # Sessions are runs

Whatever a session does to its broker is a run of actions: the steps of a session
are requests and the few other things that callers can do, and the schedule makes
announcements, gives turns and moves the clock, in an order of its own.  So what
holds in all states that runs reach holds in all states of sessions
(`leadsTo_steps`).  All that has to be kept is that names of queues stand for queues
that there are (`Session.Named`).
-/

namespace PeekLock

namespace Broker

/-- Some run leads from a broker to another. -/
def LeadsTo (b b' : Broker) : Prop := ∃ actions, b.run actions = b'

namespace LeadsTo

variable {b b₁ b' : Broker}

protected theorem refl (b : Broker) : b.LeadsTo b := ⟨[], rfl⟩

protected theorem trans (first : b.LeadsTo b₁) (second : b₁.LeadsTo b') : b.LeadsTo b' := by
  obtain ⟨front, rfl⟩ := first
  obtain ⟨back, rfl⟩ := second
  exact ⟨front ++ back, run_append ..⟩

theorem act (b : Broker) (action : Action) : b.LeadsTo (b.act action) := ⟨[action], rfl⟩

theorem length_le (h : b.LeadsTo b') : b.queues.length ≤ b'.queues.length := by
  obtain ⟨actions, rfl⟩ := h
  induction actions generalizing b with
  | nil => exact Nat.le_refl _
  | cons action rest ih => exact Nat.le_trans (b.length_le_act action) ih

end LeadsTo

/-! ## The schedule -/

theorem leadsTo_tick (b : Broker) : b.LeadsTo b.tick := by
  simp only [tick]
  split
  · exact .act b (.announce 0)
  · exact .act b (.turn _)
  · exact .refl b

theorem leadsTo_settle (fuel : Nat) (b : Broker) : b.LeadsTo (settle fuel b) := by
  induction fuel generalizing b with
  | zero => exact .refl b
  | succ fuel ih =>
    simp only [settle]
    split
    · exact .refl b
    · exact b.leadsTo_tick.trans (ih b.tick)

theorem leadsTo_pass (reached : Broker → Bool) (until_ : Option Nat) (fuel : Nat) (b : Broker) :
    b.LeadsTo (pass reached until_ fuel b) := by
  induction fuel generalizing b with
  | zero => exact .refl b
  | succ fuel ih =>
    simp only [pass]
    split
    · exact b.leadsTo_tick.trans (ih b.tick)
    · split
      · exact .refl b
      · split
        · exact .refl b
        · rename_i due _
          split
          · exact .refl b
          · exact (LeadsTo.act b (.advance due)).trans (ih (b.advance due))

theorem leadsTo_runUntil (b : Broker) (moment : Nat) : b.LeadsTo (b.runUntil moment) :=
  (b.leadsTo_pass ..).trans (.act _ (.advance moment))

end Broker

namespace Session

variable {s s' : Session}

/-- Names of queues stand for queues that there are. -/
def Named (s : Session) : Prop :=
  ∀ p ∈ s.queues, p.2 < s.broker.queues.length

/-- A session can come of another. -/
structure Reaches (s s' : Session) : Prop where
  broker : s.broker.LeadsTo s'.broker
  named : s'.Named

namespace Reaches

protected theorem refl (named : s.Named) : s.Reaches s := ⟨.refl _, named⟩

/-- Nothing but slots and the names of tasks has changed besides the broker. -/
theorem of_leadsTo (named : s.Named) (queues : s'.queues = s.queues)
    (broker : s.broker.LeadsTo s'.broker) : s.Reaches s' where
  broker := broker
  named p member := Nat.lt_of_lt_of_le (named p (queues ▸ member)) broker.length_le

end Reaches

/-! ## Lookups -/

theorem mem_of_get? {α : Type} {key : String} {entries : List (String × α)} {value : α}
    (found : Keyed.get? key entries = some value) : (key, value) ∈ entries := by
  induction entries with
  | nil => simp [Keyed.get?] at found
  | cons first rest ih =>
    obtain ⟨k, v⟩ := first
    by_cases same : k = key
    · simp only [Keyed.get?, same, ↓reduceIte, Option.some.injEq] at found
      simp [same, found]
    · simp only [Keyed.get?, same, ↓reduceIte] at found
      exact List.mem_cons_of_mem _ (ih found)

theorem Named.queue (named : s.Named) {name : String} {q : QueueId} (found : s.queue name = .ok q) :
    q < s.broker.queues.length := by
  simp only [Session.queue] at found
  split at found
  · rename_i entry
    obtain rfl := Except.ok.inj found
    exact named (name, _) (mem_of_get? entry)
  · simp at found

@[simp] theorem broker_fillWith (s : Session) (target : Option String) (e : Option Envelope) :
    (s.fillWith target e).broker = s.broker := by
  simp only [fillWith]
  split <;> rfl

@[simp] theorem queues_fillWith (s : Session) (target : Option String) (e : Option Envelope) :
    (s.fillWith target e).queues = s.queues := by
  simp only [fillWith]
  split <;> rfl

/-! ## Steps -/

theorem leadsTo_ask {b : Broker} {q : QueueId} (inside : q < b.queues.length) (request : Request) :
    b.LeadsTo (b.ask q request) := by
  have asked : b.act (.ask q request) = b.ask q request := if_pos inside
  rw [← asked]
  exact .act b _

theorem Reaches.ask (named : s.Named) {name : String} {q : QueueId} (found : s.queue name = .ok q)
    (request : Request) (queues : s'.queues = s.queues)
    (broker : s'.broker = s.broker.ask q request) : s.Reaches s' :=
  .of_leadsTo named queues (broker ▸ leadsTo_ask (named.queue found) request)

theorem Reaches.settleSlot (named : s.Named) {queue slot : String}
    {f : Broker → QueueId → Envelope → Envelope × Broker} (request : Envelope → Request)
    (asks : ∀ b q e, (f b q e).2 = b.ask q (request e)) {a : Answer}
    (done : s.settleSlot queue slot f = .ok (s', a)) : s.Reaches s' := by
  obtain ⟨q, found, done⟩ := bind_eq_ok done
  obtain ⟨e, _, done⟩ := bind_eq_ok done
  obtain ⟨rfl, _⟩ := Prod.mk.inj (Except.ok.inj done)
  exact .ask named found (request e) rfl (asks ..)

theorem Reaches.makeEnvelope (named : s.Named) {draft : Draft} {e : Envelope}
    (made : s.makeEnvelope draft = .ok (e, s')) :
    s'.Named ∧ s'.broker = s.broker ∧ s'.queues = s.queues := by
  simp only [Session.makeEnvelope] at made
  split at made
  · obtain ⟨_, rfl⟩ := Prod.mk.inj (Except.ok.inj made)
    exact ⟨named, rfl, rfl⟩
  · simp at made

theorem leadsTo_chooseCounters {counters : CountersSource} {chosen : Broker × Option Nat}
    (done : s.chooseCounters counters = .ok chosen) : s.broker.LeadsTo chosen.1 := by
  cases counters with
  | none =>
    obtain rfl := Except.ok.inj done
    exact .refl _
  | fresh =>
    obtain rfl := Except.ok.inj done
    exact .act _ .addCounters
  | shared name =>
    obtain ⟨q, _, done⟩ := bind_eq_ok done
    obtain rfl := Except.ok.inj done
    exact .refl _

theorem mem_insert {α : Type} {key : String} {value : α} {entries : List (String × α)}
    {p : String × α} (member : p ∈ Keyed.insert key value entries) :
    p = (key, value) ∨ p ∈ entries := by
  induction entries with
  | nil => exact .inl (List.mem_singleton.1 member)
  | cons first rest ih =>
    obtain ⟨k, v⟩ := first
    simp only [Keyed.insert] at member
    split at member
    · exact List.mem_cons.1 member
    · split at member
      · exact (List.mem_cons.1 member).imp_right (List.mem_cons_of_mem _)
      · rcases List.mem_cons.1 member with rfl | later
        · exact .inr (List.mem_cons_self ..)
        · exact (ih later).imp_right (List.mem_cons_of_mem _)

theorem named_insert {b : Broker} {queues : List (String × QueueId)} {name : String} {q : QueueId}
    (named : ∀ p ∈ queues, p.2 < b.queues.length) (inside : q < b.queues.length) :
    ∀ p ∈ Keyed.insert name q queues, p.2 < b.queues.length := by
  intro p member
  rcases mem_insert member with rfl | old
  · exact inside
  · exact named p old

theorem Reaches.addQueue (named : s.Named) {b : Broker} (broker : s.broker.LeadsTo b)
    {settings : Settings} {counters : Option Nat} (name : String) (action : Action)
    (made : b.act action = (b.addQueue settings counters).1) :
    s.Reaches { s with
      broker := (b.addQueue settings counters).1
      queues := Keyed.insert name (b.addQueue settings counters).2 s.queues } := by
  have whole : s.broker.LeadsTo (b.addQueue settings counters).1 :=
    broker.trans (made ▸ .act b action)
  have longer : (b.addQueue settings counters).1.queues.length = b.queues.length + 1 :=
    List.length_append
  refine ⟨whole, named_insert (fun p member => ?_) (longer ▸ Nat.lt_succ_self _)⟩
  exact Nat.lt_of_lt_of_le (named p member) whole.length_le

theorem Reaches.newQueue (named : s.Named) {name : String} {source : QueueSource}
    {counters : CountersSource} {a : Answer}
    (done : s.newQueue name source counters = .ok (s', a)) : s.Reaches s' := by
  obtain ⟨⟨b, chosen⟩, choosing, done⟩ := bind_eq_ok done
  obtain ⟨⟨b', q⟩, making, done⟩ := bind_eq_ok done
  obtain ⟨rfl, _⟩ := Prod.mk.inj (Except.ok.inj done)
  have broker := leadsTo_chooseCounters choosing
  cases source with
  | name text =>
    dsimp only at making
    split at making
    · rename_i n _
      obtain ⟨rfl, rfl⟩ := Prod.mk.inj (Except.ok.inj making)
      exact .addQueue named broker name (.newQueue n chosen) rfl
    · simp at making
  | settings settings =>
    simp only [Broker.newQueueOf] at making
    cases passes : settings.check with
    | error _ => simp [passes] at making
    | ok _ =>
      rw [passes] at making
      obtain ⟨rfl, rfl⟩ := Prod.mk.inj (Except.ok.inj making)
      refine .addQueue named broker name (.newQueueOf settings chosen) ?_
      simp only [Broker.act, Broker.newQueueOf, passes]

theorem Reaches.addListener {name : String} {made : Broker × TaskId} (named : s.Named)
    (broker : s.broker.LeadsTo made.1) : s.Reaches (s.addListener name made).1 := by
  refine .of_leadsTo named rfl ?_
  simp only [Session.addListener]
  split
  · exact broker.trans (.act _ (.releaseLoop _))
  · exact broker

theorem reaches_perform (named : s.Named) {step : Step} {a : Answer}
    (done : s.perform step = .ok (s', a)) : s.Reaches s' := by
  cases step with
  | newQueue name source counters => exact .newQueue named done
  | cloneQueue queue target =>
    obtain ⟨q, found, done⟩ := bind_eq_ok done
    obtain ⟨rfl, _⟩ := Prod.mk.inj (Except.ok.inj done)
    -- the one step that gives an old queue a new name
    exact ⟨.refl _, named_insert named (named.queue found)⟩
  | settings queue | describe queue | capabilities queue | count queue | counters queue =>
    obtain ⟨q, _, done⟩ := bind_eq_ok done
    obtain ⟨rfl, _⟩ := Prod.mk.inj (Except.ok.inj done)
    exact .refl named
  | openQueue queue c connection =>
    obtain ⟨q, found, done⟩ := bind_eq_ok done
    obtain ⟨rfl, _⟩ := Prod.mk.inj (Except.ok.inj done)
    exact .ask named found (.openQueue c connection) rfl rfl
  | closeQueue queue c =>
    obtain ⟨q, found, done⟩ := bind_eq_ok done
    obtain ⟨rfl, _⟩ := Prod.mk.inj (Except.ok.inj done)
    exact .ask named found (.closeQueue c) rfl rfl
  | clear queue c =>
    obtain ⟨q, found, done⟩ := bind_eq_ok done
    obtain ⟨rfl, _⟩ := Prod.mk.inj (Except.ok.inj done)
    exact .ask named found (.clear c) rfl rfl
  | endListen queue c =>
    obtain ⟨q, found, done⟩ := bind_eq_ok done
    obtain ⟨rfl, _⟩ := Prod.mk.inj (Except.ok.inj done)
    exact .ask named found (.endListen c) rfl rfl
  | makeEnvelope slot draft =>
    obtain ⟨⟨e, made⟩, making, done⟩ := bind_eq_ok done
    obtain ⟨rfl, _⟩ := Prod.mk.inj (Except.ok.inj done)
    obtain ⟨_, broker, queues⟩ := Reaches.makeEnvelope named making
    exact .of_leadsTo named queues (broker ▸ .refl _)
  | edit slot edit =>
    obtain ⟨e, _, done⟩ := bind_eq_ok done
    obtain ⟨rfl, _⟩ := Prod.mk.inj (Except.ok.inj done)
    exact .of_leadsTo named rfl (.refl _)
  | copy slot target =>
    obtain ⟨e, _, done⟩ := bind_eq_ok done
    obtain ⟨rfl, _⟩ := Prod.mk.inj (Except.ok.inj done)
    exact .of_leadsTo named rfl (.refl _)
  | equal slot other | token slot | compareTokens slot other | now =>
    obtain ⟨rfl, _⟩ := Prod.mk.inj (Except.ok.inj done)
    exact .refl named
  | sendDraft queue c draft =>
    obtain ⟨q, found, done⟩ := bind_eq_ok done
    obtain ⟨⟨e, made⟩, making, done⟩ := bind_eq_ok done
    obtain ⟨rfl, _⟩ := Prod.mk.inj (Except.ok.inj done)
    obtain ⟨_, broker, queues⟩ := Reaches.makeEnvelope named making
    exact .ask named found (.send c e) queues (congrArg (·.send q c e) broker)
  | sendCopy queue c slot =>
    obtain ⟨q, found, done⟩ := bind_eq_ok done
    obtain ⟨e, _, done⟩ := bind_eq_ok done
    obtain ⟨rfl, _⟩ := Prod.mk.inj (Except.ok.inj done)
    exact .ask named found (.send c e) rfl rfl
  | peek queue c target =>
    obtain ⟨q, found, done⟩ := bind_eq_ok done
    obtain ⟨rfl, _⟩ := Prod.mk.inj (Except.ok.inj done)
    exact .ask named found (.peek c) (queues_fillWith ..) (broker_fillWith ..)
  | peekBatch queue c most =>
    obtain ⟨q, found, done⟩ := bind_eq_ok done
    obtain ⟨rfl, _⟩ := Prod.mk.inj (Except.ok.inj done)
    exact .ask named found (.peekBatch c most) rfl rfl
  | receive queue c timeout target =>
    obtain ⟨q, found, done⟩ := bind_eq_ok done
    obtain ⟨rfl, _⟩ := Prod.mk.inj (Except.ok.inj done)
    refine .of_leadsTo named (queues_fillWith ..) ?_
    rw [broker_fillWith]
    exact (leadsTo_ask (named.queue found) (.receive c timeout)).trans (Broker.leadsTo_pass ..)
  | startReceive queue c waiter timeout =>
    obtain ⟨q, found, done⟩ := bind_eq_ok done
    obtain ⟨rfl, _⟩ := Prod.mk.inj (Except.ok.inj done)
    exact .ask named found (.receive c timeout) rfl rfl
  | take waiter target =>
    obtain ⟨id, _, done⟩ := bind_eq_ok done
    split at done
    · obtain ⟨rfl, _⟩ := Prod.mk.inj (Except.ok.inj done)
      exact .refl named
    · obtain ⟨rfl, _⟩ := Prod.mk.inj (Except.ok.inj done)
      refine .of_leadsTo named (queues_fillWith ..) ?_
      rw [broker_fillWith]
      exact .refl _
  | drop waiter =>
    obtain ⟨id, _, done⟩ := bind_eq_ok done
    obtain ⟨rfl, _⟩ := Prod.mk.inj (Except.ok.inj done)
    exact .of_leadsTo named rfl (.act _ (.dropReceive id))
  | renew queue slot timeout =>
    exact .settleSlot (f := fun b q e => (e, b.renew q e)) named .renew (fun _ _ _ => rfl) done
  | complete queue slot => exact .settleSlot named .complete (fun _ _ _ => rfl) done
  | abandon queue slot => exact .settleSlot named .abandon (fun _ _ _ => rfl) done
  | deadLetter queue slot => exact .settleSlot named .deadLetter (fun _ _ _ => rfl) done
  | lockExpiration queue slot =>
    obtain ⟨q, _, done⟩ := bind_eq_ok done
    split at done <;>
    · obtain ⟨rfl, _⟩ := Prod.mk.inj (Except.ok.inj done)
      exact .refl named
  | releaseExpired queue c =>
    obtain ⟨q, found, done⟩ := bind_eq_ok done
    obtain ⟨rfl, _⟩ := Prod.mk.inj (Except.ok.inj done)
    exact .ask named found (.releaseExpired c) rfl rfl
  | sleep d =>
    obtain ⟨rfl, _⟩ := Prod.mk.inj (Except.ok.inj done)
    exact .of_leadsTo named rfl (Broker.leadsTo_runUntil ..)
  | listen queue c listener receiver =>
    obtain ⟨q, found, done⟩ := bind_eq_ok done
    obtain rfl := congrArg Prod.fst (Except.ok.inj done)
    exact .addListener named (leadsTo_ask (named.queue found) (.listen c receiver))
  | listenWith queue c listener receiver options faults cancelled =>
    obtain ⟨q, found, done⟩ := bind_eq_ok done
    obtain rfl := congrArg Prod.fst (Except.ok.inj done)
    exact .addListener named
      (leadsTo_ask (named.queue found) (.listenWith c receiver options faults cancelled))
  | stop listener =>
    obtain ⟨id, _, done⟩ := bind_eq_ok done
    obtain ⟨rfl, _⟩ := Prod.mk.inj (Except.ok.inj done)
    exact .of_leadsTo named rfl (.act _ (.stopLoop id))
  | state listener =>
    obtain ⟨id, _, done⟩ := bind_eq_ok done
    obtain ⟨rfl, _⟩ := Prod.mk.inj (Except.ok.inj done)
    exact .refl named
  | join listener =>
    obtain ⟨id, _, done⟩ := bind_eq_ok done
    obtain ⟨rfl, _⟩ := Prod.mk.inj (Except.ok.inj done)
    exact .of_leadsTo named rfl ((Broker.leadsTo_pass ..).trans (.act _ (.releaseLoop id)))

/-- A whole step is a run, with all that happens because of it. -/
theorem reaches_step (named : s.Named) (step : Step) : s.Reaches (s.step step).1 := by
  simp only [Session.step]
  cases done : s.perform step with
  | error _ => exact .refl named
  | ok result =>
    obtain ⟨broker, named'⟩ := reaches_perform named done
    have settled := Broker.leadsTo_settle Broker.manySteps result.1.broker
    refine ⟨broker.trans settled, fun p member => ?_⟩
    exact Nat.lt_of_lt_of_le (named' p member) settled.length_le

/-- Whatever steps a session takes, its broker is in a state that a run reaches. -/
theorem leadsTo_steps (start : Timestamp) (steps : List Step) :
    (Broker.new start).LeadsTo
      (steps.foldl (fun s step => (s.step step).1) (Session.new start)).broker := by
  have all : ∀ s : Session, s.Named →
      s.broker.LeadsTo (steps.foldl (fun s step => (s.step step).1) s).broker := by
    induction steps with
    | nil => exact fun s _ => .refl s.broker
    | cons step rest ih =>
      intro s named
      obtain ⟨broker, named'⟩ := reaches_step named step
      exact broker.trans (ih _ named')
  refine all (Session.new start) fun p member => ?_
  exact (List.not_mem_nil (a := p) member).elim

end Session

end PeekLock
