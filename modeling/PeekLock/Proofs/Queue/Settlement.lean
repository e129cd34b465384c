import Mathlib.Logic.Function.Iterate
import PeekLock.Proofs.Broker.Books

/-! # Settling in any order

Messages that are settled at one instant do not get in each other's way: each settlement
takes its own lock out of the table, and what it makes visible, counts and hands back
depends on that lock alone.  `Settled` says what a list of settlements does in terms of
what there was before the first of them, so that the order can matter only for the order
in which messages become visible (`settlements_commute`).  What makes this work is that a
token leads to the same lock after other tokens have been settled.
-/

namespace PeekLock

/-- How a message is settled. -/
inductive Manner where
  | complete
  | deadLetter
  | abandon
deriving DecidableEq, Repr

/-- A message that is to be settled, as its holder has it. -/
structure Settlement where
  manner : Manner
  message : Envelope

namespace Settlement

def call (s : Settlement) : Call :=
  match s.manner with
  | .complete => .complete s.message
  | .deadLetter => .deadLetter s.message
  | .abandon => .abandon s.message

/-- The token that is settled, if it is one of the queue's. -/
def token? (q : QueueId) (s : Settlement) : Option LockToken :=
  Broker.ownToken? q s.message

theorem holding_call (s : Settlement) : s.call.holding = some s.message := by
  obtain ⟨manner, e⟩ := s
  cases manner <;> rfl

end Settlement

/-! ## One settlement -/

/-- A token that stays in the table leads to what it led to. -/
theorem Storage.lock?_filter {s s' : Storage} {t : LockToken} (keep : LockToken → Bool)
    (left : s'.locked = s.locked.filter fun p => keep p.1) (kept : keep t) :
    s'.lock? t = s.lock? t := by
  simp only [lock?, left]
  induction s.locked with
  | nil => rfl
  | cons first rest ih =>
    obtain ⟨u, lock⟩ := first
    by_cases here : t = u
    · subst here
      simp [kept]
    · have other : (t == u) = false := beq_false_of_ne here
      cases stays : keep u <;> simp [stays, List.lookup_cons, other, ih]

/-- A total after one more event. -/
def Counters.bump (n : Nat) : Nat :=
  min (n + 1) limit

namespace Broker

variable {b b₁ b' : Broker} {q : QueueId} {s : Settlement} {ss rest : List Settlement}

/-- Settles one message, and announces what has become visible by that. -/
def settleMessage (b : Broker) (q : QueueId) (s : Settlement) : Envelope × Broker :=
  let settled := match s.manner with
    | .complete => b.complete q s.message
    | .deadLetter => b.deadLetter q s.message
    | .abandon => b.abandon q s.message
  (settled.1, settled.2.announce b.owed.length)

/-- Settles one message after the other, and hands all of them back. -/
def settleMessages (b : Broker) (q : QueueId) : List Settlement → List Envelope × Broker
  | [] => ([], b)
  | s :: rest =>
    let first := b.settleMessage q s
    let others := first.2.settleMessages q rest
    (first.1 :: others.1, others.2)

/-- The lock that a settlement takes out of the table, if the queue has it. -/
def lockFor? (b : Broker) (q : QueueId) (s : Settlement) : Option Lock :=
  (s.token? q).bind (b.storageOf q).lock?

/-- What a settlement makes visible: an abandoned message, if its lock has not expired. -/
def givenBack (b : Broker) (q : QueueId) (s : Settlement) : List Envelope :=
  match s.manner, b.lockFor? q s with
  | .abandon, some lock =>
    if lock.HasExpired b.time then [] else [Storage.stamp b.time s.message]
  | _, _ => []

/-- What a settlement counts, at once or by its announcement. -/
def countedBy? (b : Broker) (q : QueueId) (s : Settlement) : Option QueueEvent :=
  match s.manner, b.lockFor? q s with
  | .abandon, some lock => if lock.HasExpired b.time then none else some .sent
  | .deadLetter, some _ => some .dead
  | _, _ => none

/-- Whether a settlement counts at a place. -/
def countsAt (b : Broker) (q : QueueId) (p : Nat × String) (s : Settlement) : Bool :=
  (b.countedBy? q s).any fun event =>
    decide (b.place? q event = some p ∧ p.1 < b.counters.length)

/-- The message that is handed back depends on who has minted its token, and on nothing else. -/
theorem settleMessage_fst (b : Broker) (q : QueueId) (s : Settlement) :
    (b.settleMessage q s).1 =
      match s.token? q with
      | some _ => s.message.withoutReference
      | none => s.message := by
  obtain ⟨manner, e⟩ := s
  have own : (⟨manner, e⟩ : Settlement).token? q = ownToken? q e := rfl
  rw [own]
  cases manner with
  | complete | deadLetter =>
    simp only [settleMessage, complete, deadLetter]
    cases ownToken? q e with
    | none => rfl
    | some token =>
      dsimp only
      cases (b.storageOf q).lock? token <;> rfl
  | abandon =>
    simp only [settleMessage, abandon]
    cases ownToken? q e with
    | none => rfl
    | some token =>
      dsimp only
      cases ((b.storageOf q).abandon b.time token e.withoutReference).1 <;> rfl

theorem enqueued_settlement (b : Broker) (q : QueueId) (s : Settlement) :
    (b.access q s.call).enqueued = b.givenBack q s := by
  obtain ⟨manner, e⟩ := s
  cases manner with
  | complete | deadLetter => rfl
  | abandon =>
    have lock : b.lockFor? q ⟨.abandon, e⟩ = (b.access q (.abandon e)).lockOf? e := rfl
    simp only [Settlement.call, enqueued_abandon, givenBack, lock]
    cases (b.access q (.abandon e)).lockOf? e <;> rfl

/-- A settlement takes its token out of the table if it is there, and puts what it makes visible
    behind all that was. -/
theorem after_settlement (b : Broker) (q : QueueId) (s : Settlement) :
    (b.access q s.call).after =
      { visible := (b.storageOf q).visible ++ b.givenBack q s
        locked := (b.storageOf q).locked.filter fun p => decide (some p.1 ≠ s.token? q)
        nextSequence := (b.storageOf q).nextSequence } := by
  obtain ⟨manner, e⟩ := s
  cases found : b.lockFor? q ⟨manner, e⟩ with
  | none =>
    -- Where the token leads nowhere, the table has no entry to be filtered out.
    have kept : (b.storageOf q).locked.filter
        (fun p => decide (some p.1 ≠ Settlement.token? q ⟨manner, e⟩)) =
        (b.storageOf q).locked := by
      refine List.filter_eq_self.2 fun p member => decide_eq_true fun own => ?_
      rw [lockFor?, ← own] at found
      exact Storage.lock?_eq_none_iff.1 found (List.mem_map_of_mem member)
    have nothing : b.givenBack q ⟨manner, e⟩ = [] := by
      simp only [givenBack, found]
    have unchanged : (b.access q (Settlement.call ⟨manner, e⟩)).after = b.storageOf q :=
      Access.after_of_stale (Settlement.holding_call ⟨manner, e⟩) found
    rw [unchanged, nothing, kept, List.append_nil]
  | some lock =>
    obtain ⟨token, own, there⟩ := Option.bind_eq_some_iff.1 found
    have own' : ownToken? q e = some token := own
    simp only [givenBack, found]
    rw [own]
    cases manner with
    | complete | deadLetter =>
      simp [Settlement.call, Access.after, access, own', Storage.unlock]
    | abandon =>
      simp only [Settlement.call, Access.after, access, own', Storage.abandon, there]
      by_cases expired : lock.HasExpired b.time
      · simp [expired, Storage.unlock]
      · have stamped : Storage.stamp b.time e.withoutReference = Storage.stamp b.time e := rfl
        simp [expired, Storage.unlock, Storage.enqueue, Storage.append, stamped]

/-- What is given back is counted by its announcement alone, and all else at once. -/
theorem counted_settlement (b : Broker) (q : QueueId) (s : Settlement) :
    (b.givenBack q s = [] ∧ (b.access q s.call).counted = b.countedBy? q s) ∨
      (b.givenBack q s = [Storage.stamp b.time s.message] ∧ b.countedBy? q s = some .sent ∧
        (b.access q s.call).counted = none) := by
  obtain ⟨manner, e⟩ := s
  cases manner with
  | complete => exact .inl ⟨rfl, rfl⟩
  | deadLetter =>
    have lock : b.lockFor? q ⟨.deadLetter, e⟩ = (b.access q (.deadLetter e)).lockOf? e := rfl
    refine .inl ⟨rfl, ?_⟩
    simp only [Settlement.call, counted_deadLetter, countedBy?, lock]
    cases (b.access q (.deadLetter e)).lockOf? e <;> rfl
  | abandon =>
    -- Only the message of a lock that is there and has not expired is given back.
    simp only [givenBack, countedBy?]
    cases b.lockFor? q ⟨.abandon, e⟩ with
    | none => exact .inl ⟨rfl, rfl⟩
    | some lock =>
      dsimp only
      by_cases expired : lock.HasExpired b.time
      · left
        rw [if_pos expired, if_pos expired]
        exact ⟨rfl, rfl⟩
      · right
        rw [if_neg expired, if_neg expired]
        exact ⟨rfl, rfl, rfl⟩

/-- A settlement is its call and quiet changes besides, and then what is owed for it is
    announced. -/
theorem quiet_settlement (b : Broker) (q : QueueId) (s : Settlement) :
    ∃ settled, Quiet none (b.commit (some (q, s.call))) settled ∧ settled.ready = b.ready ∧
      (b.settleMessage q s).2 = settled.announce b.owed.length := by
  obtain ⟨manner, e⟩ := s
  cases manner with
  | complete =>
    refine ⟨_, quiet_complete e, ?_, rfl⟩
    simp only [complete]
    split
    · rfl
    · split <;> rfl
  | deadLetter =>
    refine ⟨_, quiet_deadLetter e, ?_, rfl⟩
    simp only [deadLetter]
    split
    · rfl
    · split
      · rfl
      · exact count_ready ..
  | abandon =>
    refine ⟨_, quiet_abandon e, ?_, rfl⟩
    simp only [abandon]
    split
    · rfl
    · split <;> rfl

/-- What is announced after a settlement is the message that has become visible, if one has. -/
theorem settleMessage_cases (b : Broker) (q : QueueId) (s : Settlement) :
    ∃ settled, Quiet none (b.commit (some (q, s.call))) settled ∧ settled.ready = b.ready ∧
      (((b.settleMessage q s).2 = settled ∧
          (b.access q s.call).counted = b.countedBy? q s) ∨
        ((b.settleMessage q s).2 =
            (({ settled with owed := b.owed } : Broker).notify q).count q .sent 1 ∧
          b.countedBy? q s = some .sent ∧ (b.access q s.call).counted = none)) := by
  obtain ⟨settled, quiet, ready, made⟩ := b.quiet_settlement q s
  refine ⟨settled, quiet, ready, ?_⟩
  have owed : settled.owed =
      b.owed ++ if b.givenBack q s = [] then [] else [⟨q, (b.givenBack q s).length⟩] := by
    rw [quiet.owed, ← enqueued_settlement]
    rfl
  cases b.counted_settlement q s with
  | inl silent =>
    obtain ⟨nothing, counted⟩ := silent
    rw [if_pos nothing, List.append_nil] at owed
    refine .inl ⟨?_, counted⟩
    rw [made, announce, owed, List.getElem?_eq_none (Nat.le_refl _)]
  | inr given =>
    obtain ⟨message, counted⟩ := given
    rw [message, if_neg (List.cons_ne_nil _ _), List.length_singleton] at owed
    refine .inr ⟨?_, counted⟩
    -- What was owed before stays owed: the announcement made is the one behind all others.
    rw [made, announce, owed, List.getElem?_concat_length,
      List.eraseIdx_append_of_length_le (Nat.le_refl _), Nat.sub_self]
    simp

/-! ## Any number of settlements -/

/-- What settling some messages of a queue does, in terms of what there was before. -/
structure Settled (q : QueueId) (ss : List Settlement) (b b' : Broker) : Prop where
  time : b'.time = b.time
  setups : b'.queues.map Queue.setup = b.queues.map Queue.setup
  length : b'.counters.length = b.counters.length
  visible : (b'.storageOf q).visible = (b.storageOf q).visible ++ ss.flatMap (b.givenBack q)
  locked : (b'.storageOf q).locked =
    (b.storageOf q).locked.filter fun p => decide (some p.1 ∉ ss.map (·.token? q))
  nextSequence : (b'.storageOf q).nextSequence = (b.storageOf q).nextSequence
  totalAt : ∀ p, b'.totalAt p = Counters.bump^[ss.countP (b.countsAt q p)] (b.totalAt p)
  /-- If nobody waits for messages of the queue, nobody is woken. -/
  idle : (∀ id, b.isRegistered q id = false) →
    b'.ready = b.ready ∧ ∀ id, b'.isRegistered q id = false

/-- Nothing but the call of a settlement changes the messages. -/
theorem cores_settleMessage (b : Broker) (q : QueueId) (s : Settlement) :
    let b' := (b.settleMessage q s).2
    b'.time = b.time ∧
      b'.queues.map Queue.core = (b.commit (some (q, s.call))).queues.map Queue.core := by
  obtain ⟨settled, quiet, _, ⟨made, _⟩ | ⟨made, _⟩⟩ := b.settleMessage_cases q s
  · rw [made]
    exact ⟨quiet.time, quiet.queues⟩
  · rw [made]
    constructor
    · rw [time, count_start, count_now, start_notify, now_notify]
      exact quiet.time
    · rw [count_queues, cores_notify]
      exact quiet.queues

theorem storageOf_commit_settlement (b : Broker) (q : QueueId) (s : Settlement) :
    (b.commit (some (q, s.call))).storageOf q = (b.access q s.call).after := by
  rw [storageOf_commit, accessAt]
  by_cases inside : q < b.queues.length
  · simp [inside]
  · -- A queue that is not there has no lock to be taken out.
    have unknown : b.lockFor? q s = none := by
      rw [lockFor?, storageOf_of_not_lt inside]
      cases s.token? q <;> rfl
    have unchanged : (b.access q s.call).after = b.storageOf q :=
      Access.after_of_stale s.holding_call unknown
    simp [inside, unchanged]

theorem storageOf_settleMessage (b : Broker) (q : QueueId) (s : Settlement) :
    (b.settleMessage q s).2.storageOf q = (b.access q s.call).after :=
  (storageOf_of_cores (b.cores_settleMessage q s).2 q).trans (b.storageOf_commit_settlement q s)

theorem totalAt_of_counters {b b' : Broker} (same : b'.counters = b.counters) (p : Nat × String) :
    b'.totalAt p = b.totalAt p := by
  rw [totalAt, totalAt, same]

theorem totalAt_count_one (b : Broker) (q : QueueId) (event : QueueEvent) (p : Nat × String) :
    (b.count q event 1).totalAt p =
      if b.place? q event = some p ∧ p.1 < b.counters.length then Counters.bump (b.totalAt p)
      else b.totalAt p := by
  by_cases here : b.place? q event = some p
  · by_cases inside : p.1 < b.counters.length
    · rw [if_pos ⟨here, inside⟩, totalAt_count here inside]
      rfl
    · rw [if_neg fun both => inside both.2]
      have outside : (b.enter (some ⟨q, event, 1⟩)).counters.length ≤ p.1 := by
        rw [length_counters_enter]
        exact Nat.not_lt.1 inside
      have none : (b.count q event 1).counters[p.1]? = none := List.getElem?_eq_none outside
      rw [totalAt, totalAt, none, List.getElem?_eq_none (Nat.not_lt.1 inside)]
  · rw [if_neg fun both => here both.1, totalAt_count_of_other here]

/-- What a settlement counts, it counts once. -/
theorem counters_settleMessage (b : Broker) (q : QueueId) (s : Settlement) :
    let b' := (b.settleMessage q s).2
    b'.counters.length = b.counters.length ∧
      ∀ p, b'.totalAt p = if b.countsAt q p s then Counters.bump (b.totalAt p) else b.totalAt p := by
  obtain ⟨settled, quiet, _, which⟩ := b.settleMessage_cases q s
  have counters := quiet.counters.trans (b.counters_commit q s.call)
  rcases which with ⟨made, counted⟩ | ⟨made, counted, later⟩
  · rw [counted] at counters
    rw [made]
    refine ⟨?_, fun p => ?_⟩
    · rw [counters, length_counters_enter]
    · rw [totalAt_of_counters counters, countsAt]
      cases b.countedBy? q s with
      | none => rfl
      | some event => simpa [enter] using b.totalAt_count_one q event p
  · rw [later] at counters
    -- Telling of the message changes neither the counters nor which queue counts where.
    let told : Broker := ({ settled with owed := b.owed } : Broker).notify q
    have same : told.counters = b.counters := (counters_notify ..).trans counters
    have place : told.place? q .sent = b.place? q .sent := by
      rw [place?_eq, place?_eq, setups_of_cores (cores_notify ..), setups_of_cores quiet.queues,
        setups_commit]
    rw [made]
    refine ⟨?_, fun p => ?_⟩
    · exact (told.length_counters_enter (some ⟨q, .sent, 1⟩)).trans (congrArg _ same)
    · rw [countsAt, counted]
      simpa [place, same, totalAt_of_counters same] using told.totalAt_count_one q .sent p

theorem ready_notify_of_idle (nobody : ∀ id, b.isRegistered q id = false) :
    (b.notify q).ready = b.ready := by
  simp only [notify]
  cases found : b.queue? q with
  | none => rfl
  | some queue =>
    have none : queue.waiting = [] := List.eq_nil_iff_forall_not_mem.2 fun id member => by
      have absent := nobody id
      simp [isRegistered, found, member] at absent
    dsimp only
    rw [none]
    rfl

/-- Where nobody waits for messages, nobody is told of any. -/
theorem idle_settleMessage (nobody : ∀ id, b.isRegistered q id = false) :
    (b.settleMessage q s).2.ready = b.ready ∧
      ∀ id, (b.settleMessage q s).2.isRegistered q id = false := by
  obtain ⟨settled, quiet, ready, which⟩ := b.settleMessage_cases q s
  have still (id : TaskId) : settled.isRegistered q id = false := by
    rw [quiet.registered q id (Option.some_ne_none id), commit]
    exact (isRegistered_setStorage ..).trans (nobody id)
  rcases which with ⟨made, _⟩ | ⟨made, _⟩
  · rw [made]
    exact ⟨ready, still⟩
  · rw [made, count_ready]
    refine ⟨(ready_notify_of_idle (b := { settled with owed := b.owed }) still).trans ready,
      fun id => ?_⟩
    rw [isRegistered, queue?, count_queues]
    exact Bool.eq_false_iff.2 fun told => ((isRegistered_notify ..).1 told).2 rfl

theorem settled_settleMessage (b : Broker) (q : QueueId) (s : Settlement) :
    Settled q [s] b (b.settleMessage q s).2 := by
  obtain ⟨time, cores⟩ := b.cores_settleMessage q s
  obtain ⟨length, totals⟩ := b.counters_settleMessage q s
  have stored := (b.storageOf_settleMessage q s).trans (b.after_settlement q s)
  constructor
  case time => exact time
  case setups => rw [setups_of_cores cores, setups_commit]
  case length => exact length
  case visible => simp [stored]
  case locked => simp [stored]
  case nextSequence => rw [stored]
  case totalAt =>
    intro p
    rw [totals, List.countP_singleton]
    split <;> rfl
  case idle => exact idle_settleMessage

/-- A lock stays what it was for all whose tokens have not been settled. -/
theorem Settled.lockFor?_eq (h : Settled q ss b b')
    (apart : s.message.reference ∉ ss.map (·.message.reference)) :
    b'.lockFor? q s = b.lockFor? q s := by
  cases own : s.token? q with
  | none => simp only [lockFor?, own, Option.bind_none]
  | some t =>
    have carries : s.message.reference = some t := (Option.filter_eq_some_iff.1 own).1
    have kept : some t ∉ ss.map (·.token? q) := by
      intro member
      obtain ⟨s', inside, settled⟩ := List.mem_map.1 member
      have same : s'.message.reference = some t := (Option.filter_eq_some_iff.1 settled).1
      exact apart (List.mem_map.2 ⟨s', inside, same.trans carries.symm⟩)
    simp only [lockFor?, own, Option.bind_some]
    exact Storage.lock?_filter (fun u => decide (some u ∉ ss.map (·.token? q))) h.locked
      (decide_eq_true kept)

/-- What a settlement does to a lock depends on the lock, the time and how the queue counts. -/
theorem Settled.same_effect (h : Settled q ss b b')
    (apart : s.message.reference ∉ ss.map (·.message.reference)) :
    b'.givenBack q s = b.givenBack q s ∧ ∀ p, b'.countsAt q p s = b.countsAt q p s := by
  have lock := h.lockFor?_eq apart
  refine ⟨?_, fun p => ?_⟩
  · simp only [givenBack, lock, h.time]
  · have place (event : QueueEvent) : b'.place? q event = b.place? q event := by
      rw [place?_eq, place?_eq, h.setups]
    simp only [countsAt, countedBy?, lock, h.time, place, h.length]

/-- Settlements add up if they are of different tokens. -/
theorem Settled.cons (first : Settled q [s] b b₁) (others : Settled q rest b₁ b')
    (apart : s.message.reference ∉ rest.map (·.message.reference)) :
    Settled q (s :: rest) b b' := by
  have same (s' : Settlement) (member : s' ∈ rest) :
      b₁.givenBack q s' = b.givenBack q s' ∧ ∀ p, b₁.countsAt q p s' = b.countsAt q p s' := by
    apply first.same_effect
    intro here
    have one : s'.message.reference = s.message.reference := by simpa using here
    exact apart (List.mem_map.2 ⟨s', member, one⟩)
  constructor
  case time => exact others.time.trans first.time
  case setups => exact others.setups.trans first.setups
  case length => exact others.length.trans first.length
  case visible =>
    have given : rest.flatMap (b₁.givenBack q) = rest.flatMap (b.givenBack q) :=
      List.flatMap_congr fun s' member => (same s' member).1
    rw [others.visible, first.visible, given]
    simp
  case locked =>
    rw [others.locked, first.locked, List.filter_filter]
    refine List.filter_congr fun p _ => ?_
    simp [Bool.and_comm]
  case nextSequence => exact others.nextSequence.trans first.nextSequence
  case totalAt =>
    intro p
    have counted : rest.countP (b₁.countsAt q p) = rest.countP (b.countsAt q p) :=
      List.countP_congr fun s' member => by rw [(same s' member).2]
    rw [others.totalAt, first.totalAt, counted, ← Function.iterate_add_apply,
      List.countP_singleton, List.countP_cons]
  case idle =>
    intro nobody
    obtain ⟨ready, still⟩ := first.idle nobody
    obtain ⟨ready', still'⟩ := others.idle still
    exact ⟨ready'.trans ready, still'⟩

theorem Settled.nil (q : QueueId) (b : Broker) : Settled q [] b b where
  time := rfl
  setups := rfl
  length := rfl
  visible := (List.append_nil _).symm
  locked := by simp
  nextSequence := rfl
  totalAt _ := rfl
  idle nobody := ⟨rfl, nobody⟩

theorem settled_settleMessages (b : Broker)
    (distinct : (ss.map (·.message.reference)).Nodup) :
    Settled q ss b (b.settleMessages q ss).2 ∧
      (b.settleMessages q ss).1 = ss.map fun s => (b.settleMessage q s).1 := by
  -- The settlements are taken off at the front, whatever broker has come of those before.
  induction ss generalizing b with
  | nil => exact ⟨.nil q b, rfl⟩
  | cons s rest ih =>
    obtain ⟨apart, distinct⟩ := List.nodup_cons.1 distinct
    obtain ⟨others, messages⟩ := ih (b.settleMessage q s).2 distinct
    refine ⟨(b.settled_settleMessage q s).cons others apart, ?_⟩
    simp only [settleMessages, messages, List.map_cons, settleMessage_fst]

/-! ## Settling and clearing -/

theorem storageOf_clear (b : Broker) (q : QueueId) (c : String) :
    (b.clear q c).storageOf q = (b.storageOf q).clear := by
  rw [(quiet_clear (x := none) c).storageOf, storageOf_commit, accessAt]
  by_cases inside : q < b.queues.length
  · simp [inside, access, Access.after]
  · simp only [inside, and_false, ↓reduceIte]
    rw [storageOf_of_not_lt inside]
    rfl

theorem storageOf_abandon (b : Broker) (q : QueueId) (e : Envelope) :
    (b.abandon q e).2.storageOf q = (b.access q (.abandon e)).after :=
  ((quiet_abandon (x := none) e).storageOf q).trans
    (b.storageOf_commit_settlement q ⟨.abandon, e⟩)

theorem abandon_clear (b : Broker) (q : QueueId) (e : Envelope) (c : String) :
    ((b.abandon q e).2.clear q c).storageOf q = (b.storageOf q).clear := by
  have after := b.after_settlement q ⟨.abandon, e⟩
  rw [storageOf_clear, storageOf_abandon]
  exact (congrArg Storage.clear after).trans rfl

theorem clear_abandon (b : Broker) (q : QueueId) (e : Envelope) (c : String) :
    ((b.clear q c).abandon q e).2.storageOf q = (b.storageOf q).clear := by
  have unknown : ((b.clear q c).access q (.abandon e)).lockOf? e = none := by
    rw [lockOf?_access, storageOf_clear]
    cases ownToken? q e <;> rfl
  rw [storageOf_abandon, Access.after_of_stale rfl unknown]
  exact b.storageOf_clear q c

/-! ## Main result -/

/-- Settled in any order at one instant, messages with different tokens leave the same locks, the
    same numbering and the same totals, and each is handed back as if it were the only one.  What
    becomes visible stands behind what was, and is the same but for its order.  If nobody waits
    for messages, nobody is woken meanwhile.  And it does not matter whether a message is given
    back before all are dropped or after that: none is left. -/
theorem settlements_commute {b : Broker} {q : QueueId} {ss ss' : List Settlement}
    (order : ss.Perm ss') (distinct : (ss.map (·.message.reference)).Nodup) :
    let one := b.settleMessages q ss
    let other := b.settleMessages q ss'
    let s := one.2.storageOf q
    let s' := other.2.storageOf q
    (s.locked = s'.locked ∧ s.nextSequence = s'.nextSequence ∧
      (∀ p, one.2.totalAt p = other.2.totalAt p)) ∧
    (one.1 = ss.map (fun s => (b.settleMessage q s).1) ∧
      other.1 = ss'.map fun s => (b.settleMessage q s).1) ∧
    (∃ given given', s.visible = (b.storageOf q).visible ++ given ∧
      s'.visible = (b.storageOf q).visible ++ given' ∧ given.Perm given') ∧
    ((∀ id, b.isRegistered q id = false) → one.2.ready = b.ready ∧ other.2.ready = b.ready) ∧
    ∀ e c,
      let left := ((b.abandon q e).2.clear q c).storageOf q
      left = ((b.clear q c).abandon q e).2.storageOf q ∧ left.visible = [] ∧ left.locked = [] := by
  intro one other s s'
  have distinct' : (ss'.map (·.message.reference)).Nodup := (order.map _).nodup_iff.1 distinct
  obtain ⟨first, messages⟩ := b.settled_settleMessages (q := q) distinct
  obtain ⟨second, messages'⟩ := b.settled_settleMessages (q := q) distinct'
  refine ⟨⟨?_, ?_, fun p => ?_⟩, ⟨messages, messages'⟩, ?_, fun nobody => ?_, fun e c => ?_⟩
  · rw [first.locked, second.locked]
    refine List.filter_congr fun p _ => ?_
    simp only [(order.map (·.token? q)).mem_iff]
  · exact first.nextSequence.trans second.nextSequence.symm
  · rw [first.totalAt, second.totalAt, order.countP_eq]
  · exact ⟨_, _, first.visible, second.visible, order.flatMap_right _⟩
  · exact ⟨(first.idle nobody).1, (second.idle nobody).1⟩
  · rw [abandon_clear, clear_abandon]
    exact ⟨rfl, rfl, rfl⟩

/-- Of three messages two are given back, and the third is settled as not to be processed after
    its lock has expired. -/
theorem settlements_commute_for_three :
    let actions : List Action := [.addCounters, .newQueue ⟨"jobs"⟩ (some 0),
      .ask 0 (.send "" .empty), .ask 0 (.send "" .empty), .ask 0 (.send "" .empty),
      .ask 0 (.receive "" (.ofMillis 1000)), .turn 0, .turn 0,
      .ask 0 (.receive "" (.ofMillis 1000)), .turn 1, .turn 1,
      .ask 0 (.receive "" (.ofMillis 0)), .turn 2, .turn 2]
    let held (n : Nat) (c : String) : Envelope :=
      { Envelope.empty with correlationId := c, reference := some ⟨1, n⟩ }
    let b := (new .epoch).run actions
    let ss : List Settlement :=
      [⟨.abandon, held 0 "first"⟩, ⟨.deadLetter, held 2 ""⟩, ⟨.abandon, held 1 "second"⟩]
    let one := b.settleMessages 0 ss
    let other := b.settleMessages 0 ss.reverse
    (ss.map (·.message.reference)).Nodup ∧ (b.storageOf 0).locked.length = 3 ∧
      (one.2.storageOf 0).visible.map (·.correlationId) = ["first", "second"] ∧
      (other.2.storageOf 0).visible.map (·.correlationId) = ["second", "first"] ∧
      one.2.totalAt (0, "queue.jobs.deadmessages") = 1 ∧
      (one.2.storageOf 0).locked = (other.2.storageOf 0).locked ∧
      ∀ p, one.2.totalAt p = other.2.totalAt p := by
  intro actions held b ss one other
  have distinct : (ss.map (·.message.reference)).Nodup := by decide
  have commute := settlements_commute (b := b) (q := 0) (List.reverse_perm ss).symm distinct
  exact ⟨distinct, by decide, by decide, by decide, by decide, commute.1.1, commute.1.2.2⟩

end Broker

end PeekLock
