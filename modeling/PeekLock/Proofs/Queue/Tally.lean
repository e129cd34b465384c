import Mathlib.Algebra.GroupWithZero.Nat
import PeekLock.Proofs.Queue.Delivery

/-! # What a history adds up to

A message becomes visible by a send, by being given back in time or by a sweep, and it
is handed out under a lock, which a settlement or a sweep takes out of the table.  So
the lengths of the line and of the lock table can be told from how often each of these
has happened, as long as nobody drops all messages at once.  What is not obvious is
that a settlement takes just one lock out of the table; it rests on tokens standing in
the table once each.
-/

namespace PeekLock

def Call.isSend : Call → Bool
  | .send _ => true
  | _ => false

namespace Access

/-! ## One call -/

/-- How an access settles the lock that its message refers to, if the queue has it. -/
def settled? (a : Access) : Option Fate :=
  match a.call with
  | .complete e => (a.lockOf? e).map fun _ => .completed
  | .deadLetter e => (a.lockOf? e).map fun _ => .deadLettered
  | .abandon e =>
    (a.lockOf? e).map fun lock => if lock.HasExpired a.now then .dropped else .requeued
  | _ => none

/-- The number of messages that an access sweeps, which is what a sweep answers. -/
def swept (a : Access) : Nat :=
  match a.call with
  | .releaseExpired => (a.storage.expired a.now).length
  | _ => 0

/-- How many events of a kind an access brings about, sooner or later. -/
def tallied (a : Access) : QueueEvent → Nat
  | .sent => a.enqueued.length
  | .received => a.delivered.toList.length
  | .dead => (a.settled? == some .deadLettered).toNat

theorem length_enqueued (a : Access) :
    a.enqueued.length =
      a.call.isSend.toNat + (a.settled? == some .requeued).toNat + a.swept := by
  obtain ⟨q, now, s, call⟩ := a
  cases call with
  | abandon e =>
    simp only [enqueued_abandon, settled?, swept, Call.isSend]
    cases lockOf? ⟨q, now, s, .abandon e⟩ e with
    | none => rfl
    | some lock =>
      simp only [Option.map_some]
      split <;> rfl
  | complete e | deadLetter e =>
    simp only [enqueued, settled?, swept, Call.isSend]
    cases lockOf? _ e <;> rfl
  | releaseExpired => simp [enqueued_releaseExpired, Storage.sweep, settled?, swept, Call.isSend]
  | send _ | take _ | renew _ | clear => rfl

/-- What an access counts at once is what it hands out, and what it settles as not to be
    processed. -/
theorem counted_iff {a : Access} {event : QueueEvent} :
    a.counted = some event ↔ event ≠ .sent ∧ a.tallied event = 1 := by
  obtain ⟨q, now, s, call⟩ := a
  cases call with
  | take timeout =>
    simp only [counted, tallied, settled?]
    cases delivered ⟨q, now, s, .take timeout⟩ <;> cases event <;> simp
  | deadLetter e =>
    simp only [counted, tallied, settled?, delivered]
    cases lockOf? ⟨q, now, s, .deadLetter e⟩ e <;> cases event <;> simp
  | abandon e =>
    simp only [counted, tallied, settled?, delivered]
    cases lockOf? ⟨q, now, s, .abandon e⟩ e with
    | none => cases event <;> simp
    | some lock => by_cases expired : lock.HasExpired now <;> cases event <;> simp [expired]
  | complete e =>
    simp only [counted, tallied, settled?, delivered]
    cases lockOf? ⟨q, now, s, .complete e⟩ e <;> cases event <;> simp
  | send _ | renew _ | releaseExpired | clear =>
    cases event <;> simp [counted, tallied, settled?, delivered]

theorem tallied_of_not_counted {a : Access} {event : QueueEvent} (later : event ≠ .sent)
    (none : a.counted ≠ some event) : a.tallied event = 0 := by
  have notOne : a.tallied event ≠ 1 := fun one => none (counted_iff.2 ⟨later, one⟩)
  cases event with
  | sent => exact absurd rfl later
  | received =>
    simp only [tallied] at notOne ⊢
    cases given : a.delivered with
    | none => rfl
    | some e => simp [given] at notOne
  | dead =>
    simp only [tallied] at notOne ⊢
    cases settled : a.settled? == some .deadLettered with
    | false => rfl
    | true => simp [settled] at notOne

end Access

/-! ## The lock table -/

namespace Storage

theorem length_unlock {q : QueueId} {s : Storage} (sound : s.Sound q) {t : LockToken} {lock : Lock}
    (found : s.lock? t = some lock) : (s.unlock t).locked.length + 1 = s.locked.length := by
  obtain ⟨front, back, split⟩ := List.append_of_mem (mem_of_lock?_eq_some found)
  have once := sound.once
  rw [split, List.pairwise_append, List.pairwise_cons] at once
  obtain ⟨-, ⟨behind, -⟩, before⟩ := once
  -- All entries but this one stay.
  have front' : front.filter (fun p => decide (p.1 ≠ t)) = front :=
    List.filter_eq_self.2 fun p member => decide_eq_true (before p member _ (List.mem_cons_self ..))
  have back' : back.filter (fun p => decide (p.1 ≠ t)) = back :=
    List.filter_eq_self.2 fun p member => decide_eq_true (behind p member).symm
  have left : (s.unlock t).locked = front ++ back := by
    simp only [unlock, split, List.filter_append, front']
    rw [List.filter_cons_of_neg (by simp), back']
  rw [left, split, List.length_append, List.length_append, List.length_cons]
  omega

theorem length_sweep {q : QueueId} {s : Storage} (sound : s.Sound q) (now : Timestamp) :
    (s.sweep now).2.locked.length + (s.expired now).length = s.locked.length := by
  have kept : (s.sweep now).2.locked = s.locked.filter fun p => ¬ p.2.HasExpired now := rfl
  rw [sound.expired_eq_filter, kept,
    List.length_eq_length_filter_add (l := s.locked) fun p => decide (p.2.HasExpired now)]
  simp [Nat.add_comm]

end Storage

namespace Access

variable {a : Access}

/-- A call that does not drop all messages takes as many locks out of the table as it settles
    and sweeps, and puts in as many as it hands out messages. -/
theorem length_locked_after (sound : a.storage.Sound a.queue) (kept : a.call.isClear = false) :
    a.after.locked.length + a.settled?.isSome.toNat + a.swept =
      a.storage.locked.length + a.delivered.toList.length := by
  obtain ⟨q, now, s, call⟩ := a
  dsimp only at sound kept
  have unlocked {e : Envelope} {token : LockToken} {lock : Lock}
      (own : Broker.ownToken? q e = some token) (found : s.lock? token = some lock) :
      (s.unlock token).locked.length + 1 = s.locked.length := Storage.length_unlock sound found
  have absent {token : LockToken} (unknown : s.lock? token = none) : s.unlock token = s :=
    Storage.unlock_of_not_isLocked (Storage.lock?_eq_none_iff.1 unknown)
  cases call with
  | send e => simp [after, settled?, swept, delivered, Storage.enqueue, Storage.append]
  | take timeout =>
    simp only [after, settled?, swept, delivered, Storage.lockNext]
    cases s.visible <;> simp
  | complete e | deadLetter e =>
    simp only [after, settled?, swept, delivered, lockOf?]
    cases own : Broker.ownToken? q e with
    | none => simp
    | some token =>
      cases found : s.lock? token with
      | none => simp [found, absent found]
      | some lock => simp [found, unlocked own found]
  | abandon e =>
    simp only [after, settled?, swept, delivered, lockOf?, Storage.abandon]
    cases own : Broker.ownToken? q e with
    | none => simp
    | some token =>
      cases found : s.lock? token with
      | none => simp [found]
      | some lock =>
        have one := unlocked own found
        by_cases expired : lock.HasExpired now <;>
          simp [found, expired, Storage.enqueue, Storage.append, one]
  | renew e =>
    simp only [after, settled?, swept, delivered]
    cases Broker.ownToken? q e with
    | none => rfl
    | some token =>
      simp only [Storage.renew]
      cases s.lock? token with
      | none => rfl
      | some lock => by_cases expired : lock.HasExpired now <;> simp [expired]
  | releaseExpired => simpa [after, settled?, swept, delivered] using Storage.length_sweep sound now
  | clear => simp [Call.isClear] at kept

/-! ## All calls -/

/-- How many events of a kind a history has brought about. -/
def tally (event : QueueEvent) (history : List Access) : Nat :=
  (history.map (·.tallied event)).sum

def settlements (fate : Fate) (history : List Access) : Nat :=
  history.countP (·.settled? == some fate)

/-- How many messages the sweeps of a history have moved, as they have answered. -/
def sweeps (history : List Access) : Nat :=
  (history.map Access.swept).sum

theorem toNat_eq_ite (b : Bool) : b.toNat = if b then 1 else 0 := by
  cases b <;> rfl

variable (history : List Access)

theorem tally_sent :
    tally .sent history =
      history.countP (·.call.isSend) + settlements .requeued history + sweeps history := by
  simp only [tally, settlements, sweeps, tallied]
  induction history with
  | nil => rfl
  | cons a rest ih =>
    simp only [List.map_cons, List.sum_cons, List.countP_cons, a.length_enqueued, ih, toNat_eq_ite]
    omega

theorem tally_received : tally .received history = (history.filterMap Access.delivered).length := by
  simp only [tally, tallied]
  induction history with
  | nil => rfl
  | cons a rest ih =>
    rw [List.map_cons, List.sum_cons, ih]
    cases given : a.delivered <;> simp [given, Nat.add_comm]

theorem tally_dead : tally .dead history = settlements .deadLettered history := by
  simp only [tally, settlements, tallied]
  induction history with
  | nil => rfl
  | cons a rest ih =>
    rw [List.map_cons, List.sum_cons, List.countP_cons, ih, toNat_eq_ite, Nat.add_comm]

theorem countP_settled :
    history.countP (·.settled?.isSome) =
      settlements .completed history + settlements .deadLettered history +
        settlements .requeued history + settlements .dropped history := by
  have ways (a : Access) : a.settled?.isSome.toNat =
      (a.settled? == some .completed).toNat + (a.settled? == some .deadLettered).toNat +
        (a.settled? == some .requeued).toNat + (a.settled? == some .dropped).toNat := by
    obtain ⟨q, now, s, call⟩ := a
    cases call with
    | complete e | deadLetter e =>
      simp only [settled?]
      cases lockOf? _ e <;> rfl
    | abandon e =>
      simp only [settled?]
      cases lockOf? _ e with
      | none => rfl
      | some lock =>
        simp only [Option.map_some]
        split <;> rfl
    | _ => rfl
  simp only [settlements]
  induction history with
  | nil => rfl
  | cons a rest ih =>
    have one := ways a
    simp only [toNat_eq_ite] at one
    simp only [List.countP_cons, ih, one]
    omega

theorem sinceClear_eq_self {history : List Access}
    (kept : ∀ a ∈ history, a.call.isClear = false) : sinceClear history = history := by
  rw [sinceClear, List.rtakeWhile_eq_self_iff]
  intro a member
  simp [kept a member]

end Access

namespace Broker

/-- While nobody drops all messages, what has become visible has been handed out or is visible
    still. -/
theorem tally_sent_run {start : Timestamp} {q : QueueId} {actions : List Action}
    (kept : ∀ a ∈ (new start).accesses q actions, a.call.isClear = false) :
    Access.tally .sent ((new start).accesses q actions) =
      Access.tally .received ((new start).accesses q actions) +
        (((new start).run actions).storageOf q).visible.length := by
  have balanced : (((new start).run actions).storageOf q).Balanced
      ((new start).accesses q actions) :=
    (history_invariant (P := fun _ s history => s.Balanced history) rfl (fun _ _ _ _ _ h => h)
      (fun _ _ _ sound h => h.after sound) actions).2
  rw [Storage.Balanced, Access.sinceClear_eq_self kept] at balanced
  have lengths := congrArg List.length balanced
  rw [List.length_append, List.length_map, ← Access.tally_received, List.length_flatMap] at lengths
  exact lengths

/-- While nobody drops all messages, what has been handed out is locked still, or has been
    settled or swept. -/
theorem tally_received_run {start : Timestamp} {q : QueueId} {actions : List Action}
    (kept : ∀ a ∈ (new start).accesses q actions, a.call.isClear = false) :
    Access.tally .received ((new start).accesses q actions) =
      (((new start).run actions).storageOf q).locked.length +
        ((new start).accesses q actions).countP (·.settled?.isSome) +
        Access.sweeps ((new start).accesses q actions) := by
  refine (history_invariant (P := fun _ s history => (∀ a ∈ history, a.call.isClear = false) →
      Access.tally .received history =
        s.locked.length + history.countP (·.settled?.isSome) + Access.sweeps history)
    (fun _ => rfl) (fun _ _ _ _ _ h => h) ?_ actions).2 kept
  · -- Each call is accounted for by what it does to the length of the table.
    intro a history _ sound ih kept
    have before := ih fun a' member => kept a' (List.mem_append_left _ member)
    have now := Access.length_locked_after sound
      (kept a (List.mem_append_right _ (List.mem_singleton_self a)))
    rw [Access.toNat_eq_ite] at now
    simp only [Access.tally, Access.tallied, Access.sweeps] at before
    simp only [Access.tally, Access.tallied, Access.sweeps, List.map_append, List.sum_append,
      List.map_cons, List.map_nil, List.sum_cons, List.sum_nil, List.countP_append,
      List.countP_singleton]
    omega

end Broker

end PeekLock
