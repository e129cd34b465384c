import PeekLock.Broker.Operations

/-! # Calls at the messages of a queue

Whoever asks for it and however the asking is spread over tasks, all that ever
happens to the messages of a queue is a sequence of calls, each of which finds the
storage as the one before has left it.  An `Access` is one such call with its
circumstances.  This module says what an access does: the storage that it leaves
(`Access.after`), what it makes visible, what it hands out, which event it counts
and which token it takes out of the lock table.
-/

namespace PeekLock

/-- What can be asked of the messages of a queue. -/
inductive Call where
  | send (message : Envelope)
  /-- Looks for a message, and takes it under a lock that lasts for the timeout. -/
  | take (timeout : Duration)
  | complete (message : Envelope)
  | deadLetter (message : Envelope)
  | abandon (message : Envelope)
  | renew (message : Envelope)
  | releaseExpired
  | clear

namespace Call

/-- The envelope by whose token a call settles or renews. -/
def holding : Call → Option Envelope
  | .complete e | .deadLetter e | .abandon e | .renew e => some e
  | .send _ | .take _ | .releaseExpired | .clear => none

def isClear : Call → Bool
  | .clear => true
  | _ => false

end Call

/-- How a token leaves the lock table. -/
inductive Fate where
  | completed
  | deadLettered
  /-- Abandoned in time: the message is visible again. -/
  | requeued
  /-- Abandoned after the lock had expired: the message is gone. -/
  | dropped
  | swept
  | cleared
deriving DecidableEq, Repr

/-- A call at a queue, with the instant of the call and the storage that it found. -/
structure Access where
  queue : QueueId
  now : Timestamp
  storage : Storage
  call : Call

namespace Access

/-- The storage that an access leaves. -/
def after (a : Access) : Storage :=
  match a.call with
  | .send e => a.storage.enqueue a.now e
  | .take timeout =>
    match a.storage.lockNext (Broker.ownerOf a.queue) a.now timeout with
    | some (_, s) => s
    | none => a.storage
  | .complete e | .deadLetter e =>
    match Broker.ownToken? a.queue e with
    | some token => a.storage.unlock token
    | none => a.storage
  | .abandon e =>
    match Broker.ownToken? a.queue e with
    | some token => (a.storage.abandon a.now token e.withoutReference).2
    | none => a.storage
  | .renew e =>
    match Broker.ownToken? a.queue e with
    | some token => (a.storage.renew a.now token).getD a.storage
    | none => a.storage
  | .releaseExpired => (a.storage.sweep a.now).2
  | .clear => a.storage.clear

/-- The lock that an envelope refers to, if the queue has it. -/
def lockOf? (a : Access) (e : Envelope) : Option Lock :=
  (Broker.ownToken? a.queue e).bind a.storage.lock?

/-- What an access makes visible: the message of a send, the message of a live lock as its
    holder gives it back, the messages of all expired locks in the order of their tokens.  Each
    is as it was, but for its token, which is gone, and its time, which is the instant of the
    access. -/
def enqueued (a : Access) : List Envelope :=
  match a.call with
  | .send e => [{ e with sentTime := some a.now, reference := none }]
  | .abandon e =>
    match a.lockOf? e with
    | some lock =>
      if lock.expiration ≤ a.now then []
      else [{ e with sentTime := some a.now, reference := none }]
    | none => []
  | .releaseExpired =>
    let expired := a.storage.locked.filter fun (_, lock) => lock.expiration ≤ a.now
    (expired.mergeSort fun x y => x.1.le y.1).map fun (_, lock) =>
      { lock.message with sentTime := some a.now, reference := none }
  | _ => []

/-- What becomes visible is what the queue puts into its line: a message that is sent, a message
    that is given back, what a sweep has collected. -/
theorem enqueued_send (q : QueueId) (now : Timestamp) (s : Storage) (e : Envelope) :
    (mk q now s (.send e)).enqueued = [Storage.stamp now e] := rfl

theorem enqueued_abandon (q : QueueId) (now : Timestamp) (s : Storage) (e : Envelope) :
    (mk q now s (.abandon e)).enqueued =
      match (mk q now s (.abandon e)).lockOf? e with
      | some lock => if lock.HasExpired now then [] else [Storage.stamp now e]
      | none => [] := rfl

theorem enqueued_releaseExpired (q : QueueId) (now : Timestamp) (s : Storage) :
    (mk q now s .releaseExpired).enqueued = (s.sweep now).1 := rfl

/-- The message that an access hands out, with the token of its lock. -/
def delivered (a : Access) : Option Envelope :=
  match a.call with
  | .take timeout =>
    (a.storage.lockNext (Broker.ownerOf a.queue) a.now timeout).map (·.1)
  | _ => none

/-- The token that an access mints. -/
def minted (a : Access) : Option LockToken :=
  a.delivered.bind (·.reference)

/-- The event that an access counts at once.  What it makes visible is counted when that is
    announced. -/
def counted (a : Access) : Option QueueEvent :=
  match a.call with
  | .take _ => a.delivered.map fun _ => .received
  | .deadLetter e => (a.lockOf? e).map fun _ => .dead
  | _ => none

/-- How an access takes a token out of the lock table, if it does. -/
def fate? (t : LockToken) (a : Access) : Option Fate :=
  match a.storage.lock? t with
  | none => none
  | some lock =>
    match a.call with
    | .complete e => if Broker.ownToken? a.queue e = some t then some .completed else none
    | .deadLetter e => if Broker.ownToken? a.queue e = some t then some .deadLettered else none
    | .abandon e =>
      if Broker.ownToken? a.queue e = some t then
        some (if lock.HasExpired a.now then .dropped else .requeued)
      else none
    | .releaseExpired => if lock.HasExpired a.now then some .swept else none
    | .clear => some .cleared
    | .send _ | .take _ | .renew _ => none

end Access

/-! ## The lock table -/

namespace Storage

/-- A token is in the lock table. -/
def IsLocked (s : Storage) (t : LockToken) : Prop :=
  t ∈ s.locked.map (·.1)

instance (s : Storage) (t : LockToken) : Decidable (s.IsLocked t) :=
  inferInstanceAs (Decidable (_ ∈ _))

theorem mem_of_lock?_eq_some {s : Storage} {t : LockToken} {lock : Lock}
    (h : s.lock? t = some lock) : (t, lock) ∈ s.locked := by
  obtain ⟨front, back, split, _⟩ := List.lookup_eq_some_iff.1 h
  rw [split]
  exact List.mem_append_right _ (List.mem_cons_self ..)

theorem lock?_eq_none_iff {s : Storage} {t : LockToken} :
    s.lock? t = none ↔ ¬ s.IsLocked t := by
  rw [lock?, List.lookup_eq_none_iff, IsLocked, List.mem_map]
  constructor
  · rintro absent ⟨p, member, rfl⟩
    simpa using absent p member
  · intro absent p member
    exact bne_iff_ne.2 fun same => absent ⟨p, member, same.symm⟩

theorem IsLocked.lock? {s : Storage} {t : LockToken} (h : s.IsLocked t) :
    ∃ lock, s.lock? t = some lock := by
  cases found : s.lock? t with
  | none => exact absurd h (lock?_eq_none_iff.1 found)
  | some lock => exact ⟨lock, rfl⟩

/-- An entry of the table is what its token leads to, if tokens stand in the table once
    each. -/
theorem lock?_eq_some_of_mem {s : Storage} {t : LockToken} {lock : Lock}
    (once : s.locked.Pairwise fun a b => a.1 ≠ b.1) (member : (t, lock) ∈ s.locked) :
    s.lock? t = some lock := by
  obtain ⟨front, back, split⟩ := List.append_of_mem member
  refine List.lookup_eq_some_iff.2 ⟨front, back, split, fun p before => ?_⟩
  rw [split, List.pairwise_append] at once
  exact bne_iff_ne.2 (once.2.2 p before (t, lock) (List.mem_cons_self ..)).symm

theorem unlock_of_not_isLocked {s : Storage} {t : LockToken} (h : ¬ s.IsLocked t) :
    s.unlock t = s := by
  have all : s.locked.filter (fun p => decide (p.1 ≠ t)) = s.locked :=
    List.filter_eq_self.2 fun p member => decide_eq_true fun same =>
      h (List.mem_map.2 ⟨p, member, same⟩)
  simp only [unlock]
  rw [all]

end Storage

/-! ## Accesses without effect -/

namespace Access

/-- A call by a token that the queue has not minted, or that is in its lock table no longer,
    leaves the storage as it is. -/
theorem after_of_stale {a : Access} {e : Envelope} (holding : a.call.holding = some e)
    (stale : a.lockOf? e = none) : a.after = a.storage := by
  obtain ⟨q, now, s, call⟩ := a
  simp only [lockOf?, Option.bind_eq_none_iff] at stale
  cases call with
  | send _ | take _ | releaseExpired | clear => simp [Call.holding] at holding
  | complete e' | deadLetter e' | abandon e' | renew e' =>
    -- With no such lock, unlocking filters nothing out, and abandoning and renewing give up.
    obtain rfl : e' = e := by simpa [Call.holding] using holding
    cases own : Broker.ownToken? q e' with
    | none => simp only [after, own]
    | some token =>
      have unknown := stale token own
      have same := Storage.unlock_of_not_isLocked (Storage.lock?_eq_none_iff.1 unknown)
      simp [after, own, same, Storage.abandon, Storage.renew, unknown]

end Access

end PeekLock
