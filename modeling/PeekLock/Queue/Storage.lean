import PeekLock.Envelope

/-! # The storage of a queue

Visible messages wait in the order in which they became visible.  A message that has been handed
out is held in the lock table under a token of its own until its lock is settled or swept; tokens
are numbered in the order of delivery and never come back.  Expiry is advisory: it decides what
settling, renewing and sweeping do, but nothing happens by itself when a lock expires.
-/

namespace PeekLock

/-- The lock on a message that has been handed out. -/
structure Lock where
  /-- The message as it was handed out. -/
  message : Envelope
  expiration : Timestamp
  /-- How long the lock lasts after each renewal. -/
  timeout : Duration
deriving DecidableEq, Repr

namespace Lock

/-- The instant of expiry counts as expired. -/
def HasExpired (l : Lock) (now : Timestamp) : Prop :=
  l.expiration ≤ now

instance (l : Lock) (now : Timestamp) : Decidable (l.HasExpired now) :=
  inferInstanceAs (Decidable (_ ≤ _))

def renewed (l : Lock) (now : Timestamp) : Lock :=
  { l with expiration := now.after l.timeout }

end Lock

/-- The messages of a queue. -/
structure Storage where
  /-- Messages to be delivered, the next one first. -/
  visible : List Envelope
  /-- Locks by token, each token once. -/
  locked : List (LockToken × Lock)
  /-- The sequence number of the next token. -/
  nextSequence : Nat
deriving Repr

namespace Storage

/-- No messages, and no token given out yet. -/
def empty : Storage := ⟨[], [], 0⟩

instance : Inhabited Storage := ⟨empty⟩

def lock? (s : Storage) (token : LockToken) : Option Lock :=
  s.locked.lookup token

def unlock (s : Storage) (token : LockToken) : Storage :=
  { s with locked := s.locked.filter (·.1 ≠ token) }

/-- A message as it becomes visible: without token, and with the time. -/
def stamp (now : Timestamp) (e : Envelope) : Envelope :=
  { e with sentTime := some now, reference := none }

/-- Makes messages visible behind all others. -/
def append (s : Storage) (messages : List Envelope) : Storage :=
  { s with visible := s.visible ++ messages }

def enqueue (s : Storage) (now : Timestamp) (e : Envelope) : Storage :=
  s.append [stamp now e]

/-- Hands out the first visible message under a fresh lock. -/
def lockNext (s : Storage) (owner : Nat) (now : Timestamp) (timeout : Duration) :
    Option (Envelope × Storage) :=
  match s.visible with
  | [] => none
  | e :: rest =>
    let token : LockToken := ⟨owner, s.nextSequence⟩
    let e := { e with reference := some token }
    some (e, {
      visible := rest
      locked := s.locked ++ [(token, ⟨e, now.after timeout, timeout⟩)]
      nextSequence := s.nextSequence + 1 })

/-- What abandoning did. -/
inductive AbandonOutcome where
  /-- There was no such lock. -/
  | unknown
  /-- The lock had expired, and the message is dropped. -/
  | expired
  /-- The message is visible again. -/
  | requeued
deriving DecidableEq, Repr

/-- Gives a message back under a token, as its holder has it. -/
def abandon (s : Storage) (now : Timestamp) (token : LockToken) (e : Envelope) :
    AbandonOutcome × Storage :=
  match s.lock? token with
  | none => (.unknown, s)
  | some lock =>
    if lock.HasExpired now then (.expired, s.unlock token)
    else (.requeued, (s.unlock token).enqueue now e)

/-- Renews a lock that has not expired, by the timeout that it was taken with. -/
def renew (s : Storage) (now : Timestamp) (token : LockToken) : Option Storage :=
  match s.lock? token with
  | none => none
  | some lock =>
    if lock.HasExpired now then none
    else some { s with locked := s.locked.map fun (t, l) =>
      if t = token then (t, l.renewed now) else (t, l) }

/-- The locks that have expired, in the order of their tokens. -/
def expired (s : Storage) (now : Timestamp) : List (LockToken × Lock) :=
  (s.locked.filter fun (_, lock) => lock.HasExpired now).mergeSort fun a b => a.1.le b.1

/-- Makes the messages of all expired locks visible again, as they were handed out. -/
def sweep (s : Storage) (now : Timestamp) : List Envelope × Storage :=
  let messages := (s.expired now).map fun (_, lock) => stamp now lock.message
  (messages, {
    visible := s.visible ++ messages
    locked := s.locked.filter fun (_, lock) => ¬ lock.HasExpired now
    nextSequence := s.nextSequence })

def clear (s : Storage) : Storage :=
  { s with visible := [], locked := [] }

end Storage

end PeekLock
