import PeekLock.Proofs.Queue.Access

/-! # What holds of every storage

`Storage.Sound` collects what all calls keep true of a queue's messages: visible
messages carry no token and a time of sending; locks stand in the table in the order
in which their tokens were minted, under tokens of the queue that are older than the
next one, each with a message that carries just this token.  The main statement is
`Access.sound_after`.  It follows from one lemma for each of the four ways in which
calls change a storage: messages are added, entries leave the table, one message is
taken, one lock is renewed.
-/

namespace PeekLock

/-! ## The invariant -/

/-- An entry of the lock table stands under a token of its queue, with a message that was
    sent and that carries the token. -/
structure Lock.Under (lock : Lock) (q : QueueId) (token : LockToken) : Prop where
  owner : token.owner = Broker.ownerOf q
  reference : lock.message.reference = some token
  sent : lock.message.sentTime.isSome

/-- The representation of a queue's messages is in order. -/
structure Storage.Sound (q : QueueId) (s : Storage) : Prop where
  visible_unlocked : ∀ e ∈ s.visible, e.reference = none
  visible_sent : ∀ e ∈ s.visible, e.sentTime.isSome
  locked_under : ∀ p ∈ s.locked, p.2.Under q p.1
  locked_below : ∀ p ∈ s.locked, p.1.sequence < s.nextSequence
  ascending : s.locked.Pairwise fun a b => a.1.sequence < b.1.sequence

namespace Storage

theorem sound_empty (q : QueueId) : empty.Sound q where
  visible_unlocked _ member := (List.not_mem_nil member).elim
  visible_sent _ member := (List.not_mem_nil member).elim
  locked_under _ member := (List.not_mem_nil member).elim
  locked_below _ member := (List.not_mem_nil member).elim
  ascending := .nil

namespace Sound

variable {q : QueueId} {s : Storage}

/-! ## Looking up tokens -/

theorem once (h : s.Sound q) : s.locked.Pairwise fun a b => a.1 ≠ b.1 :=
  h.ascending.imp fun below same => Nat.ne_of_lt below (congrArg _ same)

theorem lock?_iff (h : s.Sound q) {t : LockToken} {lock : Lock} :
    s.lock? t = some lock ↔ (t, lock) ∈ s.locked :=
  ⟨mem_of_lock?_eq_some, lock?_eq_some_of_mem h.once⟩

/-- A token in the table is one of the queue's, and older than the next one. -/
theorem owner_and_below (h : s.Sound q) {t : LockToken} (locked : s.IsLocked t) :
    t.owner = Broker.ownerOf q ∧ t.sequence < s.nextSequence := by
  obtain ⟨p, member, rfl⟩ := List.mem_map.1 locked
  exact ⟨(h.locked_under p member).owner, h.locked_below p member⟩

/-- The next token is not in the table yet. -/
theorem next_not_isLocked (h : s.Sound q) (owner : Nat) : ¬ s.IsLocked ⟨owner, s.nextSequence⟩ :=
  fun locked => Nat.lt_irrefl _ (h.owner_and_below locked).2

/-- The expired locks as they stand in the table are in the order of tokens already. -/
theorem expired_eq_filter (h : s.Sound q) (now : Timestamp) :
    s.expired now = s.locked.filter fun (_, lock) => lock.HasExpired now := by
  refine List.mergeSort_of_pairwise ?_
  have both := h.ascending.and (List.pairwise_of_forall_mem_list fun a ha b hb =>
    (h.locked_under a ha).owner.trans (h.locked_under b hb).owner.symm)
  refine (both.imp ?_).filter _
  intro a b ⟨below, sameOwner⟩
  simp [LockToken.le, LockToken.compare, sameOwner, Nat.compare_eq_lt.2 below]

/-! ## What changes a storage -/

theorem append (h : s.Sound q) {messages : List Envelope}
    (stamped : ∀ e ∈ messages, e.reference = none ∧ e.sentTime.isSome) :
    (s.append messages).Sound q where
  visible_unlocked e member := (List.mem_append.1 member).elim (h.visible_unlocked e)
    fun new => (stamped e new).1
  visible_sent e member := (List.mem_append.1 member).elim (h.visible_sent e)
    fun new => (stamped e new).2
  locked_under := h.locked_under
  locked_below := h.locked_below
  ascending := h.ascending

theorem restrict (h : s.Sound q) {entries : List (LockToken × Lock)}
    (fewer : entries.Sublist s.locked) : { s with locked := entries }.Sound q where
  visible_unlocked := h.visible_unlocked
  visible_sent := h.visible_sent
  locked_under p member := h.locked_under p (fewer.subset member)
  locked_below p member := h.locked_below p (fewer.subset member)
  ascending := h.ascending.sublist fewer

theorem enqueue (h : s.Sound q) (now : Timestamp) (e : Envelope) : (s.enqueue now e).Sound q :=
  h.append fun e' member => by
    obtain rfl := List.mem_singleton.1 member
    exact ⟨rfl, rfl⟩

theorem unlock (h : s.Sound q) (t : LockToken) : (s.unlock t).Sound q :=
  h.restrict List.filter_sublist

theorem sweep (h : s.Sound q) (now : Timestamp) : (s.sweep now).2.Sound q := by
  have fewer := h.restrict (List.filter_sublist (p := fun (_, lock) => ¬ lock.HasExpired now))
  refine fewer.append fun e member => ?_
  obtain ⟨p, _, rfl⟩ := List.mem_map.1 member
  exact ⟨rfl, rfl⟩

theorem clear : s.clear.Sound q where
  visible_unlocked _ member := (List.not_mem_nil member).elim
  visible_sent _ member := (List.not_mem_nil member).elim
  locked_under _ member := (List.not_mem_nil member).elim
  locked_below _ member := (List.not_mem_nil member).elim
  ascending := .nil

theorem abandon (h : s.Sound q) (now : Timestamp) (t : LockToken) (e : Envelope) :
    (s.abandon now t e).2.Sound q := by
  simp only [Storage.abandon]
  cases s.lock? t with
  | none => exact h
  | some lock =>
    dsimp only
    split
    · exact h.unlock t
    · exact (h.unlock t).enqueue now e

theorem lockNext (h : s.Sound q) {now : Timestamp} {timeout : Duration} {e : Envelope}
    {s' : Storage} (taken : s.lockNext (Broker.ownerOf q) now timeout = some (e, s')) :
    s'.Sound q := by
  simp only [Storage.lockNext] at taken
  cases first : s.visible with
  | nil => simp [first] at taken
  | cons head rest =>
    simp only [first, Option.some.injEq, Prod.mk.injEq] at taken
    obtain ⟨rfl, rfl⟩ := taken
    have unlocked := h.visible_unlocked
    have sent := h.visible_sent
    rw [first] at unlocked sent
    constructor
    case visible_unlocked => exact fun e member => unlocked e (List.mem_cons_of_mem _ member)
    case visible_sent => exact fun e member => sent e (List.mem_cons_of_mem _ member)
    case locked_under =>
      intro p member
      rcases List.mem_append.1 member with old | new
      · exact h.locked_under p old
      · obtain rfl := List.mem_singleton.1 new
        exact ⟨rfl, rfl, sent head (List.mem_cons_self ..)⟩
    case locked_below =>
      intro p member
      rcases List.mem_append.1 member with old | new
      · exact Nat.lt_succ_of_lt (h.locked_below p old)
      · obtain rfl := List.mem_singleton.1 new
        exact Nat.lt_succ_self _
    case ascending =>
      -- the new token stands behind all others, since they are below it
      refine List.pairwise_append.2 ⟨h.ascending, List.pairwise_singleton .., ?_⟩
      intro a old b new
      obtain rfl := List.mem_singleton.1 new
      exact h.locked_below a old

theorem renew (h : s.Sound q) {now : Timestamp} {t : LockToken} {s' : Storage}
    (renewed : s.renew now t = some s') : s'.Sound q := by
  simp only [Storage.renew] at renewed
  cases found : s.lock? t with
  | none => simp [found] at renewed
  | some lock =>
    simp only [found, Option.ite_none_left_eq_some, Option.some.injEq] at renewed
    obtain ⟨_, rfl⟩ := renewed
    constructor
    case visible_unlocked => exact h.visible_unlocked
    case visible_sent => exact h.visible_sent
    case locked_under =>
      intro p member
      obtain ⟨old, oldMember, rfl⟩ := List.mem_map.1 member
      have under := h.locked_under old oldMember
      split
      · exact ⟨under.owner, under.reference, under.sent⟩
      · exact under
    case locked_below =>
      intro p member
      obtain ⟨old, oldMember, rfl⟩ := List.mem_map.1 member
      have below := h.locked_below old oldMember
      split <;> exact below
    case ascending =>
      refine List.pairwise_map.2 (h.ascending.imp fun {a b} below => ?_)
      split <;> split <;> exact below

end Sound

end Storage

/-- Every call leaves the representation in order. -/
theorem Access.sound_after {a : Access} (h : a.storage.Sound a.queue) :
    a.after.Sound a.queue := by
  obtain ⟨q, now, s, call⟩ := a
  dsimp only at h
  cases call with
  | send e => exact h.enqueue now e
  | take timeout =>
    simp only [after]
    cases taken : s.lockNext (Broker.ownerOf q) now timeout with
    | none => exact h
    | some result => exact h.lockNext (e := result.1) taken
  | complete e | deadLetter e =>
    simp only [after]
    cases Broker.ownToken? q e with
    | none => exact h
    | some token => exact h.unlock token
  | abandon e =>
    simp only [after]
    cases Broker.ownToken? q e with
    | none => exact h
    | some token => exact h.abandon now token e.withoutReference
  | renew e =>
    simp only [after]
    cases Broker.ownToken? q e with
    | none => exact h
    | some token =>
      dsimp only
      cases renewed : s.renew now token with
      | none => exact h
      | some s' => exact h.renew renewed
  | releaseExpired => exact h.sweep now
  | clear => exact .clear

end PeekLock
