import PeekLock.Proofs.Broker.History

/-! # The fate of a token

A token comes into the lock table when a message is handed out, and leaves it in one
of six ways.  Each token goes this way once: it is in the table and nothing has
befallen it, or it is in the table no longer and just one call has taken it out.
Whoever still holds it then can do nothing with it.  All of this rests on tokens
being fresh, which in turn rests on their numbers: the tokens that a queue has
minted so far are numbered from zero on, without gaps, in the order of delivery.
-/

namespace PeekLock

/-- The token that a queue mints under a number. -/
def LockToken.numbered (q : QueueId) (sequence : Nat) : LockToken :=
  ⟨Broker.ownerOf q, sequence⟩

namespace Storage

variable {s : Storage} {t u : LockToken}

/-! ## What changes the table -/

theorem isLocked_iff : s.IsLocked t ↔ ∃ lock, s.lock? t = some lock :=
  ⟨IsLocked.lock?, fun ⟨lock, found⟩ => List.mem_map.2 ⟨(t, lock), mem_of_lock?_eq_some found, rfl⟩⟩

@[simp] theorem isLocked_unlock : (s.unlock u).IsLocked t ↔ s.IsLocked t ∧ u ≠ t := by
  simp only [IsLocked, unlock, List.mem_map, List.mem_filter, decide_eq_true_eq]
  constructor
  · rintro ⟨p, ⟨member, other⟩, rfl⟩
    exact ⟨⟨p, member, rfl⟩, other.symm⟩
  · rintro ⟨⟨p, member, rfl⟩, other⟩
    exact ⟨p, ⟨member, other.symm⟩, rfl⟩

@[simp] theorem isLocked_abandon {now : Timestamp} {e : Envelope} :
    (s.abandon now u e).2.IsLocked t ↔ s.IsLocked t ∧ u ≠ t := by
  simp only [abandon]
  cases found : s.lock? u with
  | none =>
    have absent := lock?_eq_none_iff.1 found
    exact ⟨fun locked => ⟨locked, fun same => absent (same ▸ locked)⟩, And.left⟩
  | some lock =>
    dsimp only
    split
    · exact isLocked_unlock
    · exact isLocked_unlock

@[simp] theorem isLocked_renew {now : Timestamp} :
    ((s.renew now u).getD s).IsLocked t ↔ s.IsLocked t := by
  simp only [renew]
  cases s.lock? u with
  | none => rfl
  | some lock =>
    dsimp only
    split
    · rfl
    · have keys : (fun p : LockToken × Lock => (if p.1 = u then (p.1, p.2.renewed now) else p).1) =
          Prod.fst := funext fun p => by split <;> rfl
      simp only [Option.getD_some, IsLocked, List.map_map]
      exact Iff.of_eq (congrArg (t ∈ List.map · s.locked) keys)

theorem isLocked_lockNext {owner : Nat} {now : Timestamp} {timeout : Duration} {e : Envelope}
    {s' : Storage} (taken : s.lockNext owner now timeout = some (e, s')) :
    s'.IsLocked t ↔ e.reference = some t ∨ s.IsLocked t := by
  simp only [lockNext] at taken
  cases line : s.visible with
  | nil => simp [line] at taken
  | cons head rest =>
    simp only [line, Option.some.injEq, Prod.mk.injEq] at taken
    obtain ⟨rfl, rfl⟩ := taken
    simp only [IsLocked, List.map_append, List.map_cons, List.map_nil, List.mem_append,
      List.mem_singleton, Option.some.injEq]
    exact ⟨fun h => h.symm.imp Eq.symm id, fun h => h.symm.imp id Eq.symm⟩

theorem Sound.isLocked_sweep {q : QueueId} {now : Timestamp} (h : s.Sound q) :
    (s.sweep now).2.IsLocked t ↔ ∃ lock, s.lock? t = some lock ∧ ¬ lock.HasExpired now := by
  have kept : (s.sweep now).2.locked = s.locked.filter fun p => ¬ p.2.HasExpired now := rfl
  simp only [IsLocked, kept, List.mem_map, List.mem_filter, decide_eq_true_eq, h.lock?_iff]
  constructor
  · rintro ⟨⟨token, lock⟩, ⟨member, live⟩, rfl⟩
    exact ⟨lock, member, live⟩
  · rintro ⟨lock, member, live⟩
    exact ⟨(t, lock), ⟨member, live⟩, rfl⟩

/-! ## What leaves the numbering alone -/

@[simp] theorem nextSequence_abandon (s : Storage) (now : Timestamp) (u : LockToken)
    (e : Envelope) : (s.abandon now u e).2.nextSequence = s.nextSequence := by
  simp only [abandon]
  cases s.lock? u with
  | none => rfl
  | some lock =>
    dsimp only
    split <;> rfl

@[simp] theorem nextSequence_renew (s : Storage) (now : Timestamp) (u : LockToken) :
    ((s.renew now u).getD s).nextSequence = s.nextSequence := by
  simp only [renew]
  cases s.lock? u with
  | none => rfl
  | some lock =>
    dsimp only
    split <;> rfl

end Storage

namespace Access

variable {a : Access} {t : LockToken}

/-! ## One call -/

/-- Nothing befalls a token that is not in the table. -/
theorem fate?_of_not_isLocked (absent : ¬ a.storage.IsLocked t) : a.fate? t = none := by
  simp only [fate?]
  rw [Storage.lock?_eq_none_iff.2 absent]

/-- A call that hands out a message mints the next token, and no other call does. -/
theorem minted_eq (a : Access) :
    (a.minted = none ∧ a.delivered = none ∧ a.after.nextSequence = a.storage.nextSequence) ∨
      (a.minted = some (.numbered a.queue a.storage.nextSequence) ∧ a.delivered.isSome ∧
        a.after.nextSequence = a.storage.nextSequence + 1) := by
  obtain ⟨q, now, s, call⟩ := a
  cases call with
  | take timeout =>
    simp only [minted, delivered, after, Storage.lockNext]
    cases s.visible with
    | nil => exact .inl ⟨rfl, rfl, rfl⟩
    | cons e rest => exact .inr ⟨rfl, rfl, rfl⟩
  | send _ | releaseExpired | clear => exact .inl ⟨rfl, rfl, rfl⟩
  | complete e | deadLetter e | abandon e | renew e =>
    refine .inl ⟨rfl, rfl, ?_⟩
    simp only [after]
    cases Broker.ownToken? q e with
    | none => rfl
    | some token => simp [Storage.unlock]

/-- After a call the table holds what the call has minted, and the tokens from before that
    the call has not taken out. -/
theorem isLocked_after (sound : a.storage.Sound a.queue) :
    a.after.IsLocked t ↔ a.minted = some t ∨ (a.storage.IsLocked t ∧ a.fate? t = none) := by
  obtain ⟨q, now, s, call⟩ := a
  dsimp only at sound
  -- A call that takes tokens out takes them from those that the table leads to something.
  have locked : s.IsLocked t ↔ ∃ lock, s.lock? t = some lock := Storage.isLocked_iff
  cases call with
  | send e =>
    have unchanged : (s.enqueue now e).IsLocked t ↔ s.IsLocked t := Iff.rfl
    simp only [after, minted, delivered, fate?, unchanged, locked]
    cases s.lock? t <;> simp
  | take timeout =>
    have spared : fate? t ⟨q, now, s, .take timeout⟩ = none := by
      simp only [fate?]
      cases s.lock? t <;> rfl
    simp only [after, minted, delivered, spared]
    cases taken : s.lockNext (Broker.ownerOf q) now timeout with
    | none => simp
    | some result => simp [Storage.isLocked_lockNext taken]
  | complete e | deadLetter e | abandon e | renew e =>
    simp only [after, minted, delivered, fate?]
    cases Broker.ownToken? q e with
    | none => cases found : s.lock? t <;> simp [locked, found]
    | some token => cases found : s.lock? t <;> simp [locked, found]
  | releaseExpired =>
    simp only [after, minted, delivered, fate?]
    cases found : s.lock? t <;> simp [sound.isLocked_sweep, locked, found]
  | clear =>
    have none : ¬ s.clear.IsLocked t := List.not_mem_nil
    simp only [after, minted, delivered, fate?, none]
    cases found : s.lock? t <;> simp [locked, found]

/-- Something befalls a token exactly when a call takes it out of the table. -/
theorem isSome_fate?_iff (sound : a.storage.Sound a.queue) :
    (a.fate? t).isSome ↔ a.storage.IsLocked t ∧ ¬ a.after.IsLocked t := by
  rw [isLocked_after sound]
  by_cases locked : a.storage.IsLocked t
  · have old : a.minted ≠ some t := by
      rcases a.minted_eq with ⟨fresh, _⟩ | ⟨fresh, _⟩
      · simp [fresh]
      · rw [fresh]
        exact fun same => sound.next_not_isLocked _ (Option.some.inj same ▸ locked)
    cases a.fate? t <;> simp [locked, old]
  · simp [locked, fate?_of_not_isLocked locked]

/-! ## All calls -/

/-- What has befallen a token so far. -/
def fates (t : LockToken) (history : List Access) : List Fate :=
  history.filterMap (fate? t)

theorem fates_concat (t : LockToken) (history : List Access) (a : Access) :
    fates t (history ++ [a]) = fates t history ++ (a.fate? t).toList := by
  simp only [fates]
  rw [List.filterMap_append]
  cases fate : a.fate? t <;> simp [fate]

theorem filterMap_minted_concat (history : List Access) (a : Access) :
    (history ++ [a]).filterMap minted = history.filterMap minted ++ a.minted.toList := by
  rw [List.filterMap_append]
  cases fresh : a.minted <;> simp [fresh]

/-- There are as many tokens as messages handed out. -/
theorem length_filterMap_minted (history : List Access) :
    (history.filterMap minted).length = (history.filterMap delivered).length := by
  induction history with
  | nil => rfl
  | cons a rest ih =>
    rcases a.minted_eq with ⟨fresh, none, _⟩ | ⟨fresh, given, _⟩
    · simp [fresh, none, ih]
    · obtain ⟨e, given⟩ := Option.isSome_iff_exists.1 given
      simp [fresh, given, ih]

end Access

/-- The lock table of a queue is what the accesses so far account for. -/
structure Storage.Accounted (q : QueueId) (s : Storage) (history : List Access) : Prop where
  /-- Tokens have been numbered one after the other. -/
  numbered : history.filterMap Access.minted =
    (List.range s.nextSequence).map (LockToken.numbered q)
  /-- A token is in the table, or one thing has befallen it. -/
  fated : ∀ t ∈ history.filterMap Access.minted,
    (s.IsLocked t ∧ Access.fates t history = []) ∨
      (¬ s.IsLocked t ∧ ∃ fate, Access.fates t history = [fate])
  /-- Nothing befalls a token before it is minted. -/
  unminted : ∀ t ∉ history.filterMap Access.minted, Access.fates t history = []

namespace Storage.Accounted

variable {q : QueueId} {s : Storage} {a : Access} {t : LockToken} {history : List Access}

theorem mem_minted (h : s.Accounted q history) :
    t ∈ history.filterMap Access.minted ↔
      t.owner = Broker.ownerOf q ∧ t.sequence < s.nextSequence := by
  rw [h.numbered]
  simp only [List.mem_map, List.mem_range]
  constructor
  · rintro ⟨i, below, rfl⟩
    exact ⟨rfl, below⟩
  · rintro ⟨owner, below⟩
    exact ⟨t.sequence, below, by rw [LockToken.numbered, ← owner]⟩

/-- The next token has not been minted before. -/
theorem next_unminted (h : s.Accounted q history) :
    .numbered q s.nextSequence ∉ history.filterMap Access.minted := by
  rw [h.mem_minted]
  exact fun known => Nat.lt_irrefl _ known.2

theorem empty (q : QueueId) : Storage.empty.Accounted q [] where
  numbered := rfl
  fated _ member := (List.not_mem_nil member).elim
  unminted _ _ := rfl

theorem after (h : a.storage.Accounted q history) (own : a.queue = q)
    (sound : a.storage.Sound a.queue) : a.after.Accounted q (history ++ [a]) := by
  have minted {t : LockToken} (locked : a.storage.IsLocked t) :
      t ∈ history.filterMap Access.minted :=
    h.mem_minted.2 (own ▸ sound.owner_and_below locked)
  have step (t : LockToken) := Access.isLocked_after (t := t) sound
  constructor
  case numbered =>
    rw [Access.filterMap_minted_concat, h.numbered]
    rcases a.minted_eq with ⟨fresh, _, next⟩ | ⟨fresh, _, next⟩
    · simp [fresh, next]
    · simp [fresh, next, own, List.range_succ]
  case fated =>
    intro t member
    rw [Access.filterMap_minted_concat, List.mem_append] at member
    rw [Access.fates_concat, step]
    by_cases known : t ∈ history.filterMap Access.minted
    · have old : a.minted ≠ some t := by
        rcases a.minted_eq with ⟨fresh, _⟩ | ⟨fresh, _⟩
        · simp [fresh]
        · rw [fresh, own]
          exact fun same => h.next_unminted (Option.some.inj same ▸ known)
      -- An old token is not minted again, so only what this call does to it can change.
      rcases h.fated t known with ⟨locked, none⟩ | ⟨absent, fate, one⟩
      · cases a.fate? t <;> simp [old, locked, none]
      · simp [old, absent, one, Access.fate?_of_not_isLocked absent]
    · -- A new token has no past.
      have fresh : a.minted = some t := by simpa [known] using member
      have absent : ¬ a.storage.IsLocked t := fun locked => known (minted locked)
      simp [fresh, h.unminted t known, Access.fate?_of_not_isLocked absent]
  case unminted =>
    intro t unknown
    rw [Access.filterMap_minted_concat, List.mem_append, not_or] at unknown
    have absent : ¬ a.storage.IsLocked t := fun locked => unknown.1 (minted locked)
    simp [Access.fates_concat, h.unminted t unknown.1, Access.fate?_of_not_isLocked absent]

end Storage.Accounted

namespace Broker

theorem accounted_run (start : Timestamp) (q : QueueId) (actions : List Action) :
    (((new start).run actions).storageOf q).Accounted q ((new start).accesses q actions) :=
  (history_invariant (P := fun _ s history => s.Accounted q history)
    (.empty q) (fun _ _ _ _ _ h => h) (fun _ _ own sound h => h.after own sound) actions).2

/-- A settlement or renewal by a token that is in no lock table changes nothing at the
    messages. -/
theorem act_of_stale {b : Broker} {action : Action} {q : QueueId} {call : Call} {e : Envelope}
    (made : b.callOf action = some (q, call)) (holding : call.holding = some e)
    (stale : (b.access q call).lockOf? e = none) :
    (∀ q', (b.act action).storageOf q' = b.storageOf q') ∧ (b.act action).counters = b.counters ∧
      (b.act action).owed = b.owed := by
  rcases b.act_cases action with ⟨x, quiet⟩ | ⟨idle, _⟩
  · rw [made, commit_of_stale holding stale] at quiet
    exact ⟨quiet.storageOf, quiet.counters, quiet.owed⟩
  · simp [made] at idle

/-- A token that has left the table does not come back, since something has befallen it and
    nothing befalls it twice. -/
theorem never_returns {start : Timestamp} {q : QueueId} {actions : List Action} {t : LockToken}
    (minted : t ∈ ((new start).accesses q actions).filterMap Access.minted)
    (absent : ¬ (((new start).run actions).storageOf q).IsLocked t) (more : List Action) :
    ¬ ((((new start).run actions).run more).storageOf q).IsLocked t := by
  obtain ⟨_, fate, one⟩ := ((accounted_run start q actions).fated t minted).resolve_left
    fun locked => absent locked.1
  -- The account of the longer run has this fate in it already.
  have later := accounted_run start q (actions ++ more)
  rw [run_append, accesses_append] at later
  have still : t ∈ ((new start).accesses q actions ++
      ((new start).run actions).accesses q more).filterMap Access.minted := by
    rw [List.filterMap_append]
    exact List.mem_append_left _ minted
  intro locked
  rcases later.fated t still with ⟨_, nothing⟩ | ⟨unlocked, _⟩
  · rw [Access.fates, List.filterMap_append] at nothing
    rw [Access.fates, (List.append_eq_nil_iff.1 nothing).1] at one
    exact List.cons_ne_nil _ _ one.symm
  · exact unlocked locked

end Broker

end PeekLock
