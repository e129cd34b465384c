import PeekLock.Proofs.Queue.Fate
import PeekLock.Proofs.Time.Order
import PeekLock.Session.Run

/-! # How long a lock lasts

A lock lasts for the timeout of the receive that took it, counted from that receive or
from the last renewal that came in time.  Nothing else moves its expiration: not the
timeout that a renewal asks for, not a renewal that comes at the instant of expiration
or later, not what happens to other locks.

The non-trivial ingredient is that a renewal never shortens a lock
(`Storage.Lasting.renewable`).  It is true because the clock never goes back, and it is kept
while time passes because additions of one timeout keep the order of what one clock
shows.  With it the expiration never decreases, and so a lock that has expired once
stays as it is until somebody takes it out of the table.
-/

namespace PeekLock

/-! ## Renewals -/

namespace Storage

theorem lookup_renewed (entries : List (LockToken × Lock)) (now : Timestamp) (u t : LockToken) :
    (entries.map fun (k, l) => if k = u then (k, l.renewed now) else (k, l)).lookup t =
      (entries.lookup t).map fun l => if u = t then l.renewed now else l := by
  induction entries with
  | nil => rfl
  | cons first rest ih =>
    obtain ⟨k, l⟩ := first
    rw [List.map_cons]
    by_cases here : t = k
    · subst here
      by_cases same : t = u <;> simp [same, Ne.symm]
    · have missed : (t == k) = false := beq_false_of_ne here
      have past : ((if k = u then (k, l.renewed now) else (k, l)) ::
          rest.map fun (k, l) => if k = u then (k, l.renewed now) else (k, l)).lookup t =
            (rest.map fun (k, l) => if k = u then (k, l.renewed now) else (k, l)).lookup t := by
        split <;> simp only [List.lookup_cons, missed]
      rw [past, ih, List.lookup_cons, missed]

/-- A renewal changes one lock at most, and that one only while it lasts. -/
theorem lock?_renew (s : Storage) (now : Timestamp) (u t : LockToken) :
    ((s.renew now u).getD s).lock? t =
      if u = t then (s.lock? t).map fun l => if l.HasExpired now then l else l.renewed now
      else s.lock? t := by
  by_cases same : u = t
  · subst same
    simp only [renew, ↓reduceIte]
    cases known : s.lock? u with
    | none => simp [known]
    | some old =>
      by_cases expired : old.HasExpired now
      · simp [expired, known]
      · have entry : s.locked.lookup u = some old := known
        simp [expired, lock?, lookup_renewed, entry]
  · simp only [renew, if_neg same]
    cases s.lock? u with
    | none => rfl
    | some old =>
      dsimp only
      split
      · rfl
      · have other := lookup_renewed s.locked now u t
        simp only [if_neg same, Option.map_id'] at other
        exact other

end Storage

namespace Access

variable {a : Access} {t : LockToken} {lock : Lock}

/-- A renewal by an envelope that carries the token, before the lock has expired. -/
def renews (t : LockToken) (a : Access) : Bool :=
  match a.call with
  | .renew e =>
    Broker.ownToken? a.queue e = some t ∧ (a.storage.lock? t).any (¬ ·.HasExpired a.now)
  | _ => false

/-- The instant of the last renewal in time. -/
def lastRenewal (t : LockToken) (history : List Access) : Option Timestamp :=
  ((history.filter (renews t)).getLast?).map now

theorem lastRenewal_concat (t : LockToken) (history : List Access) (a : Access) :
    lastRenewal t (history ++ [a]) =
      if a.renews t then some a.now else lastRenewal t history := by
  simp only [lastRenewal, List.filter_append]
  cases renewal : a.renews t <;> simp [renewal]

theorem renews_iff : a.renews t = true ↔ ∃ e lock, a.call = .renew e ∧
    Broker.ownToken? a.queue e = some t ∧ a.storage.lock? t = some lock ∧
    ¬ lock.HasExpired a.now := by
  obtain ⟨q, now, s, call⟩ := a
  cases call with
  | renew e => cases found : s.lock? t <;> simp [renews, found]
  | _ => simp [renews]

/-! ## One call -/

/-- A lock after a call has just been taken by the call, or just been renewed by it, or it was
    there before and is as it was. -/
theorem lock?_after_cases (sound : a.storage.Sound a.queue) (found : a.after.lock? t = some lock) :
    (a.minted = some t ∧ a.call = .take lock.timeout ∧
      lock.expiration = a.now.after lock.timeout) ∨
    (a.renews t ∧ ∃ old, a.storage.lock? t = some old ∧ lock = old.renewed a.now) ∨
    (a.renews t = false ∧ a.storage.lock? t = some lock) := by
  have member := (sound_after sound).lock?_iff.1 found
  obtain ⟨q, now, s, call⟩ := a
  dsimp only at sound
  -- Where entries only leave the table, what is found was there before.
  have kept {b : Access} (storage : b.storage = s) (silent : b.renews t = false)
      (old : (t, lock) ∈ s.locked) : b.renews t = false ∧ b.storage.lock? t = some lock :=
    ⟨silent, storage ▸ sound.lock?_iff.2 old⟩
  cases call with
  | send e => exact .inr (.inr (kept rfl rfl member))
  | clear => exact (List.not_mem_nil member).elim
  | releaseExpired => exact .inr (.inr (kept rfl rfl (List.mem_filter.1 member).1))
  | complete e | deadLetter e =>
    refine .inr (.inr (kept rfl rfl ?_))
    simp only [after] at member
    cases own : Broker.ownToken? q e with
    | none => simpa [own] using member
    | some token =>
      rw [own] at member
      exact (List.mem_filter.1 member).1
  | abandon e =>
    refine .inr (.inr (kept rfl rfl ?_))
    simp only [after] at member
    cases own : Broker.ownToken? q e with
    | none => simpa [own] using member
    | some token =>
      simp only [own, Storage.abandon] at member
      cases known : s.lock? token with
      | none => simpa [known] using member
      | some old =>
        simp only [known] at member
        split at member <;> exact (List.mem_filter.1 member).1
  | take timeout =>
    simp only [after, Storage.lockNext] at member
    simp only [minted, delivered, Storage.lockNext]
    cases line : s.visible with
    | nil =>
      rw [line] at member
      exact .inr (.inr (kept rfl rfl member))
    | cons e rest =>
      rw [line] at member
      rcases List.mem_append.1 member with old | new
      · exact .inr (.inr (kept rfl rfl old))
      · obtain ⟨rfl, rfl⟩ := Prod.mk.inj (List.mem_singleton.1 new)
        exact .inl ⟨rfl, rfl, rfl⟩
  | renew e =>
    simp only [after] at found
    cases own : Broker.ownToken? q e with
    | none =>
      rw [own] at found
      exact .inr (.inr ⟨by simp [renews, own], found⟩)
    | some token =>
      simp only [own] at found
      rw [Storage.lock?_renew] at found
      by_cases here : token = t
      · obtain ⟨old, known, entry⟩ := Option.map_eq_some_iff.1 ((if_pos here).symm.trans found)
        by_cases expired : old.HasExpired now
        · obtain rfl : old = lock := (if_pos expired).symm.trans entry
          exact .inr (.inr ⟨by simp [renews, known, expired], known⟩)
        · obtain rfl : old.renewed now = lock := (if_neg expired).symm.trans entry
          exact .inr (.inl ⟨renews_iff.2 ⟨e, old, rfl, here ▸ own, known, expired⟩, old, known, rfl⟩)
      · rw [if_neg here] at found
        exact .inr (.inr ⟨by simp [renews, own, here], found⟩)

/-- A call takes an expired lock out of the table, and then the message is not visible again
    for having been abandoned, or it leaves the lock as it is. -/
theorem expired_after (sound : a.storage.Sound a.queue) (found : a.storage.lock? t = some lock)
    (expired : lock.HasExpired a.now) :
    (a.fate? t = none ∧ a.after.lock? t = some lock) ∨
      ∃ fate, a.fate? t = some fate ∧ fate ≠ .requeued ∧ ¬ a.after.IsLocked t := by
  have locked : a.storage.IsLocked t := Storage.isLocked_iff.2 ⟨lock, found⟩
  have old : a.minted ≠ some t := by
    rcases a.minted_eq with ⟨fresh, _⟩ | ⟨fresh, _⟩
    · simp [fresh]
    · rw [fresh]
      exact fun same => sound.next_not_isLocked _ (Option.some.inj same ▸ locked)
  cases fate : a.fate? t with
  | none =>
    have stays : a.after.IsLocked t := (isLocked_after sound).2 (.inr ⟨locked, fate⟩)
    obtain ⟨lock', found'⟩ := stays.lock?
    rcases lock?_after_cases sound found' with ⟨minted, _⟩ | ⟨renewal, _⟩ | ⟨_, known⟩
    · exact absurd minted old
    · -- it is too late to renew
      obtain ⟨_, known, _, _, found'', live⟩ := renews_iff.1 renewal
      obtain rfl := Option.some.inj (found.symm.trans found'')
      exact absurd expired live
    · exact .inl ⟨rfl, found'.trans (known.symm.trans found)⟩
  | some fate' =>
    have gone : ¬ a.after.IsLocked t := fun stays => by
      rcases (isLocked_after sound).1 stays with minted | ⟨_, none⟩
      · exact old minted
      · simp [fate] at none
    refine .inr ⟨fate', rfl, ?_, gone⟩
    rintro rfl
    obtain ⟨q, now, s, call⟩ := a
    cases call <;> simp_all [fate?]

/-- Nobody gives a message back for good by a lock that he does not hold in time. -/
theorem fate?_of_enqueued {e : Envelope} (abandons : a.call = .abandon e)
    (carries : e.reference = some t) (visible : a.enqueued ≠ []) :
    a.fate? t = some .requeued := by
  obtain ⟨q, now, s, call⟩ := a
  obtain rfl : call = .abandon e := abandons
  simp only [enqueued_abandon, lockOf?] at visible
  cases own : Broker.ownToken? q e with
  | none => simp [own] at visible
  | some token =>
    have same : token = t := by
      rw [Broker.ownToken?, carries, Option.filter_eq_some_iff] at own
      exact (Option.some.inj own.1).symm
    subst same
    cases known : s.lock? token with
    | none => simp [own, known] at visible
    | some lock =>
      by_cases expired : lock.HasExpired now
      · simp [own, known, expired] at visible
      · simp [fate?, own, known, expired]

end Access

/-! ## The law -/

/-- How long the locks in a storage last, as the accesses so far account for it. -/
structure Storage.Lasting (now : Timestamp) (s : Storage) (history : List Access) : Prop where
  past : ∀ a ∈ history, a.now ≤ now
  /-- A lock lasts from the last renewal in time, or else from the receive that took it, for the
      timeout of that receive. -/
  law : ∀ t lock, s.lock? t = some lock → ∀ mint ∈ history, mint.minted = some t →
    mint.call = .take lock.timeout ∧
      lock.expiration = ((Access.lastRenewal t history).getD mint.now).after lock.timeout
  /-- A renewal now would not shorten a lock. -/
  renewable : ∀ t lock, s.lock? t = some lock → lock.expiration ≤ now.after lock.timeout
  /-- No lock is renewed before it was taken. -/
  order : ∀ t r, Access.lastRenewal t history = some r →
    ∀ mint ∈ history, mint.minted = some t → mint.now ≤ r
  unminted : ∀ t ∉ history.filterMap Access.minted, Access.lastRenewal t history = none

namespace Storage.Lasting

variable {q : QueueId} {now : Timestamp} {s : Storage} {a : Access} {history : List Access}

theorem empty (now : Timestamp) : Storage.empty.Lasting now [] where
  past _ member := (List.not_mem_nil member).elim
  law _ _ found := by simp [lock?, Storage.empty] at found
  renewable _ _ found := by simp [lock?, Storage.empty] at found
  order _ _ renewal := by simp [Access.lastRenewal] at renewal
  unminted _ _ := rfl

theorem passes {start : Timestamp} (steady : start.IsSteady) {earlier later : Nat}
    (before : earlier ≤ later) (h : s.Lasting (start.after (.ofMillis earlier)) history) :
    s.Lasting (start.after (.ofMillis later)) history where
  past a member := Timestamp.le_trans (h.past a member) (steady earlier later before)
  law := h.law
  renewable t lock found := by
    have early := Timestamp.after_le_last (Timestamp.isSteady_iff.1 steady) (.ofMillis later)
    have order := Timestamp.leadsTo_of_clock steady before
    exact Timestamp.le_trans (h.renewable t lock found) (order.after_le_after early lock.timeout)
  order := h.order
  unminted := h.unminted

theorem after (h : a.storage.Lasting a.now history) (accounted : a.storage.Accounted q history)
    (own : a.queue = q) (sound : a.storage.Sound a.queue) :
    a.after.Lasting a.now (history ++ [a]) := by
  have past : ∀ a' ∈ history ++ [a], a'.now ≤ a.now := by
    intro a' member
    rcases List.mem_append.1 member with old | new
    · exact h.past a' old
    · obtain rfl := List.mem_singleton.1 new
      exact Timestamp.le_refl _
  -- What this call mints has not been minted before, and is not in the table yet.
  have fresh {t : LockToken} (minted : a.minted = some t) :
      t ∉ history.filterMap Access.minted ∧ ¬ a.storage.IsLocked t := by
    rcases a.minted_eq with ⟨none, _⟩ | ⟨next, _⟩
    · simp [none] at minted
    · obtain rfl := Option.some.inj (next.symm.trans minted)
      rw [own]
      exact ⟨accounted.next_unminted, sound.next_not_isLocked _⟩
  have unlocked {t : LockToken} (unknown : t ∉ history.filterMap Access.minted) :
      ¬ a.storage.IsLocked t := fun locked =>
    unknown (accounted.mem_minted.2 (own ▸ sound.owner_and_below locked))
  have locked {t : LockToken} {lock : Lock} (found : a.storage.lock? t = some lock) :
      a.storage.IsLocked t := isLocked_iff.2 ⟨lock, found⟩
  have unrenewed {t : LockToken} (absent : ¬ a.storage.IsLocked t) : a.renews t = false := by
    refine Bool.eq_false_iff.2 fun renewal => ?_
    obtain ⟨_, lock, _, _, found, _⟩ := Access.renews_iff.1 renewal
    exact absent (locked found)
  have minters {t : LockToken} {mint : Access} (member : mint ∈ history ++ [a])
      (minted : mint.minted = some t) : mint ∈ history ∨ a.minted = some t := by
    rcases List.mem_append.1 member with old | new
    · exact .inl old
    · exact .inr (List.mem_singleton.1 new ▸ minted)
  constructor
  case past => exact past
  case law =>
    intro t lock found mint member minted
    rw [Access.lastRenewal_concat]
    rcases Access.lock?_after_cases sound found with
      ⟨here, call, expiration⟩ | ⟨renewal, old, known, rfl⟩ | ⟨silent, known⟩
    · -- The receive that took the lock is this call, and no other.
      have unknown := (fresh here).1
      rcases List.mem_append.1 member with earlier | new
      · exact absurd (List.mem_filterMap.2 ⟨mint, earlier, minted⟩) unknown
      · obtain rfl := List.mem_singleton.1 new
        rw [unrenewed (fresh here).2, h.unminted t unknown]
        exact ⟨call, expiration⟩
    · rcases minters member minted with earlier | here
      · rw [renewal]
        exact ⟨(h.law t old known mint earlier minted).1, rfl⟩
      · exact absurd (locked known) (fresh here).2
    · rcases minters member minted with earlier | here
      · rw [silent]
        exact h.law t lock known mint earlier minted
      · exact absurd (locked known) (fresh here).2
  case renewable =>
    intro t lock found
    rcases Access.lock?_after_cases sound found with
      ⟨_, _, expiration⟩ | ⟨_, old, _, rfl⟩ | ⟨_, known⟩
    · rw [expiration]
      exact Timestamp.le_refl _
    · exact Timestamp.le_refl _
    · exact h.renewable t lock known
  case order =>
    intro t r renewal mint member minted
    rw [Access.lastRenewal_concat] at renewal
    cases renews : a.renews t with
    | true =>
      rw [renews] at renewal
      obtain rfl := Option.some.inj renewal
      exact past mint member
    | false =>
      rw [renews] at renewal
      rcases minters member minted with earlier | here
      · exact h.order t r renewal mint earlier minted
      · have never : Access.lastRenewal t history = some r := renewal
        rw [h.unminted t (fresh here).1] at never
        simp at never
  case unminted =>
    intro t unknown
    rw [Access.filterMap_minted_concat, List.mem_append, not_or] at unknown
    rw [Access.lastRenewal_concat, unrenewed (unlocked unknown.1)]
    exact h.unminted t unknown.1

/-- A call that leaves a lock in the table does not shorten it. -/
theorem expiration_le (h : a.storage.Lasting a.now history) (sound : a.storage.Sound a.queue)
    {t : LockToken} {lock lock' : Lock} (before : a.storage.lock? t = some lock)
    (after : a.after.lock? t = some lock') : lock.expiration ≤ lock'.expiration := by
  rcases Access.lock?_after_cases sound after with
    ⟨minted, _⟩ | ⟨_, old, known, rfl⟩ | ⟨_, known⟩
  · have locked : a.storage.IsLocked t := isLocked_iff.2 ⟨lock, before⟩
    rcases a.minted_eq with ⟨none, _⟩ | ⟨next, _⟩
    · simp [none] at minted
    · obtain rfl := Option.some.inj (next.symm.trans minted)
      exact absurd locked (sound.next_not_isLocked _)
  · obtain rfl := Option.some.inj (before.symm.trans known)
    exact h.renewable t lock before
  · obtain rfl := Option.some.inj (before.symm.trans known)
    exact Timestamp.le_refl _

end Storage.Lasting

namespace Broker

/-! ## All calls -/

theorem now_le_run (b : Broker) (actions : List Action) : b.now ≤ (b.run actions).now := by
  induction actions generalizing b with
  | nil => exact Nat.le_refl _
  | cons action rest ih => exact Nat.le_trans (b.now_le_act action) (ih _)

theorem time_le_run {start : Timestamp} (steady : start.IsSteady) (actions more : List Action) :
    ((new start).run actions).time ≤ (((new start).run actions).run more).time := by
  have forward := ((new start).run actions).now_le_run more
  have clock : (new start).start = start := rfl
  simp only [time, start_run, clock]
  exact steady _ _ forward

theorem lasting_run {start : Timestamp} (steady : start.IsSteady) (q : QueueId)
    (actions : List Action) :
    (((new start).run actions).storageOf q).Lasting ((new start).run actions).time
      ((new start).accesses q actions) :=
  (history_invariant (P := fun now s history => s.Accounted q history ∧ s.Lasting now history)
    ⟨.empty q, .empty _⟩ (fun _ _ _ _ before h => ⟨h.1, h.2.passes steady before⟩)
    (fun _ _ own sound h => ⟨h.1.after own sound, h.2.after h.1 own sound⟩) actions).2.2

section

variable {start : Timestamp} {q : QueueId} {actions : List Action} {t : LockToken} {lock : Lock}

theorem minted_of_found (found : (((new start).run actions).storageOf q).lock? t = some lock) :
    t ∈ ((new start).accesses q actions).filterMap Access.minted :=
  (accounted_run start q actions).mem_minted.2
    ((sound_run start q actions).owner_and_below (Storage.isLocked_iff.2 ⟨lock, found⟩))

/-- A lock that was in the table once and has left it is not there after the next action. -/
theorem absent_act (found : (((new start).run actions).storageOf q).lock? t = some lock)
    (front : List Action)
    (absent : ¬ ((((new start).run actions).run front).storageOf q).IsLocked t) (action : Action) :
    ¬ (((((new start).run actions).run front).act action).storageOf q).IsLocked t := by
  rw [← run_append] at absent ⊢
  refine never_returns ?_ absent [action]
  rw [accesses_append, List.filterMap_append]
  exact List.mem_append_left _ (minted_of_found found)

/-- The expiration of a lock never decreases. -/
theorem expiration_le_run (steady : start.IsSteady)
    (found : (((new start).run actions).storageOf q).lock? t = some lock) (more : List Action)
    {lock' : Lock}
    (found' : ((((new start).run actions).run more).storageOf q).lock? t = some lock') :
    lock.expiration ≤ lock'.expiration := by
  induction more using List.reverseRecOn generalizing lock' with
  | nil =>
    obtain rfl := Option.some.inj (found.symm.trans found')
    exact Timestamp.le_refl _
  | append_singleton front action ih =>
    rw [run_append, run_cons, run_nil] at found'
    -- Since no token returns, the lock was in the table before the last action too.
    have between : ((((new start).run actions).run front).storageOf q).IsLocked t :=
      by_contra fun absent =>
        absent_act found front absent action (Storage.isLocked_iff.2 ⟨lock', found'⟩)
    obtain ⟨middle, known⟩ := between.lock?
    refine Timestamp.le_trans (ih known) ?_
    rw [← run_append] at found' known
    rw [storageOf_act] at found'
    cases made : ((new start).run (actions ++ front)).access? q action with
    | none =>
      rw [made] at found'
      obtain rfl := Option.some.inj (known.symm.trans found')
      exact Timestamp.le_refl _
    | some a =>
      rw [made] at found'
      obtain ⟨call, _, rfl⟩ := accessAt_eq_some made
      exact (lasting_run steady q (actions ++ front)).expiration_le
        (a := ((new start).run (actions ++ front)).access q call)
        (sound_run start q (actions ++ front)) known found'

/-- A lock that has expired stays as it is until a call takes it out of the table, and no
    abandoning then makes its message visible. -/
theorem expired_run (steady : start.IsSteady)
    (found : (((new start).run actions).storageOf q).lock? t = some lock)
    (expired : lock.HasExpired ((new start).run actions).time) (more : List Action) :
    (((((new start).run actions).run more).storageOf q).lock? t = some lock ∧
        Access.fates t (((new start).run actions).accesses q more) = []) ∨
      (¬ ((((new start).run actions).run more).storageOf q).IsLocked t ∧
        ∃ fate, fate ≠ .requeued ∧
          Access.fates t (((new start).run actions).accesses q more) = [fate]) := by
  induction more using List.reverseRecOn with
  | nil => exact .inl ⟨found, rfl⟩
  | append_singleton front action ih =>
    have late := time_le_run steady actions front
    rw [accesses_append, run_append, run_cons, run_nil]
    simp only [accesses, List.append_nil]
    have sound := sound_run start q (actions ++ front)
    have gone_act (absent) := absent_act found front absent action
    rw [run_append] at sound
    rw [storageOf_act] at gone_act ⊢
    generalize ((new start).run actions).run front = b at ih late sound gone_act
    cases made : b.access? q action with
    | none =>
      simp only [Option.toList_none, List.append_nil]
      exact ih
    | some a =>
      obtain ⟨call, _, rfl⟩ := accessAt_eq_some made
      simp only [Option.toList_some]
      rw [Access.fates_concat]
      rcases ih with ⟨known, nothing⟩ | ⟨gone, fate, other, one⟩
      · have still : lock.HasExpired b.time := Timestamp.le_trans expired late
        rcases Access.expired_after (a := b.access q call) sound known still with
          ⟨spared, same⟩ | ⟨fate, befell, other, gone⟩
        · exact .inl ⟨same, by rw [nothing, spared]; rfl⟩
        · exact .inr ⟨gone, fate, other, by rw [nothing, befell]; rfl⟩
      · -- What has left the table does not come back, and nothing befalls it any more.
        have spared := Access.fate?_of_not_isLocked (a := b.access q call) gone
        rw [made] at gone_act
        exact .inr ⟨gone_act gone, fate, other, by rw [one, spared]; rfl⟩

end

/-! ## Renewals that come too late -/

theorem callOfTask_renew {b : Broker} {id : TaskId} {q : QueueId} {e : Envelope}
    (renewing : b.callOfTask id = some (q, .renew e)) :
    ∃ l rest, b.task? id = some (.listen l) ∧ l.queue = q ∧ l.stage = .handling e (.renew :: rest) := by
  simp only [callOfTask] at renewing
  cases found : b.task? id with
  | none => simp [found] at renewing
  | some task =>
    cases task with
    | receive r => cases stage : r.stage <;> simp [found, Receive.call?, stage] at renewing
    | listen l =>
      cases stage : l.stage with
      | handling e' plan =>
        cases plan with
        | nil => simp [found, Loop.call?, stage] at renewing
        | cons command rest =>
          cases command <;> simp [found, Loop.call?, stage, Command.call?] at renewing
          obtain ⟨here, rfl⟩ := renewing
          exact ⟨l, rest, rfl, here, stage⟩
      | _ => simp [found, Loop.call?, stage] at renewing

/-- A renewal by a token whose lock has expired or is gone changes nothing at any queue,
    whoever asks for it. -/
theorem act_of_late_renewal {b : Broker} {action : Action} {q : QueueId} {e : Envelope}
    (made : b.callOf action = some (q, .renew e))
    (late : ∀ token, ownToken? q e = some token →
      ∀ lock, (b.storageOf q).lock? token = some lock → lock.HasExpired b.time) :
    (b.act action).queues = b.queues ∧ (b.act action).counters = b.counters ∧
      (b.act action).owed = b.owed := by
  have idle (b' : Broker) (storage : b'.storageOf q = b.storageOf q) (time : b'.time = b.time) :
      (b'.renew q e).queues = b'.queues ∧ (b'.renew q e).counters = b'.counters ∧
        (b'.renew q e).owed = b'.owed := by
    simp only [renew]
    cases own : ownToken? q e with
    | none => exact ⟨rfl, rfl, rfl⟩
    | some token =>
      have refused : (b'.storageOf q).renew b'.time token = none := by
        rw [storage, time, Storage.renew]
        cases found : (b.storageOf q).lock? token with
        | none => rfl
        | some lock => exact if_pos (late token own lock found)
      simp only [refused]
      exact ⟨rfl, rfl, rfl⟩
  cases action with
  | ask q' request =>
    simp only [callOf, Option.ite_none_right_eq_some] at made
    obtain ⟨inside, made⟩ := made
    simp only [act, inside, ↓reduceIte]
    cases request <;> simp only [Request.call?, Option.map_some, Option.map_none, reduceCtorEq,
      Option.some.injEq, Prod.mk.injEq, Call.renew.injEq, and_false] at made
    obtain ⟨rfl, rfl⟩ := made
    exact idle b rfl rfl
  | turn id =>
    -- The receiver of a loop asks for it.
    obtain ⟨l, rest, there, rfl, stage⟩ := callOfTask_renew made
    have there' : ({ b with ready := b.ready.erase id } : Broker).task? id = some (.listen l) := there
    have same := idle { b with ready := b.ready.erase id } rfl rfl
    simp only [act, turn, stepTask, there', stepLoop, stage, perform]
    split <;> exact same
  | _ => simp [callOf] at made

/-! ## The lifetime of a lock -/

end Broker

end PeekLock
