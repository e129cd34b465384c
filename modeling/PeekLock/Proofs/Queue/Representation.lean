import PeekLock.Proofs.Queue.Delivery
import PeekLock.Proofs.Queue.Fate
import PeekLock.Proofs.Time.Order

/-! # The times in a storage

Visible messages stand in the order of their times, none of which lies ahead, and no
lock expires before the message under it was handed out.  Both need a clock that
never goes back, and the second one needs more than that: a renewal starts from the
time of the renewal, which is not before the delivery because all accesses so far
lie in the past.  With the order of the lock table and the numbering of tokens this
makes up the whole representation of a queue (`representation_in_order`).
-/

namespace PeekLock

namespace Access

variable {a : Access}

/-! ## What one call leaves -/

theorem sentTime_of_mem_enqueued {e : Envelope} (member : e ∈ a.enqueued) :
    e.sentTime = some a.now := by
  obtain ⟨q, now, s, call⟩ := a
  cases call with
  | send e' =>
    obtain rfl := List.mem_singleton.1 member
    rfl
  | abandon e' =>
    have stamped : e ∈ [Storage.stamp now e'] := by
      simp only [enqueued] at member
      split at member
      · split at member
        · exact (List.not_mem_nil member).elim
        · exact member
      · exact (List.not_mem_nil member).elim
    obtain rfl := List.mem_singleton.1 stamped
    rfl
  | releaseExpired =>
    obtain ⟨p, _, rfl⟩ := List.mem_map.1 member
    rfl
  | take _ | complete _ | deadLetter _ | renew _ | clear => exact (List.not_mem_nil member).elim

/-- A lock after a call was there before, or it was taken by the call, or it was there
    before and has been renewed by the call. -/
theorem mem_locked_after {p : LockToken × Lock} (member : p ∈ a.after.locked) :
    p ∈ a.storage.locked ∨
      (a.minted = some p.1 ∧ p.2.expiration = a.now.after p.2.timeout) ∨
      ∃ lock, (p.1, lock) ∈ a.storage.locked ∧ p.2 = lock.renewed a.now := by
  obtain ⟨q, now, s, call⟩ := a
  cases call with
  | send _ => exact .inl member
  | clear => exact (List.not_mem_nil member).elim
  | releaseExpired => exact .inl (List.mem_filter.1 member).1
  | take timeout =>
    simp only [after, Storage.lockNext] at member
    simp only [minted, delivered, Storage.lockNext]
    cases line : s.visible with
    | nil =>
      rw [line] at member
      exact .inl member
    | cons e rest =>
      rw [line] at member
      rcases List.mem_append.1 member with old | new
      · exact .inl old
      · obtain rfl := List.mem_singleton.1 new
        exact .inr (.inl ⟨rfl, rfl⟩)
  | complete e | deadLetter e =>
    simp only [after] at member
    cases own : Broker.ownToken? q e with
    | none =>
      rw [own] at member
      exact .inl member
    | some token =>
      rw [own] at member
      exact .inl (List.mem_filter.1 member).1
  | abandon e =>
    simp only [after, Storage.abandon] at member
    split at member
    · split at member
      · exact .inl member
      · split at member <;> exact .inl (List.mem_filter.1 member).1
    · exact .inl member
  | renew e =>
    simp only [after] at member
    cases own : Broker.ownToken? q e with
    | none =>
      rw [own] at member
      exact .inl member
    | some token =>
      simp only [own, Storage.renew] at member
      split at member
      · exact .inl member
      · split at member
        · exact .inl member
        · obtain ⟨old, oldMember, rfl⟩ := List.mem_map.1 member
          by_cases this : old.1 = token
          · rw [if_pos this]
            exact .inr (.inr ⟨old.2, oldMember, rfl⟩)
          · rw [if_neg this]
            exact .inl oldMember

end Access

/-! ## The times -/

/-- The times in a storage fit those of the accesses so far. -/
structure Storage.Timely (now : Timestamp) (s : Storage) (history : List Access) : Prop where
  /-- All accesses so far lie in the past. -/
  past : ∀ a ∈ history, a.now ≤ now
  /-- So does the time of all that is visible. -/
  sent : ∀ e ∈ s.visible, ∀ t ∈ e.sentTime, t ≤ now
  ascending : s.visible.Pairwise fun e f => ∀ t ∈ e.sentTime, ∀ u ∈ f.sentTime, t ≤ u
  /-- No lock expires before its message was handed out. -/
  expiry : ∀ p ∈ s.locked, ∀ a ∈ history, a.minted = some p.1 → a.now ≤ p.2.expiration

namespace Storage.Timely

variable {now later : Timestamp} {s : Storage} {a : Access} {history : List Access}

theorem empty (now : Timestamp) : Storage.empty.Timely now [] where
  past _ member := (List.not_mem_nil member).elim
  sent _ member := (List.not_mem_nil member).elim
  ascending := .nil
  expiry _ member := (List.not_mem_nil member).elim

theorem passes (h : s.Timely now history) (le : now ≤ later) : s.Timely later history where
  past a member := Timestamp.le_trans (h.past a member) le
  sent e member t time := Timestamp.le_trans (h.sent e member t time) le
  ascending := h.ascending
  expiry := h.expiry

theorem after (h : a.storage.Timely a.now history) (sound : a.storage.Sound a.queue)
    (early : a.now ≤ .last) : a.after.Timely a.now (history ++ [a]) := by
  have line := a.visible_after_sublist sound
  have past : ∀ a' ∈ history ++ [a], a'.now ≤ a.now := by
    intro a' member
    rcases List.mem_append.1 member with old | new
    · exact h.past a' old
    · obtain rfl := List.mem_singleton.1 new
      exact Timestamp.le_refl _
  constructor
  case past => exact past
  case sent =>
    intro e member t time
    rcases List.mem_append.1 (line.subset member) with old | new
    · exact h.sent e old t time
    · rw [Access.sentTime_of_mem_enqueued new] at time
      obtain rfl := Option.some.inj time
      exact Timestamp.le_refl _
  case ascending =>
    refine .sublist line (List.pairwise_append.2 ⟨h.ascending, ?_, ?_⟩)
    · refine List.pairwise_of_forall_mem_list fun e he f hf t ht u hu => ?_
      rw [Access.sentTime_of_mem_enqueued he] at ht
      rw [Access.sentTime_of_mem_enqueued hf] at hu
      rw [← Option.some.inj ht, ← Option.some.inj hu]
      exact Timestamp.le_refl _
    · intro e he f hf t ht u hu
      rw [Access.sentTime_of_mem_enqueued hf] at hu
      rw [← Option.some.inj hu]
      exact h.sent e he t ht
  case expiry =>
    intro p member a' known minted
    -- Whatever lock is fresh or renewed lasts beyond now, and so beyond all accesses.
    have lasts {d : Duration} (expiration : p.2.expiration = a.now.after d) :
        a'.now ≤ p.2.expiration := by
      rw [expiration]
      exact Timestamp.le_trans (past a' known) (Timestamp.le_after early d)
    rcases Access.mem_locked_after member with old | ⟨_, fresh⟩ | ⟨lock, _, renewed⟩
    · rcases List.mem_append.1 known with before | new
      · exact h.expiry p old a' before minted
      · obtain rfl := List.mem_singleton.1 new
        have below := sound.locked_below p old
        rcases a'.minted_eq with ⟨none, _⟩ | ⟨next, _⟩
        · simp [none] at minted
        · obtain same := Option.some.inj (next.symm.trans minted)
          rw [← same] at below
          exact absurd below (Nat.lt_irrefl _)
    · exact lasts fresh
    · exact lasts (congrArg Lock.expiration renewed)

end Storage.Timely

namespace Broker

/-- While the clock never goes back, the times of every reachable state are in order. -/
theorem timely_run {start : Timestamp} (steady : start.IsSteady) (q : QueueId)
    (actions : List Action) :
    (((new start).run actions).storageOf q).Timely ((new start).run actions).time
      ((new start).accesses q actions) := by
  have early (moment : Nat) : start.after (.ofMillis moment) ≤ .last :=
    Timestamp.after_le_last (Timestamp.isSteady_iff.1 steady) _
  have all := (history_invariant (q := q)
    (P := fun now s history => now ≤ .last ∧ s.Timely now history)
    ⟨early 0, .empty _⟩
    (fun earlier later s history before h =>
      ⟨early later, h.2.passes (steady earlier later before)⟩)
    (fun a history _ sound h => ⟨h.1, h.2.after sound h.1⟩)
    actions).2
  exact all.2

/-- The representation of a queue's messages in every reachable state: the line, the times
    along it, the lock table, and the number of the next token, which is the number of
    messages handed out since the queue was made. -/
theorem representation_in_order {start : Timestamp} (steady : start.IsSteady) (q : QueueId)
    (actions : List Action) :
    let b := (new start).run actions
    let s := b.storageOf q
    let history := (new start).accesses q actions
    (∀ e ∈ s.visible, e.reference = none ∧ ∃ t, e.sentTime = some t ∧ t ≤ b.time) ∧
    (s.visible.Pairwise fun e f => ∀ t ∈ e.sentTime, ∀ u ∈ f.sentTime, t ≤ u) ∧
    (∀ p ∈ s.locked, p.1.owner = ownerOf q ∧ p.1.sequence < s.nextSequence ∧
      p.2.message.reference = some p.1 ∧ p.2.message.sentTime.isSome ∧
      (∃ a ∈ history, a.minted = some p.1) ∧
      ∀ a ∈ history, a.minted = some p.1 → a.now ≤ p.2.expiration) ∧
    s.nextSequence = (history.filterMap Access.delivered).length := by
  have accounted := accounted_run start q actions
  have sound := sound_run start q actions
  have timely := timely_run steady q actions
  refine ⟨fun e member => ⟨sound.visible_unlocked e member, ?_⟩, timely.ascending,
    fun p member => ?_, ?_⟩
  · obtain ⟨t, time⟩ := Option.isSome_iff_exists.1 (sound.visible_sent e member)
    exact ⟨t, time, timely.sent e member t time⟩
  · have under := sound.locked_under p member
    have below := sound.locked_below p member
    have known := List.mem_filterMap.1 (accounted.mem_minted.2 ⟨under.owner, below⟩)
    exact ⟨under.owner, below, under.reference, under.sent, known, timely.expiry p member⟩
  · rw [← Access.length_filterMap_minted, accounted.numbered, List.length_map, List.length_range]

theorem representation_in_order_delivered :
    let actions : List Action := [.newQueue ⟨"jobs"⟩ none, .ask 0 (.send "" .empty),
      .ask 0 (.receive "" (.ofMillis 1000)), .turn 0, .turn 0]
    let s := ((new .epoch).run actions).storageOf 0
    Timestamp.IsSteady .epoch ∧ s.locked ≠ [] ∧
      s.nextSequence = (((new .epoch).accesses 0 actions).filterMap Access.delivered).length :=
  have steady := Timestamp.isSteady_iff.2 (by decide)
  ⟨steady, by decide, (representation_in_order steady 0 _).2.2.2⟩

end Broker

end PeekLock
