import PeekLock.Proofs.Broker.Books
import PeekLock.Proofs.Queue.Lifetime

/-! # Sweeping up expired locks

A sweep splits the lock table at the clock: entries that have expired leave it, and
their messages go behind the visible ones in the order of their tokens, each as it was
handed out.  The table is an unordered one, so nothing but the tokens may decide
about that order (`Storage.Sound.sweep_perm`).  What is left has not expired, and so a
second sweep at the same instant finds only locks that were taken since for no time at
all.  The ingredient that is not obvious is that a renewal in between does not turn a
lock into such a one: on a clock that never goes back no renewal shortens a lock.
-/

namespace PeekLock

namespace LockToken

theorem le_iff {a b : LockToken} :
    a.le b ↔ a.owner < b.owner ∨ (a.owner = b.owner ∧ a.sequence ≤ b.sequence) := by
  rcases Nat.lt_trichotomy a.owner b.owner with below | same | above
  · simp [le, compare, Nat.compare_eq_lt.2 below, below]
  · simp only [le, compare, same, Nat.compare_eq_eq.2 rfl, Nat.lt_irrefl, true_and, false_or,
      decide_eq_true_eq]
    exact Nat.compare_ne_gt
  · simp [le, compare, Nat.compare_eq_gt.2 above, Nat.lt_asymm above, Nat.ne_of_gt above]

theorem eq_of_le {a b : LockToken} (first : a.le b) (second : b.le a) : a = b := by
  obtain ⟨owner, sequence⟩ := a
  obtain ⟨owner', sequence'⟩ := b
  rw [le_iff] at first second
  dsimp only at first second
  rw [LockToken.mk.injEq]
  omega

end LockToken

/-! ## One sweep -/

namespace Storage

/-- What a sweep at an instant makes of a storage, by the entries that it takes up. -/
structure SweptTo (now : Timestamp) (s s' : Storage) (swept : List (LockToken × Lock)) : Prop where
  /-- The instant of expiry counts as expired. -/
  mem_swept_iff : ∀ entry, entry ∈ swept ↔ entry ∈ s.locked ∧ entry.2.expiration ≤ now
  ascending : swept.Pairwise fun x y => x.1.owner = y.1.owner ∧ x.1.sequence < y.1.sequence
  locked_eq : s'.locked = s.locked.filter fun entry => ¬ entry.2.expiration ≤ now
  visible_eq : s'.visible = s.visible ++ swept.map fun entry =>
    { entry.2.message with sentTime := some now, reference := none }
  nextSequence_eq : s'.nextSequence = s.nextSequence

namespace Sound

variable {q : QueueId} {s : Storage}

theorem sweptTo (h : s.Sound q) (now : Timestamp) :
    s.SweptTo now (s.sweep now).2 (s.expired now) where
  mem_swept_iff entry := by
    rw [h.expired_eq_filter, List.mem_filter, decide_eq_true_eq]
    rfl
  ascending := by
    rw [h.expired_eq_filter]
    have owners := List.pairwise_of_forall_mem_list fun a ha b hb =>
      (h.locked_under a ha).owner.trans (h.locked_under b hb).owner.symm
    exact (owners.and h.ascending).filter _
  locked_eq := rfl
  visible_eq := rfl
  nextSequence_eq := rfl

/-- In which order the table is gone through makes no difference to which entries are swept and
    in which order. -/
theorem expired_perm (h : s.Sound q) {table : List (LockToken × Lock)} (perm : table.Perm s.locked)
    (now : Timestamp) : ({ s with locked := table }).expired now = s.expired now := by
  have transitive (x y z : LockToken × Lock) (first : x.1.le y.1) (second : y.1.le z.1) :
      x.1.le z.1 := by
    rw [LockToken.le_iff] at *
    omega
  have total (x y : LockToken × Lock) : (x.1.le y.1 || y.1.le x.1) = true := by
    rw [Bool.or_eq_true, LockToken.le_iff, LockToken.le_iff]
    omega
  have sameEntries : (({ s with locked := table }).expired now).Perm (s.expired now) :=
    (List.mergeSort_perm ..).trans ((perm.filter _).trans (List.mergeSort_perm ..).symm)
  refine List.Perm.eq_of_pairwise (fun x y inTable inStorage first second => ?_)
    (List.pairwise_mergeSort transitive total _) (List.pairwise_mergeSort transitive total _)
    sameEntries
  -- A token stands in the table once, and so leads to one entry.
  have member := (h.sweptTo now).mem_swept_iff
  have here := h.lock?_iff.2 ((member x).1 (sameEntries.mem_iff.1 inTable)).1
  have there := h.lock?_iff.2 ((member y).1 inStorage).1
  have token := LockToken.eq_of_le first second
  rw [token, there] at here
  exact Prod.ext token (Option.some.inj here).symm

/-- A sweep of the same entries in another order comes to the same, but for the order of what
    stays locked. -/
theorem sweep_perm (h : s.Sound q) {table : List (LockToken × Lock)} (perm : table.Perm s.locked)
    (now : Timestamp) :
    (({ s with locked := table }).sweep now).1 = (s.sweep now).1 ∧
      (({ s with locked := table }).sweep now).2.visible = (s.sweep now).2.visible ∧
      (({ s with locked := table }).sweep now).2.locked.Perm (s.sweep now).2.locked := by
  simp only [Storage.sweep, h.expired_perm perm now, true_and]
  exact perm.filter _

end Sound

theorem sweep_of_none_expired {s : Storage} {now : Timestamp}
    (none : ∀ entry ∈ s.locked, ¬ entry.2.HasExpired now) : s.sweep now = ([], s) := by
  have swept : s.expired now = [] := by
    rw [expired, List.filter_eq_nil_iff.2 fun entry member => by simpa using none entry member]
    exact List.mergeSort_nil
  rw [sweep, swept, List.filter_eq_self.2 fun entry member => by simpa using none entry member,
    List.map_nil, List.append_nil]

end Storage

/-! ## As they were handed out -/

/-- The messages in the lock table, in its order. -/
def Storage.held (s : Storage) : List Envelope :=
  s.locked.map fun entry => entry.2.message

theorem Storage.held_sublist {entries : List (LockToken × Lock)} {s : Storage}
    (fewer : entries.Sublist s.locked) :
    (entries.map fun entry => entry.2.message).Sublist s.held :=
  fewer.map _

/-- Renewing puts another expiration in the place of the old one, and keeps the message. -/
theorem Storage.held_renew {s s' : Storage} {now : Timestamp} {token : LockToken}
    (renews : s.renew now token = some s') : s'.held = s.held := by
  cases found : s.lock? token with
  | none => simp [renew, found] at renews
  | some lock =>
    by_cases expired : lock.HasExpired now
    · simp [renew, found, expired] at renews
    · simp only [renew, found, expired, ↓reduceIte, Option.some.injEq] at renews
      rw [← renews, held, held, List.map_map]
      refine List.map_congr_left fun entry _ => ?_
      by_cases same : entry.1 = token <;> simp [same, Lock.renewed]

/-- A call puts no message in the lock table but the one that it hands out, behind all others,
    and changes none that is there. -/
theorem Access.held_after_sublist (a : Access) :
    a.after.held.Sublist (a.storage.held ++ a.delivered.toList) := by
  obtain ⟨q, now, s, call⟩ := a
  have fewer {s' : Storage} {handed : List Envelope} (less : s'.locked.Sublist s.locked) :
      s'.held.Sublist (s.held ++ handed) :=
    (Storage.held_sublist less).trans (List.sublist_append_left ..)
  cases call with
  | send e => exact fewer (.refl _)
  | take timeout =>
    simp only [after, delivered, Storage.lockNext]
    cases s.visible with
    | nil => exact fewer (.refl _)
    | cons e rest =>
      simp only [Storage.held, List.map_append, List.map_cons, List.map_nil, Option.map_some,
        Option.toList_some]
      exact .refl _
  | complete e | deadLetter e =>
    simp only [after]
    cases Broker.ownToken? q e with
    | none => exact fewer (.refl _)
    | some token => exact fewer List.filter_sublist
  | abandon e =>
    simp only [after]
    cases Broker.ownToken? q e with
    | none => exact fewer (.refl _)
    | some token =>
      simp only [Storage.abandon]
      cases s.lock? token with
      | none => exact fewer (.refl _)
      | some lock =>
        dsimp only
        split <;> exact fewer List.filter_sublist
  | renew e =>
    simp only [after]
    cases Broker.ownToken? q e with
    | none => exact fewer (.refl _)
    | some token =>
      cases renews : s.renew now token with
      | none =>
        simp only [renews, Option.getD_none]
        exact fewer (.refl _)
      | some s' =>
        simp only [renews, Option.getD_some, Storage.held_renew renews]
        exact List.sublist_append_left ..
  | releaseExpired => exact fewer List.filter_sublist
  | clear => exact fewer (List.nil_sublist _)

namespace Broker

/-- The messages in the lock table are as they were handed out, and in the order in which they
    were, whatever their holders do to them. -/
theorem held_sublist_delivered (start : Timestamp) (q : QueueId) (actions : List Action) :
    (((new start).run actions).storageOf q).held.Sublist
      (((new start).accesses q actions).filterMap Access.delivered) :=
  (history_invariant (P := fun _ s history => s.held.Sublist (history.filterMap Access.delivered))
    (.refl _) (fun _ _ _ _ _ h => h)
    (fun a history _ _ h => by
      have one : [a].filterMap Access.delivered = a.delivered.toList := by
        cases given : a.delivered <;> simp [given]
      rw [List.filterMap_append, one]
      exact a.held_after_sublist.trans (h.append_right _)) actions).2

end Broker

/-! ## What is left -/

/-- A lock that was taken at this very instant, and has at most been renewed since, lasts from
    now on. -/
theorem Storage.Lasting.expiration_of_now {now : Timestamp} {s : Storage} {history : List Access}
    (h : s.Lasting now history) {t : LockToken} {lock : Lock} (found : s.lock? t = some lock)
    {mint : Access} (member : mint ∈ history) (minted : mint.minted = some t)
    (here : mint.now = now) :
    mint.call = .take lock.timeout ∧ lock.expiration = now.after lock.timeout := by
  obtain ⟨call, expiration⟩ := h.law t lock found mint member minted
  refine ⟨call, ?_⟩
  cases renewal : Access.lastRenewal t history with
  | none =>
    rw [renewal, here] at expiration
    exact expiration
  | some r =>
    obtain ⟨renewing, last, rfl⟩ := Option.map_eq_some_iff.1 renewal
    -- Since the receive and until now the clock has stood still.
    have late := h.order t _ renewal mint member minted
    have early := h.past renewing (List.mem_filter.1 (List.mem_of_getLast? last)).1
    rw [here] at late
    rw [renewal, Option.getD_some, Timestamp.le_antisymm early late] at expiration
    exact expiration

namespace Broker

/-- Calls are made while the clock is between its first and its last time. -/
theorem time_le_of_mem_accesses {start : Timestamp} (steady : start.IsSteady) {q : QueueId}
    {actions more : List Action} {a : Access}
    (member : a ∈ ((new start).run actions).accesses q more) :
    ((new start).run actions).time ≤ a.now := by
  induction more generalizing actions with
  | nil => exact (List.not_mem_nil member).elim
  | cons action rest ih =>
    rcases List.mem_append.1 member with here | later
    · obtain ⟨_, _, rfl⟩ := accessAt_eq_some (Option.mem_toList.1 here)
      exact Timestamp.le_refl _
    · have forward := time_le_run steady actions [action]
      rw [← run_append] at forward
      have next : ((new start).run actions).act action = (new start).run (actions ++ [action]) := by
        rw [run_append, run_cons, run_nil]
      exact Timestamp.le_trans forward (ih (next ▸ later))

/-- A lock that has expired, though none had at the same instant before, was taken since, for no
    time at all. -/
theorem expired_taken_since {start : Timestamp} (steady : start.IsSteady) {q : QueueId}
    {actions more : List Action} {t : LockToken} {lock : Lock}
    (none : ∀ entry ∈ (((new start).run actions).storageOf q).locked,
      ¬ entry.2.HasExpired ((new start).run actions).time)
    (same : (((new start).run actions).run more).time = ((new start).run actions).time)
    (found : ((((new start).run actions).run more).storageOf q).lock? t = some lock)
    (expired : lock.HasExpired ((new start).run actions).time) :
    ∃ a ∈ ((new start).run actions).accesses q more, a.minted = some t ∧
      a.call = .take lock.timeout ∧
      ((new start).run actions).time.after lock.timeout ≤ ((new start).run actions).time := by
  have old : t ∉ ((new start).accesses q actions).filterMap Access.minted := by
    intro minted
    -- A lock of before has not been shortened.
    have known : (((new start).run actions).storageOf q).IsLocked t :=
      by_contra fun absent =>
        never_returns minted absent more (Storage.isLocked_iff.2 ⟨lock, found⟩)
    obtain ⟨first, there⟩ := known.lock?
    exact none (t, first) (Storage.mem_of_lock?_eq_some there)
      (Timestamp.le_trans (expiration_le_run steady there more found) expired)
  rw [← run_append] at found same
  have lasting := lasting_run steady q (actions ++ more)
  have minted := minted_of_found found
  rw [accesses_append] at lasting minted
  rw [List.filterMap_append, List.mem_append] at minted
  obtain ⟨a, member, here⟩ := List.mem_filterMap.1 (minted.resolve_left old)
  have inRun := List.mem_append_right ((new start).accesses q actions) member
  have now_eq : a.now = ((new start).run (actions ++ more)).time :=
    Timestamp.le_antisymm (lasting.past a inRun) (same ▸ time_le_of_mem_accesses steady member)
  obtain ⟨call, expiration⟩ := lasting.expiration_of_now found inRun here now_eq
  rw [same] at expiration
  exact ⟨a, member, here, call, expiration ▸ expired⟩

/-! ## Asking for a sweep -/

section

variable {b : Broker} {q : QueueId}

/-- Where no lock has expired a sweep leaves nothing but a notice. -/
theorem releaseExpired_of_none_expired
    (none : ∀ entry ∈ (b.storageOf q).locked, ¬ entry.2.HasExpired b.time) (c : String) :
    b.releaseExpired q c = (0, b.note (.released q c [])) := by
  simp only [releaseExpired, Storage.sweep_of_none_expired none, setStorage_storageOf,
    List.isEmpty_nil, ↓reduceIte, List.length_nil]

theorem callOf_ask_releaseExpired (inside : q < b.queues.length) (c : String) :
    b.callOf (.ask q (.releaseExpired c)) = some (q, .releaseExpired) := by
  simp only [callOf, inside, ↓reduceIte, Request.call?, Option.map_some]

theorem storageOf_act_releaseExpired (inside : q < b.queues.length) (c : String) :
    (b.act (.ask q (.releaseExpired c))).storageOf q = ((b.storageOf q).sweep b.time).2 := by
  rw [storageOf_act, access?, callOf_ask_releaseExpired inside, accessAt, if_pos ⟨rfl, inside⟩]
  rfl

theorem time_act_releaseExpired (inside : q < b.queues.length) (c : String) :
    (b.act (.ask q (.releaseExpired c))).time = b.time := by
  simp only [act, inside, ↓reduceIte, ask, releaseExpired]
  split <;> rfl

/-- What a sweep makes visible is owed in one announcement. -/
theorem owed_act_releaseExpired (inside : q < b.queues.length) (c : String) :
    (b.act (.ask q (.releaseExpired c))).owed =
      b.owed ++ if (b.releaseExpired q c).1 = 0 then [] else [⟨q, (b.releaseExpired q c).1⟩] := by
  have silent : ∀ i, Action.ask q (.releaseExpired c) ≠ .announce i := nofun
  have owed := (b.owed_act silent).1
  have length : (b.access q .releaseExpired).enqueued.length = (b.releaseExpired q c).1 :=
    (List.length_map _).trans (releaseExpired_fst b q c).symm
  rw [callOf_ask_releaseExpired inside] at owed
  rw [owed, ← length]
  simp only [commit, List.length_eq_zero_iff]

/-- Where a queue counts what has been sent, the announcement after a sweep adds what the sweep
    has answered, up to the limit of the total, and nothing is added anywhere else. -/
theorem totalAt_announce_releaseExpired (inside : q < b.queues.length) (c : String)
    (p : Nat × String) :
    ((b.act (.ask q (.releaseExpired c))).announce b.owed.length).totalAt p =
      if b.place? q .sent = some p ∧ p.1 < b.counters.length ∧ 0 < (b.releaseExpired q c).1 then
        min (b.totalAt p + (b.releaseExpired q c).1) Counters.limit
      else b.totalAt p := by
  generalize swept : b.act (.ask q (.releaseExpired c)) = b'
  have silent : b.posting? (.ask q (.releaseExpired c)) = none := by
    simp only [posting?, callOf_ask_releaseExpired inside, Option.bind_some]
    rfl
  have counters : b'.counters = b.counters := by
    rw [← swept, counters_act, silent]
    exact List.append_nil _
  have before : b'.totalAt p = b.totalAt p := by rw [totalAt, counters, totalAt]
  have place : b'.place? q .sent = b.place? q .sent := swept ▸ place?_act_of_lt inside _ _
  have announced : (b'.announce b.owed.length).totalAt p =
      (b'.enter (b'.posting? (.announce b.owed.length))).totalAt p :=
    b'.totalAt_act (.announce b.owed.length) p
  have owed := b.owed_act_releaseExpired inside c
  rw [announced, posting?, ← swept, owed, List.getElem?_append_right (Nat.le_refl _), Nat.sub_self,
    swept]
  by_cases nothing : (b.releaseExpired q c).1 = 0
  · simp only [nothing, ↓reduceIte, Nat.lt_irrefl, and_false]
    exact before
  · simp only [nothing, ↓reduceIte, List.getElem?_cons_zero, Option.map_some, enter,
      Nat.pos_of_ne_zero nothing, and_true]
    split
    · rename_i counts
      rw [totalAt_count (place.trans counts.1) (counters ▸ counts.2), before]
    · rename_i elsewhere
      by_cases here : b'.place? q .sent = some p
      · -- The queue would count into counters that there are not.
        have outside := Nat.le_of_not_lt fun there => elsewhere ⟨place.symm.trans here, there⟩
        have length := length_counters_enter b' (some ⟨q, .sent, (b.releaseExpired q c).1⟩)
        rw [enter, counters] at length
        simp [totalAt, List.getElem?_eq_none outside, List.getElem?_eq_none (length ▸ outside)]
      · rw [totalAt_count_of_other here, before]

end

/-- At an instant at which no lock had expired, a sweep finds none, or one that was over as soon
    as it was taken. -/
theorem releaseExpired_again {start : Timestamp} (steady : start.IsSteady) {q : QueueId}
    {actions more : List Action}
    (none : ∀ entry ∈ (((new start).run actions).storageOf q).locked,
      ¬ entry.2.HasExpired ((new start).run actions).time)
    (same : (((new start).run actions).run more).time = ((new start).run actions).time) :
    (∀ c, (((new start).run actions).run more).releaseExpired q c =
        (0, (((new start).run actions).run more).note (.released q c []))) ∨
      ∃ a ∈ ((new start).run actions).accesses q more, ∃ d, a.call = .take d ∧
        a.delivered.isSome ∧ (d.nanoseconds = 0 ∨ ((new start).run actions).time = .last) := by
  by_cases still : ∀ entry ∈ ((((new start).run actions).run more).storageOf q).locked,
      ¬ entry.2.HasExpired (((new start).run actions).run more).time
  · exact .inl (releaseExpired_of_none_expired still)
  · obtain ⟨⟨t, lock⟩, member, expired⟩ :
        ∃ entry ∈ ((((new start).run actions).run more).storageOf q).locked,
          entry.2.HasExpired (((new start).run actions).run more).time := by
      simpa only [not_forall, not_not, exists_prop] using still
    have sound := sound_run start q (actions ++ more)
    rw [run_append] at sound
    obtain ⟨a, taken, minted, call, passed⟩ :=
      expired_taken_since steady none same (sound.lock?_iff.2 member) (same ▸ expired)
    have delivered : a.delivered.isSome := by
      obtain ⟨e, given, _⟩ := Option.bind_eq_some_iff.1 minted
      rw [given, Option.isSome_some]
    have clock : ((new start).run actions).time =
        start.after (.ofMillis ((new start).run actions).now) := by
      rw [time, start_run]
      rfl
    have early := Timestamp.after_le_last (Timestamp.isSteady_iff.1 steady)
      (.ofMillis ((new start).run actions).now)
    exact .inr ⟨a, taken, lock.timeout, call, delivered,
      (Timestamp.after_le_self_iff (clock ▸ early)).1 passed⟩

/-- A sweep moves just the expired locks' messages, in the order of receiving and as they were
    handed out, behind all that is visible, answers how many, and counts them when it announces
    them.  The order of the lock table does not matter.  As long as the clock stands still, a
    second sweep moves nothing and changes nothing, unless a message has been received in
    between under a lock that was over at once: for no time, or at the last instant. -/
theorem sweeps_exactly_expired {start : Timestamp} {actions : List Action} {q : QueueId}
    (inside : q < ((new start).run actions).queues.length) (c : String) :
    let b := (new start).run actions
    let delivered := ((new start).accesses q actions).filterMap Access.delivered
    let b' := b.act (.ask q (.releaseExpired c))
    let answer := (b.releaseExpired q c).1
    ∃ swept, (b.storageOf q).SweptTo b.time (b'.storageOf q) swept ∧
      (swept.map fun entry => entry.2.message).Sublist delivered ∧
      answer = swept.length ∧
      (∀ p, (b'.announce b.owed.length).totalAt p =
        if b.place? q .sent = some p ∧ p.1 < b.counters.length ∧ 0 < answer then
          min (b.totalAt p + answer) Counters.limit
        else b.totalAt p) ∧
      (∀ table, table.Perm (b.storageOf q).locked →
        let other := ({ b.storageOf q with locked := table }).sweep b.time
        other.1.length = answer ∧ other.2.visible = (b'.storageOf q).visible ∧
          other.2.locked.Perm (b'.storageOf q).locked) ∧
      (start.IsSteady → ∀ more, (b'.run more).time = b.time →
        (∀ c', (b'.run more).releaseExpired q c' = (0, (b'.run more).note (.released q c' []))) ∨
          ∃ a ∈ b'.accesses q more, ∃ d, a.call = .take d ∧ a.delivered.isSome ∧
            (d.nanoseconds = 0 ∨ b.time = .last)) := by
  intro b delivered b' answer
  have sound := sound_run start q actions
  have after : b'.storageOf q = ((b.storageOf q).sweep b.time).2 :=
    storageOf_act_releaseExpired inside c
  have counted : answer = ((b.storageOf q).expired b.time).length := releaseExpired_fst b q c
  have swept := sound.sweptTo b.time
  rw [← after] at swept
  refine ⟨_, swept, ?_, counted, totalAt_announce_releaseExpired inside c, ?_, ?_⟩
  · rw [sound.expired_eq_filter]
    exact (Storage.held_sublist List.filter_sublist).trans (held_sublist_delivered start q actions)
  · intro table perm other
    obtain ⟨messages, visible, locked⟩ := sound.sweep_perm perm b.time
    rw [after]
    refine ⟨?_, visible, locked⟩
    rw [counted]
    exact (congrArg List.length messages).trans (List.length_map _)
  · intro steady more same
    have reached : b' = (new start).run (actions ++ [.ask q (.releaseExpired c)]) := by
      rw [run_append, run_cons, run_nil]
    have clock : b'.time = b.time := time_act_releaseExpired inside c
    have swept : ∀ entry ∈ (b'.storageOf q).locked, ¬ entry.2.HasExpired b'.time := by
      intro entry member
      rw [swept.locked_eq, List.mem_filter, decide_eq_true_eq] at member
      exact clock ▸ member.2
    rw [reached] at swept clock same ⊢
    exact clock ▸ releaseExpired_again steady swept (same.trans clock.symm)

/-- Of two messages one lock is over, at the very instant of the sweep. -/
theorem sweeps_exactly_expired_at_boundary :
    let actions : List Action := [.newQueue ⟨"jobs"⟩ none, .ask 0 (.send "" .empty),
      .ask 0 (.send "" { Envelope.empty with correlationId := "second" }),
      .ask 0 (.receive "" (.ofMillis 1000)), .turn 0, .turn 0,
      .ask 0 (.receive "" (.ofMillis 2000)), .turn 1, .turn 1, .advance 1000]
    let b := (new .epoch).run actions
    let b' := b.act (.ask 0 (.releaseExpired ""))
    let reversed : Storage := { b.storageOf 0 with locked := (b.storageOf 0).locked.reverse }
    (b.releaseExpired 0 "").1 = 1 ∧
      (reversed.sweep b.time).2.visible = (b'.storageOf 0).visible ∧
      (b'.releaseExpired 0 "").1 = 0 := by
  intro actions b b' reversed
  have steady : Timestamp.IsSteady .epoch := Timestamp.isSteady_iff.2 (by decide)
  have inside : 0 < ((new .epoch).run actions).queues.length := by decide
  have one : (b.releaseExpired 0 "").1 = 1 := by
    rw [releaseExpired_fst]
    change ((b.storageOf 0).expired b.time).length = 1
    rw [(sound_run .epoch 0 actions).expired_eq_filter]
    decide
  obtain ⟨_, _, _, _, _, orders, again⟩ := sweeps_exactly_expired inside ""
  refine ⟨one, (orders _ (List.reverse_perm _)).2.1, ?_⟩
  rcases again steady [] (time_act_releaseExpired inside "") with nothing | ⟨_, between, _⟩
  · exact congrArg (·.1) (nothing "")
  · exact (List.not_mem_nil between).elim

end Broker

end PeekLock
