import PeekLock.Proofs.Broker.WakeUp
import PeekLock.Proofs.Time.Order

/-! # Taking a message and giving it back

Who takes the first message and abandons it at the same instant puts it at the end of
the line, unless the lock has expired by then, and then the message is dropped.  The
instant of expiry counts as expired, so that happens to whoever takes a message for no
time at all, and to everybody at the last instant.  The lock table is what it was
before in all cases: the token was fresh, so the entry that goes is the one that came
(`Storage.abandon_lockNext`).
-/

namespace PeekLock

namespace Storage

variable {q : QueueId} {s : Storage} {e : Envelope} {rest : List Envelope}

theorem lockNext_of_visible (line : s.visible = e :: rest) (owner : Nat) (now : Timestamp)
    (timeout : Duration) :
    s.lockNext owner now timeout =
      some ({ e with reference := some ⟨owner, s.nextSequence⟩ },
        { visible := rest
          locked := s.locked ++ [(⟨owner, s.nextSequence⟩,
            ⟨{ e with reference := some ⟨owner, s.nextSequence⟩ }, now.after timeout, timeout⟩)]
          nextSequence := s.nextSequence + 1 }) := by
  simp only [lockNext, line]

/-- What is left of a message that was taken and abandoned at the same instant. -/
theorem abandon_lockNext (sound : s.Sound q) (line : s.visible = e :: rest) {now : Timestamp}
    {timeout : Duration} {held : Envelope} {s' : Storage}
    (taken : s.lockNext (Broker.ownerOf q) now timeout = some (held, s')) :
    (s'.abandon now ⟨Broker.ownerOf q, s.nextSequence⟩ held.withoutReference).2 =
      { visible := if now.after timeout ≤ now then rest else rest ++ [{ e with sentTime := some now }]
        locked := s.locked
        nextSequence := s.nextSequence + 1 } := by
  have fresh := sound.next_not_isLocked (Broker.ownerOf q)
  have unlocked : e.reference = none := sound.visible_unlocked e (line ▸ List.mem_cons_self ..)
  rw [lockNext_of_visible line] at taken
  obtain ⟨rfl, rfl⟩ := Prod.mk.inj (Option.some.inj taken)
  generalize (⟨Broker.ownerOf q, s.nextSequence⟩ : LockToken) = token at fresh ⊢
  have absent : s.locked.lookup token = none := lock?_eq_none_iff.2 fresh
  have others : ∀ t lock, (t, lock) ∈ s.locked → ¬ t = token := by
    rintro t lock member rfl
    exact fresh (List.mem_map.2 ⟨_, member, rfl⟩)
  have again : stamp now ({ e with reference := some token } : Envelope).withoutReference =
      { e with sentTime := some now } := by
    simp only [stamp, Envelope.withoutReference]
    rw [← unlocked]
  by_cases expired : now.after timeout ≤ now
  · simpa [abandon, lock?, List.lookup_append, absent, Lock.HasExpired, expired, unlock] using others
  · simpa [abandon, lock?, List.lookup_append, absent, Lock.HasExpired, expired, unlock, enqueue,
      append, again] using others

end Storage

namespace Broker

variable {b : Broker} {q : QueueId}

/-! ## A receive that finds a message -/

theorem time_turn (b : Broker) (id : TaskId) : (b.turn id).time = b.time := by
  rw [(quiet_turn id).time]
  cases b.callOfTask id <;> rfl

theorem queues_length_turn (b : Broker) (id : TaskId) :
    (b.turn id).queues.length = b.queues.length :=
  (quiet_turn id).length.trans (length_commit ..)

theorem storageOf_turn (b : Broker) (id : TaskId) (q : QueueId) :
    (b.turn id).storageOf q = (b.commit (b.callOfTask id)).storageOf q :=
  (quiet_turn id).storageOf q

theorem lt_length_of_visible (message : (b.storageOf q).visible ≠ []) : q < b.queues.length := by
  by_contra outside
  rw [storageOf_of_not_lt outside] at message
  exact message rfl

/-- Asking to be told of messages is no call, and the receive looks for one next. -/
theorem callOfTask_turn_of_entering {id : TaskId} {r : Receive}
    (there : b.task? id = some (.receive r)) (entering : r.stage = .entering) :
    b.callOfTask id = none ∧ (b.turn id).callOfTask id = some (r.queue, .take r.timeout) := by
  have stepped : (b.turn id).task? id = some (.receive { r with stage := .looking }) := by
    have here : ({ b with ready := b.ready.erase id } : Broker).task? id = some (.receive r) := there
    rw [task?_turn]
    simp only [stepTask, here, stepReceive, entering]
    exact task?_setTask (b := ({ b with ready := b.ready.erase id } : Broker).register r.queue id)
      here _
  constructor
  · simp only [callOfTask, there, Receive.call?, entering, Option.map_none]
  · simp only [callOfTask, stepped, Receive.call?, Option.map_some]

/-- A receive up to its first look for a message, with nothing in between. -/
def lookAtOnce (b : Broker) (q : QueueId) (correlationId : String) (timeout : Duration) : Broker :=
  b.run [.ask q (.receive correlationId timeout), .turn b.tasks.length, .turn b.tasks.length]

/-- A receive that finds a message at once is handed the first one, under the next token. -/
theorem lookAtOnce_of_visible {e : Envelope} {rest : List Envelope}
    (line : (b.storageOf q).visible = e :: rest) (c : String) (d : Duration) :
    let held : Envelope := { e with reference := some ⟨ownerOf q, (b.storageOf q).nextSequence⟩ }
    (b.lookAtOnce q c d).handed? b.tasks.length = some held ∧
      (b.lookAtOnce q c d).time = b.time ∧
      q < (b.lookAtOnce q c d).queues.length ∧
      (b.storageOf q).lockNext (ownerOf q) b.time d =
        some (held, (b.lookAtOnce q c d).storageOf q) := by
  intro held
  have inside := lt_length_of_visible (b := b) (q := q) (by simp [line])
  obtain ⟨b₁, started⟩ : ∃ b₁, b₁ = (b.startReceive q c d).1 := ⟨_, rfl⟩
  have spawned : Quiet (some b.tasks.length) b b₁ := started ▸ .spawn b _
  have there : b₁.task? b.tasks.length =
      some (.receive ⟨q, c, d, b.deadlineAfter d, .entering⟩) := started ▸ task?_spawn ..
  obtain ⟨silent, looks⟩ := callOfTask_turn_of_entering there rfl
  have looked : b.lookAtOnce q c d = (b₁.turn b.tasks.length).turn b.tasks.length := by
    have asked : b.act (.ask q (.receive c d)) = b₁ := started ▸ if_pos inside
    simp only [lookAtOnce, run_cons, run_nil, asked]
    rfl
  have time : (b₁.turn b.tasks.length).time = b.time := (time_turn ..).trans spawned.time
  have storage : (b₁.turn b.tasks.length).storageOf q = b.storageOf q := by
    rw [storageOf_turn, silent]
    exact spawned.storageOf q
  have length : (b₁.turn b.tasks.length).queues.length = b.queues.length :=
    (queues_length_turn ..).trans spawned.length
  have taken := Storage.lockNext_of_visible line (ownerOf q) b.time d
  have access : (b₁.turn b.tasks.length).access q (.take d) = ⟨q, b.time, b.storageOf q, .take d⟩ := by
    rw [Broker.access, time, storage]
  rw [looked]
  refine ⟨?_, (time_turn ..).trans time, ?_, ?_⟩
  · rw [handed?_turn looks, access]
    simp only [Access.delivered, taken, Option.map_some, held]
  · rw [queues_length_turn, length]
    exact inside
  · rw [storageOf_turn, looks, storageOf_commit]
    simp only [accessAt, length, inside, access, Access.after, taken, and_self, ↓reduceIte, held]

/-! ## And back -/

theorem storageOf_act_abandon (inside : q < b.queues.length) {held : Envelope} {token : LockToken}
    (own : ownToken? q held = some token) :
    (b.act (.ask q (.abandon held))).storageOf q =
      ((b.storageOf q).abandon b.time token held.withoutReference).2 := by
  have call : b.callOf (.ask q (.abandon held)) = some (q, .abandon held) := by
    simp only [callOf, inside, ↓reduceIte, Request.call?, Option.map_some]
  rw [storageOf_act]
  simp only [access?, call, accessAt, inside, and_self, ↓reduceIte, Broker.access, Access.after, own]

/-- Whoever takes the first message and abandons it at the same instant leaves the lock table as
    it was, and puts the message at the end of the line or drops it.  He drops it if its
    lock has expired by then: if he took it for no time, or at the last instant. -/
theorem rotated_or_dropped {start : Timestamp} {actions : List Action} {q : QueueId} {e : Envelope}
    {rest : List Envelope} (c : String) (d : Duration)
    (line : (((new start).run actions).storageOf q).visible = e :: rest) :
    let b := (new start).run actions
    let found := b.lookAtOnce q c d
    ∃ held, found.handed? b.tasks.length = some held ∧ held.withoutReference = e ∧
      found.time = b.time ∧
      ((found.act (.ask q (.abandon held))).storageOf q).locked = (b.storageOf q).locked ∧
      ((found.act (.ask q (.abandon held))).storageOf q).visible =
        (if b.time.after d ≤ b.time then rest
          else rest ++ [{ e with sentTime := some b.time }]) ∧
      (start.IsSteady → (b.time.after d ≤ b.time ↔ d.nanoseconds = 0 ∨ b.time = .last)) := by
  intro b found
  have sound := sound_run start q actions
  obtain ⟨handed, time, inside, taken⟩ := lookAtOnce_of_visible line c d
  have unlocked : e.reference = none := sound.visible_unlocked e (line ▸ List.mem_cons_self ..)
  refine ⟨_, handed, ?_, time, and_assoc.1 ⟨?_, fun steady => ?_⟩⟩
  · simp only [Envelope.withoutReference]
    rw [← unlocked]
  · have own : ownToken? q { e with reference := some ⟨ownerOf q, (b.storageOf q).nextSequence⟩ } =
        some ⟨ownerOf q, (b.storageOf q).nextSequence⟩ := by
      simp only [ownToken?, Option.filter_some, decide_true, ↓reduceIte]
    rw [storageOf_act_abandon inside own, time, Storage.abandon_lockNext sound line taken]
    exact ⟨rfl, rfl⟩
  · have early := Timestamp.after_le_last (Timestamp.isSteady_iff.1 steady)
      (.ofMillis ((new start).run actions).now)
    have clock : b.time = start.after (.ofMillis ((new start).run actions).now) := by
      simp only [b, Broker.time, start_run]
      rfl
    exact Timestamp.after_le_self_iff (clock ▸ early)

/-- Taken for one millisecond, the first of two messages goes behind the second one. -/
theorem rotated_or_dropped_short_lock :
    let b := (new .epoch).run [.newQueue ⟨"jobs"⟩ none, .ask 0 (.send "" .empty),
      .ask 0 (.send "" { Envelope.empty with correlationId := "second" })]
    let first : Envelope := { Envelope.empty with sentTime := some .epoch }
    let second : Envelope := { first with correlationId := "second" }
    let found := b.lookAtOnce 0 "" (.ofMillis 1)
    (b.storageOf 0).visible = [first, second] ∧
      ∃ held, found.handed? b.tasks.length = some held ∧
        ((found.act (.ask 0 (.abandon held))).storageOf 0).visible = [second, first] := by
  intro b first second found
  have line : (b.storageOf 0).visible = [first, second] := by decide
  obtain ⟨held, handed, _, _, _, turned, lasts⟩ := rotated_or_dropped "" (.ofMillis 1) line
  have steady : Timestamp.IsSteady .epoch := Timestamp.isSteady_iff.2 (by decide)
  have live : ¬ (((new .epoch).run _).time.after (.ofMillis 1) ≤ ((new .epoch).run _).time) :=
    mt (lasts steady).1 (by decide)
  rw [if_neg live] at turned
  exact ⟨line, held, handed, turned⟩

/-- A message that is taken for no time at all and given back at once is gone. -/
theorem no_rotation_of_zero_timeout :
    let b := (new .epoch).run [.newQueue ⟨"jobs"⟩ none, .ask 0 (.send "" .empty)]
    let found := b.lookAtOnce 0 "" .zero
    ∃ e held, (b.storageOf 0).visible = [e] ∧ found.handed? b.tasks.length = some held ∧
      found.time = b.time ∧ ((found.act (.ask 0 (.abandon held))).storageOf 0).visible = [] := by
  intro b found
  let sent : Envelope := { Envelope.empty with sentTime := some .epoch }
  exact ⟨sent, { sent with reference := some ⟨1, 0⟩ }, by decide, by decide, by decide, by decide⟩

end Broker

end PeekLock
