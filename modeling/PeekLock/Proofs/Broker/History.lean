import Mathlib.Data.List.DropRight
import PeekLock.Proofs.Broker.Effect
import PeekLock.Proofs.Queue.Sound

/-! # What is true of a queue at any time

The messages of a queue change by calls at it and by nothing else, and its calls are
made at the times that the clock shows.  So whatever is true of an empty storage
before the first call, stays true while time passes and is kept by each call is true
in every reachable state.  This is `history_invariant`: it leaves the broker behind,
and later theories of queues go by cases of one call only, at a storage whose
representation is in order.
-/

namespace PeekLock

namespace Broker

/-! ## One action -/

/-- An action leaves the storage of a queue as its call does, and if it makes no call there
    as it is. -/
theorem storageOf_act (b : Broker) (q : QueueId) (action : Action) :
    (b.act action).storageOf q =
      match b.access? q action with
      | some a => a.after
      | none => b.storageOf q := by
  rcases b.act_cases action with ⟨x, quiet⟩ | ⟨idle, still⟩
  · rw [quiet.storageOf, storageOf_commit]
    rfl
  · rw [still.storageOf, access?, idle]
    rfl

@[simp] theorem start_act (b : Broker) (action : Action) : (b.act action).start = b.start := by
  rcases b.act_cases action with ⟨x, quiet⟩ | ⟨_, still⟩
  · rw [quiet.start]
    cases b.callOf action <;> rfl
  · exact still.start

/-- The clock never goes back. -/
theorem now_le_act (b : Broker) (action : Action) : b.now ≤ (b.act action).now := by
  rcases b.act_cases action with ⟨x, quiet⟩ | ⟨_, still⟩
  · rw [quiet.now]
    cases b.callOf action <;> exact Nat.le_refl _
  · exact still.now

/-! ## Runs -/

@[simp] theorem start_run (b : Broker) (actions : List Action) :
    (b.run actions).start = b.start := by
  induction actions generalizing b with
  | nil => rfl
  | cons action rest ih => rw [run_cons, ih, start_act]

/-- What holds of a queue's storage together with the time and all accesses so far.  The
    representation of the messages is in order besides, and may be used where a call is
    made. -/
theorem history_invariant {start : Timestamp} {q : QueueId}
    {P : Timestamp → Storage → List Access → Prop}
    (first : P (start.after (.ofMillis 0)) .empty [])
    (passes : ∀ earlier later s history, earlier ≤ later →
      P (start.after (.ofMillis earlier)) s history → P (start.after (.ofMillis later)) s history)
    (calls : ∀ a history, a.queue = q → a.storage.Sound a.queue → P a.now a.storage history →
      P a.now a.after (history ++ [a]))
    (actions : List Action) :
    (((new start).run actions).storageOf q).Sound q ∧
      P ((new start).run actions).time (((new start).run actions).storageOf q)
        ((new start).accesses q actions) := by
  -- The run is taken apart at its end, where the storage is.
  induction actions using List.reverseRecOn with
  | nil => exact ⟨Storage.sound_empty q, first⟩
  | append_singleton front action ih =>
    rw [accesses_append, run_append, run_cons, run_nil]
    generalize reached : (new start).run front = b at ih
    -- Time may pass besides, but only forward from the same start.
    have clock : b.start = start := by rw [← reached, start_run]; rfl
    have later (s : Storage) (history : List Access) (holds : P b.time s history) :
        P (b.act action).time s history := by
      simp only [time, clock] at holds
      simp only [time, start_act, clock]
      exact passes _ _ s history (b.now_le_act action) holds
    simp only [accesses, List.append_nil]
    rw [storageOf_act]
    obtain ⟨sound, holds⟩ := ih
    cases made : b.access? q action with
    | none =>
      simp only [Option.toList_none, List.append_nil]
      exact ⟨sound, later _ _ holds⟩
    | some a =>
      obtain ⟨call, _, rfl⟩ := accessAt_eq_some made
      have sound' := Access.sound_after (a := b.access q call) sound
      have called := calls (b.access q call) _ rfl sound holds
      exact ⟨sound', later _ _ called⟩

/-- The representation of a queue's messages is in order in every reachable state. -/
theorem sound_run (start : Timestamp) (q : QueueId) (actions : List Action) :
    (((new start).run actions).storageOf q).Sound q :=
  (history_invariant (P := fun _ _ _ => True) trivial (fun _ _ _ _ _ _ => trivial)
    (fun _ _ _ _ _ => trivial) actions).1

/-- Every access so far has found a storage in order, and was made at the queue. -/
theorem sound_of_mem_accesses {start : Timestamp} {q : QueueId} {actions : List Action} {a : Access}
    (made : a ∈ (new start).accesses q actions) : a.queue = q ∧ a.storage.Sound q :=
  (history_invariant (P := fun _ _ history => ∀ a ∈ history, a.queue = q ∧ a.storage.Sound q)
    (fun _ member => (List.not_mem_nil member).elim) (fun _ _ _ _ _ h => h)
    (fun _ _ own sound h a' member => (List.mem_append.1 member).elim (h a') fun new =>
      List.mem_singleton.1 new ▸ ⟨own, own ▸ sound⟩)
    actions).2 a made

end Broker

end PeekLock
