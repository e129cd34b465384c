import PeekLock.Proofs.Queue.Delivery

/-! # Peeking tells what is handed out next

Whoever peeks at the line of a queue sees the messages that will be handed out next, in
this order, however many receivers there are and whatever else goes on, as long as
nobody drops all messages (`peek_foretells_deliveries`).  The ingredient is a law of the
line over any part of a run, and not only since its start: what is handed out and what
is visible afterwards is what was visible before and what has become visible since.
-/

namespace PeekLock.Broker

variable {b : Broker} {q : QueueId}

theorem sound_act (sound : (b.storageOf q).Sound q) (action : Action) :
    ((b.act action).storageOf q).Sound q := by
  rw [storageOf_act]
  cases made : b.access? q action with
  | none => exact sound
  | some a =>
    obtain ⟨call, _, rfl⟩ := accessAt_eq_some made
    exact Access.sound_after (a := b.access q call) sound

/-- While nobody drops all messages, what is handed out comes from the front of the line, and
    what becomes visible stands behind all that was. -/
theorem delivered_append_visible_run (sound : (b.storageOf q).Sound q) {more : List Action}
    (kept : ∀ a ∈ b.accesses q more, a.call.isClear = false) :
    ((b.accesses q more).filterMap Access.delivered).map Envelope.withoutReference ++
        ((b.run more).storageOf q).visible =
      (b.storageOf q).visible ++ (b.accesses q more).flatMap Access.enqueued := by
  -- The run is taken apart at its front: the law of one call, and then the rest of the run.
  induction more generalizing b with
  | nil => simp [accesses]
  | cons action rest ih =>
    have restKept : ∀ a ∈ (b.act action).accesses q rest, a.call.isClear = false := by
      intro a member
      exact kept a (List.mem_append_right _ member)
    have later := ih (sound_act sound action) restKept
    rw [storageOf_act] at later
    simp only [accesses, run_cons]
    cases made : b.access? q action with
    | none => simpa [made] using later
    | some a =>
      obtain ⟨call, _, rfl⟩ := accessAt_eq_some made
      have first : (b.access q call).call.isClear = false := by
        apply kept
        simp [accesses, made]
      have now := Access.visible_after (a := b.access q call) sound first
      have found : (b.access q call).storage = b.storageOf q := rfl
      rw [found] at now
      simp only [made] at later
      simp only [Option.toList_some, List.singleton_append, List.filterMap_cons, List.flatMap_cons]
      cases given : (b.access q call).delivered with
      | none =>
        simp only [given, Option.toList_none, List.map_nil, List.nil_append] at now
        rw [later, now, List.append_assoc]
      | some e =>
        simp only [given, Option.toList_some, List.map_cons, List.map_nil,
          List.singleton_append] at now
        rw [List.map_cons, List.cons_append, later, ← List.cons_append, now, List.append_assoc]

/-- Of two ways to split a list, the front of one goes as far along the other as it can. -/
theorem take_eq_take_of_append_eq {α : Type} {front back front' back' : List α}
    (same : front ++ back = front' ++ back') :
    front'.take front.length = front.take front'.length ∧
      front.drop front'.length <+: back' := by
  rcases List.append_eq_append_iff.1 same with ⟨between, rfl, _⟩ | ⟨between, rfl, rfl⟩
  · have short : front.length ≤ front.length + between.length := Nat.le_add_right ..
    simp [List.take_of_length_le short, List.drop_of_length_le short]
  · have long : front'.length ≤ front'.length + between.length := Nat.le_add_right ..
    simp [List.take_of_length_le long]

theorem peek_fst (b : Broker) (q : QueueId) (c : String) :
    (b.peek q c).1 = (b.storageOf q).visible.head? := by
  simp only [peek]
  cases (b.storageOf q).visible <;> rfl

/-- Peeking shows so many of the visible messages, or all if there are fewer, the next one first.
    Whatever happens then, short of dropping all messages: the next messages that are handed out,
    to whomever, are those of the batch in its order, each with a token and otherwise as it was
    seen, and the rest of the batch still stands first in the line. -/
theorem peek_foretells_deliveries {start : Timestamp} {actions more : List Action} {q : QueueId}
    (c c' : String) (n : Nat)
    (kept : ∀ a ∈ ((new start).run actions).accesses q more, a.call.isClear = false) :
    let b := (new start).run actions
    let b' := b.run more
    let batch := (b.peekBatch q c n).1
    let delivered := (b.accesses q more).filterMap Access.delivered
    batch.length = min n (b.storageOf q).visible.length ∧
      ((b.peek q c').1 = none ↔ (b.storageOf q).visible = []) ∧
      (0 < n → (b.peek q c').1 = batch.head?) ∧
      (delivered.map Envelope.withoutReference).take batch.length =
        batch.take delivered.length ∧
      batch.drop delivered.length <+: (b'.storageOf q).visible ∧
      ∀ id timeout, b'.callOfTask id = some (q, .take timeout) →
        (b'.turn id).handed? id = (b'.access q (.take timeout)).delivered := by
  intro b b' batch delivered
  have law := delivered_append_visible_run (sound_run start q actions) kept
  have seen : (b.storageOf q).visible = batch ++ (b.storageOf q).visible.drop n :=
    (List.take_append_drop n _).symm
  rw [seen, List.append_assoc] at law
  obtain ⟨order, rest⟩ := take_eq_take_of_append_eq law.symm
  rw [List.length_map] at order rest
  refine ⟨List.length_take, ?_, ?_, order, rest, ?_⟩
  · rw [peek_fst, List.head?_eq_none_iff]
  · intro some
    rw [peek_fst]
    show _ = ((b.storageOf q).visible.take n).head?
    rw [List.head?_take, if_neg (Nat.ne_of_gt some)]
  · intro id timeout looking
    exact handed?_turn looking

/-- Of two messages that were seen a loop takes the first and a receive the second, after the
    first has been given back and another has been sent. -/
theorem peek_foretells_deliveries_to_two :
    let actions : List Action := [.newQueue ⟨"jobs"⟩ none, .ask 0 (.send "" .empty),
      .ask 0 (.send "" { Envelope.empty with correlationId := "second" })]
    let more : List Action := [.ask 0 (.listen "" default), .turn 0, .turn 0, .turn 0, .turn 0,
      .ask 0 (.abandon { Envelope.empty with reference := some ⟨1, 0⟩ }),
      .ask 0 (.send "" { Envelope.empty with correlationId := "third" }),
      .ask 0 (.receive "" (.ofMillis 1000)), .turn 1, .turn 1]
    let b := (new .epoch).run actions
    let batch := (b.peekBatch 0 "" 2).1
    let delivered := (b.accesses 0 more).filterMap Access.delivered
    (∀ a ∈ b.accesses 0 more, a.call.isClear = false) ∧
      batch.map (·.correlationId) = ["", "second"] ∧ delivered.length = 2 ∧
      (delivered.map Envelope.withoutReference).take batch.length =
        batch.take delivered.length := by
  intro actions more b batch delivered
  have kept : ∀ a ∈ b.accesses 0 more, a.call.isClear = false := by decide
  exact ⟨kept, by decide, by decide, (peek_foretells_deliveries "" "" 2 kept).2.2.2.1⟩

end PeekLock.Broker
