import PeekLock.Proofs.Demo.Round

/-! # The course of a demo

A demo sends, works, and closes.  Sending leaves all messages in line and as many announcements
owed (`sendAll_gathering`), which are made first (`works_announcing`).  Then rounds and pauses take
turns, a round at every multiple of the pause.  After each round the wait has been told, looks, and
asks again if messages are left (`works_again`); it is over when none are left or the time is up
(`Told.concludes`).  Wherever the loop is found then, closing the queue stops it (`settle_pausing`,
`settle_woken`, `settle_starting`).
-/

namespace PeekLock.Demo

namespace Scene

variable {s : Scene} {due moment : Nat}

/-! ## Steps of the wait -/

section

variable {loop : LoopStage} {line : List TaskId} {timers : List Timer}

/-- The wait is over, and has left no question and no timer behind. -/
def done (s : Scene) (drained : Bool) (loop : LoopStage) (line : List TaskId)
    (timers : List Timer) : Wait :=
  let s := s.hearing (s.notebook.progress.withdraw 1)
  s.wait (.ended drained) (s.broker loop [] false [] line (timers.filter (·.task ≠ 1)))

/-- The wait has asked for a signal. -/
def asked (s : Scene) (loop : LoopStage) (line : List TaskId) (timers : List Timer) : Wait :=
  let s := s.hearing (s.notebook.progress.ask 1)
  s.wait .waiting (s.broker loop [] false [] line timers)

theorem next_attending (stage : WaitStage) :
    (s.attending stage loop line timers).next =
      let w := (s.wait stage (s.broker loop [] false [] line timers)).step
      if w.isActive then w.enterLine else w := rfl

theorem step_looking :
    (s.wait .looking (s.broker loop [] false [] line timers)).step =
      if s.count ≤ s.notebook.processed then s.done true loop line timers
      else s.wait .asking (s.broker loop [] false [] line timers) := rfl

theorem step_asking :
    (s.wait .asking (s.broker loop [] false [] line timers)).step =
      if s.notebook.progress.kept then
        (s.hearing s.notebook.progress.use).wait .looking
          ((s.hearing s.notebook.progress.use).broker loop [] false [] line timers)
      else if s.deadline ≤ s.now then s.done false loop line timers
      else s.asked loop line timers := rfl

theorem step_waiting :
    (s.wait .waiting (s.broker loop [] false [] line timers)).step =
      if !s.notebook.progress.isAsking 1 then
        s.wait .looking (s.broker loop [] false [] line timers)
      else if s.deadline ≤ s.now then s.done false loop line timers
      else s.wait .waiting (s.broker loop [] false [] line timers) := rfl

theorem next_done (done : s.count ≤ s.notebook.processed) :
    (s.attending .looking loop line timers).next = s.done true loop line timers := by
  rw [next_attending, step_looking, if_pos done]
  rfl

theorem next_few (few : ¬ s.count ≤ s.notebook.processed) :
    (s.attending .looking loop line timers).next = s.attending .asking loop line timers := by
  rw [next_attending, step_looking, if_neg few]
  rfl

theorem next_asking (told : s.notebook.progress = {}) (early : ¬ s.deadline ≤ s.now) :
    (s.attending .asking loop line timers).next = s.asked loop line timers := by
  have asks : (s.asked loop line timers).isActive = decide (s.deadline ≤ s.now) := by
    show (!(s.notebook.progress.ask 1).isAsking 1 || decide (s.deadline ≤ s.now)) = _
    rw [told]
    rfl
  have unheard : s.notebook.progress.kept = false := by rw [told]
  rw [next_attending, step_asking, unheard, if_neg Bool.false_ne_true, if_neg early]
  dsimp only
  rw [asks, decide_eq_false early, if_neg Bool.false_ne_true]

theorem next_asking_late (told : s.notebook.progress = {}) (late : s.deadline ≤ s.now) :
    (s.attending .asking loop line timers).next = s.done false loop line timers := by
  have unheard : s.notebook.progress.kept = false := by rw [told]
  rw [next_attending, step_asking, unheard, if_neg Bool.false_ne_true, if_pos late]
  rfl

theorem next_told (told : s.notebook.progress = {}) :
    (s.attending .waiting loop line timers).next = s.attending .looking loop line timers := by
  have heard : (!s.notebook.progress.isAsking 1) = true := by
    rw [told]
    rfl
  rw [next_attending, step_waiting, if_pos heard]
  rfl

theorem next_late (asks : s.notebook.progress = ⟨false, [1]⟩) (late : s.deadline ≤ s.now) :
    (s.attending .waiting loop line timers).next = s.done false loop line timers := by
  have unheard : ¬ (!s.notebook.progress.isAsking 1) = true := by
    rw [asks]
    exact Bool.false_ne_true
  rw [next_attending, step_waiting, if_neg unheard, if_pos late]
  rfl

/-- A wait that has been told looks, and asks again if the messages are too few. -/
theorem works_again (told : s.notebook.progress = {}) (few : ¬ s.count ≤ s.notebook.processed)
    (early : ¬ s.deadline ≤ s.now) :
    Works Wait.isOver Wait.next 3 (s.attending .waiting loop line timers)
      (s.asked loop line timers) :=
  .next rfl (next_told told)
    (.next rfl (next_few few) (.next rfl (next_asking told early) (.refl _)))

/-- A wait that has been told looks, and is over if the messages are enough. -/
theorem works_over (told : s.notebook.progress = {}) (done : s.count ≤ s.notebook.processed) :
    Works Wait.isOver Wait.next 2 (s.attending .waiting loop line timers)
      (s.done true loop line timers) :=
  .next rfl (next_told told) (.next rfl (next_done done) (.refl _))

end

/-! ## Pauses -/

theorem next_resting :
    (s.resting due).next =
      s.wait .waiting ((s.resting due).broker.advance (min s.deadline due)) := rfl

/-- At the end of its pause the loop is woken. -/
theorem next_resting_due (ahead : s.now ≤ due) (early : due < s.deadline) :
    (s.resting due).next = { s with now := due }.working (.pausing due) [] := by
  have reach : max s.now due = due := Nat.max_eq_right ahead
  have fires : decide (due ≤ due) = true := decide_eq_true (Nat.le_refl _)
  have spent : decide (due < due) = false := decide_eq_false (Nat.lt_irrefl _)
  have waits : decide (s.deadline ≤ due) = false := decide_eq_false (Nat.not_le.2 early)
  have remains : decide (due < s.deadline) = true := decide_eq_true early
  rw [next_resting, Nat.min_eq_right (Nat.le_of_lt early)]
  simp only [Broker.advance, resting, wait, broker, alarm, reach, List.filter, fires, spent, waits,
    remains]
  rfl

/-- When the time is up before that, the wait is woken. -/
theorem next_resting_early (ahead : s.now ≤ s.deadline) (early : s.deadline < due) :
    (s.resting due).next =
      { s with now := s.deadline }.attending .waiting (.pausing due) [] [⟨due, 0⟩] := by
  have reach : max s.now s.deadline = s.deadline := Nat.max_eq_right ahead
  have fires : decide (s.deadline ≤ s.deadline) = true := decide_eq_true (Nat.le_refl _)
  have spent : decide (s.deadline < s.deadline) = false := decide_eq_false (Nat.lt_irrefl _)
  have waits : decide (due ≤ s.deadline) = false := decide_eq_false (Nat.not_le.2 early)
  have remains : decide (s.deadline < due) = true := decide_eq_true early
  rw [next_resting, Nat.min_eq_left (Nat.le_of_lt early)]
  simp only [Broker.advance, resting, wait, broker, alarm, reach, List.filter, fires, spent, waits,
    remains]
  rfl

/-- When the time is up just then both are woken, and the wait goes first. -/
theorem next_resting_both (ahead : s.now ≤ due) (both : s.deadline = due) :
    (s.resting due).next =
      { s with now := due }.attending .waiting (.pausing due) [0] [] := by
  have reach : max s.now due = due := Nat.max_eq_right ahead
  have fires : decide (due ≤ due) = true := decide_eq_true (Nat.le_refl _)
  have spent : decide (due < due) = false := decide_eq_false (Nat.lt_irrefl _)
  rw [next_resting, both, Nat.min_self]
  simp only [Broker.advance, resting, wait, broker, alarm, both, reach, List.filter, fires, spent]
  rfl

/-- When the time is up the wait is over, whether the loop is woken at the same moment or pauses
    on. -/
theorem works_both (asks : s.notebook.progress = ⟨false, [1]⟩) (ahead : s.now ≤ due)
    (both : s.deadline = due) :
    Works Wait.isOver Wait.next 2 (s.resting due)
      ({ s with now := due }.done false (.pausing due) [0] []) :=
  .next rfl (next_resting_both ahead both)
    (.next rfl (next_late asks (Nat.le_of_eq both)) (.refl _))

theorem works_early (asks : s.notebook.progress = ⟨false, [1]⟩) (ahead : s.now ≤ s.deadline)
    (early : s.deadline < due) :
    Works Wait.isOver Wait.next 2 (s.resting due)
      ({ s with now := s.deadline }.done false (.pausing due) [] [⟨due, 0⟩]) :=
  .next rfl (next_resting_early ahead early) (.next rfl (next_late asks (Nat.le_refl _)) (.refl _))

theorem next_woken (atDue : s.now = due) :
    (s.working (.pausing due) []).next = s.working .checking [] := by
  subst atDue
  have step : (s.broker (.pausing s.now) [] false [] [] [s.alarm]).stepTask 0 =
      if s.now ≤ s.now then s.broker .checking [] false [] [] [s.alarm]
      else s.broker (.pausing s.now) [] false [] [] [s.alarm] := rfl
  rw [if_pos (Nat.le_refl _)] at step
  rw [next_working step]
  rfl

/-! ## Sending -/

/-- The broker of a demo whose loop has not been started. -/
def gathering (s : Scene) (owed : List Announcement) : Broker where
  start := s.start
  now := s.now
  queues := [⟨s.settings, some 0, s.opened, s.storage, [], 0⟩]
  counters := [s.counters]
  scopes := [⟨none, false, []⟩]
  tasks := []
  owed := owed
  ready := []
  timers := []
  history := s.history

/-- All messages are sent, one behind the other. -/
theorem sendAll_gathering (o : DemoOptions) (i left : Nat) (owed : List Announcement) :
    ∃ (line : List Envelope) (history : List Entry),
      sendAll 0 s.correlationId o i left (s.gathering owed) =
          .ok ({ s with storage := { s.storage with visible := line }, history }.gathering
            (owed ++ List.replicate left (⟨0, 1⟩ : Announcement))) ∧
        line.map (·.payload) = s.storage.visible.map (·.payload) ++ payloads o.messages i left := by
  induction left generalizing i s owed with
  | zero =>
    refine ⟨s.storage.visible, s.history, ?_, (List.append_nil _).symm⟩
    rw [List.replicate_zero, List.append_nil]
    rfl
  | succ left ih =>
    let e := Envelope.new (.numbered (i - 1)) s.correlationId o.messageType
      (Payload.nth o.messages i).octets
    let b := s.gathering owed
    let sent : Scene := { s with
      storage := s.storage.enqueue b.time e
      history := ⟨s.now, .sent 0 s.correlationId (Storage.stamp b.time e)⟩ :: s.history }
    have makes : Envelope.ofDocument (.numbered (i - 1)) s.correlationId o.messageType
        (Payload.nth o.messages i).document = .ok e := by
      rw [Envelope.ofDocument, Payload.encode_document]
    obtain ⟨line, history, sends, carries⟩ := ih (s := sent) (i + 1) (owed ++ [⟨0, 1⟩])
    refine ⟨line, history, ?_, ?_⟩
    · rw [List.append_assoc] at sends
      simp only [sendAll, makes, bind, Except.bind]
      exact sends
    · have line : sent.storage.visible.map (·.payload) =
          s.storage.visible.map (·.payload) ++ [(Payload.nth o.messages i).octets] :=
        List.map_append
      rw [carries, line, payloads_succ, List.append_assoc]
      rfl

/-- The wait before it has looked.  It and the loop, which has not run yet, are in line. -/
def beginning (s : Scene) (owed : List Announcement) : Wait :=
  s.wait .looking (s.broker .starting [] false owed [1, 0] [s.alarm])

theorem next_announcing (owed : List Announcement) :
    (s.beginning (⟨0, 1⟩ :: owed)).next = (s.tallied .sent 1).beginning owed := rfl

/-- All messages are announced, one after the other. -/
theorem works_announcing (n : Nat) (counted : s.total .sent + n ≤ maxUnsigned64) :
    ∃ counters : Counters,
      Works Wait.isOver Wait.next n (s.beginning (List.replicate n ⟨0, 1⟩))
        ({ s with counters }.beginning []) ∧
      ∀ event,
        { s with counters }.total event = s.total event + if event = .sent then n else 0 := by
  induction n generalizing s with
  | zero => exact ⟨s.counters, .refl _, fun event => by rw [ite_self]; rfl⟩
  | succ n ih =>
    have one (event : QueueEvent) :
        (s.tallied .sent 1).total event = s.total event + if event = .sent then 1 else 0 := by
      rw [total_count]
      by_cases sent : event = .sent
      · subst sent
        have room : s.total .sent + 1 ≤ Counters.limit := by
          simp only [Counters.limit]
          omega
        rw [if_pos rfl, if_pos rfl, Nat.min_eq_left room]
      · rw [if_neg sent, if_neg sent, Nat.add_zero]
    have enough : (s.tallied .sent 1).total .sent + n ≤ maxUnsigned64 := by
      rw [one, if_pos rfl]
      omega
    obtain ⟨counters, works, others⟩ := ih enough
    refine ⟨counters, .next rfl (next_announcing _) works, fun event => ?_⟩
    refine (others event).trans ?_
    rw [one]
    split <;> omega

/-! ## Closing -/

/-- The scene in which the queue has been closed. -/
def closed (s : Scene) (correlationId : String) : Scene :=
  { s with
    opened := false
    history := ⟨s.now, .closed 0 correlationId⟩ :: ⟨s.now, .listenEnded 0 correlationId⟩ ::
      s.history }

def stopped (s : Scene) : Scene :=
  s.note (.loopStopped 0 s.correlationId)

/-- The broker once the loop has stopped. -/
def ended (s : Scene) : Broker :=
  s.stopped.broker .stopped [] true [] [] []

theorem settle_ended {n : Nat} {b : Broker} (works : Works Broker.isBlocked Broker.tick n b s.ended)
    (fuel : Nat) : b.settle (fuel + n) = s.ended := by
  rw [works.settle, Broker.settle_of_isBlocked rfl]

/-- Closing the queue ends the pause of the loop. -/
theorem settle_pausing (correlationId : String) (fuel : Nat) :
    ((s.broker (.pausing due) [] false [] [] [⟨due, 0⟩]).closeQueue 0 correlationId).settle
      (fuel + 1) = (s.closed correlationId).ended := by
  have closes : (s.broker (.pausing due) [] false [] [] [⟨due, 0⟩]).closeQueue 0 correlationId =
      (s.closed correlationId).broker (.pausing due) [] true [] [0] [⟨due, 0⟩] := rfl
  rw [closes]
  exact settle_ended (.next rfl rfl (.refl _)) fuel

/-- A loop that has been woken from its pause finds the queue closed. -/
theorem settle_woken (correlationId : String) (fuel : Nat) :
    ((s.broker (.pausing due) [] false [] [0] []).closeQueue 0 correlationId).settle (fuel + 1) =
      (s.closed correlationId).ended := by
  have closes : (s.broker (.pausing due) [] false [] [0] []).closeQueue 0 correlationId =
      (s.closed correlationId).broker (.pausing due) [] true [] [0] [] := rfl
  rw [closes]
  exact settle_ended (.next rfl rfl (.refl _)) fuel

/-- A loop that has not run yet finds the queue closed. -/
theorem settle_starting (correlationId : String) (fuel : Nat) :
    ((s.broker .starting [] false [] [0] []).closeQueue 0 correlationId).settle (fuel + 2) =
      ((s.closed correlationId).note (.loopStarted 0 s.correlationId)).ended := by
  have closes : (s.broker .starting [] false [] [0] []).closeQueue 0 correlationId =
      (s.closed correlationId).broker .starting [] true [] [0] [] := rfl
  rw [closes]
  exact settle_ended (.next rfl rfl (.next rfl rfl (.refl _))) fuel

/-! ## Round after round -/

/-- What a demo has come to at its end.  Every message that was processed had its turn before the
    time was up, and if any are left the next would have had its turn too late. -/
structure Finished (settings : Settings) (o : DemoOptions) (i left : Nat) (s : Scene) : Prop
    extends s.Processed settings o i left where
  all : i + left = o.messages
  begun : i = 0 ∨ (i - 1) * pause settings < o.timeout.ceilMillis
  late : left = 0 ∨ o.timeout.ceilMillis ≤ i * pause settings
  now : s.now = if left = 0 then (i - 1) * pause settings else o.timeout.ceilMillis

/-- A wait that is over, with all messages processed or not, after which a demo comes to its end. -/
def Concludes (settings : Settings) (o : DemoOptions) (correlationId : String) (w : Wait) : Prop :=
  ∃ (t : Scene) (i left : Nat), w.stage = .ended (decide (left = 0)) ∧
    (w.broker.closeQueue 0 correlationId).settle (steps o.messages) = t.ended ∧
    t.Finished settings o i left

/-- The loop pauses after a round, and the wait has been told of it. -/
structure Told (settings : Settings) (o : DemoOptions) (i left : Nat) (s : Scene) : Prop
    extends s.Processed settings o (i + 1) left where
  all : i + 1 + left = o.messages
  now : s.now = i * pause settings
  begun : s.now < o.timeout.ceilMillis
  told : s.notebook.progress = {}

namespace Told

variable {settings : Settings} {o : DemoOptions} {i left : Nat}

theorem done_iff (r : s.Told settings o i left) : s.count ≤ s.notebook.processed ↔ left = 0 := by
  have all := r.all
  rw [r.sameCount, r.processed]
  omega

/-- The wait finds all messages processed. -/
theorem concludes_done (r : s.Told settings o i 0) (correlationId : String) :
    Concludes settings o correlationId
      (s.done true (.pausing due) [] [s.alarm, ⟨due, 0⟩]) := by
  let t := s.hearing (s.notebook.progress.withdraw 1)
  have finished : (t.closed correlationId).Finished settings o (i + 1) 0 :=
    { r.hearing _ with
      all := r.all
      begun := .inr (by rw [Nat.add_sub_cancel, ← r.now]; exact r.begun)
      late := .inl rfl
      now := by
        rw [if_pos rfl, Nat.add_sub_cancel]
        exact r.now }
  exact ⟨_, _, _, rfl, settle_pausing correlationId _, finished⟩

/-- The time is up before the next round. -/
theorem concludes_late (r : s.Told settings o i (left + 1))
    (late : o.timeout.ceilMillis ≤ (i + 1) * pause settings) (correlationId : String) (fuel : Nat) :
    Concludes settings o correlationId
      (Wait.run (fuel + 2) ((s.hearing ⟨false, [1]⟩).resting ((i + 1) * pause settings))) := by
  let asking := s.hearing ⟨false, [1]⟩
  have up : asking.deadline = o.timeout.ceilMillis := r.sameDeadline
  have begun := r.begun
  have finished {now : Nat} (end_ : now = o.timeout.ceilMillis) (progress : Signal) :
      (({ asking with now }.hearing progress).closed correlationId).Finished settings o (i + 1)
        (left + 1) :=
    { ((r.hearing _).waited now).hearing progress with
      all := r.all
      begun := .inr (by rw [Nat.add_sub_cancel, ← r.now]; exact r.begun)
      late := .inr late
      now := by
        rw [if_neg (Nat.succ_ne_zero left)]
        exact end_ }
  have ahead : asking.now < (i + 1) * pause settings := Nat.lt_of_lt_of_le begun late
  rcases Nat.eq_or_lt_of_le (up ▸ late : asking.deadline ≤ _) with both | early
  · -- The loop is woken too, and finds the queue closed.
    rw [(works_both rfl (Nat.le_of_lt ahead) both).run, Wait.run_of_isOver rfl]
    exact ⟨_, _, _, rfl, settle_woken correlationId _, finished (both.symm.trans up) _⟩
  · rw [(works_early rfl (up ▸ Nat.le_of_lt begun) early).run, Wait.run_of_isOver rfl]
    exact ⟨_, _, _, rfl, settle_pausing correlationId _, finished up _⟩

/-- The next round, once the pause is over. -/
theorem round (r : s.Told settings o i (left + 1)) (counted : o.messages ≤ maxUnsigned64)
    (positive : 0 < pause settings) (early : (i + 1) * pause settings < o.timeout.ceilMillis) :
    ∃ s' : Scene, Works Wait.isOver Wait.next 10
        ((s.hearing ⟨false, [1]⟩).resting ((i + 1) * pause settings))
        (s'.attending .waiting (.pausing ((i + 2) * pause settings)) []
          [s'.alarm, ⟨(i + 2) * pause settings, 0⟩]) ∧
      s'.Told settings o (i + 1) left := by
  have all := r.all
  let asking := s.hearing ⟨false, [1]⟩
  let woken : Scene := { asking with now := (i + 1) * pause settings }
  have p : woken.Processed settings o (i + 1) (left + 1) := (r.hearing _).waited _
  have positive' : 0 < pause woken.settings := by rw [p.sameSettings]; exact positive
  obtain ⟨s', works, after, now, told⟩ := p.round (by omega) rfl positive'
  have length : (i + 1) * pause settings = i * pause settings + pause settings := Nat.succ_mul ..
  have length' : (i + 2) * pause settings = woken.now + pause settings := Nat.succ_mul ..
  have ahead : asking.now ≤ (i + 1) * pause settings := by
    rw [length, ← r.now]
    exact Nat.le_add_right ..
  refine ⟨s', ?_, { after with all := by omega, now := now, begun := now ▸ early, told := told }⟩
  rw [p.sameSettings, ← length'] at works
  exact .next rfl (next_resting_due ahead (r.sameDeadline ▸ early))
    (.next rfl (next_woken rfl) works)

/-- The rounds go on until no message is left or the next round would come too late. -/
theorem concludes (r : s.Told settings o i left) (counted : o.messages ≤ maxUnsigned64)
    (positive : 0 < pause settings) (correlationId : String) (fuel : Nat) :
    Concludes settings o correlationId (Wait.run (fuel + 13 * left + 2)
      (s.attending .waiting (.pausing ((i + 1) * pause settings)) []
        [s.alarm, ⟨(i + 1) * pause settings, 0⟩])) := by
  induction left generalizing i s with
  | zero =>
    rw [(works_over r.told (r.done_iff.2 rfl)).run, Wait.run_of_isOver rfl]
    exact r.concludes_done correlationId
  | succ left ih =>
    have few : ¬ s.count ≤ s.notebook.processed := fun done =>
      absurd (r.done_iff.1 done) (Nat.succ_ne_zero left)
    have asks : s.asked (.pausing ((i + 1) * pause settings)) []
        [s.alarm, ⟨(i + 1) * pause settings, 0⟩] =
        (s.hearing ⟨false, [1]⟩).resting ((i + 1) * pause settings) := by
      rw [asked, r.told]
      rfl
    have again : Works Wait.isOver Wait.next 3
        (s.attending .waiting (.pausing ((i + 1) * pause settings)) []
          [s.alarm, ⟨(i + 1) * pause settings, 0⟩])
        ((s.hearing ⟨false, [1]⟩).resting ((i + 1) * pause settings)) := by
      rw [← asks]
      exact works_again r.told few (Nat.not_le.2 (r.sameDeadline ▸ r.begun))
    by_cases late : o.timeout.ceilMillis ≤ (i + 1) * pause settings
    · have enough : fuel + 13 * (left + 1) + 2 = fuel + 13 * left + 10 + 2 + 3 := by omega
      rw [enough, again.run]
      exact r.concludes_late late correlationId _
    · obtain ⟨s', works, told⟩ := r.round counted positive (Nat.not_le.1 late)
      have enough : fuel + 13 * (left + 1) + 2 = fuel + 13 * left + 2 + (3 + 10) := by omega
      rw [enough, (again.trans works).run]
      exact ih told

end Told

end Scene

end PeekLock.Demo
