import PeekLock.Proofs.Demo.Course
import PeekLock.Proofs.Demo.Wait
import PeekLock.Proofs.Listener.Custody

/-! # The outcome of a demo

A demo processes one message a round, so that the last of `n` messages has its turn `n - 1` pauses
after the start.  If that is in time then every message has been received and settled once,
and otherwise the demo fails when its time is up; in either case its loop has stopped
(`outcome`).  What all demos have in common is `Scene.Finished`: so many messages
are processed as there are rounds before the deadline.
-/

namespace PeekLock.Demo

namespace Scene

variable {s : Scene}

/-! ## The beginning -/

/-- The scene in which a demo begins to send. -/
def opening (start : Timestamp) (correlationId : String) (settings : Settings) (o : DemoOptions) :
    Scene where
  start := start
  correlationId := correlationId
  settings := settings
  failEvery := o.failEvery
  now := 0
  opened := true
  storage := .empty
  counters := .empty
  calls := 0
  notebook := {}
  history := [⟨0, .opened 0 correlationId none⟩]
  count := o.messages
  deadline := o.timeout.ceilMillis

variable (start : Timestamp) (correlationId : String) {settings : Settings} {o : DemoOptions}

/-- All messages of a demo have been sent, and its loop has not run yet. -/
structure Fresh (settings : Settings) (o : DemoOptions) (s : Scene) : Prop where
  sameSettings : s.settings = settings
  sameFailEvery : s.failEvery = o.failEvery
  line : s.storage.visible.map (·.payload) = payloads o.messages 1 o.messages
  free : s.storage.locked = []
  now : s.now = 0
  counters : s.counters = .empty
  calls : s.calls = 0
  notebook : s.notebook = {}
  sameCount : s.count = o.messages
  sameDeadline : s.deadline = o.timeout.ceilMillis

theorem listen_gathering (f : s.Fresh settings o) (owed : List Announcement) :
    (s.gathering owed).listen 0 s.correlationId (receiver o.failEvery) =
      (s.broker .starting [] false owed [0] [], 0) := by
  have calls := f.calls
  have notebook := f.notebook
  rw [← f.sameFailEvery]
  cases s
  subst calls notebook
  rfl

theorem prepare_of_sendAll (valid : settings.check = .ok ()) (f : s.Fresh settings o)
    {owed : List Announcement}
    (sends : sendAll 0 s.correlationId o 1 o.messages
      ((opening start s.correlationId settings o).gathering []) = .ok (s.gathering owed)) :
    prepare start s.correlationId settings o =
      .ok ⟨s.broker .starting [] false owed [0] [], 0, 0, 0⟩ := by
  let made := ((Broker.new start).addCounters.1.addQueue settings (some 0)).1
  have makes : (Broker.new start).addCounters.1.newQueueOf settings (some 0) = .ok (made, 0) := by
    simp only [Broker.newQueueOf, valid]
    rfl
  have opens : made.openQueue 0 s.correlationId none =
      (opening start s.correlationId settings o).gathering [] := rfl
  have counters : (Broker.new start).addCounters.2 = 0 := rfl
  simp only [prepare, counters, makes, opens, sends, bind, Except.bind, listen_gathering f]
  rfl

theorem Fresh.wait (f : s.Fresh settings o) (owed : List Announcement) :
    (⟨s.broker .starting [] false owed [0] [], 0, 0, 0⟩ : Setup).wait o = s.beginning owed := by
  have now : (s.broker .starting [] false owed [0] []).now = 0 := f.now
  simp only [Setup.wait, now, Nat.zero_add]
  rw [← f.sameDeadline, ← f.sameCount]
  rfl

/-- The receiver of a demo gives a signal behind every message that it counts. -/
theorem tellsAll_receiver (failEvery : Option Nat) (n : Notebook) (e : Envelope) :
    Command.tellsAll ((receiver failEvery).plan n e) := by
  simp only [receiver]
  split <;> rfl

theorem Fresh.heeds (f : s.Fresh settings o) (owed : List Announcement) :
    ((⟨s.broker .starting [] false owed [0] [], 0, 0, 0⟩ : Setup).wait o).Heeds :=
  Wait.heeds_start ⟨rfl, rfl, tellsAll_receiver s.failEvery, rfl, fun _ _ _ => List.mem_cons_self⟩
    (congrArg Notebook.progress f.notebook) _ _

/-! ## Once all messages are sent -/

/-- Once the messages are announced, none has been processed. -/
theorem Fresh.announced (f : s.Fresh settings o) (counted : o.messages ≤ maxUnsigned64) :
    ∃ s' : Scene, Works Wait.isOver Wait.next o.messages
        (s.beginning (List.replicate o.messages ⟨0, 1⟩)) (s'.beginning []) ∧
      s'.Processed settings o 0 o.messages ∧ s'.now = 0 ∧ s'.notebook.progress = {} := by
  have none (event : QueueEvent) : s.total event = 0 := by
    rw [total, f.counters, Counters.get_empty]
  obtain ⟨counters, works, totals⟩ := works_announcing o.messages
    (by rw [none, Nat.zero_add]; exact counted)
  have nothing : deadLettered o.failEvery 0 = 0 := Nat.le_zero.1 (deadLettered_le _ 0)
  refine ⟨_, works, ⟨f.sameSettings, f.sameFailEvery, f.sameCount, f.sameDeadline, f.line, f.free,
    ?_, ?_, ?_⟩, f.now, congrArg Notebook.progress f.notebook⟩
  · intro event
    refine (totals event).trans ?_
    rw [none, Nat.zero_add]
    cases event with
    | sent | received => rfl
    | dead => exact nothing.symm
  · exact congrArg Notebook.processed f.notebook
  · rw [nothing]
    exact congrArg Notebook.completed f.notebook

/-- The first round of a demo, after the wait has asked. -/
theorem Processed.first_round {left : Nat} (p : s.Processed settings o 0 (left + 1))
    (now : s.now = 0) (all : 1 + left = o.messages) (counted : o.messages ≤ maxUnsigned64)
    (positive : 0 < pause settings) (begun : 0 < o.timeout.ceilMillis) :
    ∃ s' : Scene, Works Wait.isOver Wait.next 9 ((s.hearing ⟨false, [1]⟩).working .starting [])
        (s'.attending .waiting (.pausing ((0 + 1) * pause settings)) []
          [s'.alarm, ⟨(0 + 1) * pause settings, 0⟩]) ∧
      s'.Told settings o 0 left := by
  let asking := (s.hearing ⟨false, [1]⟩).note (.loopStarted 0 s.correlationId)
  have q : asking.Processed settings o 0 (left + 1) := { p.hearing ⟨false, [1]⟩ with }
  have positive' : 0 < pause asking.settings := by rw [q.sameSettings]; exact positive
  have start : asking.now = 0 := now
  obtain ⟨s', works, r, now', told⟩ := q.round (by omega) rfl positive'
  have due : asking.now + pause asking.settings = (0 + 1) * pause settings := by
    rw [start, q.sameSettings, Nat.succ_mul, Nat.zero_mul]
  rw [due] at works
  refine ⟨s', .next rfl next_starting works,
    { r with all := ?_, now := ?_, begun := ?_, told := told }⟩
  · rw [Nat.zero_add]
    exact all
  · rw [now', start, Nat.zero_mul]
  · rw [now', start]
    exact begun

/-- What a demo has come to that is over before its loop has run. -/
theorem Processed.finished_at_once (p : s.Processed settings o 0 o.messages) (now : s.now = 0)
    (out : o.messages = 0 ∨ o.timeout.ceilMillis = 0) (progress : Signal) :
    (((s.hearing progress).closed correlationId).note
      (.loopStarted 0 s.correlationId)).Finished settings o 0 o.messages :=
  { p.hearing progress with
    all := Nat.zero_add _
    begun := .inl rfl
    late := by
      rw [Nat.zero_mul]
      exact out.imp_right Nat.le_of_eq
    now := by
      rw [Nat.zero_sub, Nat.zero_mul]
      refine now.trans ?_
      split
      · rfl
      · exact (out.resolve_left ‹_›).symm }

/-- How a demo ends whose messages have all been sent. -/
theorem Fresh.concludes (f : s.Fresh settings o) (counted : o.messages ≤ maxUnsigned64)
    (positive : 0 < pause settings) (correlationId : String) :
    Concludes settings o correlationId
      ((s.beginning (List.replicate o.messages ⟨0, 1⟩)).run (steps o.messages)) := by
  obtain ⟨s', announces, p, now, told⟩ := f.announced counted
  have up : s'.deadline = o.timeout.ceilMillis := p.sameDeadline
  have waits : s'.count ≤ s'.notebook.processed ↔ o.messages = 0 := by
    rw [p.sameCount, p.processed]
    exact Nat.le_zero
  have fuel (n : Nat) : steps n = 99 * n + 98 + 2 + n := by
    simp only [steps]
    omega
  rw [fuel, announces.run]
  by_cases none : o.messages = 0
  · -- The wait is over at its first look.
    have works : Works Wait.isOver Wait.next 1 (s'.beginning [])
        (s'.done true .starting [0] []) := .next rfl (next_done (waits.2 none)) (.refl _)
    rw [works.run _, Wait.run_of_isOver rfl]
    refine ⟨_, 0, o.messages, ?_, settle_starting correlationId _,
      p.finished_at_once correlationId now (.inl none) _⟩
    rw [decide_eq_true none]
    rfl
  · obtain ⟨left, split⟩ : ∃ left, o.messages = left + 1 := ⟨o.messages - 1, by omega⟩
    have few : ¬ s'.count ≤ s'.notebook.processed := mt waits.1 none
    by_cases noTime : o.timeout.ceilMillis = 0
    · -- The time is up when it asks for the first time.
      have late : s'.deadline ≤ s'.now := by
        rw [up, noTime]
        exact Nat.zero_le _
      have works : Works Wait.isOver Wait.next 2 (s'.beginning [])
          (s'.done false .starting [0] []) :=
        .next rfl (next_few few) (.next rfl (next_asking_late told late) (.refl _))
      rw [works.run, Wait.run_of_isOver rfl]
      refine ⟨_, 0, o.messages, ?_, settle_starting correlationId _,
        p.finished_at_once correlationId now (.inr noTime) _⟩
      rw [decide_eq_false none]
      rfl
    · -- The first round takes no time, so that the loop gets as far as its pause.
      have early : ¬ s'.deadline ≤ s'.now := by
        rw [up, now]
        exact mt Nat.le_zero.1 noTime
      have asks : s'.asked .starting [0] [s'.alarm] =
          (s'.hearing ⟨false, [1]⟩).working .starting [] := by
        rw [asked, told]
        rfl
      have begins : Works Wait.isOver Wait.next 2 (s'.beginning [])
          ((s'.hearing ⟨false, [1]⟩).working .starting []) :=
        .next rfl (next_few few) (.next rfl ((next_asking told early).trans asks) (.refl _))
      rw [split] at p
      obtain ⟨t, works, r⟩ := p.first_round now (by omega) counted positive
        (Nat.pos_of_ne_zero noTime)
      have enough : 99 * o.messages + 98 + 2 =
          (99 * o.messages + 87 - 13 * left) + 13 * left + 2 + (2 + 9) := by
        omega
      rw [enough, (begins.trans works).run]
      exact r.concludes counted positive correlationId _

end Scene

/-! ## The outcome -/

open Scene

section

variable {settings : Settings} {o : DemoOptions} {i left : Nat} {t : Scene}

theorem pause_eq (settings : Settings) :
    pause settings = min settings.listenPollIntervalMs Broker.longestPause := by
  simp only [pause, Settings.listenOptions, Duration.ofMillis, Duration.ceilMillis]
  omega

/-- Settings that pass the check have the loop pause between rounds. -/
theorem pause_pos (valid : settings.check = .ok ()) : 0 < pause settings := by
  have timed := (Settings.isTimed_of_check valid).1
  have longest : 0 < Broker.longestPause := by decide
  rw [pause_eq]
  omega

/-- When the last message has its turn, in milliseconds from the start. -/
def lastRound (settings : Settings) (o : DemoOptions) : Nat :=
  (o.messages - 1) * settings.listenPollIntervalMs

/-- Where the last round is not too far off, no pause is cut short. -/
theorem lastRound_eq (near : lastRound settings o ≤ Broker.longestPause) :
    (o.messages - 1) * pause settings = lastRound settings o := by
  rcases Nat.eq_zero_or_pos (o.messages - 1) with none | more
  · simp only [lastRound, none, Nat.zero_mul]
  · have short : settings.listenPollIntervalMs ≤ Broker.longestPause :=
      Nat.le_trans (Nat.le_mul_of_pos_left _ more) near
    rw [pause_eq, Nat.min_eq_left short, lastRound]

/-- All messages are processed if the last has its turn in time. -/
theorem Scene.Finished.left_eq_zero_iff (f : t.Finished settings o i left) :
    left = 0 ↔ o.messages = 0 ∨ (o.messages - 1) * pause settings < o.timeout.ceilMillis := by
  have all := f.all
  constructor
  · rintro rfl
    obtain rfl : i = o.messages := all
    exact f.begun
  · rintro (none | inTime)
    · omega
    · rcases f.late with done | late
      · exact done
      · have last : o.messages - 1 < i :=
          Nat.lt_of_mul_lt_mul_right (Nat.lt_of_lt_of_le inTime late)
        omega

/-- What a demo reports that has processed all its messages. -/
def fullSummary (settings : Settings) (o : DemoOptions) : DemoSummary where
  queue := settings.name
  sent := o.messages
  received := o.messages
  completed := o.messages - deadLettered o.failEvery o.messages
  deadLettered := deadLettered o.failEvery o.messages

theorem Scene.Finished.summary (f : t.Finished settings o i 0) (waited : WaitStage) :
    (⟨waited, t.ended, 0, 0⟩ : Course).summary settings.name = fullSummary settings o := by
  have all : i = o.messages := f.all
  have total (event : QueueEvent) :
      (⟨waited, t.ended, 0, 0⟩ : Course).total settings.name event = tally o o.messages event := by
    rw [← all, ← f.total, ← f.sameSettings]
    rfl
  have completed : t.notebook.completed = o.messages - deadLettered o.failEvery o.messages :=
    Nat.eq_sub_of_add_eq (all ▸ f.completed)
  have noted : (Demo.notebook t.ended 0).completed = t.notebook.completed := rfl
  simp only [Course.summary, total, noted, completed, tally, fullSummary]

/-- A demo that does not hang: its wait ended with all messages processed or when its time was up,
    nothing goes on any more, and its loop has stopped. -/
structure Course.IsOver (c : Course) (o : DemoOptions) : Prop where
  waited : c.waited = .ended true ∨
    c.waited = .ended false ∧ c.broker.now = o.timeout.ceilMillis
  blocked : c.broker.isBlocked
  stopped : ∃ l, c.broker.task? c.loop = some (.listen l) ∧ l.isStopped

theorem Course.drained_ended (drained : Bool) (b : Broker) (loop : TaskId) (counters : Nat) :
    (⟨.ended drained, b, loop, counters⟩ : Course).drained = drained := by
  cases drained <;> rfl

theorem Scene.Finished.isOver (f : t.Finished settings o i left) :
    (⟨.ended (decide (left = 0)), t.ended, 0, 0⟩ : Course).IsOver o where
  waited := by
    by_cases done : left = 0
    · exact .inl (congrArg WaitStage.ended (decide_eq_true done))
    · exact .inr ⟨congrArg WaitStage.ended (decide_eq_false done), f.now.trans (if_neg done)⟩
  blocked := rfl
  stopped := ⟨_, rfl, rfl⟩

end

variable (start : Timestamp) (correlationId : String) {settings : Settings} {o : DemoOptions}

/-- Every demo is prepared. -/
theorem prepare_fresh (valid : settings.check = .ok ()) :
    ∃ s : Scene, prepare start correlationId settings o =
        .ok ⟨s.broker .starting [] false (List.replicate o.messages ⟨0, 1⟩) [0] [], 0, 0, 0⟩ ∧
      s.Fresh settings o := by
  obtain ⟨line, history, sends, carries⟩ :=
    (opening start correlationId settings o).sendAll_gathering o 1 o.messages []
  let sent : Scene := { opening start correlationId settings o with
    storage := { Storage.empty with visible := line }, history }
  have fresh : sent.Fresh settings o := ⟨rfl, rfl, carries, rfl, rfl, rfl, rfl, rfl, rfl, rfl⟩
  exact ⟨sent, prepare_of_sendAll start valid fresh sends, fresh⟩

theorem course_of_prepare {s : Setup} {w : Wait} {b : Broker}
    (prepares : prepare start correlationId settings o = .ok s)
    (waits : (s.wait o).run (steps o.messages) = w)
    (settles : (w.broker.closeQueue s.queue correlationId).settle (steps o.messages) = b) :
    course start correlationId settings o = .ok ⟨w.stage, b, s.loop, s.counters⟩ := by
  subst waits settles
  simp only [course, prepares, bind, Except.bind, pure, Except.pure]

/-- Every demo takes its course. -/
theorem course_finished (valid : settings.check = .ok ()) (counted : o.messages ≤ maxUnsigned64) :
    ∃ (t : Scene) (i left : Nat),
      course start correlationId settings o = .ok ⟨.ended (decide (left = 0)), t.ended, 0, 0⟩ ∧
        t.Finished settings o i left := by
  obtain ⟨s, prepares, fresh⟩ := prepare_fresh start correlationId (o := o) valid
  obtain ⟨t, i, left, waited, ends, finished⟩ :=
    fresh.concludes counted (pause_pos valid) correlationId
  refine ⟨t, i, left, ?_, finished⟩
  rw [← waited]
  exact course_of_prepare start correlationId prepares (congrArg _ (fresh.wait _)) ends

theorem run_of_course (divides : o.failEvery ≠ some 0) {c : Course}
    (ends : course start correlationId settings o = .ok c) :
    run start correlationId settings o =
      if c.drained then .ok (c.summary settings.name, c.broker.now) else .error (c.failure o) := by
  simp only [run, divides, ends, bind, Except.bind, pure, Except.pure, ↓reduceIte]

/-- A demo comes to an end.  If it succeeds, it has sent and received as many messages as it was
    to, dead-lettered those whose number is a multiple of the one given, and completed the others.
    It succeeds if the last message has its turn a millisecond before the time is up, and fails
    if a millisecond after.  Its wait for the messages misses no signal, in whatever order it and
    the loop take their turns; the order of the schedule is one of these. -/
theorem outcome (valid : settings.check = .ok ()) (counted : o.messages ≤ maxUnsigned64)
    (divides : o.failEvery ≠ some 0) :
    (∃ c, course start correlationId settings o = .ok c ∧ c.IsOver o) ∧
    (∀ summary took, run start correlationId settings o = .ok (summary, took) →
      summary = fullSummary settings o) ∧
    (lastRound settings o ≤ Broker.longestPause →
      (o.messages = 0 ∨
          (Duration.ofMillis (lastRound settings o + 1)).nanoseconds ≤ o.timeout.nanoseconds →
        ∃ summary took, run start correlationId settings o = .ok (summary, took)) ∧
      (1 ≤ o.messages ∧
          o.timeout.nanoseconds + (Duration.ofMillis 1).nanoseconds ≤
            (Duration.ofMillis (lastRound settings o)).nanoseconds →
        ∃ message, run start correlationId settings o = .error (.commandFailed message))) ∧
    ∃ s, prepare start correlationId settings o = .ok s ∧
      (∃ actions : List Action, (∀ action ∈ actions, action.isOfSchedule) ∧
        (s.wait o).run (steps o.messages) = (s.wait o).acts actions) ∧
      ∀ actions : List Action, (∀ action ∈ actions, action.isOfSchedule) →
        ((s.wait o).acts actions).MissesNothing := by
  obtain ⟨t, i, left, ends, f⟩ := course_finished start correlationId valid counted
  obtain ⟨s, prepares, fresh⟩ := prepare_fresh start correlationId (o := o) valid
  have runs := run_of_course start correlationId divides ends
  refine ⟨⟨_, ends, f.isOver⟩, fun summary took returns => ?_, fun near => ?_,
    _, prepares, Wait.run_eq_acts _ _, fun actions scheduled =>
      ((fresh.heeds _).acts scheduled).missesNothing⟩
  · cases left with
    | zero =>
      have reported := congrArg Prod.fst (Except.ok.inj (runs.symm.trans returns))
      exact reported.symm.trans (f.summary _)
    | succ left => exact absurd (runs.symm.trans returns) (by simp [Course.drained])
  · have inTime := f.left_eq_zero_iff
    rw [lastRound_eq near] at inTime
    simp only [Duration.ofMillis, Duration.ceilMillis] at inTime ⊢
    refine ⟨fun enough => ?_, fun little => ?_⟩
    · obtain rfl : left = 0 := inTime.2 (by omega)
      exact ⟨_, _, runs⟩
    · have late : left ≠ 0 := fun done => by
        have := inTime.1 done
        omega
      rw [Course.drained_ended, if_neg (by rwa [decide_eq_true_eq])] at runs
      exact ⟨_, runs⟩

/-- Three messages, every second of them dead-lettered, are processed within five seconds. -/
theorem outcome_of_three :
    (Settings.default.check = .ok () ∧ 3 ≤ maxUnsigned64 ∧ some 2 ≠ some 0) ∧
      ∃ took, run .epoch "c" Settings.default ⟨3, "demo", some 2, .ofMillis 5000⟩ =
        .ok (⟨"memory", 3, 3, 2, 1⟩, took) := by
  have valid : Settings.default.check = .ok () := by decide
  obtain ⟨_, reports, decides, _⟩ := outcome .epoch "c"
    (o := ⟨3, "demo", some 2, .ofMillis 5000⟩) valid (by decide) (by decide)
  obtain ⟨summary, took, returns⟩ := (decides (by decide)).1 (.inr (by decide))
  obtain rfl := reports summary took returns
  exact ⟨⟨valid, by decide, by decide⟩, took, returns⟩

end PeekLock.Demo
