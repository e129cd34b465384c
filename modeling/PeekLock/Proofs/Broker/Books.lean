import Mathlib.Data.List.Perm.Basic
import PeekLock.Proofs.Broker.Station
import PeekLock.Proofs.Counters
import PeekLock.Proofs.Listener.Ending
import PeekLock.Proofs.Queue.Tally

/-! # Counters and messages

What a queue hands out or gives up is counted at once; what it makes visible is counted
when that is announced.  So a total lags behind what has happened at the queue by just
what is owed in announcements, as long as no other queue counts at the same place, and
no total comes to its limit (`InBalance`).  The ingredient that is not obvious is that a
place at which no queue counts yet is blank: a queue may well be made with counters
that have been there for long.
-/

namespace PeekLock

/-- The place at which a queue of this setup counts an event: the counters, and the name. -/
def placeOf (setup : Settings × Option Nat) (event : QueueEvent) : Option (Nat × String) :=
  setup.2.map fun i => (i, counterName setup.1.name event.suffix)

namespace Broker

variable {b : Broker} {q : QueueId} {event : QueueEvent} {p : Nat × String}

/-! ## Totals -/

def countersOf? (b : Broker) (q : QueueId) : Option Nat :=
  (b.queue? q).bind (·.counters)

def place? (b : Broker) (q : QueueId) (event : QueueEvent) : Option (Nat × String) :=
  (b.queue? q).bind fun queue => placeOf queue.setup event

/-- The total at a place, zero where there are no counters. -/
def totalAt (b : Broker) (p : Nat × String) : Nat :=
  ((b.counters[p.1]?).map (·.get p.2)).getD 0

/-- How often an event has been counted at a queue, zero if it does not count. -/
def total (b : Broker) (q : QueueId) (event : QueueEvent) : Nat :=
  ((b.place? q event).map b.totalAt).getD 0

/-- The messages of a queue that have become visible and are still to be announced. -/
def owedTo (b : Broker) (q : QueueId) : Nat :=
  (b.owed.map fun a => if a.queue = q then a.count else 0).sum

theorem owedTo_of_nothing_owed (nothing : b.owed = []) (q : QueueId) : b.owedTo q = 0 := by
  simp only [owedTo, nothing, List.map_nil, List.sum_nil]

theorem place?_eq (b : Broker) (q : QueueId) (event : QueueEvent) :
    b.place? q event = ((b.queues.map Queue.setup)[q]?).bind (placeOf · event) := by
  rw [place?, queue?, List.getElem?_map]
  cases b.queues[q]? <;> rfl

theorem countersOf?_of_place? (counts : b.place? q event = some p) :
    b.countersOf? q = some p.1 := by
  simp only [place?, Option.bind_eq_some_iff, placeOf, Option.map_eq_some_iff] at counts
  obtain ⟨queue, there, i, counters, rfl⟩ := counts
  rw [countersOf?, there]
  exact counters

theorem place?_of_countersOf? {i : Nat} (counts : b.countersOf? q = some i) (event : QueueEvent) :
    ∃ name, b.place? q event = some (i, name) := by
  simp only [countersOf?, Option.bind_eq_some_iff] at counts
  obtain ⟨queue, there, counters⟩ := counts
  refine ⟨counterName queue.settings.name event.suffix, ?_⟩
  simp only [place?, there, Option.bind_some, placeOf, Queue.setup, counters, Option.map_some]

theorem event_inj {event' : QueueEvent} (here : b.place? q event = some p)
    (there : b.place? q event' = some p) : event = event' := by
  simp only [place?, Option.bind_eq_some_iff, placeOf, Option.map_eq_some_iff] at here there
  obtain ⟨queue, found, i, _, rfl⟩ := here
  obtain ⟨queue', found', _, _, same⟩ := there
  obtain rfl : queue = queue' := Option.some.inj (found.symm.trans found')
  exact (counterName_inj (Prod.mk.inj same).2).2.symm

theorem lt_length_of_place? (counts : b.place? q event = some p) : q < b.queues.length := by
  simp only [place?, Option.bind_eq_some_iff] at counts
  obtain ⟨queue, there, _⟩ := counts
  exact (List.getElem?_eq_some_iff.1 there).1

/-! ## What an action enters -/

/-- What is entered into counters, and for which queue. -/
structure Posting where
  queue : QueueId
  event : QueueEvent
  count : Nat

/-- What an action enters into the counters of the queue concerned, if it has any. -/
def posting? (b : Broker) : Action → Option Posting
  | .announce i => (b.owed[i]?).map fun a => ⟨a.queue, .sent, a.count⟩
  | action => (b.callOf action).bind fun (q, call) => (b.access q call).counted.map (⟨q, ·, 1⟩)

def posted (b : Broker) (action : Action) (q : QueueId) (event : QueueEvent) : Nat :=
  match b.posting? action with
  | some entry => if entry.queue = q ∧ entry.event = event then entry.count else 0
  | none => 0

def enter (b : Broker) : Option Posting → Broker
  | some entry => b.count entry.queue entry.event entry.count
  | none => b

def addedCounters : Action → List Counters
  | .addCounters => [.empty]
  | _ => []

/-- A call enters what it counts at once. -/
theorem counters_commit (b : Broker) (q : QueueId) (call : Call) :
    (b.commit (some (q, call))).counters =
      (b.enter ((b.access q call).counted.map (⟨q, ·, 1⟩))).counters := by
  cases counted : (b.access q call).counted <;>
    simp only [commit, enter, counted, Option.map_none, Option.map_some]

/-- The counters change by what is entered, and in no other way. -/
theorem counters_act (b : Broker) (action : Action) :
    (b.act action).counters = (b.enter (b.posting? action)).counters ++ addedCounters action := by
  have commit (c : Option (QueueId × Call)) : (b.commit c).counters =
      (b.enter (c.bind fun (q, call) =>
        (b.access q call).counted.map (⟨q, ·, 1⟩))).counters ++ [] := by
    cases c with
    | none => exact (List.append_nil _).symm
    | some c =>
      obtain ⟨q, call⟩ := c
      exact (b.counters_commit q call).trans (List.append_nil _).symm
  have called {x : Option TaskId} {c : Option (QueueId × Call)} {b' : Broker}
      (quiet : Quiet x (b.commit c) b') := quiet.counters.trans (commit c)
  cases action with
  | addCounters => rfl
  | newQueue name counters => exact (List.append_nil _).symm
  | newQueueOf settings counters =>
    rcases b.act_newQueueOf settings counters with refused | made
    · rw [refused]
      exact (List.append_nil _).symm
    · rw [made]
      exact (List.append_nil _).symm
  | ask q request =>
    simp only [act, posting?, callOf]
    split
    · exact called (quiet_ask request)
    · exact (List.append_nil _).symm
  | dropReceive id => exact called (c := none) (quiet_dropReceive id)
  | stopLoop id => exact called (c := none) (quiet_stopLoop (x := none) id)
  | releaseLoop id => exact called (c := none) (quiet_releaseLoop (x := none) id)
  | turn id => exact called (quiet_turn id)
  | announce i =>
    simp only [act, announce, posting?, addedCounters, List.append_nil]
    cases b.owed[i]? with
    | none => rfl
    | some a =>
      let rest : Broker := { b with owed := b.owed.eraseIdx i }
      have counters : (rest.notify a.queue).counters = b.counters := counters_notify ..
      -- Telling of messages changes neither the counters nor which queue counts where.
      simp only [Option.map_some, enter]
      rw [count_counters, count_counters, counters, cores_notify]
  | advance moment =>
    exact (Quiet.wakeAll (x := none) _ _).counters.trans (List.append_nil _).symm

theorem length_counters_enter (b : Broker) (posting : Option Posting) :
    (b.enter posting).counters.length = b.counters.length := by
  cases posting with
  | none => rfl
  | some entry =>
    simp only [enter, count_counters]
    split
    · exact List.length_modify ..
    · rfl

theorem length_counters_act (b : Broker) (action : Action) :
    (b.act action).counters.length = b.counters.length + (addedCounters action).length := by
  rw [counters_act, List.length_append, length_counters_enter]

theorem length_counters_le_act (b : Broker) (action : Action) :
    b.counters.length ≤ (b.act action).counters.length := by
  rw [length_counters_act]
  exact Nat.le_add_right ..

theorem totalAt_count (here : b.place? q event = some p) (inside : p.1 < b.counters.length)
    (n : Nat) : (b.count q event n).totalAt p = min (b.totalAt p + n) Counters.limit := by
  simp only [place?, Option.bind_eq_some_iff, placeOf, Option.map_eq_some_iff, Queue.setup] at here
  obtain ⟨queue, there, i, counters, rfl⟩ := here
  have found := List.getElem?_eq_getElem inside
  simp only [count, there, counters, totalAt, List.getElem?_modify, found, ↓reduceIte,
    Option.map_some, Option.getD_some]
  exact (Counters.get_add ..).trans (if_pos rfl)

theorem totalAt_count_of_other (other : b.place? q event ≠ some p) (n : Nat) :
    (b.count q event n).totalAt p = b.totalAt p := by
  obtain ⟨i, name⟩ := p
  simp only [count]
  cases there : b.queue? q with
  | none => rfl
  | some queue =>
    dsimp only
    cases counters : queue.counters with
    | none => rfl
    | some j =>
      simp only [totalAt, List.getElem?_modify]
      -- Counting into the same counters, a queue does so under another name.
      by_cases here : j = i
      · subst here
        have elsewhere : name ≠ counterName queue.settings.name event.suffix := by
          rintro rfl
          simp [place?, there, placeOf, Queue.setup, counters] at other
        cases b.counters[j]? with
        | none => rfl
        | some c => simp [Counters.get_add, elsewhere]
      · simp [here]

theorem totalAt_append {b' : Broker} {added : List Counters} (blank : ∀ c ∈ added, c = .empty)
    (same : b'.counters = b.counters ++ added) (p : Nat × String) : b'.totalAt p = b.totalAt p := by
  obtain ⟨i, name⟩ := p
  simp only [totalAt, same]
  rcases Nat.lt_or_ge i b.counters.length with old | new
  · rw [List.getElem?_append_left old]
  · rw [List.getElem?_append_right new, List.getElem?_eq_none new]
    cases found : added[i - b.counters.length]? with
    | none => rfl
    | some c =>
      rw [blank c (List.mem_of_getElem? found)]
      rfl

theorem totalAt_act (b : Broker) (action : Action) (p : Nat × String) :
    (b.act action).totalAt p = (b.enter (b.posting? action)).totalAt p := by
  refine totalAt_append (fun c member => ?_) (b.counters_act action) p
  cases action <;> simp_all [addedCounters]

/-! ## What is owed -/

/-- How far a total lags behind: what has become visible is counted only when announced. -/
def pending (b : Broker) (q : QueueId) : QueueEvent → Nat
  | .sent => b.owedTo q
  | .received | .dead => 0

theorem pending_of_ne (other : event ≠ .sent) (q : QueueId) : b.pending q event = 0 := by
  cases event with
  | sent => exact absurd rfl other
  | received | dead => rfl

/-- How many events of a kind an action brings about at a queue, sooner or later. -/
def broughtAbout (b : Broker) (action : Action) (q : QueueId) (event : QueueEvent) : Nat :=
  match b.access? q action with
  | some a => a.tallied event
  | none => 0

theorem tally_concat (history : List Access) (action : Action) :
    Access.tally event (history ++ (b.access? q action).toList) =
      Access.tally event history + b.broughtAbout action q event := by
  simp only [Access.tally, broughtAbout, List.map_append, List.sum_append]
  cases b.access? q action <;> simp

theorem owedTo_of_owed {b' : Broker} (same : b'.owed = b.owed) (q : QueueId) :
    b'.owedTo q = b.owedTo q := by
  rw [owedTo, owedTo, same]

theorem owedTo_commit (b : Broker) (q' : QueueId) (call : Call) (q : QueueId) :
    (b.commit (some (q', call))).owedTo q =
      b.owedTo q + if q' = q then (b.access q' call).enqueued.length else 0 := by
  simp only [owedTo, commit, List.map_append, List.sum_append]
  by_cases silent : (b.access q' call).enqueued = [] <;> simp [silent]

theorem owedTo_eraseIdx {i : Nat} {a : Announcement} (found : b.owed[i]? = some a) (q : QueueId) :
    ({ b with owed := b.owed.eraseIdx i } : Broker).owedTo q +
      (if a.queue = q then a.count else 0) = b.owedTo q := by
  obtain ⟨inside, rfl⟩ := List.getElem?_eq_some_iff.1 found
  have one := (List.getElem_cons_eraseIdx_perm inside).map
    fun a : Announcement => if a.queue = q then a.count else 0
  have sums := one.sum_nat
  simp only [List.map_cons, List.sum_cons] at sums
  simp only [owedTo]
  omega

/-- But for announcements, an action owes what its call makes visible, and enters what its call
    counts. -/
theorem owed_act {action : Action} (silent : ∀ i, action ≠ .announce i) :
    (b.act action).owed = (b.commit (b.callOf action)).owed ∧
      b.posting? action =
        (b.callOf action).bind fun (q, call) => (b.access q call).counted.map (⟨q, ·, 1⟩) := by
  cases action with
  | announce i => exact absurd rfl (silent i)
  | addCounters | newQueue name counters => exact ⟨rfl, rfl⟩
  | newQueueOf settings counters =>
    refine ⟨?_, rfl⟩
    rcases b.act_newQueueOf settings counters with refused | made
    · rw [refused]
      rfl
    · rw [made]
      rfl
  | ask q request =>
    refine ⟨?_, rfl⟩
    simp only [act, callOf]
    split
    · exact (quiet_ask request).owed
    · rfl
  | dropReceive id => exact ⟨(quiet_dropReceive id).owed, rfl⟩
  | stopLoop id => exact ⟨(quiet_stopLoop (x := none) id).owed, rfl⟩
  | releaseLoop id => exact ⟨(quiet_releaseLoop (x := none) id).owed, rfl⟩
  | turn id => exact ⟨(quiet_turn id).owed, rfl⟩
  | advance moment => exact ⟨(Quiet.wakeAll (x := none) _ _).owed, rfl⟩

/-- What an action brings about it counts at once, or leaves to be counted later. -/
theorem pending_act {action : Action}
    (calls : ∀ q call, b.callOf action = some (q, call) → q < b.queues.length) (q : QueueId)
    (event : QueueEvent) :
    (b.act action).pending q event + b.posted action q event =
      b.pending q event + b.broughtAbout action q event := by
  by_cases announces : ∃ i, action = .announce i
  · obtain ⟨i, rfl⟩ := announces
    -- An announcement brings about nothing, and counts what it was owed for.
    have nothing : b.broughtAbout (.announce i) q event = 0 := rfl
    simp only [nothing, Nat.add_zero, posted, posting?, act, announce]
    cases found : b.owed[i]? with
    | none => rfl
    | some a =>
      have erased := owedTo_eraseIdx found q
      cases event with
      | sent =>
        simp only [pending, Option.map_some, and_true]
        rw [owedTo_of_owed ((count_owed ..).trans (notify_same ..).2.1)]
        exact erased
      | received | dead => simp [pending]
  · obtain ⟨owed, posting⟩ := b.owed_act fun i same => announces ⟨i, same⟩
    have owedTo : (b.act action).owedTo q = (b.commit (b.callOf action)).owedTo q :=
      owedTo_of_owed owed q
    simp only [broughtAbout, access?, posted, posting]
    cases called : b.callOf action with
    | none =>
      rw [called] at owedTo
      cases event <;> simp [pending, owedTo, commit, accessAt]
    | some c =>
      obtain ⟨q', call⟩ := c
      have inside := calls q' call called
      rw [called, owedTo_commit] at owedTo
      by_cases here : q' = q
      · subst here
        have made : b.accessAt q' (some (q', call)) = some (b.access q' call) := by
          simp [accessAt, inside]
        simp only [made, Option.bind_some]
        by_cases visible : event = .sent
        · -- What becomes visible is never counted at once.
          subst visible
          cases counted : (b.access q' call).counted with
          | none => simp [pending, owedTo, Access.tallied]
          | some event' =>
            have other := (Access.counted_iff.1 counted).1
            simp [pending, owedTo, Access.tallied, other]
        · rw [pending_of_ne visible, pending_of_ne visible]
          by_cases counted : (b.access q' call).counted = some event
          · simp [counted, (Access.counted_iff.1 counted).2]
          · rw [Access.tallied_of_not_counted visible counted]
            cases other : (b.access q' call).counted with
            | none => rfl
            | some event' =>
              have differs : event' ≠ event := fun same => counted (same ▸ other)
              simp [differs]
      · have elsewhere : b.accessAt q (some (q', call)) = none := by simp [accessAt, here]
        simp only [elsewhere, Option.bind_some]
        cases (b.access q' call).counted <;> cases event <;> simp [pending, owedTo, here]

/-! ## In balance -/

def Alone (b : Broker) (q : QueueId) (p : Nat × String) : Prop :=
  ∀ q' event, b.place? q' event = some p → q' = q

/-- A total is what has happened, up to its limit, but for what is owed in announcements. -/
structure InBalance (b : Broker) (history : QueueId → List Access) : Prop where
  inside : ∀ q event p, b.place? q event = some p → p.1 < b.counters.length
  /-- Where no queue counts, nothing has been counted. -/
  blank : ∀ p, (∀ q event, b.place? q event ≠ some p) → b.totalAt p = 0
  /-- Nothing has happened at a queue that is still to come. -/
  fresh : ∀ q, b.queues.length ≤ q → b.owedTo q = 0 ∧ history q = []
  balance : ∀ q event p, b.place? q event = some p → b.Alone q p →
    ∃ n, b.totalAt p = min n Counters.limit ∧ n + b.pending q event = Access.tally event (history q)

def provides (b : Broker) (action : Action) : Bool :=
  match action.setup? with
  | some (_, some i) => i < b.counters.length
  | _ => true

theorem inBalance_new (start : Timestamp) : (new start).InBalance fun _ => [] where
  inside _ _ _ counts := by simp [place?, queue?, new] at counts
  blank _ _ := by simp [totalAt, new]
  fresh _ _ := ⟨rfl, rfl⟩
  balance _ _ _ counts := by simp [place?, queue?, new] at counts

theorem place?_act_of_lt (old : q < b.queues.length) (action : Action) (event : QueueEvent) :
    (b.act action).place? q event = b.place? q event := by
  rw [place?_eq, place?_eq, setups_act, List.getElem?_append_left (by simpa using old)]

theorem place?_act_of_le (new : b.queues.length ≤ q) {action : Action}
    (counts : (b.act action).place? q event = some p) :
    q = b.queues.length ∧ ∃ setup, action.setup? = some setup ∧ placeOf setup event = some p := by
  rw [place?_eq, setups_act, List.getElem?_append_right (by simpa using new), List.length_map]
    at counts
  obtain ⟨setup, found, place⟩ := Option.bind_eq_some_iff.1 counts
  have member := List.mem_of_getElem? found
  have short := (List.getElem?_eq_some_iff.1 found).1
  have made : action.setup? = some setup := Option.mem_toList.1 member
  rw [made] at short
  refine ⟨?_, setup, made, place⟩
  -- Behind the queues that there are is room for one.
  have one : [setup].length = 1 := rfl
  rw [Option.toList_some, one] at short
  exact Nat.le_antisymm (Nat.sub_eq_zero_iff_le.1 (Nat.lt_one_iff.1 short)) new

theorem posting?_of_setup? {action : Action} {setup : Settings × Option Nat}
    (makes : action.setup? = some setup) : b.posting? action = none := by
  cases action <;> first | rfl | simp [Action.setup?] at makes

theorem totalAt_enter_of_other {posting : Option Posting}
    (other : ∀ entry, posting = some entry → b.place? entry.queue entry.event ≠ some p) :
    (b.enter posting).totalAt p = b.totalAt p := by
  cases posting with
  | none => rfl
  | some entry => exact totalAt_count_of_other (other entry rfl) entry.count

theorem totalAt_act_of_alone (counts : b.place? q event = some p) (alone : b.Alone q p)
    (inside : p.1 < b.counters.length) (bounded : b.totalAt p ≤ Counters.limit) (action : Action) :
    (b.act action).totalAt p = min (b.totalAt p + b.posted action q event) Counters.limit := by
  rw [totalAt_act, posted]
  cases b.posting? action with
  | none => exact (Nat.min_eq_left bounded).symm
  | some entry =>
    by_cases here : b.place? entry.queue entry.event = some p
    · have queue := alone entry.queue entry.event here
      have event : entry.event = event := event_inj (queue ▸ here) counts
      simp only [enter, queue, event, and_self, ↓reduceIte]
      exact totalAt_count counts inside entry.count
    · have elsewhere : ¬ (entry.queue = q ∧ entry.event = event) := by
        rintro ⟨queue, event⟩
        exact here (queue ▸ event ▸ counts)
      simp only [enter, totalAt_count_of_other here, elsewhere, ↓reduceIte, Nat.add_zero]
      exact (Nat.min_eq_left bounded).symm

theorem InBalance.act {history : QueueId → List Access} (h : b.InBalance history) {action : Action}
    (calls : ∀ q call, b.callOf action = some (q, call) → q < b.queues.length)
    (provided : b.provides action) :
    (b.act action).InBalance fun q => history q ++ (b.access? q action).toList := by
  have older := b.length_counters_le_act action
  have persists {q : QueueId} {event : QueueEvent} {p : Nat × String}
      (counts : b.place? q event = some p) : (b.act action).place? q event = some p :=
    (place?_act_of_lt (lt_length_of_place? counts) action event).trans counts
  constructor
  case inside =>
    intro q event p counts
    by_cases old : q < b.queues.length
    · rw [place?_act_of_lt old] at counts
      exact Nat.lt_of_lt_of_le (h.inside q event p counts) older
    · obtain ⟨_, ⟨settings, counters⟩, makes, place⟩ := place?_act_of_le (Nat.not_lt.1 old) counts
      obtain ⟨i, rfl, rfl⟩ := Option.map_eq_some_iff.1 place
      simp only [provides, makes, decide_eq_true_eq] at provided
      exact Nat.lt_of_lt_of_le provided older
  case blank =>
    intro p unused
    have before : ∀ q event, b.place? q event ≠ some p := fun q event counts =>
      unused q event (persists counts)
    rw [totalAt_act, totalAt_enter_of_other fun entry _ => before entry.queue entry.event]
    exact h.blank p before
  case fresh =>
    intro q outside
    have before := Nat.le_trans (b.length_le_act action) outside
    obtain ⟨nothing, none⟩ := h.fresh q before
    -- No call is made at a queue that is still to come.
    have elsewhere : b.access? q action = .none := by
      rw [access?]
      cases b.callOf action with
      | none => rfl
      | some c => simp [accessAt, Nat.not_lt.2 before]
    have pending := pending_act calls q .sent
    simp only [Broker.pending, broughtAbout, elsewhere, nothing] at pending
    refine ⟨by omega, ?_⟩
    simp [none, elsewhere]
  case balance =>
    intro q event p counts alone
    have after := pending_act calls q event
    rw [tally_concat]
    by_cases old : q < b.queues.length
    · rw [place?_act_of_lt old] at counts
      have before : b.Alone q p := fun q' event' there => alone q' event' (persists there)
      obtain ⟨n, total, tally⟩ := h.balance q event p counts before
      have bounded : b.totalAt p ≤ Counters.limit := total ▸ Nat.min_le_right ..
      refine ⟨n + b.posted action q event, ?_, by omega⟩
      rw [totalAt_act_of_alone counts before (h.inside q event p counts) bounded, total]
      omega
    · -- A new queue finds its place blank, or somebody else would count there.
      obtain ⟨rfl, setup, makes, _⟩ := place?_act_of_le (Nat.not_lt.1 old) counts
      have unused : ∀ q' event', b.place? q' event' ≠ some p := fun q' event' there =>
        absurd (alone q' event' (persists there)) (Nat.ne_of_lt (lt_length_of_place? there))
      obtain ⟨nothing, none⟩ := h.fresh _ (Nat.le_refl _)
      have silent : b.posting? action = .none := posting?_of_setup? makes
      refine ⟨0, ?_, ?_⟩
      · rw [totalAt_act, silent, enter, h.blank p unused]
        rfl
      · have before : b.pending b.queues.length event = 0 := by
          cases event <;> first | rfl | exact nothing
        simp only [posted, silent, before] at after
        rw [none]
        simp only [Access.tally, List.map_nil, List.sum_nil]
        omega

theorem inBalance_run {start : Timestamp} {actions : List Action}
    (provided : ∀ step ∈ (new start).steps actions, step.1.provides step.2) :
    ((new start).run actions).InBalance fun q => (new start).accesses q actions := by
  induction actions using List.reverseRecOn with
  | nil => exact inBalance_new start
  | append_singleton front action ih =>
    simp only [steps_append, List.mem_append] at provided
    have before := ih fun step member => provided step (.inl member)
    have after := before.act (fun q call => inside_of_callOf)
      (provided (_, action) (.inr (List.mem_singleton_self _)))
    simp only [run_append, run_cons, run_nil, accesses_append, accesses, List.append_nil]
    exact after

theorem releaseExpired_fst (b : Broker) (q : QueueId) (c : String) :
    (b.releaseExpired q c).1 = (b.access q .releaseExpired).swept := by
  simp [releaseExpired, Access.swept, access, Storage.sweep]

/-- The counters of a queue that alone counts into them agree with what has happened there: with
    the sends, settlements and sweeps, with what receives were handed, and, while nobody drops all
    messages, with the messages that are visible and locked.  An operation that makes messages
    visible owes an announcement only until it is over. -/
theorem counters_reconcile {start : Timestamp} {actions : List Action} {q : QueueId} {i : Nat}
    (provided : ∀ step ∈ (new start).steps actions, step.1.provides step.2)
    (counts : ((new start).run actions).countersOf? q = some i)
    (alone : ∀ q', ((new start).run actions).countersOf? q' = some i → q' = q)
    (below : ∀ event, Access.tally event ((new start).accesses q actions) < 2 ^ 64) :
    let b := (new start).run actions
    let history := (new start).accesses q actions
    b.total q .sent + b.owedTo q =
        history.countP (·.call.isSend) + Access.settlements .requeued history +
          Access.sweeps history ∧
      b.total q .received = (history.filterMap Access.delivered).length ∧
      b.total q .dead = Access.settlements .deadLettered history ∧
      (b.owed = [] → b.owedTo q = 0) ∧
      (∀ c, (b.releaseExpired q c).1 = (b.access q .releaseExpired).swept) ∧
      (∀ id timeout, b.callOfTask id = some (q, .take timeout) →
        (b.turn id).handed? id = (b.access q (.take timeout)).delivered) ∧
      ((∀ a ∈ history, a.call.isClear = false) →
        b.total q .sent + b.owedTo q = b.total q .received + (b.storageOf q).visible.length ∧
          b.total q .received = (b.storageOf q).locked.length +
            Access.settlements .completed history + b.total q .dead +
            (Access.settlements .requeued history + Access.settlements .dropped history) +
            Access.sweeps history) := by
  intro b history
  have totals (event : QueueEvent) :
      b.total q event + b.pending q event = Access.tally event history := by
    obtain ⟨name, place⟩ := place?_of_countersOf? counts event
    have apart : b.Alone q (i, name) := fun q' _ there => alone q' (countersOf?_of_place? there)
    obtain ⟨n, total, tally⟩ := (inBalance_run provided).balance q event (i, name) place apart
    have limit : Counters.limit = 2 ^ 64 - 1 := rfl
    have small := below event
    have shown : b.total q event = b.totalAt (i, name) := by
      rw [Broker.total, show b.place? q event = _ from place]
      rfl
    rw [shown, show b.totalAt (i, name) = _ from total]
    -- Below the limit a total shows all that was counted.
    have whole : min n Counters.limit = n := Nat.min_eq_left (by omega)
    rw [whole]
    exact tally
  have sent : b.total q .sent + b.owedTo q = Access.tally .sent history := totals .sent
  have received : b.total q .received = Access.tally .received history := totals .received
  have dead : b.total q .dead = Access.tally .dead history := totals .dead
  refine ⟨sent.trans (Access.tally_sent history), received.trans (Access.tally_received history),
    dead.trans (Access.tally_dead history), fun nothing => owedTo_of_nothing_owed nothing q,
    releaseExpired_fst b q, fun id timeout => handed?_turn, fun kept => ⟨?_, ?_⟩⟩
  · rw [sent, received]
    exact tally_sent_run kept
  · have balance : Access.tally .received history = (b.storageOf q).locked.length +
        history.countP (·.settled?.isSome) + Access.sweeps history := tally_received_run kept
    rw [Access.countP_settled] at balance
    rw [received, dead, Access.tally_dead, balance]
    omega

/-- A queue counts while another one does not: one message is given up, and one that has been
    sent is not announced yet. -/
theorem counters_reconcile_beside_other :
    let actions : List Action := [.addCounters, .newQueue ⟨"jobs"⟩ (some 0),
      .newQueue ⟨"mail"⟩ none, .ask 0 (.send "" .empty), .announce 0,
      .ask 0 (.receive "" (.ofMillis 1000)), .turn 0, .turn 0,
      .ask 0 (.deadLetter { Envelope.empty with reference := some ⟨1, 0⟩ }),
      .ask 1 (.send "" .empty), .ask 0 (.send "" .empty)]
    let b := (new .epoch).run actions
    b.total 0 .sent = 1 ∧ b.owedTo 0 = 1 ∧ b.total 0 .received = 1 ∧ b.total 0 .dead = 1 ∧
      b.total 0 .sent + b.owedTo 0 = b.total 0 .received + (b.storageOf 0).visible.length := by
  intro actions b
  have only (q : QueueId) (counts : b.countersOf? q = some 0) : q = 0 := by
    match q with
    | 0 => rfl
    | 1 => exact absurd counts (by decide)
    | n + 2 =>
      have two : b.queues.length = 2 := by decide
      have outside : b.queue? (n + 2) = none := List.getElem?_eq_none (two ▸ Nat.le_add_left 2 n)
      simp [countersOf?, outside] at counts
  have provided : ∀ step ∈ (new .epoch).steps actions, step.1.provides step.2 := by decide
  have reconciled := counters_reconcile provided (by decide) only
    (fun event => by cases event <;> decide)
  exact ⟨by decide, by decide, by decide, by decide, (reconciled.2.2.2.2.2.2 (by decide)).1⟩

end Broker

end PeekLock
