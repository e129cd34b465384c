import PeekLock.Proofs.Listener.Scope

/-! # What ends a loop

A loop that was started by listening at a queue is cancelled by whatever ends the
listening there after it was started, whether a caller does that or a receiver, and by
what stops this one loop.  Nothing else cancels it: not the stopping of other loops,
not what happens at other queues, and not what happened before (`isCancelled_run`).

A loop that has been cancelled is woken, and ends when it takes its turn.  The scope
above keeps a list of those below that somebody still holds, and only loops that are
on it are woken; so the second half rests on `Broker.Held`, which says that every loop
is, until it is over.
-/

namespace PeekLock

namespace Broker

variable {b : Broker}

/-! ## Steps of a run -/

/-- The steps of a run: each action with the broker that it finds. -/
def steps (b : Broker) : List Action → List (Broker × Action)
  | [] => []
  | a :: rest => (b, a) :: steps (b.act a) rest

theorem steps_append (b : Broker) (front back : List Action) :
    b.steps (front ++ back) = b.steps front ++ (b.run front).steps back := by
  induction front generalizing b with
  | nil => rfl
  | cons action rest ih => exact congrArg ((b, action) :: ·) (ih (b.act action))

theorem mem_steps (b : Broker) (front : List Action) (action : Action) (back : List Action) :
    (b.run front, action) ∈ b.steps (front ++ action :: back) := by
  rw [steps_append]
  exact List.mem_append_right _ (List.mem_cons_self ..)

/-- Whether an action ends the listening at a queue. -/
def endsListening (b : Broker) (q : QueueId) : Action → Bool
  | .ask q' (.endListen _) | .ask q' (.closeQueue _) => q' = q
  | .turn id => (b.loop? id).any fun l => l.queue = q && l.endsListening
  | _ => false

theorem endsListening_turn {q : QueueId} {id : TaskId} :
    b.endsListening q (.turn id) ↔ ∃ l, b.loop? id = some l ∧ l.queue = q ∧ l.endsListening := by
  cases there : b.loop? id <;> simp [endsListening, there]

/-- Ending the listening at a queue cancels the present scope of the queue. -/
theorem ended?_of_endsListening {q : QueueId} {action : Action} (ends : b.endsListening q action) :
    b.ended? action = b.scopeOf? q := by
  cases action with
  | ask q' request =>
    cases request with
    | closeQueue c | endListen c =>
      obtain rfl : q' = q := of_decide_eq_true ends
      rfl
    | _ => simp [endsListening] at ends
  | turn id =>
    obtain ⟨l, there, rfl, receiver⟩ := endsListening_turn.1 ends
    simp only [ended?, there, Option.bind_some, endedByReceiver?, receiver, ↓reduceIte]
  | _ => simp [endsListening] at ends

/-- What an action cancels is the scope of a queue where it ends the listening, or that of a loop
    that it stops. -/
theorem ended?_cases {action : Action} {s : ScopeId} (ended : b.ended? action = some s) :
    (∃ q, b.endsListening q action ∧ b.scopeOf? q = some s) ∨
      ∃ id l, action = .stopLoop id ∧ b.loop? id = some l ∧ l.scope = s := by
  cases action with
  | ask q request =>
    cases request with
    | closeQueue c | endListen c => exact .inl ⟨q, decide_eq_true rfl, ended⟩
    | _ => simp [ended?] at ended
  | stopLoop id =>
    obtain ⟨l, there, same⟩ := Option.map_eq_some_iff.1 ended
    exact .inr ⟨id, l, rfl, there, same⟩
  | turn id =>
    obtain ⟨l, there, same⟩ := Option.bind_eq_some_iff.1 ended
    simp only [endedByReceiver?, Option.ite_none_right_eq_some] at same
    exact .inl ⟨l.queue, endsListening_turn.2 ⟨l, there, rfl, same.1⟩, same.2⟩
  | _ => simp [ended?] at ended

/-! ## Cancelling one loop -/

/-- A loop that listens at a queue: it stands below some scope, and is not cancelled on
    purpose. -/
structure Listens (b : Broker) (id : TaskId) (l : Loop) : Prop where
  origin : b.origin? id = some l
  parent : ∃ p, b.parent? l.scope = some p
  sound : l.faults = {}

section Cancelled

variable {id : TaskId} {l : Loop}

theorem Listens.loop? (listens : b.Listens id l) :
    ∃ l', b.loop? id = some l' ∧ l'.asStarted = l :=
  Option.map_eq_some_iff.1 listens.origin

theorem Listens.asStarted_eq {l' : Loop} (listens : b.Listens id l) (there : b.loop? id = some l') :
    l'.asStarted = l := by
  obtain ⟨l'', found, same⟩ := listens.loop?
  obtain rfl := Option.some.inj (there.symm.trans found)
  exact same

theorem Listens.faults_eq {l' : Loop} (listens : b.Listens id l) (there : b.loop? id = some l') :
    l'.faults = {} := by
  have same : l'.faults = l.faults := congrArg (·.faults) (listens.asStarted_eq there)
  rw [same, listens.sound]

theorem parent?_cancelIf (b : Broker) (s? : Option ScopeId) (i : ScopeId) :
    (b.cancelIf s?).parent? i = b.parent? i := by
  cases s? with
  | none => rfl
  | some s => exact parent?_cancel b s i

theorem Scoped.isCancelled_cancelIf (h : b.Scoped) {s? : Option ScopeId}
    (inside : ∀ s, s? = some s → s < b.scopes.length) (i : ScopeId) :
    (b.cancelIf s?).isCancelled i ↔
      b.isCancelled i ∨ ∃ s, s? = some s ∧ (i = s ∨ b.parent? i = some s) := by
  cases s? with
  | none => simp [Broker.cancelIf]
  | some s => simpa [Broker.cancelIf] using h.isCancelled_cancel (inside s rfl) i

theorem origin?_of_loop? (there : b.loop? id = some l) : b.origin? id = some l.asStarted :=
  congrArg (Option.map _) there

theorem Listens.act (listens : b.Listens id l) (h : b.Scoped) (action : Action) :
    (b.act action).Listens id l := by
  obtain ⟨origin, ⟨p, below⟩, sound⟩ := listens
  cases kind : action.arranges with
  | true =>
    have extended := (h.arrange kind).2
    exact ⟨extended.origin? id l origin,
      ⟨p, (extended.parent? _ (h.inside id l origin)).trans below⟩, sound⟩
  | false =>
    obtain ⟨s?, calm, _⟩ := b.calm_act kind
    refine ⟨?_, ⟨p, ?_⟩, sound⟩
    · rw [calm.origin?, origin?_cancelIf, origin]
    · rw [parent?_eq calm.listening, parent?_cancelIf, below]

theorem endsListening_of_arranges {q : QueueId} {action : Action} (arranges : action.arranges) :
    b.endsListening q action = false := by
  cases action with
  | ask q' request => cases request <;> first | rfl | simp [Action.arranges] at arranges
  | turn _ => simp [Action.arranges] at arranges
  | _ => rfl

/-- Of the scopes of loops only its own matters to a loop. -/
theorem Scoped.eq_of_hit (h : b.Scoped) (origin : b.origin? id = some l) {id' : TaskId} {l' : Loop}
    (there : b.loop? id' = some l')
    (hit : l.scope = l'.scope ∨ b.parent? l.scope = some l'.scope) : id = id' ∧ l = l'.asStarted := by
  have origin' := origin?_of_loop? there
  rcases hit with same | child
  · obtain rfl := h.apart id id' l _ origin origin' same
    exact ⟨rfl, Option.some.inj (origin.symm.trans origin')⟩
  · exact absurd child ((h.leaf id' _ origin').2 l.scope)

theorem Scoped.inside_of_ended? (h : b.Scoped) {action : Action} {s : ScopeId}
    (ended : b.ended? action = some s) : s < b.scopes.length := by
  rcases ended?_cases ended with ⟨q, -, has⟩ | ⟨_, l', -, there, rfl⟩
  · exact (h.root q s has).1
  · exact h.inside _ l'.asStarted (origin?_of_loop? there)

/-- Only scopes that there are get cancelled. -/
theorem Scoped.inside_of_cancels (h : b.Scoped) {action : Action} {s? : Option ScopeId}
    (which : s? = b.ended? action ∨
      ∃ id l, action = .turn id ∧ b.loop? id = some l ∧ OnPurpose l s?)
    (s : ScopeId) (cancels : s? = some s) : s < b.scopes.length := by
  rcases which with ended | ⟨_, l, -, there, -, -, own⟩
  · exact h.inside_of_ended? (ended.symm.trans cancels)
  · obtain rfl := Option.some.inj (own.symm.trans cancels)
    exact h.inside _ l.asStarted (origin?_of_loop? there)

/-- One action cancels a loop that listens if it ends the listening at its queue or stops it. -/
theorem isCancelled_act (h : b.Scoped) (listens : b.Listens id l) (action : Action) :
    (b.act action).isCancelled l.scope ↔
      b.isCancelled l.scope ∨ b.endsListening l.queue action ∨ action = .stopLoop id := by
  obtain ⟨origin, ⟨p, below⟩, sound⟩ := listens
  obtain ⟨queues, parents⟩ := h.leaf id l origin
  cases kind : action.arranges with
  | true =>
    have idle := endsListening_of_arranges (b := b) (q := l.queue) kind
    have other : action ≠ .stopLoop id := by
      rintro rfl
      simp [Action.arranges] at kind
    simp [(h.arrange kind).2.isCancelled _ (h.inside id l origin), idle, other]
  | false =>
    obtain ⟨s?, calm, which⟩ := b.calm_act kind
    rw [isCancelled_eq calm.listening, h.isCancelled_cancelIf (h.inside_of_cancels which)]
    cases dead : b.isCancelled l.scope with
    | true => simp
    | false =>
      have present := h.current id l p origin below dead
      simp only [Bool.false_eq_true, false_or]
      constructor
      · -- The scope that was cancelled is the loop's own or the one above it, which is its queue's.
        rintro ⟨s, some, hit⟩
        rcases which with ended | ⟨id', l', rfl, there, -, faulty, own⟩
        · rcases ended?_cases (ended.symm.trans some) with ⟨q, ends, has⟩ | ⟨id', l', rfl, there, rfl⟩
          · rcases hit with rfl | child
            · exact absurd has (queues q)
            · obtain rfl := Option.some.inj (below.symm.trans child)
              exact .inl (h.own q l.queue p has present ▸ ends)
          · exact .inr (congrArg Action.stopLoop (h.eq_of_hit origin there hit).1.symm)
        · obtain rfl := Option.some.inj (own.symm.trans some)
          obtain ⟨-, rfl⟩ := h.eq_of_hit origin there hit
          exact absurd sound faulty
      · rintro (ends | rfl)
        · -- A receiver that ends the listening does so in a step of its own.
          have ended : s? = b.ended? action := by
            refine which.resolve_right ?_
            rintro ⟨id', l', rfl, there, quiet, -⟩
            obtain ⟨l'', there', -, ends'⟩ := endsListening_turn.1 ends
            obtain rfl := Option.some.inj (there.symm.trans there')
            simp [quiet] at ends'
          exact ⟨p, by rw [ended, ended?_of_endsListening ends, present], .inr below⟩
        · have ended : s? = b.ended? (.stopLoop id) := by
            refine which.resolve_right ?_
            rintro ⟨id', _, other, _⟩
            simp at other
          obtain ⟨l', there, rfl⟩ := Option.map_eq_some_iff.1 origin
          exact ⟨l'.scope, by rw [ended, ended?, there, Option.map_some], .inl rfl⟩

/-- So does a run: what has to be looked at are its steps, and nothing before. -/
theorem isCancelled_run (h : b.Scoped) (listens : b.Listens id l) (more : List Action) :
    (b.run more).isCancelled l.scope ↔ b.isCancelled l.scope ∨ ∃ b' action,
      (b', action) ∈ b.steps more ∧ (b'.endsListening l.queue action ∨ action = .stopLoop id) := by
  induction more generalizing b with
  | nil => simp [steps]
  | cons action rest ih =>
    rw [run_cons, ih (h.act action) (listens.act h action), isCancelled_act h listens]
    rw [or_assoc]
    refine or_congr_right ⟨?_, ?_⟩
    · rintro (now | ⟨b', action', later, ends⟩)
      · exact ⟨b, action, List.mem_cons_self .., now⟩
      · exact ⟨b', action', List.mem_cons_of_mem _ later, ends⟩
    · rintro ⟨b', action', member, ends⟩
      rcases List.mem_cons.1 member with now | later
      · obtain ⟨rfl, rfl⟩ := Prod.mk.inj now
        exact .inl ends
      · exact .inr ⟨b', action', later, ends⟩

end Cancelled

end Broker

/-! ## Being woken -/

/-- Whether a loop may be blocked, where its scope has been cancelled or not: it is over, its
    receiver waits, or nothing has ended the listening. -/
def Loop.mayRest (cancelled : Bool) (l : Loop) : Bool :=
  match l.stage with
  | .stopped | .delayed .. => true
  | .waiting _ | .pausing _ => !cancelled
  | _ => false

/-- A loop that may not be blocked any more watches a scope that has been cancelled just now. -/
theorem Loop.of_mayRest {l : Loop} {before after : Bool} (rests : l.mayRest before)
    (restless : l.mayRest after = false) :
    before = false ∧ after = true ∧ l.isWatching ∧ l.isStopped = false := by
  cases stage : l.stage <;> cases before <;> cases after <;>
    simp_all [Loop.mayRest, Loop.isWatching, Loop.isStopped]

namespace Broker

variable {b b' : Broker}

/-- The scopes right below that somebody still holds. -/
def children (b : Broker) (s : ScopeId) : List ScopeId :=
  match b.scopes[s]? with
  | some scope => scope.children
  | none => []

/-- Every loop that is not over is on the list of the scope above it, and goes on unless it may
    be blocked. -/
structure Wakeful (b : Broker) : Prop where
  held : ∀ id l p, b.loop? id = some l → l.isStopped = false → b.parent? l.scope = some p →
    l.scope ∈ b.children p
  heeds : ∀ id l, b.loop? id = some l → id ∈ b.ready ∨ l.mayRest (b.isCancelled l.scope)

theorem children_of_scopes (same : b'.scopes = b.scopes) (p : ScopeId) :
    b'.children p = b.children p := by
  simp only [children, same]

theorem children_cancel (b : Broker) (s p : ScopeId) : (b.cancel s).children p = b.children p := by
  simp only [children, scopes_cancel]
  cases b.scopes[p]? with
  | none => rfl
  | some scope =>
    by_cases hit : b.isCancelled s = false ∧ (p = s ∨ scope.parent = some s) <;> simp [hit]

theorem mem_children_openScope {p c : ScopeId} (member : c ∈ b.children p)
    (parent : Option ScopeId) : c ∈ (b.openScope parent).1.children p := by
  simp only [children] at member ⊢
  cases found : b.scopes[p]? with
  | none => simp [found] at member
  | some scope =>
    rw [found] at member
    have old : p ≠ b.scopes.length := Nat.ne_of_lt (List.getElem?_eq_some_iff.1 found).1
    rw [scopes_openScope, if_neg old, found, Option.map_some]
    by_cases above : some p = parent <;> simp [above, member]

theorem new_mem_children_openScope {p : ScopeId} (inside : p < b.scopes.length) :
    b.scopes.length ∈ (b.openScope (some p)).1.children p := by
  simp only [children]
  rw [scopes_openScope, if_neg (Nat.ne_of_lt inside), List.getElem?_eq_getElem inside]
  simp

theorem mem_swapOut {α : Type} [DecidableEq α] {x y : α} {xs : List α} (member : y ∈ xs)
    (other : y ≠ x) (there : x ∈ xs) : y ∈ swapOut x xs := by
  obtain ⟨front, last, rfl⟩ : ∃ front last, xs = front ++ [last] :=
    ⟨xs.dropLast, xs.getLast (List.ne_nil_of_mem member), (List.dropLast_append_getLast _).symm⟩
  simp only [swapOut, List.getLast?_concat, List.dropLast_concat]
  split
  · rename_i same
    exact (List.mem_append.1 member).resolve_right fun at_last =>
      other ((List.mem_singleton.1 at_last).trans same.symm)
  · rename_i elsewhere
    have within : x ∈ front := (List.mem_append.1 there).resolve_right fun at_last =>
      elsewhere (List.mem_singleton.1 at_last)
    rcases List.mem_append.1 member with before | at_last
    · exact List.mem_map.2 ⟨y, before, if_neg other⟩
    · -- The last item stands in the place that has become free.
      exact List.mem_map.2 ⟨x, within, by rw [if_pos rfl, List.mem_singleton.1 at_last]⟩

theorem mem_children_releaseScope {p c s : ScopeId} (member : c ∈ b.children p) (other : c ≠ s) :
    c ∈ (b.releaseScope s).children p := by
  simp only [children, releaseScope, List.getElem?_map] at member ⊢
  cases found : b.scopes[p]? with
  | none => simp [found] at member
  | some scope =>
    rw [found] at member
    by_cases holds : s ∈ scope.children
    · simp only [Option.map_some, if_pos holds]
      exact mem_swapOut member other holds
    · simp only [Option.map_some, if_neg holds]
      exact member

/-! ## What keeps loops wakeful -/

theorem wakeful_new (start : Timestamp) : (new start).Wakeful where
  held _ _ _ there := by simp [loop?, task?, new] at there
  heeds _ _ there := by simp [loop?, task?, new] at there

theorem hit_of_cancel {s i : ScopeId} (before : b.isCancelled i = false)
    (after : (b.cancel s).isCancelled i) :
    b.isCancelled s = false ∧ (i = s ∨ b.parent? i = some s) := by
  by_contra missed
  have scopes := b.scopes_cancel s i
  cases found : b.scopes[i]? with
  | none =>
    rw [found, Option.map_none] at scopes
    simp [isCancelled, scopes] at after
  | some scope =>
    have parent : b.parent? i = scope.parent := by simp only [parent?, found, Option.bind_some]
    rw [found, Option.map_some, if_neg (parent ▸ missed), ← found] at scopes
    simp only [isCancelled, scopes] at after
    exact absurd (before.symm.trans after) Bool.false_ne_true

/-- Cancelling a scope wakes the blocked loops at it and below it. -/
theorem Wakeful.cancel (w : b.Wakeful) (h : b.Scoped) (s : ScopeId) : (b.cancel s).Wakeful := by
  have loops := loop?_of_tasks (tasks_cancel b s)
  constructor
  case held =>
    intro id l p there live below
    rw [loops] at there
    rw [parent?_cancel] at below
    rw [children_cancel]
    exact w.held id l p there live below
  case heeds =>
    intro id l there
    rw [loops] at there
    rw [mem_ready_cancel]
    rcases w.heeds id l there with inLine | rests
    · exact .inl (.inl inLine)
    · cases restless : l.mayRest ((b.cancel s).isCancelled l.scope) with
      | true => exact .inr rfl
      | false =>
        obtain ⟨before, after, watching, live⟩ := Loop.of_mayRest rests restless
        obtain ⟨fresh, hit⟩ := hit_of_cancel before after
        refine .inl (.inr ⟨fresh, mem_followers.2 ?_⟩)
        have inside : s < b.scopes.length := by
          rcases hit with same | below
          · exact same ▸ h.inside id l.asStarted (origin?_of_loop? there)
          · exact (h.below l.scope s below).1
        have found : b.scopes[s]? = some b.scopes[s] := List.getElem?_eq_getElem inside
        refine ⟨_, l, found, there, watching, hit.imp_right fun below => ?_⟩
        have onList := w.held id l s there live below
        simpa only [children, found] using onList

/-- What has no part in listening leaves loops wakeful, but for the one that takes a step. -/
theorem Wakeful.calm {x : Option TaskId} (w : b.Wakeful) (calm : Calm x b b')
    (actor : ∀ id l, some id = x → b'.loop? id = some l →
      (l.isStopped = false → ∃ l₀, b.loop? id = some l₀ ∧ l₀.isStopped = false) ∧
        (id ∈ b'.ready ∨ l.mayRest (b'.isCancelled l.scope))) : b'.Wakeful := by
  constructor
  case held =>
    intro id l p there live below
    rw [parent?_eq calm.listening] at below
    rw [children_of_scopes (scopes_eq calm.listening)]
    by_cases acts : some id = x
    · obtain ⟨l₀, there₀, live₀⟩ := (actor id l acts there).1 live
      have same : l₀.asStarted = l.asStarted := by
        refine Option.some.inj ?_
        rw [← origin?_of_loop? there₀, ← origin?_of_loop? there, calm.origin?]
      have scope : l₀.asStarted.scope = l.asStarted.scope := congrArg Loop.scope same
      have onList := w.held id l₀ p there₀ live₀ ((congrArg b.parent? scope).trans below)
      exact (congrArg (· ∈ b.children p) scope).mp onList
    · rw [calm.loop? id acts] at there
      exact w.held id l p there live below
  case heeds =>
    intro id l there
    by_cases acts : some id = x
    · exact (actor id l acts there).2
    · rw [calm.loop? id acts] at there
      rw [isCancelled_eq calm.listening]
      exact (w.heeds id l there).imp_left (calm.ready id acts)

/-- A loop that does not go on by itself may be blocked. -/
theorem mayRest_of_not_isActive {id : TaskId} {l : Loop} (there : b.loop? id = some l)
    (passive : b.isActive id = false) : l.mayRest (b.isCancelled l.scope) := by
  rw [isActive, loop?_eq_some.1 there] at passive
  cases stage : l.stage <;> simp_all [Loop.mayRest]

theorem loop?_turn (b : Broker) (id other : TaskId) :
    (b.turn id).loop? other = (stepTask { b with ready := b.ready.erase id } id).loop? other := by
  simp only [loop?, task?_turn]

theorem loop?_turn_of_isStopped {id : TaskId} {l : Loop} (there : b.loop? id = some l)
    (stopped : l.isStopped) (other : TaskId) : (b.turn id).loop? other = b.loop? other := by
  have here : ({ b with ready := b.ready.erase id } : Broker).task? id = some (.listen l) :=
    loop?_eq_some.1 there
  rw [loop?_turn]
  simp only [stepTask, here, stepLoop]
  cases stage : l.stage with
  | stopped => rfl
  | _ => simp [Loop.isStopped, stage] at stopped

theorem Wakeful.act_plain (w : b.Wakeful) (h : b.Scoped) {action : Action}
    (plain : action.arranges = false) : (b.act action).Wakeful := by
  obtain ⟨s?, calm, _⟩ := b.calm_act plain
  have cancelled : (b.cancelIf s?).Wakeful := by
    cases s? with
    | none => exact w
    | some s => exact w.cancel h s
  have loops (id : TaskId) : (b.cancelIf s?).loop? id = b.loop? id := by
    cases s? with
    | none => rfl
    | some s => exact loop?_of_tasks (tasks_cancel b s) id
  refine cancelled.calm calm fun id l acts there => ?_
  cases action with
  | turn id' =>
    obtain rfl : id = id' := Option.some.inj acts
    constructor
    · intro live
      obtain ⟨l₀, there₀, _⟩ : ∃ l₀, b.loop? id = some l₀ ∧ l₀.asStarted = l.asStarted := by
        have origin := (calm.origin? id).symm.trans (origin?_of_loop? there)
        rw [origin?_cancelIf] at origin
        exact Option.map_eq_some_iff.1 origin
      refine ⟨l₀, (loops id).trans there₀, Bool.eq_false_iff.2 fun stopped => ?_⟩
      have same : b.loop? id = some l := (loop?_turn_of_isStopped there₀ stopped id).symm.trans there
      obtain rfl := Option.some.inj (there₀.symm.trans same)
      rw [live] at stopped
      exact Bool.false_ne_true stopped
    · simp only [act, turn] at there ⊢
      split at there
      · rename_i active
        rw [if_pos active]
        exact .inl (List.mem_cons_self ..)
      · rename_i passive
        rw [if_neg passive]
        exact .inr (mayRest_of_not_isActive there (Bool.eq_false_iff.2 passive))
  | _ => simp [Action.actor?] at acts

/-! ## Loops that are started and given up -/

theorem Wakeful.of_same (w : b.Wakeful) (scopes : b'.scopes = b.scopes) (tasks : b'.tasks = b.tasks)
    (ready : b'.ready = b.ready) : b'.Wakeful := by
  constructor <;> simp only [loop?_of_tasks tasks, parent?, children, isCancelled, scopes, ready]
  exacts [w.held, w.heeds]

theorem Wakeful.openScope (w : b.Wakeful) (h : b.Scoped) (parent : Option ScopeId) :
    (b.openScope parent).1.Wakeful where
  held id l p there live below := by
    have old : l.scope ≠ b.scopes.length :=
      Nat.ne_of_lt (h.inside id l.asStarted (origin?_of_loop? there))
    rw [parent?_openScope, if_neg old] at below
    exact mem_children_openScope (w.held id l p there live below) parent
  heeds id l there := by
    rw [isCancelled_openScope]
    exact w.heeds id l there

theorem Wakeful.spawn (w : b.Wakeful) {l : Loop}
    (held : ∀ p, b.parent? l.scope = some p → l.scope ∈ b.children p) :
    (b.spawn (.listen l)).1.Wakeful := by
  have quiet := Quiet.spawn b (.listen l)
  constructor <;> simp only [loop?_spawn, parent?_spawn, isCancelled_spawn,
    children_of_scopes (scopes_spawn b _)]
  case held =>
    intro id l' p there live below
    split at there
    · obtain rfl := Option.some.inj there
      exact held p below
    · exact w.held id l' p there live below
  case heeds =>
    intro id l' there
    split at there
    · rename_i new
      exact .inl (new ▸ mem_ready_wake _ _)
    · rename_i old
      exact (w.heeds id l' there).imp_left (quiet.ready id fun same => old (Option.some.inj same))

theorem Wakeful.releaseScope (w : b.Wakeful) (h : b.Scoped) {id : TaskId} {l : Loop}
    (there : b.loop? id = some l) (finished : l.isStopped) : (b.releaseScope l.scope).Wakeful where
  held id' l' p there' live below := by
    rw [parent?_releaseScope] at below
    refine mem_children_releaseScope (w.held id' l' p there' live below) fun same => ?_
    -- The scope of another loop is another one, and this loop is over.
    obtain rfl := h.apart id' id _ _ (origin?_of_loop? there') (origin?_of_loop? there) same
    obtain rfl := Option.some.inj (there.symm.trans there')
    rw [live] at finished
    exact Bool.false_ne_true finished
  heeds id' l' there' := by
    rw [isCancelled_releaseScope]
    exact w.heeds id' l' there'

theorem Wakeful.listenScope (w : b.Wakeful) (h : b.Scoped) (q : QueueId) :
    (b.listenScope q).1.Wakeful := by
  simp only [Broker.listenScope]
  split
  · exact w
  · split
    · exact (w.openScope h none).of_same rfl rfl rfl
    · exact w

theorem Wakeful.listen (w : b.Wakeful) (h : b.Scoped) {q : QueueId} (inside : q < b.queues.length)
    (c : String) (receiver : Receiver) : (b.listen q c receiver).1.Wakeful := by
  obtain ⟨queue, -, p, parent, has, -⟩ := h.listenScope inside
  rw [listen_eq]
  refine ((w.listenScope h q).openScope queue _).spawn fun p' below => ?_
  have scope : (b.newLoop q c receiver).scope = (b.listenScope q).1.scopes.length := rfl
  rw [scope, parent?_openScope, if_pos rfl] at below
  rw [scope, below]
  obtain rfl := Option.some.inj (parent.symm.trans below)
  exact new_mem_children_openScope (queue.root q p has).1

theorem Wakeful.listenWith (w : b.Wakeful) (h : b.Scoped) (q : QueueId) (c : String)
    (receiver : Receiver) (options : ListenOptions) (faults : Faults) (cancelled : Bool) :
    (b.listenWith q c receiver options faults cancelled).1.Wakeful := by
  obtain ⟨opened, -⟩ := h.openTop
  have top : (b.openScope none).1.parent? b.scopes.length = none := by simp
  have top' := (parent?_cancel (b.openScope none).1 b.scopes.length _).trans top
  simp only [Broker.listenWith]
  split
  · exact ((w.openScope h none).cancel opened _).spawn fun p below =>
      absurd (below.symm.trans top') (Option.some_ne_none p)
  · exact (w.openScope h none).spawn fun p below =>
      absurd (below.symm.trans top) (Option.some_ne_none p)

theorem Wakeful.act (w : b.Wakeful) (h : b.Scoped) (action : Action) : (b.act action).Wakeful := by
  cases kind : action.arranges with
  | false => exact w.act_plain h kind
  | true =>
    have addQueue (settings : Settings) (counters : Option Nat) :
        (b.addQueue settings counters).1.Wakeful := (w.openScope h none).of_same rfl rfl rfl
    cases action with
    | newQueue name counters => exact addQueue _ counters
    | newQueueOf settings counters =>
      rcases b.act_newQueueOf settings counters with refused | made
      · rw [refused]
        exact w
      · rw [made]
        exact addQueue settings counters
    | ask q request =>
      simp only [Broker.act]
      split
      · rename_i inside
        cases request with
        | listen c receiver => exact w.listen h inside c receiver
        | listenWith c receiver options faults cancelled =>
          exact w.listenWith h q c receiver options faults cancelled
        | _ => simp [Action.arranges] at kind
      · exact w
    | releaseLoop id =>
      simp only [Broker.act, releaseLoop]
      cases there : b.task? id with
      | none => exact w
      | some t =>
        cases t with
        | receive r => exact w
        | listen l =>
          dsimp only
          split
          · rename_i finished
            exact w.releaseScope h (loop?_eq_some.2 there) finished
          · exact w
    | _ => simp [Action.arranges] at kind

theorem wakeful_run (start : Timestamp) (actions : List Action) :
    ((new start).run actions).Wakeful := by
  induction actions using List.reverseRecOn with
  | nil => exact wakeful_new start
  | append_singleton front action ih =>
    rw [run_append, run_cons, run_nil]
    exact ih.act (scoped_run start front) action

/-! ## The end of a loop -/

/-- Who listens at a queue starts a loop that listens and has not been cancelled. -/
theorem Scoped.listens (h : b.Scoped) {q : QueueId} (inside : q < b.queues.length) (c : String)
    (receiver : Receiver) :
    let started := b.act (.ask q (.listen c receiver))
    let l := b.newLoop q c receiver
    started.Scoped ∧ started.loop? b.tasks.length = some l ∧
      started.Listens b.tasks.length l ∧ started.isCancelled l.scope = false := by
  intro started l
  have asked : started = (b.listen q c receiver).1 := if_pos inside
  obtain ⟨after, -, loop, live, p, -, below⟩ := h.listen inside c receiver
  rw [asked]
  exact ⟨after, loop, ⟨origin?_of_loop? loop, ⟨p, below⟩, rfl⟩, live⟩

theorem Listens.run {id : TaskId} {l : Loop} (listens : b.Listens id l) (h : b.Scoped)
    (more : List Action) : (b.run more).Listens id l := by
  induction more generalizing b with
  | nil => exact listens
  | cons action rest ih => exact ih (listens.act h action) (h.act action)

/-- A loop that was started at a queue is cancelled exactly by what ends the listening there, or
    stops this loop, after it was started.  While it is not cancelled it stands below the
    queue's present scope.  Once it is, and all tasks are blocked, it is over unless its receiver
    is still waiting. -/
theorem listening_ends {start : Timestamp} {front : List Action} {q : QueueId}
    (there : q < ((new start).run front).queues.length) (c : String) (receiver : Receiver)
    (more : List Action) :
    let before := (new start).run front
    let id := before.tasks.length
    let started := before.act (.ask q (.listen c receiver))
    let b := started.run more
    ∃ l, b.loop? id = some l ∧ l.queue = q ∧ l.receiver = receiver ∧
      (b.isCancelled l.scope ↔ ∃ b' action, (b', action) ∈ started.steps more ∧
        (b'.endsListening q action ∨ action = .stopLoop id)) ∧
      (b.isCancelled l.scope = false →
        ∃ p, b.scopeOf? q = some p ∧ b.parent? l.scope = some p) ∧
      (b.isCancelled l.scope → b.isBlocked →
        l.stage = .stopped ∨ ∃ due e plan, l.stage = .delayed due e plan) := by
  intro before id started b
  obtain ⟨after, loop, listens, live⟩ := (scoped_run start front).listens there c receiver
  have listens' : b.Listens id (before.newLoop q c receiver) := listens.run after more
  obtain ⟨l, found, same⟩ := listens'.loop?
  have whole : b = (new start).run (front ++ .ask q (.listen c receiver) :: more) := by
    rw [run_append, run_cons]
  have scope : l.scope = (before.newLoop q c receiver).scope := congrArg (fun l => l.scope) same
  have queue : l.queue = q := congrArg (fun l => l.queue) same
  refine ⟨l, found, queue, congrArg (fun l => l.receiver) same, ?_, fun dead => ?_,
    fun dead blocked => ?_⟩
  · have cancels : b.isCancelled (before.newLoop q c receiver).scope ↔
        started.isCancelled (before.newLoop q c receiver).scope ∨ ∃ b' action,
          (b', action) ∈ started.steps more ∧
            (b'.endsListening q action ∨ action = .stopLoop id) :=
      isCancelled_run after listens more
    rw [scope, cancels, live]
    simp only [Bool.false_eq_true, false_or]
  · obtain ⟨p', below'⟩ := listens'.parent
    have present := (whole ▸ scoped_run start _ : b.Scoped).current id _ p' listens'.origin below'
      (scope ▸ dead)
    exact ⟨p', present, scope ▸ below'⟩
  · have rests := (whole ▸ wakeful_run start _ : b.Wakeful).heeds id l found
    rw [isBlocked, Bool.and_eq_true, List.isEmpty_iff, List.isEmpty_iff] at blocked
    rw [blocked.2, dead] at rests
    have rested := rests.resolve_left List.not_mem_nil
    cases stage : l.stage <;> simp_all [Loop.mayRest]

/-- Of two loops the first is stopped, and then the listening ends for both. -/
theorem listening_ends_for_two :
    let front : List Action := [.newQueue ⟨"jobs"⟩ none, .ask 0 (.listen "" default)]
    let turns : List Action := [.stopLoop 0, .turn 0, .turn 0, .turn 1]
    let started := ((new .epoch).run front).act (.ask 0 (.listen "" default))
    let b := started.run (turns ++ [.ask 0 (.endListen ""), .turn 1])
    0 < ((new .epoch).run front).queues.length ∧ b.isBlocked ∧
      ∃ l, b.loop? 1 = some l ∧ b.isCancelled l.scope ∧
        (l.stage = .stopped ∨ ∃ due e plan, l.stage = .delayed due e plan) := by
  intro front turns started b
  have there : 0 < ((new .epoch).run front).queues.length := by decide
  have blocked : b.isBlocked := by decide
  obtain ⟨l, found, -, -, cancels, -, finished⟩ :=
    listening_ends there "" default (turns ++ [.ask 0 (.endListen ""), .turn 1])
  have place : ((new .epoch).run front).tasks.length = 1 := by decide
  rw [place] at found
  have ends : (started.run turns).endsListening 0 (.ask 0 (.endListen "")) := rfl
  have ended : b.isCancelled l.scope :=
    cancels.2 ⟨_, _, mem_steps started turns (.ask 0 (.endListen "")) [.turn 1], .inl ends⟩
  exact ⟨there, blocked, l, found, ended, finished ended blocked⟩

end Broker

end PeekLock
