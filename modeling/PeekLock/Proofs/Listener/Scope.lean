import PeekLock.Proofs.Listener.Calm

/-! # Scopes of listen loops

Each queue has a scope of its own, and the loops that listen there have scopes below
it.  The queue's scope is replaced by a fresh one when somebody listens after it was
cancelled, and at no other time.  So a loop whose scope has not been cancelled still
has the queue's present scope above it.  This is `Broker.Scoped.current`; the other
fields of `Broker.Scoped` carry it, for they keep cancelled scopes from reaching
loops of other queues and later loops of the same queue.
-/

namespace PeekLock.Broker

/-- How scopes, queues and loops hang together. -/
structure Scoped (b : Broker) : Prop where
  /-- The scope of a queue stands at the top. -/
  root : ∀ q s, b.scopeOf? q = some s → s < b.scopes.length ∧ b.parent? s = none
  /-- It is no other queue's. -/
  own : ∀ q q' s, b.scopeOf? q = some s → b.scopeOf? q' = some s → q = q'
  inside : ∀ id l, b.origin? id = some l → l.scope < b.scopes.length
  /-- The scope of a loop is no other loop's. -/
  apart : ∀ id id' l l', b.origin? id = some l → b.origin? id' = some l' →
    l.scope = l'.scope → id = id'
  /-- It is no queue's, and no scope is below it. -/
  leaf : ∀ id l, b.origin? id = some l →
    (∀ q, b.scopeOf? q ≠ some l.scope) ∧ ∀ s, b.parent? s ≠ some l.scope
  /-- A scope stands below one at the top, and is cancelled if that is. -/
  below : ∀ s p, b.parent? s = some p →
    p < b.scopes.length ∧ b.parent? p = none ∧ (b.isCancelled p → b.isCancelled s)
  /-- A loop that has not been cancelled listens below the queue's present scope. -/
  current : ∀ id l p, b.origin? id = some l → b.parent? l.scope = some p →
    b.isCancelled l.scope = false → b.scopeOf? l.queue = some p

/-- A scope that nothing stands on or below yet. -/
structure Unused (b : Broker) (s : ScopeId) : Prop where
  inside : s < b.scopes.length
  queue : ∀ q, b.scopeOf? q ≠ some s
  loop : ∀ id l, b.origin? id = some l → l.scope ≠ s
  parent : ∀ i, b.parent? i ≠ some s

variable {b b' : Broker}

theorem isCancelled_of_le {s : ScopeId} (outside : b.scopes.length ≤ s) :
    b.isCancelled s = false := by
  simp only [isCancelled, List.getElem?_eq_none outside]

theorem scoped_new (start : Timestamp) : (new start).Scoped where
  root _ _ has := by simp [scopeOf?, queue?, new] at has
  own _ _ _ has := by simp [scopeOf?, queue?, new] at has
  inside _ _ there := by simp [origin?, loop?, task?, new] at there
  apart _ _ _ _ there := by simp [origin?, loop?, task?, new] at there
  leaf _ _ there := by simp [origin?, loop?, task?, new] at there
  below _ _ has := by simp [parent?, new] at has
  current _ _ _ there := by simp [origin?, loop?, task?, new] at there

theorem Scoped.of_listening (h : b.Scoped) (same : b'.listening = b.listening) : b'.Scoped := by
  have scopes := scopes_eq same
  have parents := parent?_eq same
  have queues := scopeOf?_eq same
  have loops := origin?_eq same
  have cancelled := isCancelled_eq same
  constructor <;> simp only [scopes, parents, queues, loops, cancelled]
  exacts [h.root, h.own, h.inside, h.apart, h.leaf, h.below, h.current]

/-! ## Cancelling -/

@[simp] theorem length_scopes_cancel (b : Broker) (s : ScopeId) :
    (b.cancel s).scopes.length = b.scopes.length := by
  simp only [cancel]
  split
  · rfl
  · simp

@[simp] theorem parent?_cancel (b : Broker) (s i : ScopeId) :
    (b.cancel s).parent? i = b.parent? i := by
  simp only [parent?, scopes_cancel]
  cases b.scopes[i]? with
  | none => rfl
  | some scope =>
    simp only [Option.map_some, Option.bind_some]
    split <;> rfl

@[simp] theorem scopeOf?_cancel (b : Broker) (s : ScopeId) (q : QueueId) :
    (b.cancel s).scopeOf? q = b.scopeOf? q := by
  simp only [scopeOf?, queue?, queues_cancel]

@[simp] theorem origin?_cancel (b : Broker) (s : ScopeId) (id : TaskId) :
    (b.cancel s).origin? id = b.origin? id :=
  origin?_cancelIf b (some s) id

/-- Cancelled are the scope and those right below it. -/
theorem Scoped.isCancelled_cancel (h : b.Scoped) {s : ScopeId} (inside : s < b.scopes.length)
    (i : ScopeId) :
    (b.cancel s).isCancelled i ↔ b.isCancelled i ∨ i = s ∨ b.parent? i = some s := by
  cases already : b.isCancelled s with
  | true =>
    have same : b.cancel s = b := by simp only [cancel, already, ↓reduceIte]
    rw [same]
    refine ⟨.inl, fun either => either.elim (fun cancelled => cancelled) ?_⟩
    rintro (rfl | below)
    · exact already
    · exact (h.below i s below).2.2 already
  | false =>
    have scopes := b.scopes_cancel s i
    simp only [already, true_and] at scopes
    simp only [isCancelled, parent?, scopes]
    cases found : b.scopes[i]? with
    | none =>
      have outside := List.getElem?_eq_none_iff.1 found
      simp only [Option.map_none, Option.bind_none, Bool.false_eq_true, reduceCtorEq, or_false,
        false_or, false_iff]
      exact fun same => Nat.not_lt.2 outside (same ▸ inside)
    | some scope =>
      by_cases hit : i = s ∨ scope.parent = some s <;> simp [hit]

theorem Scoped.cancel (h : b.Scoped) (s : ScopeId) : (b.cancel s).Scoped := by
  by_cases inside : s < b.scopes.length
  · have cancels := h.isCancelled_cancel inside
    constructor <;>
      simp only [length_scopes_cancel, parent?_cancel, scopeOf?_cancel, origin?_cancel]
    case root => exact h.root
    case own => exact h.own
    case inside => exact h.inside
    case apart => exact h.apart
    case leaf => exact h.leaf
    case below =>
      intro i p below
      obtain ⟨there, top, carries⟩ := h.below i p below
      refine ⟨there, top, fun cancelled => (cancels i).2 ?_⟩
      -- Scopes are two deep, so cancelling reaches no further than one scope down.
      rcases (cancels p).1 cancelled with before | rfl | deeper
      · exact .inl (carries before)
      · exact .inr (.inr below)
      · rw [top] at deeper
        simp at deeper
    case current =>
      intro id l p there below live
      refine h.current id l p there below (Bool.eq_false_iff.2 fun before => ?_)
      rw [(cancels l.scope).2 (.inl before)] at live
      simp at live
  · -- A scope that is not there cannot be cancelled, and none is below it.
    have outside := Nat.not_lt.1 inside
    have same : (b.cancel s).listening = b.listening := by
      rw [listening_cancel]
      refine congrArg (·, b.listening.2) (List.ext_getElem? fun i => ?_)
      rw [scopes_cancel]
      cases found : b.scopes[i]? with
      | none => rfl
      | some scope =>
        have within := (List.getElem?_eq_some_iff.1 found).1
        have apart : ¬ (i = s ∨ scope.parent = some s) := by
          rintro (rfl | child)
          · exact Nat.not_lt.2 outside within
          · exact Nat.not_lt.2 outside
              (h.below i s (by simp only [parent?, found, Option.bind_some, child])).1
        simp [apart]
    exact h.of_listening same

/-! ## Opening and giving up -/

theorem scopes_openScope (b : Broker) (parent : Option ScopeId) (i : ScopeId) :
    (b.openScope parent).1.scopes[i]? = if i = b.scopes.length then
        some { parent, cancelled := false }
      else (b.scopes[i]?).map fun scope =>
        if some i = parent then { scope with children := scope.children ++ [b.scopes.length] }
        else scope := by
  simp only [openScope]
  rcases Nat.lt_trichotomy i b.scopes.length with old | rfl | above
  · rw [List.getElem?_append_left (by simpa using old), if_neg (Nat.ne_of_lt old),
      List.getElem?_mapIdx]
  · simp
  · rw [List.getElem?_eq_none (by simpa using Nat.succ_le_of_lt above), if_neg (Nat.ne_of_gt above),
      List.getElem?_eq_none (Nat.le_of_lt above), Option.map_none]

@[simp] theorem length_scopes_openScope (b : Broker) (parent : Option ScopeId) :
    (b.openScope parent).1.scopes.length = b.scopes.length + 1 := by
  simp [openScope]

@[simp] theorem parent?_openScope (b : Broker) (parent : Option ScopeId) (i : ScopeId) :
    (b.openScope parent).1.parent? i = if i = b.scopes.length then parent else b.parent? i := by
  simp only [parent?, scopes_openScope]
  split
  · rfl
  · cases b.scopes[i]? with
    | none => rfl
    | some scope =>
      simp only [Option.map_some, Option.bind_some]
      split <;> rfl

@[simp] theorem isCancelled_openScope (b : Broker) (parent : Option ScopeId) (i : ScopeId) :
    (b.openScope parent).1.isCancelled i = b.isCancelled i := by
  by_cases new : i = b.scopes.length
  · rw [isCancelled_of_le (Nat.le_of_eq new.symm)]
    simp only [isCancelled, scopes_openScope, if_pos new]
  · simp only [isCancelled, scopes_openScope, if_neg new]
    cases b.scopes[i]? with
    | none => rfl
    | some scope => by_cases above : some i = parent <;> simp [above]

@[simp] theorem scopeOf?_openScope (b : Broker) (parent : Option ScopeId) (q : QueueId) :
    (b.openScope parent).1.scopeOf? q = b.scopeOf? q := rfl

@[simp] theorem origin?_openScope (b : Broker) (parent : Option ScopeId) (id : TaskId) :
    (b.openScope parent).1.origin? id = b.origin? id := rfl

/-- A scope may be opened at the top, or below a queue's that has not been cancelled. -/
theorem Scoped.openScope (h : b.Scoped) {parent : Option ScopeId}
    (fits : ∀ p, parent = some p → (∃ q, b.scopeOf? q = some p) ∧ b.isCancelled p = false) :
    (b.openScope parent).1.Scoped ∧ (b.openScope parent).1.Unused b.scopes.length := by
  have older (s : ScopeId) (inside : s < b.scopes.length) : s ≠ b.scopes.length := Nat.ne_of_lt inside
  constructor
  · constructor <;> simp only [length_scopes_openScope, parent?_openScope, scopeOf?_openScope,
      origin?_openScope, isCancelled_openScope]
    case root =>
      intro q s has
      obtain ⟨inside, top⟩ := h.root q s has
      rw [if_neg (older s inside)]
      exact ⟨Nat.lt_succ_of_lt inside, top⟩
    case own => exact h.own
    case inside => exact fun id l there => Nat.lt_succ_of_lt (h.inside id l there)
    case apart => exact h.apart
    case leaf =>
      intro id l there
      obtain ⟨queue, parents⟩ := h.leaf id l there
      refine ⟨queue, fun s below => ?_⟩
      -- The new scope stands below a queue's, and so below no loop's.
      split at below
      · obtain ⟨⟨q, has⟩, _⟩ := fits l.scope below
        exact queue q has
      · exact parents s below
    case below =>
      intro s p below
      split at below
      · rename_i new
        obtain ⟨⟨q, has⟩, live⟩ := fits p below
        obtain ⟨inside, top⟩ := h.root q p has
        rw [if_neg (older p inside)]
        exact ⟨Nat.lt_succ_of_lt inside, top, fun cancelled => by simp [live] at cancelled⟩
      · obtain ⟨inside, top, carries⟩ := h.below s p below
        rw [if_neg (older p inside)]
        exact ⟨Nat.lt_succ_of_lt inside, top, carries⟩
    case current =>
      intro id l p there below
      rw [if_neg (older l.scope (h.inside id l there))] at below
      exact h.current id l p there below
  · constructor <;> simp only [length_scopes_openScope, parent?_openScope, scopeOf?_openScope,
      origin?_openScope]
    case inside => exact Nat.lt_succ_self _
    -- Whatever refers to a scope refers to one that was there before.
    case queue => exact fun q has => older _ (h.root q _ has).1 rfl
    case loop => exact fun id l there => older _ (h.inside id l there)
    case parent =>
      intro i below
      split at below
      · obtain ⟨⟨q, has⟩, _⟩ := fits _ below
        exact older _ (h.root q _ has).1 rfl
      · exact older _ (h.below i _ below).1 rfl

theorem Scoped.openTop (h : b.Scoped) :
    (b.openScope none).1.Scoped ∧ (b.openScope none).1.Unused b.scopes.length :=
  h.openScope fun _ top => absurd top.symm (Option.some_ne_none _)

@[simp] theorem parent?_releaseScope (b : Broker) (s i : ScopeId) :
    (b.releaseScope s).parent? i = b.parent? i := by
  simp only [parent?, releaseScope, List.getElem?_map]
  cases b.scopes[i]? with
  | none => rfl
  | some scope => by_cases holds : s ∈ scope.children <;> simp [holds]

@[simp] theorem isCancelled_releaseScope (b : Broker) (s i : ScopeId) :
    (b.releaseScope s).isCancelled i = b.isCancelled i := by
  simp only [isCancelled, releaseScope, List.getElem?_map]
  cases b.scopes[i]? with
  | none => rfl
  | some scope => by_cases holds : s ∈ scope.children <;> simp [holds]

theorem Scoped.releaseScope (h : b.Scoped) (s : ScopeId) : (b.releaseScope s).Scoped := by
  have length : (b.releaseScope s).scopes.length = b.scopes.length := List.length_map ..
  refine ⟨?_, h.own, ?_, h.apart, ?_, ?_, ?_⟩ <;>
    simp only [length, parent?_releaseScope, isCancelled_releaseScope]
  exacts [h.root, h.inside, h.leaf, h.below, h.current]

/-- A queue may be given a scope that nothing stands on yet, once its last one is cancelled. -/
theorem Scoped.rescope (h : b.Scoped) {q : QueueId} {s : ScopeId} (unused : b.Unused s)
    (top : b.parent? s = none) (past : ∀ p, b.scopeOf? q = some p → b.isCancelled p)
    (scopes : b'.scopes = b.scopes) (tasks : b'.tasks = b.tasks)
    (current : ∀ q', b'.scopeOf? q' = if q' = q then some s else b.scopeOf? q') : b'.Scoped := by
  have parents (i : ScopeId) : b'.parent? i = b.parent? i := by simp only [parent?, scopes]
  have cancelled (i : ScopeId) : b'.isCancelled i = b.isCancelled i := by
    simp only [isCancelled, scopes]
  constructor <;> simp only [scopes, origin?_of_tasks tasks, parents, cancelled, current]
  case inside => exact h.inside
  case apart => exact h.apart
  case below => exact h.below
  case root =>
    intro q' s' has
    split at has
    · obtain rfl := Option.some.inj has
      exact ⟨unused.inside, top⟩
    · exact h.root q' s' has
  case own =>
    intro q₁ q₂ s' has₁ has₂
    split at has₁ <;> split at has₂
    · rename_i first second
      exact first.trans second.symm
    · exact absurd (has₂.trans has₁.symm) (unused.queue q₂)
    · exact absurd (has₁.trans has₂.symm) (unused.queue q₁)
    · exact h.own q₁ q₂ s' has₁ has₂
  case leaf =>
    intro id l there
    obtain ⟨queues, parents⟩ := h.leaf id l there
    refine ⟨fun q' has => ?_, parents⟩
    split at has
    · exact unused.loop id l there (Option.some.inj has).symm
    · exact queues q' has
  case current =>
    intro id l p there below live
    have has := h.current id l p there below live
    split
    · -- Whoever listens below a cancelled scope is cancelled too.
      rename_i same
      have dead := (h.below l.scope p below).2.2 (past p (same ▸ has))
      rw [live] at dead
      exact absurd dead Bool.false_ne_true
    · exact has

/-! ## Starting loops -/

theorem origin?_spawn (b : Broker) (l : Loop) (id : TaskId) :
    (b.spawn (.listen l)).1.origin? id =
      if id = b.tasks.length then some l.asStarted else b.origin? id := by
  simp only [origin?, loop?_spawn]
  split <;> rfl

@[simp] theorem parent?_spawn (b : Broker) (t : Task) (i : ScopeId) :
    (b.spawn t).1.parent? i = b.parent? i := by
  simp only [parent?, scopes_spawn]

@[simp] theorem isCancelled_spawn (b : Broker) (t : Task) (i : ScopeId) :
    (b.spawn t).1.isCancelled i = b.isCancelled i := by
  simp only [isCancelled, scopes_spawn]

@[simp] theorem scopeOf?_spawn (b : Broker) (t : Task) (q : QueueId) :
    (b.spawn t).1.scopeOf? q = b.scopeOf? q := by
  simp only [scopeOf?, queue?, queues_spawn]

/-- A loop may be started at a scope that nothing stands on yet, below that of its queue or at
    the top. -/
theorem Scoped.spawn (h : b.Scoped) {l : Loop} (unused : b.Unused l.scope)
    (fits : ∀ p, b.parent? l.scope = some p → b.scopeOf? l.queue = some p) :
    (b.spawn (.listen l)).1.Scoped := by
  constructor <;> simp only [scopes_spawn, parent?_spawn, isCancelled_spawn, scopeOf?_spawn,
    origin?_spawn]
  case root => exact h.root
  case own => exact h.own
  case below => exact h.below
  case inside =>
    intro id l' there
    split at there
    · obtain rfl := Option.some.inj there
      exact unused.inside
    · exact h.inside id l' there
  case apart =>
    intro id₁ id₂ l₁ l₂ there₁ there₂ same
    -- Nobody else has the scope of the new loop, for it was unused.
    split at there₁ <;> split at there₂
    · rename_i first second
      exact first.trans second.symm
    · obtain rfl := Option.some.inj there₁
      exact absurd same.symm (unused.loop id₂ l₂ there₂)
    · obtain rfl := Option.some.inj there₂
      exact absurd same (unused.loop id₁ l₁ there₁)
    · exact h.apart id₁ id₂ l₁ l₂ there₁ there₂ same
  case leaf =>
    intro id l' there
    split at there
    · obtain rfl := Option.some.inj there
      exact ⟨unused.queue, unused.parent⟩
    · exact h.leaf id l' there
  case current =>
    intro id l' p there below live
    split at there
    · obtain rfl := Option.some.inj there
      exact fits p below
    · exact h.current id l' p there below live

/-! ## Actions that make scopes or give them up -/

/-- Scopes, loops and queues may have been added, and those that were there are as they were. -/
structure Extends (b b' : Broker) : Prop where
  length : b.scopes.length ≤ b'.scopes.length
  parent? : ∀ i < b.scopes.length, b'.parent? i = b.parent? i
  isCancelled : ∀ i < b.scopes.length, b'.isCancelled i = b.isCancelled i
  origin? : ∀ id l, b.origin? id = some l → b'.origin? id = some l

namespace Extends

protected theorem refl (b : Broker) : Extends b b :=
  ⟨Nat.le_refl _, fun _ _ => rfl, fun _ _ => rfl, fun _ _ there => there⟩

protected theorem trans {b₁ : Broker} (first : Extends b b₁) (second : Extends b₁ b') :
    Extends b b' where
  length := Nat.le_trans first.length second.length
  parent? i inside :=
    (second.parent? i (Nat.lt_of_lt_of_le inside first.length)).trans (first.parent? i inside)
  isCancelled i inside :=
    (second.isCancelled i (Nat.lt_of_lt_of_le inside first.length)).trans (first.isCancelled i inside)
  origin? id l there := second.origin? id l (first.origin? id l there)

theorem of_same (scopes : b'.scopes = b.scopes) (tasks : b'.tasks = b.tasks) : Extends b b' where
  length := Nat.le_of_eq (congrArg _ scopes.symm)
  parent? i _ := by simp only [Broker.parent?, scopes]
  isCancelled i _ := by simp only [Broker.isCancelled, scopes]
  origin? id l there := by rw [origin?_of_tasks tasks, there]

theorem openScope (b : Broker) (parent : Option ScopeId) : Extends b (b.openScope parent).1 where
  length := by simp
  parent? i inside := by simp [Nat.ne_of_lt inside]
  isCancelled i _ := isCancelled_openScope b parent i
  origin? _ _ there := there

theorem releaseScope (b : Broker) (s : ScopeId) : Extends b (b.releaseScope s) where
  length := Nat.le_of_eq (List.length_map _).symm
  parent? i _ := parent?_releaseScope b s i
  isCancelled i _ := isCancelled_releaseScope b s i
  origin? _ _ there := there

theorem spawn (b : Broker) (l : Loop) : Extends b (b.spawn (.listen l)).1 where
  length := by simp
  parent? i _ := parent?_spawn b _ i
  isCancelled i _ := isCancelled_spawn b _ i
  origin? id l' there := by
    have old : id ≠ b.tasks.length := by
      rintro rfl
      simp [Broker.origin?, loop?_of_new] at there
    rw [origin?_spawn, if_neg old, there]

end Extends

theorem Scoped.addQueue (h : b.Scoped) (settings : Settings) (counters : Option Nat) :
    (b.addQueue settings counters).1.Scoped ∧ Extends b (b.addQueue settings counters).1 := by
  obtain ⟨opened, unused⟩ := h.openTop
  have added : Extends (b.openScope none).1 (b.addQueue settings counters).1 := .of_same rfl rfl
  refine ⟨opened.rescope (q := b.queues.length) unused (by simp) ?_ rfl rfl ?_,
    (Extends.openScope b none).trans added⟩
  · intro p has
    simp [scopeOf?, queue?, Broker.openScope] at has
  · intro q'
    simp only [scopeOf?_openScope]
    simp only [scopeOf?, queue?, Broker.addQueue, Broker.openScope]
    rcases Nat.lt_trichotomy q' b.queues.length with old | rfl | above
    · rw [List.getElem?_append_left old, if_neg (Nat.ne_of_lt old)]
    · simp
    · rw [List.getElem?_eq_none (by simpa using Nat.succ_le_of_lt above),
        List.getElem?_eq_none (Nat.le_of_lt above), if_neg (Nat.ne_of_gt above)]

theorem scopeOf?_setScope (b : Broker) (q q' : QueueId) (s : ScopeId) :
    (b.modifyQueue q fun queue => { queue with scope := s }).scopeOf? q' =
      if q = q' then (b.scopeOf? q').map fun _ => s else b.scopeOf? q' := by
  simp only [scopeOf?, queue?_modifyQueue]
  cases b.queue? q' with
  | none => simp
  | some queue => by_cases here : q = q' <;> simp [here]

/-- Who starts to listen gets the present scope of the queue, which has not been cancelled. -/
theorem Scoped.listenScope (h : b.Scoped) {q : QueueId} (inside : q < b.queues.length) :
    (b.listenScope q).1.Scoped ∧ Extends b (b.listenScope q).1 ∧
      ∃ p, (b.listenScope q).2 = some p ∧ (b.listenScope q).1.scopeOf? q = some p ∧
        (b.listenScope q).1.isCancelled p = false := by
  have found : b.queue? q = some b.queues[q] := List.getElem?_eq_getElem inside
  simp only [Broker.listenScope, found]
  generalize b.queues[q] = queue at found
  split
  · rename_i past
    obtain ⟨opened, unused⟩ := h.openTop
    have has : b.scopeOf? q = some queue.scope := by simp only [scopeOf?, found, Option.map_some]
    have current (q' : QueueId) :
        ((b.openScope none).1.modifyQueue q fun queue =>
          { queue with scope := b.scopes.length }).scopeOf? q' =
          if q' = q then some b.scopes.length else (b.openScope none).1.scopeOf? q' := by
      rw [scopeOf?_setScope]
      by_cases here : q' = q
      · simp [here, has]
      · rw [if_neg here, if_neg (Ne.symm here)]
    refine ⟨opened.rescope unused (by simp) ?_ rfl rfl current,
      (Extends.openScope b none).trans (.of_same rfl rfl), b.scopes.length, rfl, ?_, ?_⟩
    · intro p has'
      obtain rfl := Option.some.inj (has.symm.trans has')
      rw [isCancelled_openScope]
      exact past
    · exact (current q).trans (if_pos rfl)
    · have fresh := isCancelled_openScope b none b.scopes.length
      rw [isCancelled_of_le (Nat.le_refl _)] at fresh
      exact fresh
  · rename_i live
    refine ⟨h, .refl b, queue.scope, rfl, ?_, Bool.eq_false_iff.2 live⟩
    simp only [scopeOf?, found, Option.map_some]

/-- The timings of the loops that are started at a queue. -/
def optionsOf (b : Broker) (q : QueueId) : ListenOptions :=
  match b.queue? q with
  | some queue => queue.settings.listenOptions
  | none => default

theorem optionsOf_of_cores (cores : b'.queues.map Queue.core = b.queues.map Queue.core)
    (q : QueueId) : b'.optionsOf q = b.optionsOf q := by
  have here := congrArg (·[q]?) cores
  simp only [List.getElem?_map] at here
  simp only [optionsOf, queue?]
  revert here
  cases b'.queues[q]? <;> cases b.queues[q]? <;> simp +contextual [Queue.core]

/-- The loop that is started when somebody listens at a queue. -/
def newLoop (b : Broker) (q : QueueId) (c : String) (receiver : Receiver) : Loop :=
  .new q c receiver (b.optionsOf q) (b.listenScope q).1.scopes.length {}

theorem listen_eq (b : Broker) (q : QueueId) (c : String) (receiver : Receiver) :
    (b.listen q c receiver).1 =
      (((b.listenScope q).1.openScope (b.listenScope q).2).1.spawn
        (.listen (b.newLoop q c receiver))).1 := by
  have options : ((b.listenScope q).1.openScope (b.listenScope q).2).1.optionsOf q =
      b.optionsOf q :=
    optionsOf_of_cores (quiet_listenScope.trans (.openScope (x := none) _ _)).queues q
  rw [newLoop, ← options]
  rfl

/-- A loop that has been started stands below the present scope of its queue, and has not been
    cancelled. -/
theorem Scoped.listen (h : b.Scoped) {q : QueueId} (inside : q < b.queues.length) (c : String)
    (receiver : Receiver) :
    let b' := (b.listen q c receiver).1
    let l := b.newLoop q c receiver
    b'.Scoped ∧ Extends b b' ∧ b'.loop? b.tasks.length = some l ∧
      b'.isCancelled l.scope = false ∧ ∃ p, b'.scopeOf? q = some p ∧ b'.parent? l.scope = some p := by
  intro b' l
  obtain ⟨queue, extended, p, parent, has, live⟩ := h.listenScope inside
  have fits : ∀ p', (b.listenScope q).2 = some p' → (∃ q', (b.listenScope q).1.scopeOf? q' = some p') ∧
      (b.listenScope q).1.isCancelled p' = false := by
    intro p' same
    obtain rfl := Option.some.inj (parent.symm.trans same)
    exact ⟨⟨q, has⟩, live⟩
  obtain ⟨opened, unused⟩ := queue.openScope fits
  have started : b' = (((b.listenScope q).1.openScope (b.listenScope q).2).1.spawn
      (.listen l)).1 := listen_eq b q c receiver
  have place : ((b.listenScope q).1.openScope (b.listenScope q).2).1.tasks.length =
      b.tasks.length := congrArg List.length (tasks_listenScope b q)
  have scope : l.scope = (b.listenScope q).1.scopes.length := rfl
  have below : ((b.listenScope q).1.openScope (b.listenScope q).2).1.parent? l.scope = some p := by
    rw [parent?_openScope, if_pos scope, parent]
  rw [started]
  refine ⟨opened.spawn unused fun p' below' => ?_, (extended.trans (.openScope ..)).trans (.spawn ..),
    ?_, ?_, p, ?_, ?_⟩
  · obtain rfl := Option.some.inj (below.symm.trans below')
    exact has
  · rw [loop?_spawn, place, if_pos rfl]
    rfl
  · rw [isCancelled_spawn, isCancelled_openScope, scope, isCancelled_of_le (Nat.le_refl _)]
  · rw [scopeOf?_spawn, scopeOf?_openScope, has]
  · rw [parent?_spawn, below]

/-- A loop with a scope of its own may be cancelled from the start. -/
theorem Scoped.listenWith (h : b.Scoped) (q : QueueId) (c : String) (receiver : Receiver)
    (options : ListenOptions) (faults : Faults) (cancelled : Bool) :
    (b.listenWith q c receiver options faults cancelled).1.Scoped ∧
      Extends b (b.listenWith q c receiver options faults cancelled).1 := by
  obtain ⟨opened, unused⟩ := h.openTop
  have top : (b.openScope none).1.parent? b.scopes.length = none := by simp
  simp only [Broker.listenWith]
  split
  · have inside : b.scopes.length < (b.openScope none).1.scopes.length := by simp
    have cancels := opened.isCancelled_cancel inside
    have unused' : ((b.openScope none).1.cancel b.scopes.length).Unused b.scopes.length := by
      constructor <;> simp only [length_scopes_cancel, parent?_cancel, scopeOf?_cancel, origin?_cancel]
      exacts [unused.inside, unused.queue, unused.loop, unused.parent]
    have extended : Extends b ((b.openScope none).1.cancel b.scopes.length) := by
      refine ⟨by simp, fun i old => ?_, fun i old => ?_, fun id l there => ?_⟩
      · rw [parent?_cancel, (Extends.openScope b none).parent? i old]
      · -- Nothing that was there before is at the new scope, or below it.
        rw [Bool.eq_iff_iff, cancels, isCancelled_openScope]
        refine ⟨fun either => either.elim (fun before => before) ?_, .inl⟩
        rintro (same | below)
        · exact absurd same (Nat.ne_of_lt old)
        · exact absurd below (unused.parent i)
      · rw [origin?_cancel]
        exact there
    have top' := (parent?_cancel (b.openScope none).1 b.scopes.length _).trans top
    exact ⟨(opened.cancel _).spawn unused' fun p below =>
      absurd (below.symm.trans top') (Option.some_ne_none p), extended.trans (.spawn ..)⟩
  · exact ⟨opened.spawn unused fun p below =>
      absurd (below.symm.trans top) (Option.some_ne_none p),
      (Extends.openScope b none).trans (.spawn ..)⟩

/-- The actions that make scopes or give them up leave all that was there before. -/
theorem Scoped.arrange (h : b.Scoped) {action : Action} (arranges : action.arranges) :
    (b.act action).Scoped ∧ Extends b (b.act action) := by
  have nothing : b.Scoped ∧ Extends b b := ⟨h, .refl b⟩
  cases action with
  | newQueue name counters => exact h.addQueue _ counters
  | newQueueOf settings counters =>
    rcases b.act_newQueueOf settings counters with refused | made
    · rw [refused]
      exact nothing
    · rw [made]
      exact h.addQueue settings counters
  | ask q request =>
    simp only [act]
    split
    · rename_i inside
      cases request with
      | listen c receiver =>
        obtain ⟨after, extended, _⟩ := h.listen inside c receiver
        exact ⟨after, extended⟩
      | listenWith c receiver options faults cancelled =>
        exact h.listenWith q c receiver options faults cancelled
      | _ => simp [Action.arranges] at arranges
    · exact nothing
  | releaseLoop id =>
    simp only [act, releaseLoop]
    split
    · split
      · exact ⟨h.releaseScope _, .releaseScope ..⟩
      · exact nothing
    · exact nothing
  | _ => simp [Action.arranges] at arranges

/-! ## All actions -/

theorem Scoped.cancelIf (h : b.Scoped) : (s? : Option ScopeId) → (b.cancelIf s?).Scoped
  | some s => h.cancel s
  | none => h

theorem Scoped.act (h : b.Scoped) (action : Action) : (b.act action).Scoped := by
  cases kind : action.arranges with
  | true => exact (h.arrange kind).1
  | false =>
    obtain ⟨s?, calm, _⟩ := b.calm_act kind
    exact (h.cancelIf s?).of_listening calm.listening

theorem Scoped.run (h : b.Scoped) (actions : List Action) : (b.run actions).Scoped := by
  induction actions generalizing b with
  | nil => exact h
  | cons action rest ih => exact ih (h.act action)

theorem scoped_run (start : Timestamp) (actions : List Action) :
    ((new start).run actions).Scoped :=
  (scoped_new start).run actions

end PeekLock.Broker
