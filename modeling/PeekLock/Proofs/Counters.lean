import Mathlib.Algebra.GroupWithZero.Nat
import Mathlib.Data.List.DropRight
import PeekLock.Counters
import PeekLock.Proofs.Keyed

/-! # Named totals

What is added under one name changes the total under this name and no other.  So
after any updates a total is the sum of what was added under its name since the
counters were last cleared, cut off at the limit (`totals_saturate`): cutting off after
each addition comes to the same as cutting off their sum, and no order of the
additions shows.  The name under which a queue counts an event tells both apart from all
others: no event has a dot in it, so the event is what stands behind the last dot.
-/

namespace PeekLock

namespace Counters

theorem get_add (c : Counters) (key name : String) (n : Nat) :
    (c.add key n).get name = if name = key then min (c.get key + n) limit else c.get name := by
  simp only [add, get, Keyed.get?_insert]
  split <;> rfl

@[simp] theorem get_empty (name : String) : empty.get name = 0 := rfl

/-- Counters are told by their lookups. -/
theorem ext_get? {c c' : Counters}
    (same : ∀ name, Keyed.get? name c.totals = Keyed.get? name c'.totals) : c = c' := by
  obtain ⟨totals, ascend⟩ := c
  obtain ⟨totals', ascend'⟩ := c'
  obtain rfl : totals = totals' := ascend.ext ascend' same
  rfl

/-! ## Any updates -/

/-- The name that an update counts under, and how much it adds there. -/
def Update.increment? : Update → Option (String × Nat)
  | .increment name n => some (name, n)
  | .incrementOne name => some (name, 1)
  | .clear => none

/-- The increments since the counters were last cleared, in their order. -/
def increments (updates : List Update) : List (String × Nat) :=
  (updates.rtakeWhile fun update => update.increment?.isSome).filterMap Update.increment?

/-- What increments add under a name. -/
def sumUnder (name : String) (added : List (String × Nat)) : Nat :=
  ((added.filter fun p => p.1 = name).map (·.2)).sum

theorem apply_eq (c : Counters) (update : Update) :
    c.apply update =
      match update.increment? with
      | some (name, n) => c.add name n
      | none => empty := by
  cases update <;> rfl

theorem applyAll_concat (c : Counters) (updates : List Update) (update : Update) :
    c.applyAll (updates ++ [update]) = (c.applyAll updates).apply update :=
  List.foldl_concat apply c update updates

theorem increments_concat (updates : List Update) (update : Update) :
    increments (updates ++ [update]) =
      match update.increment? with
      | some p => increments updates ++ [p]
      | none => [] := by
  rw [increments, List.rtakeWhile_concat]
  cases added : update.increment? with
  | none => simp
  | some p => simp [increments, added]

theorem sumUnder_concat (name : String) (added : List (String × Nat)) (p : String × Nat) :
    sumUnder name (added ++ [p]) = sumUnder name added + if p.1 = name then p.2 else 0 := by
  by_cases same : p.1 = name <;> simp [sumUnder, same]

theorem sumUnder_of_not_mem {name : String} {added : List (String × Nat)}
    (absent : name ∉ added.map Prod.fst) : sumUnder name added = 0 := by
  have nothing : (added.filter fun p => decide (p.1 = name)) = [] :=
    List.filter_eq_nil_iff.2 fun p member same =>
      absent (List.mem_map.2 ⟨p, member, of_decide_eq_true same⟩)
  rw [sumUnder, nothing]
  rfl

/-- A name has a total once something was added under it, be it nothing, and the total is the sum
    up to the limit. -/
theorem get?_applyAll (updates : List Update) (name : String) :
    Keyed.get? name (empty.applyAll updates).totals =
      if name ∈ (increments updates).map Prod.fst
        then some (min (sumUnder name (increments updates)) limit) else none := by
  induction updates using List.reverseRecOn with
  | nil => rfl
  | append_singleton updates update ih =>
    rw [applyAll_concat, apply_eq, increments_concat]
    cases update.increment? with
    | none => rfl
    | some p =>
      obtain ⟨key, n⟩ := p
      simp only [add, Keyed.get?_insert, sumUnder_concat, List.map_append, List.mem_append,
        List.map_cons, List.map_nil, List.mem_singleton]
      by_cases here : name = key
      · subst here
        -- What was cut off before the addition is cut off after it as well.
        have before : (empty.applyAll updates).get name =
            min (sumUnder name (increments updates)) limit := by
          rw [get, ih]
          split
          · rfl
          · rename_i absent
            rw [sumUnder_of_not_mem absent]
            rfl
        rw [if_pos rfl, if_pos (.inr rfl), if_pos rfl, before]
        exact congrArg some (by omega)
      · simp only [here, Ne.symm here, ih, or_false, ↓reduceIte, Nat.add_zero]

/-- Only what was added since the last clearing matters, and not in which order. -/
theorem applyAll_of_perm {updates updates' : List Update}
    (same : (increments updates).Perm (increments updates')) :
    empty.applyAll updates = empty.applyAll updates' := by
  refine ext_get? fun name => ?_
  have names : name ∈ (increments updates).map Prod.fst ↔
      name ∈ (increments updates').map Prod.fst := (same.map Prod.fst).mem_iff
  have sums : sumUnder name (increments updates) = sumUnder name (increments updates') := by
    have kept := same.filter fun p : String × Nat => decide (p.1 = name)
    exact (kept.map Prod.snd).sum_nat
  simp only [get?_applyAll, names, sums]

theorem increments_append_of_increments {stretch : List Update}
    (adds : ∀ update ∈ stretch, update ≠ .clear) (front : List Update) :
    increments (front ++ stretch) = increments front ++ stretch.filterMap Update.increment? := by
  induction stretch using List.reverseRecOn with
  | nil => simp
  | append_singleton stretch update ih =>
    have before := ih fun u member => adds u (List.mem_append_left _ member)
    have last : update ≠ .clear := adds update (List.mem_append_right _ (List.mem_singleton_self _))
    rw [← List.append_assoc, increments_concat, before]
    cases update with
    | clear => exact absurd rfl last
    | increment name n | incrementOne name => simp [Update.increment?]

theorem increments_append_perm {front front' : List Update}
    (same : (increments front).Perm (increments front')) (back : List Update) :
    (increments (front ++ back)).Perm (increments (front' ++ back)) := by
  induction back using List.reverseRecOn with
  | nil => simpa using same
  | append_singleton back update ih =>
    rw [← List.append_assoc, ← List.append_assoc, increments_concat, increments_concat]
    cases update.increment? with
    | none => exact .refl []
    | some p => exact ih.append_right [p]

/-- After any updates there is just one total for each name that was counted under since the last
    clearing, in the order of the names, and it is the sum of what was added, up to the limit.
    That is also what is got for the name, and nothing for all others.  In which order a stretch of
    updates without a clearing was made does not show. -/
theorem totals_saturate (updates : List Update) :
    let counters := empty.applyAll updates
    let added := increments updates
    KeysAscend counters.totals ∧
      (∀ name total, (name, total) ∈ counters.totals ↔
        name ∈ added.map Prod.fst ∧ total = min (sumUnder name added) (2 ^ 64 - 1)) ∧
      (∀ name total, (name, total) ∈ counters.totals → counters.get name = total) ∧
      (∀ name, name ∉ counters.totals.map Prod.fst → counters.get name = 0) ∧
      ∀ front stretch stretch' back, updates = front ++ stretch ++ back →
        (∀ update ∈ stretch, update ≠ .clear) → stretch.Perm stretch' →
          empty.applyAll (front ++ stretch' ++ back) = counters := by
  intro counters added
  have found (name : String) (total : Nat) :
      Keyed.get? name counters.totals = some total ↔ (name, total) ∈ counters.totals :=
    counters.ascend.get?_eq_some_iff
  refine ⟨counters.ascend, ?_, ?_, ?_, ?_⟩
  · intro name total
    rw [← found, get?_applyAll, Option.ite_none_right_eq_some, Option.some.injEq]
    exact and_congr_right fun _ => eq_comm
  · intro name total member
    rw [get, (found name total).2 member]
    rfl
  · intro name absent
    cases entry : Keyed.get? name counters.totals with
    | none => rw [get, entry]; rfl
    | some total => exact absurd (List.mem_map_of_mem ((found name total).1 entry)) absent
  · rintro front stretch stretch' back rfl adds same
    have adds' : ∀ update ∈ stretch', update ≠ .clear := fun update member =>
      adds update (same.mem_iff.2 member)
    refine applyAll_of_perm (increments_append_perm ?_ back)
    rw [increments_append_of_increments adds, increments_append_of_increments adds']
    exact (same.symm.filterMap _).append_left _

end Counters

/-! ## The names of counters -/

/-- A text is told apart from what stands behind its last mark. -/
theorem append_cons_inj_of_not_mem {α : Type} {mark : α} {xs ys front back : List α}
    (xsFree : mark ∉ front) (ysFree : mark ∉ back)
    (same : xs ++ mark :: front = ys ++ mark :: back) : xs = ys ∧ front = back := by
  rcases List.append_eq_append_iff.1 same with ⟨between, split, tail⟩ | ⟨between, split, tail⟩
  · cases between with
    | nil => exact ⟨by simpa using split.symm, (List.cons.inj tail).2⟩
    | cons first rest =>
      -- The mark of the second text would stand behind that of the first.
      have member : mark ∈ front :=
        (List.cons.inj tail).2 ▸ List.mem_append_right _ (List.mem_cons_self ..)
      exact absurd member xsFree
  · cases between with
    | nil => exact ⟨by simpa using split, (List.cons.inj tail).2.symm⟩
    | cons first rest =>
      have member : mark ∈ back :=
        (List.cons.inj tail).2 ▸ List.mem_append_right _ (List.mem_cons_self ..)
      exact absurd member ysFree

theorem QueueEvent.dot_not_mem_suffix (event : QueueEvent) : '.' ∉ event.suffix.toList := by
  cases event <;> decide

theorem QueueEvent.suffix_inj {event event' : QueueEvent}
    (same : event.suffix.toList = event'.suffix.toList) : event = event' := by
  cases event <;> cases event' <;> first | rfl | exact absurd same (by decide)

/-- A counter belongs to one queue name and one event, whatever the name looks like. -/
theorem counterName_inj {name name' : String} {event event' : QueueEvent}
    (same : counterName name event.suffix = counterName name' event'.suffix) :
    name = name' ∧ event = event' := by
  have lists := congrArg String.toList same
  simp only [counterName, String.toList_append, List.append_assoc] at lists
  have dot : ".".toList = ['.'] := by decide
  rw [dot] at lists
  have behind := List.append_cancel_left lists
  obtain ⟨names, events⟩ := append_cons_inj_of_not_mem event.dot_not_mem_suffix
    event'.dot_not_mem_suffix behind
  exact ⟨String.toList_inj.1 names, QueueEvent.suffix_inj events⟩

end PeekLock
