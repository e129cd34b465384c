import PeekLock.Keyed

/-! # Lookups

Entries in key order are told by their lookups: an insertion changes the lookup of its
key and of no other (`get?_insert`), what is found is what stands there
(`get?_eq_some_iff`), and two lists with the same lookups are the same list
(`KeysAscend.ext`).  The ingredient that is not obvious is that the first keys of two
such lists agree, as either would stand too late in the other list otherwise.
-/

namespace PeekLock

namespace Keyed

variable {α : Type}

theorem get?_insert (key k : String) (value : α) (entries : List (String × α)) :
    get? k (insert key value entries) = if k = key then some value else get? k entries := by
  induction entries with
  | nil => by_cases same : key = k <;> simp [insert, get?, same, Ne.symm]
  | cons first rest ih =>
    obtain ⟨k', v'⟩ := first
    simp only [insert]
    split
    · by_cases same : key = k
      · simp [get?, same]
      · simp [get?, same, Ne.symm same]
    · split
      · rename_i here
        subst here
        by_cases same : key = k
        · simp [get?, same]
        · simp [get?, same, Ne.symm same]
      · rename_i _ elsewhere
        by_cases first : k' = k
        · subst first
          simp [get?, Ne.symm elsewhere]
        · simp [get?, first, ih]

/-- A key that stands before all others is not among them. -/
theorem get?_eq_none_of_forall_lt {key : String} {entries : List (String × α)}
    (above : ∀ e ∈ entries, key < e.1) : get? key entries = none := by
  induction entries with
  | nil => rfl
  | cons first rest ih =>
    obtain ⟨k, v⟩ := first
    have differs : k ≠ key := by
      rintro rfl
      exact String.lt_irrefl _ (above (k, v) (List.mem_cons_self ..))
    rw [get?, if_neg differs]
    exact ih fun e member => above e (List.mem_cons_of_mem _ member)

end Keyed

namespace KeysAscend

open Keyed

variable {α : Type} {entries entries' : List (String × α)}

theorem get?_eq_some_iff (h : KeysAscend entries) {key : String} {value : α} :
    get? key entries = some value ↔ (key, value) ∈ entries := by
  induction entries with
  | nil => simp [get?]
  | cons first rest ih =>
    obtain ⟨k, v⟩ := first
    obtain ⟨below, others⟩ := List.pairwise_cons.1 h
    rw [get?, List.mem_cons, Prod.mk.injEq]
    by_cases same : k = key
    · subst same
      -- Behind its first entry a key does not occur again.
      have once : (k, value) ∉ rest := fun member => String.lt_irrefl k (below _ member)
      simp [once, eq_comm]
    · simp [same, Ne.symm same, ih others]

theorem ext (h : KeysAscend entries) (h' : KeysAscend entries')
    (same : ∀ key, get? key entries = get? key entries') : entries = entries' := by
  induction entries generalizing entries' with
  | nil =>
    cases entries' with
    | nil => rfl
    | cons first rest => simpa [get?] using same first.1
  | cons first rest ih =>
    cases entries' with
    | nil => simpa [get?] using same first.1
    | cons first' rest' =>
      obtain ⟨k, v⟩ := first
      obtain ⟨k', v'⟩ := first'
      obtain ⟨below, others⟩ := List.pairwise_cons.1 h
      obtain ⟨below', others'⟩ := List.pairwise_cons.1 h'
      have found : (k, v) ∈ (k', v') :: rest' :=
        h'.get?_eq_some_iff.1 ((same k).symm.trans (if_pos rfl))
      have found' : (k', v') ∈ (k, v) :: rest :=
        h.get?_eq_some_iff.1 ((same k').trans (if_pos rfl))
      -- Neither list has the first entry of the other behind its own.
      have head : (k, v) = (k', v') := by
        rcases List.mem_cons.1 found with here | later
        · exact here
        · rcases List.mem_cons.1 found' with here | later'
          · exact here.symm
          · exact absurd (String.lt_trans (below' _ later) (below _ later')) (String.lt_irrefl _)
      obtain ⟨rfl, rfl⟩ := Prod.mk.inj head
      refine congrArg _ (ih others others' fun key => ?_)
      by_cases first : k = key
      · subst first
        rw [get?_eq_none_of_forall_lt below, get?_eq_none_of_forall_lt below']
      · have later := same key
        rwa [get?, get?, if_neg first, if_neg first] at later

end KeysAscend

end PeekLock
