/-! # Entries in key order

Association lists with ascending keys, each key once.  The order is that of code points,
which is also the order of the keys' octets.  `insert` keeps the order and overwrites, so
two lists with the same look-ups are the same list.
-/

namespace PeekLock

def KeysAscend {α : Type} (entries : List (String × α)) : Prop :=
  entries.Pairwise fun a b => a.1 < b.1

namespace Keyed

variable {α : Type}

def get? (key : String) : List (String × α) → Option α
  | [] => none
  | (k, v) :: rest => if k = key then some v else get? key rest

/-- Enters a value at the place of its key, over the one that stood there. -/
def insert (key : String) (value : α) : List (String × α) → List (String × α)
  | [] => [(key, value)]
  | (k, v) :: rest =>
    if key < k then (key, value) :: (k, v) :: rest
    else if key = k then (key, value) :: rest
    else (k, v) :: insert key value rest

/-- The entries given in any order; a later value for a key wins. -/
def ofList (entries : List (String × α)) : List (String × α) :=
  entries.foldl (fun all (k, v) => insert k v all) []

/-- A key found after an insertion is the one inserted, or was there before. -/
theorem mem_keys_insert {key k : String} {value v : α} {entries : List (String × α)}
    (h : (k, v) ∈ insert key value entries) :
    k = key ∨ ∃ w, (k, w) ∈ entries := by
  induction entries with
  | nil => simp_all [insert]
  | cons e rest ih =>
    obtain ⟨k', v'⟩ := e
    by_cases below : key < k'
    · simp only [insert, below, ↓reduceIte, List.mem_cons, Prod.mk.injEq] at h
      rcases h with h | h | h
      · exact .inl h.1
      · exact .inr ⟨v', by simp [h.1]⟩
      · exact .inr ⟨v, by simp [h]⟩
    · by_cases same : key = k'
      · simp only [insert, same, ↓reduceIte, String.lt_irrefl, List.mem_cons, Prod.mk.injEq] at h
        rcases h with h | h
        · exact .inl (h.1.trans same.symm)
        · exact .inr ⟨v, by simp [h]⟩
      · simp only [insert, below, same, ↓reduceIte, List.mem_cons, Prod.mk.injEq] at h
        rcases h with h | h
        · exact .inr ⟨v', by simp [h.1]⟩
        · obtain h | ⟨w, h⟩ := ih h
          · exact .inl h
          · exact .inr ⟨w, by simp [h]⟩

theorem insert_ascend (key : String) (value : α) {entries : List (String × α)}
    (h : KeysAscend entries) : KeysAscend (insert key value entries) := by
  induction entries with
  | nil => simp [insert, KeysAscend]
  | cons e rest ih =>
    obtain ⟨k, v⟩ := e
    obtain ⟨first, others⟩ := List.pairwise_cons.1 h
    by_cases below : key < k
    · simp only [insert, below, ↓reduceIte]
      refine List.pairwise_cons.2 ⟨fun b hb => ?_, h⟩
      rcases List.mem_cons.1 hb with rfl | hb
      · exact below
      · exact String.lt_trans below (first b hb)
    · by_cases same : key = k
      · subst same
        simp only [insert, below, ↓reduceIte]
        exact List.pairwise_cons.2 ⟨first, others⟩
      · simp only [insert, below, same, ↓reduceIte]
        refine List.pairwise_cons.2 ⟨fun b hb => ?_, ih others⟩
        -- a key behind the first is the inserted one or an old one, and both are greater
        obtain hb | ⟨w, hb⟩ := mem_keys_insert (k := b.1) (v := b.2) hb
        · have above : ¬ key ≤ k := fun le =>
            same (String.le_antisymm le (String.not_lt.1 below))
          simpa only [hb] using String.not_le.1 above
        · exact first (b.1, w) hb

/-- An entry whose key is above all others goes to the end. -/
theorem insert_of_forall_lt {key : String} {value : α} {entries : List (String × α)}
    (above : ∀ e ∈ entries, e.1 < key) : insert key value entries = entries ++ [(key, value)] := by
  induction entries with
  | nil => rfl
  | cons e rest ih =>
    obtain ⟨k, v⟩ := e
    have below : k < key := above (k, v) (List.mem_cons_self ..)
    have notBelow : ¬ key < k := fun lt => String.lt_irrefl _ (String.lt_trans below lt)
    have differs : key ≠ k := by
      rintro rfl
      exact String.lt_irrefl _ below
    simp only [insert, notBelow, differs, ↓reduceIte, List.cons_append]
    rw [ih fun e member => above e (List.mem_cons_of_mem _ member)]

/-- Entries in order stay as they are. -/
theorem ofList_eq_self {entries : List (String × α)} (h : KeysAscend entries) :
    ofList entries = entries := by
  unfold ofList
  suffices ∀ seen, KeysAscend (seen ++ entries) →
      entries.foldl (fun all (k, v) => insert k v all) seen = seen ++ entries from this [] h
  clear h
  induction entries with
  | nil => exact fun seen _ => (List.append_nil seen).symm
  | cons e rest ih =>
    intro seen ascend
    have above : ∀ b ∈ seen, b.1 < e.1 := fun b member =>
      (List.pairwise_append.1 ascend).2.2 b member e (List.mem_cons_self ..)
    rw [List.foldl_cons]
    show rest.foldl _ (insert e.1 e.2 seen) = _
    rw [insert_of_forall_lt above, ih _ (by simpa using ascend), List.append_assoc]
    rfl

end Keyed

end PeekLock
