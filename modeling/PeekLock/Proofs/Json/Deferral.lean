import PeekLock.Proofs.Json.Record

/-! # Records that put a check off

Two records may be read from the same text, one of which checks a field where it stands while
the other takes it as it is.  The second one puts the check off: what it has read can be
viewed as what the first one would have made of it, or as the failure of the check.  If the
fields are related in this way one by one, then so are the records, in every text
(`Record.Defers.parse`).  A check that fails stays a failure, as no field is read twice
in an object, and in an array nothing stands behind the field in question.
-/

namespace PeekLock.Json

/-- The first computation puts a check off that the second one makes: it fails only if that
    one does, and what it gives can be viewed as the outcome of that one. -/
inductive Defers {α β : Type} (view : α → Except Failure β) :
    Except Failure α → Except Failure β → Prop where
  | told (a : α) : Defers view (.ok a) (view a)
  | failed (f f' : Failure) : Defers view (.error f) (.error f')

namespace Defers

variable {α β γ δ : Type} {view : α → Except Failure β} {view' : γ → Except Failure δ}

theorem of_ok {a : α} {b : β} (viewed : view a = .ok b) : Defers view (.ok a) (.ok b) :=
  viewed ▸ .told a

theorem of_refused {a : α} {f : Failure} (refused : view a = .error f) :
    Defers view (.ok a) (.error f) :=
  refused ▸ .told a

theorem eq_view {a : α} {y : Except Failure β} (defers : Defers view (.ok a) y) : y = view a := by
  cases defers with
  | told => rfl

theorem exists_view {x : Except Failure α} {b : β} (defers : Defers view x (.ok b)) :
    ∃ a, x = .ok a ∧ view a = .ok b := by
  generalize checked : Except.ok b = y at defers
  cases defers with
  | told a => exact ⟨a, rfl, rfl⟩
  | failed f f' => exact nomatch checked

/-- Steps are put together if the second one is related as well, and does not mend what was
    refused in the first one. -/
theorem bind {x : Except Failure α} {y : Except Failure β} (first : Defers view x y)
    {k : α → Except Failure γ} {l : β → Except Failure δ}
    (second : ∀ a b, view a = .ok b → Defers view' (k a) (l b))
    (stays : ∀ a f c, x = .ok a → view a = .error f → k a = .ok c → view' c = .error f) :
    Defers view' (x >>= k) (y >>= l) := by
  cases first with
  | failed f f' => exact .failed f f'
  | told a =>
    cases viewed : view a with
    | ok b => exact second a b viewed
    | error f =>
      -- The second computation has ended, while the first one goes on with what was refused.
      show Defers view' (k a) (.error f)
      cases later : k a with
      | ok c => exact of_refused (stays a f c rfl viewed later)
      | error f' => exact .failed f' f

/-- A first step that both have in common. -/
theorem common {x : Except Failure α} {k : α → Except Failure γ} {l : α → Except Failure δ}
    (second : ∀ a, Defers view' (k a) (l a)) : Defers view' (x >>= k) (x >>= l) := by
  cases x with
  | error f => exact .failed f f
  | ok a => exact second a

end Defers

section Maps

variable {ε α β : Type} {x : Except ε α} {f : α → β}

theorem map_eq_ok_iff {y : β} : x.map f = .ok y ↔ ∃ a, x = .ok a ∧ f a = y := by
  cases x with
  | ok a => simp [Except.map]
  | error e => simp [Except.map]

theorem map_eq_error_iff {e : ε} : x.map f = .error e ↔ x = .error e := by
  cases x with
  | ok a => simp [Except.map]
  | error e' => simp [Except.map]

end Maps

/-- The view of what was read, in front of what is left. -/
def withRest {σ τ : Type} (view : σ → Except Failure τ) (read : σ × Octets) :
    Except Failure (τ × Octets) :=
  (view read.1).map fun t => (t, read.2)

section States

variable {σ τ : Type} {view : σ → Except Failure τ}

theorem withRest_eq_ok {s : σ} {t : τ} {rest rest' : Octets} :
    withRest view (s, rest) = .ok (t, rest') ↔ view s = .ok t ∧ rest = rest' := by
  rw [withRest, map_eq_ok_iff]
  constructor
  · rintro ⟨t', viewed, together⟩
    obtain ⟨rfl, rest⟩ := Prod.mk.inj together
    exact ⟨viewed, rest⟩
  · rintro ⟨viewed, rfl⟩
    exact ⟨t, viewed, rfl⟩

theorem withRest_eq_error {s : σ} {rest : Octets} {f : Failure} :
    withRest view (s, rest) = .error f ↔ view s = .error f :=
  map_eq_error_iff

/-- A reader that both have in common. -/
theorem Defers.same (x : Except Failure (σ × Octets)) : Defers (withRest .ok) x x := by
  cases x with
  | error f => exact .failed f f
  | ok read => exact .of_ok rfl

/-! ## Members -/

section Members

variable {member : σ → String → Reader σ} {member' : τ → String → Reader τ}

theorem stays_membersFrom
    (stays : ∀ s key bs s' rest f, view s = .error f → member s key bs = .ok (s', rest) →
      view s' = .error f) {s s' : σ} {first : Bool} {rounds : Nat} {bs rest : Octets} {f : Failure}
    (refused : view s = .error f) (read : membersFrom member s first rounds bs = .ok (s', rest)) :
    view s' = .error f := by
  induction rounds generalizing s first bs with
  | zero => simp [membersFrom] at read
  | succ rounds ih =>
    obtain ⟨next, _, read⟩ := bind_eq_ok read
    cases next with
    | none =>
      obtain ⟨rfl, _⟩ := Prod.mk.inj (Except.ok.inj read)
      exact refused
    | some bs =>
      obtain ⟨⟨key, bs⟩, _, read⟩ := bind_eq_ok read
      obtain ⟨⟨s₁, rest₁⟩, one, read⟩ := bind_eq_ok read
      exact ih (stays s key bs s₁ rest₁ f refused one) read

theorem defers_membersFrom
    (step : ∀ s t key bs, view s = .ok t →
      Defers (withRest view) (member s key bs) (member' t key bs))
    (stays : ∀ s key bs s' rest f, view s = .error f → member s key bs = .ok (s', rest) →
      view s' = .error f) {s : σ} {t : τ} (viewed : view s = .ok t) (first : Bool) (rounds : Nat)
    (bs : Octets) :
    Defers (withRest view) (membersFrom member s first rounds bs)
      (membersFrom member' t first rounds bs) := by
  induction rounds generalizing s t first bs with
  | zero => exact .failed _ _
  | succ rounds ih =>
    -- Both look for the key in the same place, and only the values are read differently.
    refine .common fun next => ?_
    cases next with
    | none => exact .of_ok (withRest_eq_ok.2 ⟨viewed, rfl⟩)
    | some bs =>
      refine .common fun key => ?_
      refine (step s t key.1 key.2 viewed).bind ?_ ?_
      · rintro ⟨s₁, rest₁⟩ ⟨t₁, rest₁'⟩ one
        obtain ⟨viewed₁, rfl⟩ := withRest_eq_ok.1 one
        exact ih viewed₁ false rest₁
      · rintro ⟨s₁, rest₁⟩ f ⟨s', rest⟩ _ refused read
        exact withRest_eq_error.2
          (stays_membersFrom stays (withRest_eq_error.1 refused) read)

end Members

/-! ## Fields -/

/-- A field that is read as another one, but for a check that is put off. -/
structure Field.Defers (view : σ → Except Failure τ) (field : Field σ) (field' : Field τ) :
    Prop where
  name : field.name = field'.name
  given : ∀ s t, view s = .ok t → field.given s = field'.given t
  read : ∀ depth s t bs, view s = .ok t →
    Json.Defers (withRest view) (field.read depth s bs) (field'.read depth t bs)
  stays : ∀ depth s bs s' rest f, view s = .error f → field.given s = false →
    field.read depth s bs = .ok (s', rest) → view s' = .error f

/-- A field for which there is nothing to check. -/
def Field.Certain (view : σ → Except Failure τ) (field : Field σ) : Prop :=
  ∀ depth s t bs s' rest, view s = .ok t → field.read depth s bs = .ok (s', rest) →
    ∃ t', view s' = .ok t'

/-- A field whose value is read by itself and then entered into the state. -/
def Field.entered {μ : Type} (name : String) (given : σ → Bool) (reader : Reader μ)
    (enter : σ → μ → σ) : Field σ where
  name := name
  given := given
  read := fun _ s bs => do
    let (v, rest) ← reader bs
    return (enter s v, rest)

section Entered

variable {μ ν : Type} {viewValue : μ → Except Failure ν} {name : String} {given : σ → Bool}
  {given' : τ → Bool} {reader : Reader μ} {reader' : Reader ν} {enter : σ → μ → σ}
  {enter' : τ → ν → τ}

theorem Field.Defers.entered
    (reads : ∀ bs, Json.Defers (withRest viewValue) (reader bs) (reader' bs))
    (agree : ∀ s t, view s = .ok t → given s = given' t)
    (enters : ∀ s t v w, view s = .ok t → viewValue v = .ok w →
      view (enter s v) = .ok (enter' t w))
    (refuses : ∀ s t v f, view s = .ok t → viewValue v = .error f → view (enter s v) = .error f)
    (stays : ∀ s v f, view s = .error f → given s = false → view (enter s v) = .error f) :
    (Field.entered name given reader enter).Defers view
      (Field.entered name given' reader' enter') where
  name := rfl
  given := agree
  read := by
    intro _ s t bs viewed
    refine (reads bs).bind ?_ ?_
    · rintro ⟨v, rest⟩ ⟨w, rest'⟩ read
      obtain ⟨value, rfl⟩ := withRest_eq_ok.1 read
      exact .of_ok (withRest_eq_ok.2 ⟨enters s t v w viewed value, rfl⟩)
    · rintro ⟨v, rest⟩ f last _ refused read
      obtain rfl := Except.ok.inj read
      exact withRest_eq_error.2 (refuses s t v f viewed (withRest_eq_error.1 refused))
  stays := by
    intro _ s bs s' rest f refused fresh read
    obtain ⟨⟨v, _⟩, _, read⟩ := bind_eq_ok read
    obtain ⟨rfl, _⟩ := Prod.mk.inj (Except.ok.inj read)
    exact stays s v f refused fresh

theorem Field.Certain.entered (enters : ∀ s t v, view s = .ok t → ∃ t', view (enter s v) = .ok t') :
    (Field.entered name given reader enter).Certain view := by
  intro _ s t bs s' rest viewed read
  obtain ⟨⟨v, _⟩, _, read⟩ := bind_eq_ok read
  obtain ⟨rfl, _⟩ := Prod.mk.inj (Except.ok.inj read)
  exact enters s t v viewed

end Entered

/-- Fields side by side.  Only for the last ones a check may have been put off. -/
inductive FieldsDefer (view : σ → Except Failure τ) : List (Field σ) → List (Field τ) → Prop where
  | last {field : Field σ} {field' : Field τ} (defers : field.Defers view field') :
      FieldsDefer view [field] [field']
  | cons {field : Field σ} {field' : Field τ} {fields : List (Field σ)} {fields' : List (Field τ)}
      (defers : field.Defers view field') (certain : field.Certain view)
      (others : FieldsDefer view fields fields') :
      FieldsDefer view (field :: fields) (field' :: fields')

namespace FieldsDefer

variable {fields : List (Field σ)} {fields' : List (Field τ)}

/-- A name leads to fields side by side, or to none. -/
theorem find? (side : FieldsDefer view fields fields') (key : String) :
    fields.find? (·.name = key) = none ∧ fields'.find? (·.name = key) = none ∨
      ∃ field field', fields.find? (·.name = key) = some field ∧
        fields'.find? (·.name = key) = some field' ∧ field.Defers view field' := by
  induction side with
  | @last field field' defers =>
    by_cases here : field.name = key
    · have there : field'.name = key := defers.name ▸ here
      exact .inr ⟨field, field', by simp [here], by simp [there], defers⟩
    · have there : field'.name ≠ key := defers.name ▸ here
      exact .inl ⟨by simp [here], by simp [there]⟩
  | @cons field field' fields fields' defers _ _ ih =>
    by_cases here : field.name = key
    · have there : field'.name = key := defers.name ▸ here
      exact .inr ⟨field, field', by simp [here], by simp [there], defers⟩
    · have there : field'.name ≠ key := defers.name ▸ here
      simpa [here, there] using ih

/-- Fields that are read in their order, as those of an array. -/
theorem inOrder {α β : Type} {r : Record σ α} {q : Record τ β} (lenient : r.lenient = q.lenient)
    (side : FieldsDefer view fields fields') {s : σ} {t : τ} (viewed : view s = .ok t)
    (depth count : Nat) (bs : Octets) :
    Json.Defers (withRest view) (r.fieldsInOrder depth count s fields bs)
      (q.fieldsInOrder depth count t fields' bs) := by
  -- What an array lacks is reported or let pass by both records.
  have lacking {s : σ} {t : τ} (viewed : view s = .ok t) (count : Nat) (bs : Octets) :
      Json.Defers (withRest view)
        (if r.lenient then .ok (s, bs) else .error (r.tooShort count))
        (if q.lenient then .ok (t, bs) else .error (q.tooShort count)) := by
    rw [← lenient]
    split
    · exact .of_ok (withRest_eq_ok.2 ⟨viewed, rfl⟩)
    · exact .failed _ _
  induction side generalizing s t count bs with
  | last defers =>
    refine .common fun next => ?_
    cases next with
    | none => exact lacking viewed count bs
    | some bs =>
      refine (defers.read depth s t bs viewed).bind ?_ ?_
      · rintro ⟨s₁, rest⟩ ⟨t₁, rest'⟩ one
        exact .of_ok one
      · rintro ⟨s₁, rest⟩ f last _ refused read
        obtain rfl := Except.ok.inj read
        exact refused
  | cons defers certain _ ih =>
    refine .common fun next => ?_
    cases next with
    | none => exact lacking viewed count bs
    | some bs =>
      refine (defers.read depth s t bs viewed).bind ?_ ?_
      · rintro ⟨s₁, rest⟩ ⟨t₁, rest'⟩ one
        obtain ⟨viewed₁, rfl⟩ := withRest_eq_ok.1 one
        exact ih viewed₁ (count + 1) rest
      · -- In an array the fields behind could mend what was refused here, but nothing is.
        rintro ⟨s₁, rest⟩ f last read refused _
        obtain ⟨t₁, viewed₁⟩ := certain depth s t bs s₁ rest viewed read
        rw [withRest_eq_error, viewed₁] at refused
        exact nomatch refused

end FieldsDefer

/-! ## Records -/

/-- A record whose fields are read as those of another one, with checks put off. -/
structure Record.Defers {α β : Type} (view : σ → Except Failure τ) (done : α → Except Failure β)
    (r : Record σ α) (q : Record τ β) : Prop where
  lenient : r.lenient = q.lenient
  empty : view r.empty = .ok q.empty
  fields : FieldsDefer view r.fields q.fields
  finished : ∀ s t, view s = .ok t → Json.Defers done (r.finished s) (q.finished t)
  stays : ∀ s f v, view s = .error f → r.finished s = .ok v → done v = .error f

namespace Record.Defers

variable {α β : Type} {done : α → Except Failure β} {r : Record σ α} {q : Record τ β}

theorem stays_member (side : r.Defers view done q) {depth : Nat} {s s' : σ} {key : String}
    {bs rest : Octets} {f : Failure} (refused : view s = .error f)
    (read : r.member depth s key bs = .ok (s', rest)) : view s' = .error f := by
  simp only [member] at read
  rcases side.fields.find? key with ⟨found, _⟩ | ⟨field, field', found, _, defers⟩
  · rw [found] at read
    obtain ⟨_, _, read⟩ := bind_eq_ok read
    obtain ⟨_, _, read⟩ := bind_eq_ok read
    obtain ⟨rfl, _⟩ := Prod.mk.inj (Except.ok.inj read)
    exact refused
  · rw [found] at read
    dsimp only at read
    split at read
    · exact nomatch read
    · next fresh =>
      obtain ⟨⟨_, bs'⟩, _, read⟩ := bind_eq_ok read
      exact defers.stays depth s bs' s' rest f refused (Bool.eq_false_iff.2 fresh) read

theorem member (side : r.Defers view done q) (depth : Nat) {s : σ} {t : τ} (key : String)
    (bs : Octets) (viewed : view s = .ok t) :
    Json.Defers (withRest view) (r.member depth s key bs) (q.member depth t key bs) := by
  simp only [Record.member]
  rcases side.fields.find? key with ⟨found, found'⟩ | ⟨field, field', found, found', defers⟩
  · rw [found, found']
    refine .common fun _ => .common fun _ => ?_
    exact .of_ok (withRest_eq_ok.2 ⟨viewed, rfl⟩)
  · rw [found, found']
    dsimp only
    rw [defers.given s t viewed]
    split
    · exact .failed _ _
    · exact .common fun colon => defers.read depth s t colon.2 viewed

/-- Behind its fields the record is put together, and its bracket is closed. -/
theorem completed (side : r.Defers view done q) (close : Reader Unit)
    {x : Except Failure (σ × Octets)} {y : Except Failure (τ × Octets)}
    (gathered : Json.Defers (withRest view) x y) :
    Json.Defers (withRest done)
      (do
        let (state, rest) ← x
        let v ← r.finished state
        let (_, rest) ← close rest
        return (v, rest))
      (do
        let (state, rest) ← y
        let v ← q.finished state
        let (_, rest) ← close rest
        return (v, rest)) := by
  refine gathered.bind ?_ ?_
  · rintro ⟨s, rest⟩ ⟨t, rest'⟩ together
    obtain ⟨viewed, rfl⟩ := withRest_eq_ok.1 together
    refine (side.finished s t viewed).bind ?_ ?_
    · intro v w finished
      exact .common fun _ => .of_ok (withRest_eq_ok.2 ⟨finished, rfl⟩)
    · rintro v f ⟨v', rest'⟩ _ refused read
      obtain ⟨_, _, read⟩ := bind_eq_ok read
      obtain ⟨rfl, _⟩ := Prod.mk.inj (Except.ok.inj read)
      exact withRest_eq_error.2 refused
  · rintro ⟨s, rest⟩ f ⟨v, rest'⟩ _ refused read
    obtain ⟨w, finished, read⟩ := bind_eq_ok read
    obtain ⟨_, _, read⟩ := bind_eq_ok read
    obtain ⟨rfl, _⟩ := Prod.mk.inj (Except.ok.inj read)
    exact withRest_eq_error.2 (side.stays s f w (withRest_eq_error.1 refused) finished)

theorem read (side : r.Defers view done q) (depth : Nat) (bs : Octets) :
    Json.Defers (withRest done) (r.read depth bs) (q.read depth bs) := by
  have wrong (bs : Octets) : Json.Defers (withRest done)
      (mismatch r.expected bs) (mismatch q.expected bs) := by
    cases mine : mismatch (α := α) r.expected bs with
    | ok v => exact absurd mine mismatch_ne_ok
    | error f =>
      cases other : mismatch (α := β) q.expected bs with
      | ok v => exact absurd other mismatch_ne_ok
      | error f' => exact .failed f f'
  simp only [Record.read]
  -- an object of members, an array of fields, or a value of the wrong type
  split
  · cases depth with
    | zero => exact .failed _ _
    | succ depth =>
      refine side.completed closeObject (defers_membersFrom ?_ ?_ side.empty true _ _)
      · exact fun s t key bs viewed => side.member depth key bs viewed
      · exact fun s key bs s' rest f refused read => side.stays_member refused read
  · cases depth with
    | zero => exact .failed _ _
    | succ depth =>
      exact side.completed closeArray (side.fields.inOrder side.lenient side.empty depth 0 _)
  · exact wrong _

/-- Read from the same text, the one record is viewed as the other. -/
theorem parse (side : r.Defers view done q) (json : String) :
    Json.Defers done (r.parse json) (q.parse json) := by
  simp only [Record.parse, Reader.run]
  refine (side.read maxDepth (Utf8.encode json)).bind ?_ ?_
  · rintro ⟨v, rest⟩ ⟨w, rest'⟩ read
    obtain ⟨viewed, rfl⟩ := withRest_eq_ok.1 read
    split
    · exact .of_ok viewed
    · exact .failed _ _
  · rintro ⟨v, rest⟩ f v' _ refused read
    dsimp only at read
    split at read
    · obtain rfl := Except.ok.inj read
      exact withRest_eq_error.1 refused
    · simp at read

end Record.Defers

end States

end PeekLock.Json
