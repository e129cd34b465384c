import PeekLock.Envelope.Draft
import PeekLock.Envelope.Edit
import PeekLock.Proofs.Json.Record

/-! # Tokens outside of queues

Outside of queues no envelope gets a token that it did not have: a draft makes one
without, and an edit keeps the token or takes it off.  The wire form is the place where
a token might slip in, but an envelope that is read is put together from parts that have
none.
-/

namespace PeekLock

namespace Envelope

/-- Whatever text an envelope is read from, it comes without token. -/
theorem reference_ofJson {json : String} {e : Envelope} (read : ofJson json = .ok e) :
    e.reference = none := by
  simp only [ofJson] at read
  split at read
  · rename_i e' parsed
    obtain rfl := Except.ok.inj read
    obtain ⟨parts, finished⟩ := Json.Record.finish_of_parse parsed
    have finished : parts.finish = .ok e' := finished
    simp only [Parts.finish] at finished
    split at finished
    · exact (Except.ok.inj finished) ▸ rfl
    all_goals simp at finished
  · simp at read

end Envelope

theorem Draft.reference_make {draft : Draft} {next next' : Nat} {e : Envelope}
    (made : draft.make next = .ok (e, next')) : e.reference = none := by
  obtain ⟨source, id⟩ := draft
  obtain ⟨⟨e₀, n⟩, first, made⟩ := bind_eq_ok made
  obtain ⟨rfl, _⟩ := Prod.mk.inj (Except.ok.inj made)
  suffices e₀.reference = none by cases id <;> exact this
  cases source with
  | empty => exact (Prod.mk.inj (Except.ok.inj first)).1 ▸ rfl
  | new c t payload => exact (Prod.mk.inj (Except.ok.inj first)).1 ▸ rfl
  | document c t doc =>
    obtain ⟨e, encoded, first⟩ := bind_eq_ok first
    obtain ⟨rfl, _⟩ := Prod.mk.inj (Except.ok.inj first)
    simp only [Envelope.ofDocument] at encoded
    split at encoded
    · exact (Except.ok.inj encoded) ▸ rfl
    · simp at encoded
  | wire json =>
    obtain ⟨e, read, first⟩ := bind_eq_ok first
    obtain ⟨rfl, _⟩ := Prod.mk.inj (Except.ok.inj first)
    exact Envelope.reference_ofJson read

namespace Edit

/-- An edit keeps the token or takes it off. -/
theorem reference_apply (edit : Edit) (e : Envelope) :
    (edit.apply e).1.reference = e.reference ∨ (edit.apply e).1.reference = none := by
  cases edit with
  | reload =>
    simp only [apply]
    split
    · rename_i back read
      exact .inr (Envelope.reference_ofJson read)
    · exact .inl rfl
  | setDocument d =>
    left
    simp only [apply, settled, Envelope.setDocument]
    split <;> rfl
  | setSentTime s =>
    left
    cases s with
    | none => rfl
    | some s =>
      simp only [apply]
      split <;> rfl
  | setMessageId s =>
    left
    simp only [apply]
    split <;> rfl
  | _ => exact .inl rfl

theorem applyAll_append (e : Envelope) (front back : List Edit) :
    (applyAll e (front ++ back)).1 = (applyAll (applyAll e front).1 back).1 := by
  induction front generalizing e with
  | nil => rfl
  | cons edit rest ih => exact ih (edit.apply e).1

end Edit

namespace Envelope

/-- An envelope is another one, or a copy of it, after some edits. -/
def Descends (e₀ e : Envelope) : Prop := ∃ edits, (Edit.applyAll e₀ edits).1 = e

namespace Descends

variable {e₀ e₁ e : Envelope} {t : LockToken}

protected theorem refl (e : Envelope) : e.Descends e := ⟨[], rfl⟩

protected theorem trans (first : e₀.Descends e₁) (second : e₁.Descends e) : e₀.Descends e := by
  obtain ⟨front, rfl⟩ := first
  obtain ⟨back, rfl⟩ := second
  exact ⟨front ++ back, Edit.applyAll_append ..⟩

theorem edit (e : Envelope) (edit : Edit) : e.Descends (edit.apply e).1 := ⟨[edit], rfl⟩

/-- A token is there from the start. -/
theorem reference (descends : e₀.Descends e) (carries : e.reference = some t) :
    e₀.reference = some t := by
  obtain ⟨edits, rfl⟩ := descends
  induction edits generalizing e₀ with
  | nil => exact carries
  | cons edit rest ih =>
    have first : (edit.apply e₀).1.reference = some t := ih carries
    rcases edit.reference_apply e₀ with same | none
    · rw [← same, first]
    · rw [none] at first
      simp at first

end Descends

end Envelope

end PeekLock
