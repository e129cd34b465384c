import PeekLock.Json.Record

/-! # What a record is read from

However a record travels, as an object or as an array, and whatever stands in the text,
what comes out was put together by `Record.finish` from a state of the reader.  So what
`finish` never gives is never read.
-/

namespace PeekLock

/-- A computation of two steps that succeeds has succeeded in both. -/
theorem bind_eq_ok {ε α β : Type} {x : Except ε α} {f : α → Except ε β} {y : β}
    (done : (x >>= f) = .ok y) : ∃ a, x = .ok a ∧ f a = .ok y := by
  cases x with
  | error _ => simp [bind, Except.bind] at done
  | ok a => exact ⟨a, rfl, done⟩

namespace Json

/-- A value of the wrong type is always reported. -/
theorem mismatch_ne_ok {α : Type} {expected : String} {bs : Octets} {v : α × Octets} :
    mismatch expected bs ≠ .ok v := by
  intro done
  cases bs with
  | nil => simp [mismatch] at done
  | cons b rest =>
    simp only [mismatch] at done
    -- at once, or after the rest of a scalar
    repeat' split at done
    all_goals
      try obtain ⟨⟨_, _⟩, _, done⟩ := bind_eq_ok done
      simp at done

namespace Record

variable {σ α : Type} {r : Record σ α} {v : α}

theorem finish_of_finished {state : σ} (done : r.finished state = .ok v) :
    r.finish state = .ok v := by
  simp only [finished] at done
  split at done
  · rename_i w finish
    rw [finish, Except.ok.inj done]
  · simp at done

theorem finish_of_read {depth : Nat} {bs rest : Octets}
    (read : r.read depth bs = .ok (v, rest)) : ∃ state, r.finish state = .ok v := by
  simp only [Record.read] at read
  -- an object of members, an array of fields, or a value of the wrong type
  split at read
  · split at read
    · exact nomatch read
    · obtain ⟨⟨state, _⟩, _, read⟩ := bind_eq_ok read
      obtain ⟨w, finished, read⟩ := bind_eq_ok read
      obtain ⟨_, _, read⟩ := bind_eq_ok read
      obtain ⟨rfl, _⟩ := Prod.mk.inj (Except.ok.inj read)
      exact ⟨state, finish_of_finished finished⟩
  · split at read
    · exact nomatch read
    · obtain ⟨⟨state, _⟩, _, read⟩ := bind_eq_ok read
      obtain ⟨w, finished, read⟩ := bind_eq_ok read
      obtain ⟨_, _, read⟩ := bind_eq_ok read
      obtain ⟨rfl, _⟩ := Prod.mk.inj (Except.ok.inj read)
      exact ⟨state, finish_of_finished finished⟩
  · exact absurd read mismatch_ne_ok

/-- A record that has been read was put together from a state of the reader. -/
theorem finish_of_parse {s : String} (parsed : r.parse s = .ok v) :
    ∃ state, r.finish state = .ok v := by
  simp only [parse, Reader.run] at parsed
  obtain ⟨⟨w, rest⟩, read, parsed⟩ := bind_eq_ok parsed
  dsimp only at parsed
  split at parsed
  · obtain rfl := Except.ok.inj parsed
    exact finish_of_read read
  · simp at parsed

end Record

end Json

end PeekLock
