import PeekLock.Proofs.Time.Order

/-! # Addition stops at the last instant

Outside leap seconds an instant is a number of nanoseconds, and addition of a duration is
addition of numbers, cut off at the last instant (`after_of_ordinary`): it does not
show that a step is cut off as well, since the longest step leads out of all time.  So
the laws of such additions are those of numbers.

Inside a leap second time is spent first and left then, and addition is still monotone
and never goes back, up to the last instant.  Behind it are the instants inside the
leap second at the end of all time, and from them an addition that leaves the leap
second leads back to the last instant (`leads_back_at_end_of_time`).
-/

namespace PeekLock.Timestamp

variable {t t' : Timestamp}

/-! ## Outside leap seconds -/

theorem plainPlace_of_ordinary (ordinary : ¬ t.InLeapSecond) :
    t.plainPlace = t.seconds * 1000000000 + t.nanos := by
  simp only [InLeapSecond, perSecond] at ordinary
  simp only [plainPlace]
  omega

theorem last_plainPlace : last.plainPlace = 8210266876799999999999 := rfl

theorem last_ordinary : ¬ last.InLeapSecond := by decide

/-- Instants outside leap seconds are told by their numbers. -/
theorem eq_of_plainPlace_eq (ordinary : ¬ t.InLeapSecond) (ordinary' : ¬ t'.InLeapSecond)
    (same : t.plainPlace = t'.plainPlace) : t = t' := by
  rw [plainPlace_of_ordinary ordinary, plainPlace_of_ordinary ordinary'] at same
  simp only [InLeapSecond, perSecond] at ordinary ordinary'
  apply eq_of_place_eq
  simp only [place]
  omega

theorem le_iff_plainPlace_le (ordinary : ¬ t.InLeapSecond) (ordinary' : ¬ t'.InLeapSecond) :
    t ≤ t' ↔ t.plainPlace ≤ t'.plainPlace := by
  rw [plainPlace_of_ordinary ordinary, plainPlace_of_ordinary ordinary', le_iff_place_le]
  simp only [InLeapSecond, perSecond] at ordinary ordinary'
  simp only [place]
  omega

/-- The last instant is the last of those outside leap seconds. -/
theorem le_last_of_ordinary (ordinary : ¬ t.InLeapSecond) : t ≤ last := by
  have highest := t.highest
  rw [le_iff_plainPlace_le ordinary last_ordinary, plainPlace_of_ordinary ordinary,
    last_plainPlace]
  simp only [InLeapSecond, perSecond] at ordinary
  omega

theorem after_of_ordinary (ordinary : ¬ t.InLeapSecond) (d : Duration) :
    ¬ (t.after d).InLeapSecond ∧
      (t.after d).plainPlace = min (t.plainPlace + d.nanoseconds) last.plainPlace := by
  have lowest := t.lowest
  have short := (t.after d).nanos_lt
  -- A step that is cut off leads out of all time even from the first instant.
  have step : stepOf d = min d.nanoseconds 9223372036854775807000000 := rfl
  rw [plainPlace_of_ordinary ordinary, last_plainPlace]
  simp only [InLeapSecond, perSecond, plainPlace] at ordinary ⊢
  rcases after_place t d with ⟨leap, -, -⟩ | ⟨-, sum⟩
  · exact absurd leap ordinary
  · generalize t.after d = r at short sum
    simp only [place] at sum
    constructor <;> omega

/-! ## Behind the last instant -/

/-- An instant behind the last one is inside the leap second at the end of all time. -/
theorem inLeapSecond_of_not_le_last (behind : ¬ t ≤ last) : t.InLeapSecond :=
  Decidable.of_not_not fun ordinary => behind (le_last_of_ordinary ordinary)

theorem after_of_not_le_last (behind : ¬ t ≤ last) (d : Duration) :
    (t.nanos + d.nanoseconds < 2 * perSecond → (t.after d).place = t.place + d.nanoseconds) ∧
      (2 * perSecond ≤ t.nanos + d.nanoseconds → t.after d = last) := by
  have leap := inLeapSecond_of_not_le_last behind
  have highest := t.highest
  have step : stepOf d = min d.nanoseconds 9223372036854775807000000 := rfl
  have short := t.nanos_lt
  rw [le_last_iff] at behind
  have atLast : t.after d = last ↔ (t.after d).place = last.place := ⟨congrArg _, eq_of_place_eq⟩
  rw [atLast, last_place]
  simp only [InLeapSecond, perSecond, place] at leap ⊢
  rcases after_place t d with ⟨-, stays, sum⟩ | ⟨leaves, sum⟩ <;>
    simp only [place] at sum <;> omega

/-- From inside the leap second at the end of all time, half a second leads back to the last
    instant, although no time at all leads nowhere. -/
theorem leads_back_at_end_of_time :
    let t : Timestamp := ⟨8210266876799, 1500000000, by decide, by decide, by decide, by decide⟩
    t.InLeapSecond ∧ ¬ t ≤ t.after (.ofMillis 500) ∧ ¬ t.after .zero ≤ t.after (.ofMillis 500) := by
  decide

/-! ## All additions -/

/-- Outside leap seconds, addition leads exactly as many nanoseconds further as the duration has, or
    to the last instant where that would be later.  So it is monotone in the instant and in
    the duration, never goes back, and two additions are that of both durations together.
    Inside a leap second it is monotone in the duration as well and never goes back, except from
    behind the last instant: there it is exact inside the leap second, and otherwise leads back
    to the last instant. -/
theorem after_saturates :
    (∀ t : Timestamp, ¬ t.InLeapSecond →
      t ≤ last ∧
      (∀ d, ¬ (t.after d).InLeapSecond ∧
        (t.plainPlace + d.nanoseconds ≤ last.plainPlace →
          (t.after d).plainPlace = t.plainPlace + d.nanoseconds) ∧
        (last.plainPlace < t.plainPlace + d.nanoseconds → t.after d = last)) ∧
      (∀ t' : Timestamp, ¬ t'.InLeapSecond → t ≤ t' → ∀ d, t.after d ≤ t'.after d) ∧
      ∀ a b : Duration, (t.after a).after b = t.after ⟨a.nanoseconds + b.nanoseconds⟩) ∧
    (∀ t : Timestamp, t ≤ last →
      (∀ d, t ≤ t.after d) ∧
      ∀ d d' : Duration, d.nanoseconds ≤ d'.nanoseconds → t.after d ≤ t.after d') ∧
    ∀ t : Timestamp, ¬ t ≤ last →
      t.InLeapSecond ∧
      ∀ d, (t.nanos + d.nanoseconds < 2 * perSecond →
          (t.after d).place = t.place + d.nanoseconds) ∧
        (2 * perSecond ≤ t.nanos + d.nanoseconds → t.after d = last) := by
  refine ⟨fun t ordinary => ⟨le_last_of_ordinary ordinary, ?_, ?_, ?_⟩, ?_, ?_⟩
  · intro d
    obtain ⟨after, sum⟩ := after_of_ordinary ordinary d
    refine ⟨after, fun fits => by omega, fun late => ?_⟩
    exact eq_of_plainPlace_eq after last_ordinary (by omega)
  · intro t' ordinary' before d
    obtain ⟨after, sum⟩ := after_of_ordinary ordinary d
    obtain ⟨after', sum'⟩ := after_of_ordinary ordinary' d
    rw [le_iff_plainPlace_le ordinary ordinary'] at before
    rw [le_iff_plainPlace_le after after']
    omega
  · intro a b
    obtain ⟨first, sum⟩ := after_of_ordinary ordinary a
    obtain ⟨second, sum'⟩ := after_of_ordinary first b
    obtain ⟨both, sum''⟩ := after_of_ordinary ordinary ⟨a.nanoseconds + b.nanoseconds⟩
    refine eq_of_plainPlace_eq second both ?_
    -- What the first addition is cut off by, the second would be cut off by, too.
    rw [sum', sum, sum'']
    dsimp only
    omega
  · intro t early
    exact ⟨le_after early, fun d d' longer => after_le_after early longer⟩
  · intro t behind
    exact ⟨inLeapSecond_of_not_le_last behind, after_of_not_le_last behind⟩

end PeekLock.Timestamp
