import PeekLock.Time.Timestamp

/-! # The order of instants

Instants are ordered by their seconds first and by their nanoseconds then, so they
have a place on one line, two thousand million places for each second
(`le_iff_place_le`).  Addition moves along that line: it never goes back and is
monotone in the duration (`le_after`, `after_le_after`).

The non-trivial ingredient is the end of time.  The last second of all is the last
of a minute, so there are instants inside a leap second that lie behind the last
instant at which addition stops.  From those, and from no others, addition can lead
back, which is why a clock never goes back exactly if it is not started there
(`isSteady_iff`).  Leap seconds matter once more: additions keep the order of two
instants if one clock can show both (`LeadsTo.after_le_after`), and not otherwise.
-/

namespace PeekLock.Timestamp

/-! ## One line -/

def place (t : Timestamp) : Int := t.seconds * 2000000000 + t.nanos

theorem le_iff_place_le {a b : Timestamp} : a ≤ b ↔ a.place ≤ b.place := by
  have := a.nanos_lt
  have := b.nanos_lt
  change (a.seconds < b.seconds ∨ (a.seconds = b.seconds ∧ a.nanos ≤ b.nanos)) ↔ _
  simp only [place]
  omega

theorem eq_of_place_eq {a b : Timestamp} (same : a.place = b.place) : a = b := by
  obtain ⟨s, n, _, _, short, _⟩ := a
  obtain ⟨s', n', _, _, short', _⟩ := b
  simp only [place] at same
  have seconds : s = s' := by omega
  have nanos : n = n' := by omega
  subst seconds nanos
  rfl

theorem last_place : last.place = 16420533753598999999999 := rfl

theorem le_last_iff {t : Timestamp} :
    t ≤ last ↔ t.seconds * 2000000000 + t.nanos ≤ 16420533753598999999999 :=
  le_iff_place_le

protected theorem le_refl (a : Timestamp) : a ≤ a :=
  le_iff_place_le.2 (Int.le_refl _)

protected theorem le_trans {a b c : Timestamp} (first : a ≤ b) (second : b ≤ c) : a ≤ c :=
  le_iff_place_le.2 (Int.le_trans (le_iff_place_le.1 first) (le_iff_place_le.1 second))

protected theorem le_antisymm {a b : Timestamp} (first : a ≤ b) (second : b ≤ a) : a = b :=
  eq_of_place_eq (Int.le_antisymm (le_iff_place_le.1 first) (le_iff_place_le.1 second))

/-! ## Addition -/

theorem ofParts?_eq {seconds : Int} {nanos : Nat} (lowest : -8334601228800 ≤ seconds)
    (highest : seconds ≤ 8210266876799) (bound : nanos < 2000000000)
    (leap : 1000000000 ≤ nanos → seconds % 60 = 59) :
    ofParts? seconds nanos = some ⟨seconds, nanos, lowest, highest, bound, leap⟩ := by
  rw [ofParts?, dif_pos ⟨lowest, highest, bound, leap⟩]

def stepOf (d : Duration) : Nat := min d.nanoseconds longestStep.nanoseconds

/-- Where an addition leads to: within a leap second it goes on there, and otherwise it adds
    to the nanoseconds of the ordinary second and stops at the last instant. -/
theorem after_place (t : Timestamp) (d : Duration) :
    (1000000000 ≤ t.nanos ∧ t.nanos + stepOf d < 2000000000 ∧
      (t.after d).place = t.seconds * 2000000000 + (t.nanos + stepOf d : Nat)) ∨
    (¬ (1000000000 ≤ t.nanos ∧ t.nanos + stepOf d < 2000000000) ∧
      (t.after d).place =
        min ((t.seconds + ((t.nanos % 1000000000 + stepOf d) / 1000000000 : Nat)) * 2000000000 +
          ((t.nanos % 1000000000 + stepOf d) % 1000000000 : Nat)) 16420533753598999999999) := by
  have lowest := t.lowest
  have highest := t.highest
  by_cases stays : 1000000000 ≤ t.nanos ∧ t.nanos + stepOf d < 2000000000
  · left
    have sum : t.after d = (ofParts? t.seconds (t.nanos + stepOf d)).getD last :=
      if_pos stays
    rw [sum, ofParts?_eq lowest highest stays.2 fun _ => t.leap_at_minute_end stays.1]
    exact ⟨stays.1, stays.2, rfl⟩
  · right
    refine ⟨stays, ?_⟩
    have sum : t.after d = (ofParts? (t.seconds + ((t.nanos % 1000000000 + stepOf d) / 1000000000
        : Nat)) ((t.nanos % 1000000000 + stepOf d) % 1000000000)).getD last :=
      if_neg stays
    rw [sum]
    generalize (t.nanos % 1000000000 + stepOf d) / 1000000000 = carry
    have rest : (t.nanos % 1000000000 + stepOf d) % 1000000000 < 1000000000 :=
      Nat.mod_lt _ (by decide)
    generalize (t.nanos % 1000000000 + stepOf d) % 1000000000 = nanos at rest
    by_cases fits : t.seconds + (carry : Int) ≤ 8210266876799
    · rw [ofParts?_eq (by omega) fits (by omega) (by omega)]
      simp only [Option.getD_some, place]
      omega
    · rw [ofParts?, dif_neg (fun all => fits all.2.1), Option.getD_none, last_place]
      omega

/-- No addition leads behind the last instant. -/
theorem after_le_last {t : Timestamp} (h : t ≤ last) (d : Duration) : t.after d ≤ last := by
  rw [le_last_iff] at h
  rw [le_iff_place_le, last_place]
  rcases after_place t d with ⟨leap, short, sum⟩ | ⟨_, sum⟩ <;> omega

/-- An addition never goes back. -/
theorem le_after {t : Timestamp} (h : t ≤ last) (d : Duration) : t ≤ t.after d := by
  rw [le_last_iff] at h
  rw [le_iff_place_le, place]
  have := t.nanos_lt
  rcases after_place t d with ⟨leap, short, sum⟩ | ⟨stays, sum⟩ <;> omega

/-- A longer duration leads at least as far. -/
theorem after_le_after {t : Timestamp} (h : t ≤ last) {d d' : Duration}
    (longer : d.nanoseconds ≤ d'.nanoseconds) : t.after d ≤ t.after d' := by
  have steps : stepOf d ≤ stepOf d' := by unfold stepOf; omega
  rw [le_last_iff] at h
  rw [le_iff_place_le]
  have := t.nanos_lt
  rcases after_place t d with ⟨leap, short, sum⟩ | ⟨stays, sum⟩ <;>
    rcases after_place t d' with ⟨leap', short', sum'⟩ | ⟨stays', sum'⟩ <;> omega

/-- Only two additions lead nowhere: that of no time at all, and any at the last instant. -/
theorem after_le_self_iff {t : Timestamp} (h : t ≤ last) {d : Duration} :
    t.after d ≤ t ↔ d.nanoseconds = 0 ∨ t = last := by
  have := t.nanos_lt
  have here : t.place = t.seconds * 2000000000 + t.nanos := rfl
  have atLast : t = last ↔ t.place = last.place := ⟨congrArg _, eq_of_place_eq⟩
  have noStep : d.nanoseconds = 0 ↔ stepOf d = 0 := by
    simp only [stepOf, longestStep, Duration.ofMillis, maxSigned64]
    omega
  rw [le_last_iff] at h
  rw [atLast, noStep, le_iff_place_le, last_place, here]
  clear atLast noStep
  rcases after_place t d with ⟨leap, short, sum⟩ | ⟨stays, sum⟩ <;> omega

/-! ## Clocks -/

/-- A clock that was started at an instant never goes back. -/
def IsSteady (start : Timestamp) : Prop :=
  ∀ earlier later : Nat, earlier ≤ later →
    start.after (.ofMillis earlier) ≤ start.after (.ofMillis later)

theorem isSteady_iff {start : Timestamp} : start.IsSteady ↔ start ≤ last := by
  constructor
  · intro steady
    -- two seconds lead out of any leap second, and from the last one back to the last instant
    have first := steady 0 2000 (by decide)
    rw [le_iff_place_le] at first
    rw [le_last_iff]
    have := start.nanos_lt
    have := start.highest
    have zero : stepOf (.ofMillis 0) = 0 := rfl
    have two : stepOf (.ofMillis 2000) = 2000000000 := by decide
    rcases after_place start (.ofMillis 0) with ⟨_, _, sum⟩ | ⟨stays, sum⟩ <;>
      rcases after_place start (.ofMillis 2000) with ⟨_, short', _⟩ | ⟨_, sum'⟩ <;> omega
  · intro h earlier later before
    exact after_le_after h (Nat.mul_le_mul_right _ before)

/-- The place where an instant stands if its leap second is told as the second before. -/
def plainPlace (t : Timestamp) : Int := t.seconds * 1000000000 + (t.nanos % 1000000000 : Nat)

/-- What two instants have in common that one clock shows one after the other. -/
structure LeadsTo (a b : Timestamp) : Prop where
  place_le : a.place ≤ b.place
  plainPlace_le : a.plainPlace ≤ b.plainPlace
  leap : b.InLeapSecond → a.InLeapSecond

theorem leadsTo_of_clock {start : Timestamp} (steady : start.IsSteady) {earlier later : Nat}
    (before : earlier ≤ later) :
    (start.after (.ofMillis earlier)).LeadsTo (start.after (.ofMillis later)) := by
  have forward := le_iff_place_le.1 (steady earlier later before)
  have early := le_last_iff.1 (isSteady_iff.1 steady)
  have steps : stepOf (.ofMillis earlier) ≤ stepOf (.ofMillis later) := by
    simp only [stepOf, Duration.ofMillis]
    omega
  have first := after_place start (.ofMillis earlier)
  have second := after_place start (.ofMillis later)
  generalize start.after (.ofMillis earlier) = a at *
  generalize start.after (.ofMillis later) = b at *
  have := start.nanos_lt
  have := a.nanos_lt
  have := b.nanos_lt
  -- The clock may still be inside a leap second at both instants, at the first, or at neither.
  refine ⟨forward, ?_, ?_⟩ <;>
    simp only [place, plainPlace, InLeapSecond, perSecond] at * <;>
    rcases first with ⟨_, _, first⟩ | ⟨_, first⟩ <;>
    rcases second with ⟨_, _, second⟩ | ⟨_, second⟩ <;> omega

/-- Additions of one duration keep the order in which a clock shows two instants.  From right
    before a leap second an addition may lead further than from inside of it, but no clock
    gets from there into it. -/
theorem LeadsTo.after_le_after {a b : Timestamp} (h : a.LeadsTo b) (early : b ≤ last)
    (d : Duration) : a.after d ≤ b.after d := by
  obtain ⟨forward, plain, leap⟩ := h
  simp only [place, plainPlace, InLeapSecond, perSecond] at forward plain leap
  rw [le_last_iff] at early
  have first := after_place a d
  have second := after_place b d
  generalize stepOf d = k at first second
  have := a.nanos_lt
  have := b.nanos_lt
  rw [le_iff_place_le]
  rcases first with ⟨_, _, first⟩ | ⟨_, first⟩ <;>
    rcases second with ⟨_, _, second⟩ | ⟨_, second⟩ <;> omega

end PeekLock.Timestamp
