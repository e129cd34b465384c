import PeekLock.Proofs.Time.Rfc3339

/-! # What a display tells of an instant

The display form of an instant is made for people: a space stands between the date and the
time, there are always three places behind the second, and a word tells the offset.  The
reader takes all of that (`parse_display`), and what it reads is the instant down to its
millisecond.  So two instants are displayed alike exactly if they agree down to the
millisecond.  An instant in a leap second stays in it: its milliseconds are counted within
the sixtieth second.
-/

namespace PeekLock.Timestamp

variable (t : Timestamp)

/-- The instant without what lies below its milliseconds, in the same second. -/
def wholeMillis (t : Timestamp) : Timestamp where
  seconds := t.seconds
  nanos := t.nanos - t.nanos % 1000000
  lowest := t.lowest
  highest := t.highest
  nanos_lt := Nat.lt_of_le_of_lt (Nat.sub_le ..) t.nanos_lt
  leap_at_minute_end := fun leap => t.leap_at_minute_end (Nat.le_trans leap (Nat.sub_le ..))

/-! ## Down to the millisecond -/

theorem second_wholeMillis : t.wholeMillis.second = t.second := by
  have sameSecond : (t.nanos - t.nanos % 1000000) / perSecond = t.nanos / perSecond := by
    simp only [perSecond]
    omega
  show t.secondOfDay % 60 + (t.nanos - t.nanos % 1000000) / perSecond = t.second
  rw [sameSecond]
  rfl

theorem subsecond_wholeMillis :
    t.wholeMillis.subsecond = t.subsecond / 1000000 * 1000000 := by
  show (t.nanos - t.nanos % 1000000) % perSecond = t.nanos % perSecond / 1000000 * 1000000
  simp only [perSecond]
  omega

theorem display_wholeMillis : t.wholeMillis.display = t.display := by
  have millis : t.wholeMillis.subsecond / 1000000 = t.subsecond / 1000000 := by
    rw [subsecond_wholeMillis, Nat.mul_div_cancel _ (by decide)]
  -- Date, hour and minute depend on the whole seconds only.
  have dateTime : Rfc3339.dateTimeChars ' ' t.wholeMillis = Rfc3339.dateTimeChars ' ' t := by
    simp only [Rfc3339.dateTimeChars, second_wholeMillis]
    rfl
  rw [display, display, Rfc3339.displayChars, Rfc3339.displayChars, dateTime, millis]

/-! ## Reading the display -/

theorem fields_displayChars :
    Rfc3339.fields (Rfc3339.displayChars t) =
      .ok (⟨t.date, t.hour, t.minute, t.second, t.subsecond / 1000000 * 1000000, 0⟩, []) := by
  have small : t.subsecond / 1000000 < 10 ^ 3 := by
    have := t.subsecond_lt
    omega
  have fraction := Rfc3339.fraction_padded (by decide) (by decide) small (c := ' ') (by decide)
    ['U', 'T', 'C']
  -- The space behind the fraction is passed over in front of the offset.
  have offset : Rfc3339.offset (trimStart [' ', 'U', 'T', 'C']) = .ok (0, []) := rfl
  rw [Rfc3339.displayChars, List.append_assoc,
    Rfc3339.fields_dateTimeChars t (.inr (.inr rfl)), fraction]
  simp only [bind, Except.bind, offset]
  rfl

/-- What is displayed is read as the instant down to its millisecond. -/
theorem parse_display : parse t.display = .ok t.wholeMillis := by
  have told := instant_fields t.wholeMillis
  rw [second_wholeMillis, subsecond_wholeMillis] at told
  have read : Rfc3339.Fields.instant
      ⟨t.date, t.hour, t.minute, t.second, t.subsecond / 1000000 * 1000000, 0⟩ =
        .ok t.wholeMillis := told
  simp only [parse, display, String.toList_ofList, Rfc3339.parseChars, fields_displayChars, bind,
    Except.bind, trimStart, ↓reduceIte, read]

/-- The display of an instant is read as the instant in whole milliseconds, so it tells apart all
    instants that differ by then, and displaying what was read gives the same text again. -/
theorem display_is_read_back (t : Timestamp) :
    parse t.display = .ok t.wholeMillis ∧
      (t.wholeMillis.seconds = t.seconds ∧
        t.wholeMillis.nanos ≤ t.nanos ∧ t.nanos < t.wholeMillis.nanos + 1000000 ∧
        t.wholeMillis.nanos % 1000000 = 0) ∧
      (∀ t' : Timestamp, t'.display = t.display ↔ t'.wholeMillis = t.wholeMillis) ∧
      (parse t.display).map display = .ok t.display := by
  refine ⟨t.parse_display, ⟨rfl, ?_, ?_, ?_⟩, fun t' => ⟨fun same => ?_, fun same => ?_⟩, ?_⟩
  · exact Nat.sub_le ..
  · show t.nanos < t.nanos - t.nanos % 1000000 + 1000000
    omega
  · show (t.nanos - t.nanos % 1000000) % 1000000 = 0
    omega
  · have read := t'.parse_display
    rw [same, t.parse_display] at read
    exact (Except.ok.inj read).symm
  · rw [← display_wholeMillis, same, display_wholeMillis]
  · rw [t.parse_display]
    exact congrArg Except.ok t.display_wholeMillis

end PeekLock.Timestamp
