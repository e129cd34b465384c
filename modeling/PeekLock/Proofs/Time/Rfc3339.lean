import Mathlib.Algebra.GroupWithZero.Nat
import PeekLock.Proofs.Time.Calendar
import PeekLock.Time.Rfc3339

/-! # Instants come back from their text

The wire form of an instant is read as that instant (`parse_toWire`): in any year, with
a fraction of any length, inside a leap second too.  The text is read field by field, so
each field gets a lemma that says what is read off its digits and where reading stops; the
only field of open length is a signed year, and the hyphen behind it ends it.
-/

namespace PeekLock

/-! ## The fields of an instant -/

namespace Timestamp

variable (t : Timestamp)

theorem isValid_date : t.date.IsValid :=
  Date.isValid_ofDays _

theorem yearInRange_date : Rfc3339.YearInRange t.date.year := by
  have := t.lowest
  have := t.highest
  exact Date.year_ofDays (by omega) (by omega)

theorem hour_le : t.hour ≤ 23 := by
  simp only [hour, secondOfDay]
  omega

theorem minute_le : t.minute ≤ 59 := by
  simp only [minute]
  omega

theorem second_le : t.second ≤ 60 := by
  have := t.nanos_lt
  simp only [second, perSecond]
  omega

theorem subsecond_lt : t.subsecond < 1000000000 := by
  simp only [subsecond, perSecond]
  omega

/-- The date and the time of day make up the second again, and the leap second is the sixtieth
    one with its nanoseconds running on. -/
theorem instant_fields :
    Rfc3339.Fields.instant ⟨t.date, t.hour, t.minute, t.second, t.subsecond, 0⟩ = .ok t := by
  have lowest := t.lowest
  have highest := t.highest
  have small := t.nanos_lt
  have leap := t.leap_at_minute_end
  have days : t.date.toDays = t.seconds / 86400 := Date.toDays_ofDays _
  have parts : ofParts? t.seconds t.nanos = some t := by
    rw [ofParts?, dif_pos ⟨lowest, highest, small, leap⟩]
  -- The second and the nanoseconds behind it, as they are put together.
  have told : (if t.second = 60 then (59, t.subsecond + perSecond) else (t.second, t.subsecond)) =
      (t.secondOfDay % 60, t.nanos) := by
    by_cases sixty : t.second = 60
    · rw [if_pos sixty, Prod.mk.injEq]
      simp only [second, subsecond, secondOfDay, perSecond] at sixty ⊢
      omega
    · rw [if_neg sixty, Prod.mk.injEq]
      simp only [second, subsecond, secondOfDay, perSecond] at sixty ⊢
      omega
  have seconds : t.date.toDays * 86400 +
      (t.hour * 3600 + t.minute * 60 + t.secondOfDay % 60 : Nat) - 0 = t.seconds := by
    rw [days]
    simp only [hour, minute, secondOfDay]
    omega
  have valid : Rfc3339.YearInRange t.date.year ∧ t.date.IsValid :=
    ⟨t.yearInRange_date, t.isValid_date⟩
  simp only [Rfc3339.Fields.instant, valid, told, seconds, parts]
  rfl

end Timestamp

namespace Rfc3339

/-! ## Digits -/

theorem digit?_of_isDigit {c : Char} (digit : c.isDigit) : digit? c = some (c.toNat - '0'.toNat) := by
  have bounds : '0' ≤ c ∧ c ≤ '9' := by
    simp only [Char.isDigit, Bool.and_eq_true, decide_eq_true_eq] at digit
    exact digit
  rw [digit?, if_pos bounds]

theorem isWhiteSpace_of_isDigit {c : Char} (digit : c.isDigit) : isWhiteSpace c = false := by
  have bounds : 0x30 ≤ c.toNat ∧ c.toNat ≤ 0x39 := by
    simp only [Char.isDigit, Bool.and_eq_true, decide_eq_true_eq] at digit
    exact digit
  simp only [isWhiteSpace, Bool.or_eq_false_iff, Bool.and_eq_false_iff, decide_eq_false_iff_not]
  omega

/-- Digits are read to their end, where something else stands or no more may be read. -/
theorem digitsFrom_append {ds : List Char} (digits : ∀ c ∈ ds, c.isDigit) {rest : List Char}
    {n most : Nat} (enough : ds.length ≤ most)
    (ends : ds.length = most ∨ ∀ c ∈ rest.head?, digit? c = none) :
    digitsFrom n most (ds ++ rest) = (Nat.ofDigitChars 10 ds n, rest) := by
  induction ds generalizing n most with
  | nil =>
    cases most with
    | zero => rfl
    | succ most =>
      cases rest with
      | nil => rfl
      | cons c rest =>
        have none : digit? c = none := ends.elim (fun zero => by simp at zero) fun h => h c rfl
        simp [digitsFrom, none]
  | cons c ds ih =>
    obtain ⟨most, rfl⟩ : ∃ m, most = m + 1 := Nat.exists_eq_succ_of_ne_zero (by
      rintro rfl
      simp at enough)
    have digit := digit?_of_isDigit (digits c (List.mem_cons_self ..))
    simp only [List.cons_append, digitsFrom, digit, Nat.ofDigitChars_cons, Nat.mul_comm 10]
    refine ih (fun d member => digits d (List.mem_cons_of_mem _ member)) ?_ ?_
    · simpa using enough
    · simpa using ends

section Padded

variable (width n : Nat)

theorem isDigit_of_mem_padded {c : Char} (member : c ∈ padded width n) : c.isDigit := by
  rcases List.mem_append.1 member with zero | digit
  · rw [List.eq_of_mem_replicate zero]
    decide
  · exact Nat.isDigit_of_mem_toDigits (by decide) (by decide) digit

theorem padded_ne_nil : padded width n ≠ [] :=
  List.append_ne_nil_of_right_ne_nil _ Nat.toDigits_ne_nil

theorem ofDigitChars_padded : Nat.ofDigitChars 10 (padded width n) 0 = n := by
  simp only [padded, Nat.ofDigitChars_append, Nat.ofDigitChars_replicate_zero, Nat.mul_zero]
  exact Nat.ofDigitChars_ten_toDigits

/-- Behind digits a text has its first digit in front. -/
theorem padded_append_eq_cons (rest : List Char) :
    ∃ c cs, padded width n ++ rest = c :: cs ∧ c.isDigit := by
  cases digits : padded width n with
  | nil => exact absurd digits (padded_ne_nil width n)
  | cons c cs =>
    exact ⟨c, cs ++ rest, rfl, isDigit_of_mem_padded width n (digits ▸ List.mem_cons_self ..)⟩

theorem trimStart_padded (rest : List Char) :
    trimStart (padded width n ++ rest) = padded width n ++ rest := by
  obtain ⟨c, cs, split, digit⟩ := padded_append_eq_cons width n rest
  rw [split, trimStart, isWhiteSpace_of_isDigit digit]
  rfl

variable {width n}

theorem length_padded (wide : 0 < width) (small : n < 10 ^ width) :
    (padded width n).length = width := by
  have short : (digitChars n).length ≤ width := (Nat.length_toDigits_le_iff (by decide) wide).2 small
  simp only [padded, List.length_append, List.length_replicate]
  omega

theorem number_padded {rest : List Char} {most : Nat} (enough : (padded width n).length ≤ most)
    (ends : (padded width n).length = most ∨ ∀ c ∈ rest.head?, digit? c = none) :
    number most (padded width n ++ rest) = .ok (n, rest) := by
  have read := digitsFrom_append (fun c => isDigit_of_mem_padded width n) (n := 0) enough ends
  rw [ofDigitChars_padded] at read
  obtain ⟨c, cs, split, digit⟩ := padded_append_eq_cons width n rest
  rw [split] at read ⊢
  simp only [number, digit?_of_isDigit digit, read]

theorem number_padded_of_lt {rest : List Char} (wide : 0 < width) (small : n < 10 ^ width) :
    number width (padded width n ++ rest) = .ok (n, rest) := by
  have length := length_padded wide small
  exact number_padded (Nat.le_of_eq length) (.inl length)

end Padded

/-! ## Fields -/

theorem field_padded {lowest highest n : Nat} (low : lowest ≤ n) (high : n ≤ highest)
    (small : n < 100) (rest : List Char) :
    field lowest highest (padded 2 n ++ rest) = .ok (n, rest) := by
  simp only [field, trimStart_padded, number_padded_of_lt Nat.zero_lt_two small, bind,
    Except.bind, low, high, and_self, ↓reduceIte]
  rfl

theorem literal_cons {c : Char} (dark : isWhiteSpace c = false) (rest : List Char) :
    literal c (c :: rest) = .ok ((), rest) := by
  simp [literal, trimStart, dark]

/-- A year behind a sign is read up to the hyphen, however long it is. -/
theorem year_signed {sign : Char} {factor : Int} {n : Nat}
    (signs : sign = '-' ∧ factor = -1 ∨ sign = '+' ∧ factor = 1) (small : (n : Int) ≤ 300000)
    (rest : List Char) :
    year (sign :: padded 4 n ++ '-' :: rest) = .ok (factor * n, '-' :: rest) := by
  have ends : ∀ c ∈ ('-' :: rest).head?, digit? c = none := by
    rintro c same
    obtain rfl : '-' = c := by simpa using same
    decide
  have digits : number (padded 4 n ++ '-' :: rest).length (padded 4 n ++ '-' :: rest) =
      .ok (n, '-' :: rest) := number_padded (by simp) (.inr ends)
  have bounds : minSigned32 ≤ factor * n ∧ factor * n ≤ maxSigned32 := by
    simp only [minSigned32, maxSigned32]
    rcases signs with ⟨-, rfl⟩ | ⟨-, rfl⟩ <;> omega
  have minus : isWhiteSpace '-' = false := rfl
  have plus : isWhiteSpace '+' = false := rfl
  rcases signs with ⟨rfl, rfl⟩ | ⟨rfl, rfl⟩
  all_goals
    simp only [year, List.cons_append, trimStart, minus, plus, Bool.false_eq_true, ↓reduceIte,
      digits, bind, Except.bind, bounds, and_self]
    rfl

theorem year_yearChars {y : Int} (inRange : YearInRange y) (rest : List Char) :
    year (yearChars y ++ '-' :: rest) = .ok (y, '-' :: rest) := by
  obtain ⟨low, high⟩ := inRange
  simp only [yearChars]
  split
  case isTrue plain =>
    have small : y.toNat < 10 ^ 4 := by omega
    have value : ((y.toNat : Nat) : Int) = y := by omega
    obtain ⟨c, cs, split, digit⟩ := padded_append_eq_cons 4 y.toNat ('-' :: rest)
    have noSign : c ≠ '-' ∧ c ≠ '+' := by
      constructor <;> rintro rfl <;> simp at digit
    have trimmed := trimStart_padded 4 y.toNat ('-' :: rest)
    have read : number 4 (padded 4 y.toNat ++ '-' :: rest) = .ok (y.toNat, '-' :: rest) :=
      number_padded_of_lt (by decide) small
    rw [split] at trimmed read ⊢
    simp only [year, trimmed]
    split
    · simp_all
    · simp_all
    · simp only [read, bind, Except.bind, value]
      rfl
  case isFalse signed =>
    split
    · rw [year_signed (.inl ⟨rfl, rfl⟩) (by omega)]
      exact congrArg (fun y => Except.ok (y, '-' :: rest)) (by omega)
    · rw [year_signed (.inr ⟨rfl, rfl⟩) (by omega)]
      exact congrArg (fun y => Except.ok (y, '-' :: rest)) (by omega)

theorem fields_dateTimeChars (t : Timestamp) {separator : Char}
    (separates : separator = 'T' ∨ separator = 't' ∨ separator = ' ') (rest : List Char) :
    fields (dateTimeChars separator t ++ rest) = (do
      let (nanos, cs) ← fraction rest
      let (offset, cs) ← offset (trimStart cs)
      return (⟨t.date, t.hour, t.minute, t.second, nanos, offset⟩, cs)) := by
  obtain ⟨monthLow, monthHigh, dayLow, dayHigh⟩ := t.isValid_date
  have dayHigh' : t.date.day ≤ 31 := by
    simp only [Date.monthLength] at dayHigh
    split at dayHigh
    · split at dayHigh <;> omega
    · split at dayHigh <;> omega
  have hour := t.hour_le
  have minute := t.minute_le
  have second := t.second_le
  have hyphen (cs : List Char) : literal '-' ('-' :: cs) = .ok ((), cs) :=
    literal_cons (by decide) cs
  have colon (cs : List Char) : literal ':' (':' :: cs) = .ok ((), cs) :=
    literal_cons (by decide) cs
  simp only [fields, dateTimeChars, List.append_assoc, List.cons_append,
    year_yearChars t.yearInRange_date, hyphen, colon, bind, Except.bind,
    field_padded monthLow monthHigh (by omega), field_padded dayLow dayHigh' (by omega), separates,
    field_padded (Nat.zero_le _) hour (by omega), field_padded (Nat.zero_le _) minute (by omega),
    field_padded (Nat.zero_le _) second (by omega), ↓reduceIte, pure, Except.pure]

/-- Up to nine digits of a fraction count with the places that they are short of nine. -/
theorem fraction_padded {width n : Nat} (wide : 0 < width) (short : width ≤ 9)
    (small : n < 10 ^ width) {c : Char} (ends : digit? c = none) (rest : List Char) :
    fraction ('.' :: padded width n ++ c :: rest) = .ok (n * 10 ^ (9 - width), c :: rest) := by
  have length := length_padded wide small
  have read : number 9 (padded width n ++ c :: rest) = .ok (n, c :: rest) := by
    refine number_padded (by omega) (.inr fun d same => ?_)
    obtain rfl : c = d := by simpa using same
    exact ends
  have taken : (padded width n ++ c :: rest).length - (c :: rest).length = width := by
    rw [List.length_append, length]
    omega
  have behind : (c :: rest).dropWhile (fun c => (digit? c).isSome) = c :: rest :=
    List.dropWhile_cons_of_neg (by simp [ends])
  simp only [fraction, List.cons_append, read, bind, Except.bind, taken, behind]
  rfl

theorem fraction_fractionChars {n : Nat} (small : n < 1000000000) {c : Char}
    (ends : digit? c = none) (dot : c ≠ '.') (rest : List Char) :
    fraction (fractionChars n ++ c :: rest) = .ok (n, c :: rest) := by
  simp only [fractionChars]
  split
  · rename_i zero
    rw [List.nil_append, fraction, zero]
    rintro cs same
    exact dot (List.cons.inj same).1
  split
  · rw [fraction_padded (by decide) (by decide) (by omega) ends]
    exact congrArg (fun m => Except.ok (m, c :: rest)) (by omega)
  split
  · rw [fraction_padded (by decide) (by decide) (by omega) ends]
    exact congrArg (fun m => Except.ok (m, c :: rest)) (by omega)
  · rw [fraction_padded (by decide) (by decide) (by omega) ends]
    exact congrArg (fun m => Except.ok (m, c :: rest)) (by omega)

end Rfc3339

/-- What is written of an instant is read as that instant. -/
theorem Timestamp.parse_toWire (t : Timestamp) : parse t.toWire = .ok t := by
  have fraction := Rfc3339.fraction_fractionChars t.subsecond_lt (c := 'Z') (by decide) (by decide)
    []
  have fields : Rfc3339.fields (Rfc3339.wireChars t) =
      .ok (⟨t.date, t.hour, t.minute, t.second, t.subsecond, 0⟩, []) := by
    rw [Rfc3339.wireChars, List.append_assoc, Rfc3339.fields_dateTimeChars t (.inl rfl), fraction]
    rfl
  simp only [parse, toWire, String.toList_ofList, Rfc3339.parseChars, fields, bind, Except.bind,
    trimStart, ↓reduceIte, instant_fields]

end PeekLock
