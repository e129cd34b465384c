import PeekLock.Proofs.Text.Utf8
import PeekLock.Json.Reader

/-! # Natural numbers come back from their digits

A natural number of 64 bits is written as its digits, and read from them, where something
other than more of a number stands behind (`readUnsigned_digits`).  The ingredient that is
not obvious is that no zero stands in front of other digits, where it would be refused.
-/

namespace PeekLock.Json

/-! ## Digits -/

/-- No zero stands in front of a positive number. -/
theorem head?_digitChars_ne_zero {n : Nat} (positive : 0 < n) :
    (digitChars n).head? ≠ some '0' := by
  induction n using Nat.strongRecOn with
  | _ n ih =>
    rw [digitChars]
    rcases Nat.lt_or_ge n 10 with small | large
    · rw [Nat.toDigits_of_lt_base small]
      simpa using Nat.ne_of_gt positive
    · rw [Nat.toDigits_of_base_le (by decide) large]
      have above := ih (n / 10) (Nat.div_lt_self positive (by decide))
        (Nat.div_pos large (by decide))
      rw [digitChars] at above
      obtain ⟨c, cs, digits⟩ := List.exists_cons_of_ne_nil 
        (Nat.toDigits_ne_nil (n := n / 10) (b := 10))
      rw [digits] at above ⊢
      exact above

/-- The octet of a digit is a digit, of the same value. -/
theorem octet_of_isDigit {c : Char} (digit : c.isDigit) :
    String.utf8EncodeChar c = [UInt8.ofNat c.toNat] ∧ (UInt8.ofNat c.toNat).toNat = c.toNat ∧
      0x30 ≤ c.toNat ∧ c.toNat ≤ 0x39 := by
  have bounds : 0x30 ≤ c.toNat ∧ c.toNat ≤ 0x39 := by
    simp only [Char.isDigit, Bool.and_eq_true, decide_eq_true_eq] at digit
    exact digit
  exact ⟨Utf8.utf8EncodeChar_of_ascii (by omega), Utf8.toNat_ofNat (by omega), bounds⟩

theorem isDigit_octet {c : Char} (digit : c.isDigit) : isDigit (UInt8.ofNat c.toNat) = true := by
  obtain ⟨_, value, low, high⟩ := octet_of_isDigit digit
  simp only [isDigit, Bool.and_eq_true, decide_eq_true_eq, UInt8.le_iff_toNat_le, value]
  exact ⟨low, high⟩

/-- What stands behind a natural number: no digit, no decimal point and no exponent. -/
def EndsNumber (rest : Octets) : Prop :=
  ∀ b ∈ rest.head?, isDigit b = false ∧ b ≠ 0x2E ∧ b ≠ 0x65 ∧ b ≠ 0x45

/-- The values of digits. -/
def values (ds : List Char) : List Nat :=
  ds.map fun c => c.toNat - 0x30

theorem takeDigits_encodeChars {ds : List Char} (digits : ∀ c ∈ ds, c.isDigit) {rest : Octets}
    (ends : EndsNumber rest) :
    takeDigits (Utf8.encodeChars ds ++ rest) = (values ds, rest) := by
  induction ds with
  | nil =>
    cases rest with
    | nil => rfl
    | cons b rest => simp [takeDigits, (ends b rfl).1, values]
  | cons c ds ih =>
    have digit := digits c (List.mem_cons_self ..)
    obtain ⟨octet, value, _⟩ := octet_of_isDigit digit
    rw [Utf8.encodeChars_cons, octet, List.append_assoc, List.singleton_append]
    simp only [takeDigits, isDigit_octet digit, ↓reduceIte, value,
      ih fun d member => digits d (List.mem_cons_of_mem _ member)]
    rfl

/-! ## Values -/

theorem le_ofDigitChars (ds : List Char) (n : Nat) : n ≤ Nat.ofDigitChars 10 ds n := by
  induction ds generalizing n with
  | nil => exact Nat.le_refl _
  | cons c ds ih =>
    rw [Nat.ofDigitChars_cons]
    exact Nat.le_trans (by omega) (ih _)

theorem gatherWhole_values {ds : List Char} {n : Nat}
    (fits : Nat.ofDigitChars 10 ds n ≤ maxSignificand) :
    gatherWhole n (values ds) = (Nat.ofDigitChars 10 ds n, 0) := by
  induction ds generalizing n with
  | nil => rfl
  | cons c ds ih =>
    rw [Nat.ofDigitChars_cons, Nat.mul_comm] at fits ⊢
    have small : n * 10 + (c.toNat - '0'.toNat) ≤ maxSignificand :=
      Nat.le_trans (le_ofDigitChars ds _) fits
    rw [values, List.map_cons, gatherWhole]
    exact (if_pos small).trans (ih fits)

section

variable {rest : Octets} {n : Nat}

theorem fractionPart_of_ends (ends : EndsNumber rest) (atEnd : Failure) :
    fractionPart atEnd rest = .ok (none, rest) := by
  unfold fractionPart
  split
  · exact absurd rfl (ends 0x2E rfl).2.1
  · rfl

theorem exponentPart_of_ends (ends : EndsNumber rest) (atEnd : Failure) :
    exponentPart atEnd rest = .ok (none, rest) := by
  cases rest with
  | nil => rfl
  | cons b rest =>
    obtain ⟨_, _, small, capital⟩ := ends b rfl
    simp [exponentPart, small, capital]

theorem isDigit_of_mem_digitChars {c : Char} (member : c ∈ digitChars n) : c.isDigit :=
  Nat.isDigit_of_mem_toDigits (by decide) (by decide) member

/-- Of several digits the first is not zero. -/
theorem no_leading_zero (n : Nat) :
    ¬ (1 < (values (digitChars n)).length ∧ (values (digitChars n)).head? = some 0) := by
  rintro ⟨several, zero⟩
  rcases Nat.eq_zero_or_pos n with rfl | positive
  · simp [digitChars, values] at several
  · cases digits : digitChars n with
    | nil => simp [digits, values] at zero
    | cons c cs =>
      have digit := octet_of_isDigit (isDigit_of_mem_digitChars (digits ▸ List.mem_cons_self ..))
      have value : c.toNat - 0x30 = 0 := by simpa [digits, values] using zero
      have isZero : c = '0' := Char.toNat_inj.1 (by
        have : '0'.toNat = 0x30 := rfl
        omega)
      exact head?_digitChars_ne_zero positive (by rw [digits, isZero]; rfl)

/-- The digits of a number are taken as they stand, behind a sign or without. -/
theorem numeral_digitChars (negative : Bool) (n : Nat) (ends : EndsNumber rest) :
    numeral negative .truncated (Utf8.encodeChars (digitChars n) ++ rest) =
      .ok (⟨negative, values (digitChars n), none, none⟩, rest) := by
  have read : takeDigits (Utf8.encodeChars (digitChars n) ++ rest) = (values (digitChars n), rest) :=
    takeDigits_encodeChars (fun c => isDigit_of_mem_digitChars) ends
  have several := no_leading_zero n
  have some : values (digitChars n) ≠ [] := by
    simp [values, digitChars, Nat.toDigits_ne_nil]
  generalize values (digitChars n) = ds at read several some
  have digits : digits1 .truncated (Utf8.encodeChars (digitChars n) ++ rest) = .ok (ds, rest) := by
    rw [digits1, read]
    cases ds with
    | nil => exact absurd rfl some
    | cons d ds => rfl
  simp only [numeral, digits, bind, Except.bind, several, ↓reduceIte, fractionPart_of_ends ends,
    exponentPart_of_ends ends]

theorem gatherWhole_digitChars (small : n ≤ maxSignificand) :
    gatherWhole 0 (values (digitChars n)) = (n, 0) := by
  have whole : Nat.ofDigitChars 10 (digitChars n) 0 = n := Nat.ofDigitChars_ten_toDigits
  rw [gatherWhole_values (whole.symm ▸ small), whole]

/-- The digits of a number are read as the number. -/
theorem number_digitChars (small : n ≤ maxSignificand) (ends : EndsNumber rest) :
    number false (Utf8.encodeChars (digitChars n) ++ rest) = .ok (.integer n, rest) := by
  have value : Numeral.value ⟨false, values (digitChars n), none, none⟩ = .ok (.integer n) := by
    simp [Numeral.value, gatherWhole_digitChars small, gatherFraction]
    rfl
  simp only [number, numeral_digitChars false n ends, value, bind, Except.bind]
  rfl

/-- Behind a minus sign, digits are read as the negative of their number. -/
theorem number_negative (positive : 0 < n) (small : n ≤ maxSigned64 + 1)
    (ends : EndsNumber rest) :
    number true (Utf8.encodeChars (digitChars n) ++ rest) = .ok (.integer (-n), rest) := by
  have below : n ≤ maxSignificand := Nat.le_trans small (by decide)
  have value : Numeral.value ⟨true, values (digitChars n), none, none⟩ = .ok (.integer (-n)) := by
    simp [Numeral.value, gatherWhole_digitChars below, gatherFraction, positive, small]
    rfl
  simp only [number, numeral_digitChars true n ends, value, bind, Except.bind]
  rfl

/-- Digits begin with a digit. -/
theorem encodeChars_digitChars (n : Nat) :
    ∃ b bs, Utf8.encodeChars (digitChars n) = b :: bs ∧ isDigit b := by
  have some : digitChars n ≠ [] := Nat.toDigits_ne_nil
  obtain ⟨c, cs, whole⟩ := List.exists_cons_of_ne_nil some
  have digit : c.isDigit := isDigit_of_mem_digitChars (n := n) (whole ▸ List.mem_cons_self ..)
  refine ⟨UInt8.ofNat c.toNat, Utf8.encodeChars cs, ?_, isDigit_octet digit⟩
  rw [whole, Utf8.encodeChars_cons, (octet_of_isDigit digit).1]
  rfl

theorem isBlank_of_isDigit {b : UInt8} (digit : isDigit b) : isBlank b = false := by
  refine Bool.eq_false_iff.2 fun blank => ?_
  simp only [isBlank, Bool.or_eq_true, decide_eq_true_eq] at blank
  rcases blank with ((rfl | rfl) | rfl) | rfl <;> exact absurd digit (by decide)

theorem skipBlanks_cons {b : UInt8} (dark : isBlank b = false) (bs : Octets) :
    skipBlanks (b :: bs) = b :: bs := by
  rw [skipBlanks, dark]
  rfl

/-- A natural number of 64 bits is read from its digits. -/
theorem readUnsigned_digits (small : n ≤ maxUnsigned64) (ends : EndsNumber rest) :
    readUnsigned 64 (Utf8.encodeChars (digitChars n) ++ rest) = .ok (n, rest) := by
  have read := number_digitChars small ends
  obtain ⟨b, bs, octets, isDigit⟩ := encodeChars_digitChars n
  rw [octets, List.cons_append] at read ⊢
  have blank := skipBlanks_cons (isBlank_of_isDigit isDigit) (bs ++ rest)
  have noSign : b ≠ 0x2D := by
    rintro rfl
    exact absurd isDigit (by decide)
  have bounds : (0 : Int) ≤ n ∧ (n : Int) ≤ Nat.pow 2 64 - 1 := by
    have power : Nat.pow 2 64 = maxUnsigned64 + 1 := by decide
    rw [power]
    omega
  have fits : readInteger 0 (Nat.pow 2 64 - 1) s!"u{64}" (b :: (bs ++ rest)) =
      .ok ((n : Int), rest) := by
    simp only [readInteger, blank, isDigit, ↓reduceIte, read, bind, Except.bind, bounds, and_self]
  simp only [readUnsigned, fits, bind, Except.bind]
  rfl

end

end PeekLock.Json
