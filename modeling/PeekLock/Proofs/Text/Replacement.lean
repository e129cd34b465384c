import Mathlib.Logic.Basic
import PeekLock.Proofs.Text.Utf8

/-! # Strict reading and reading with replacement

Strict reading takes scalar values off the front and checks bits and bounds; the machine
that reads with replacement goes octet by octet and knows only in which range the next
one has to lie.  They agree: strict reading succeeds on the encodings of texts and
on nothing else (`decode?_eq_some_iff`), there the machine reads the same text
(`decodeLossy_encode`), and on all other octets it makes a replacement somewhere
(`replacement_mem_decodeLossy`).

The non-trivial ingredient is `begin_cases`: for each first octet, the range in which the
machine wants the second one is just what the strict reader's demand for the shortest
form, for no surrogate and for a bounded value comes to.
-/

namespace PeekLock.Utf8

variable {a b c d : UInt8} {bs rest : Octets} {seen cs : List Char}

/-! ## The machine inside a character -/

/-- The character that octets complete from inside of it, with the octets after it, unless one of
    them is refused or they end too early. -/
def finish? (lo hi : UInt8) (later bits : Nat) : Octets → Option (Char × Octets)
  | [] => none
  | b :: bs =>
    if lo ≤ b ∧ b ≤ hi then
      match later with
      | 0 => some (Char.ofNat (bits * 64 + b.toNat % 64), bs)
      | later + 1 => finish? 0x80 0xBF later (bits * 64 + b.toNat % 64) bs
    else none

/-- The machine keeps the characters read so far. -/
theorem mem_decodeLossyFrom {char : Char} (state : State) (read : char ∈ seen) :
    char ∈ decodeLossyFrom state seen bs := by
  induction bs generalizing state seen with
  | nil => cases state <;> simp [decodeLossyFrom, read]
  | cons b bs ih =>
    rw [decodeLossyFrom]
    exact ih _ (List.mem_append_right _ read)

theorem decodeLossyFrom_of_finish? {lo hi : UInt8} {later bits : Nat} {char : Char}
    (finishes : finish? lo hi later bits bs = some (char, rest)) :
    decodeLossyFrom (.inside lo hi later bits) seen bs =
      decodeLossyFrom .start (char :: seen) rest := by
  induction bs generalizing lo hi later bits with
  | nil => simp [finish?] at finishes
  | cons b bs ih =>
    cases later with
    | zero =>
      simp only [finish?, Option.ite_none_right_eq_some, Option.some.injEq, Prod.mk.injEq]
        at finishes
      obtain ⟨within, rfl, rfl⟩ := finishes
      simp [decodeLossyFrom, State.next, within]
    | succ later =>
      rw [finish?, Option.ite_none_right_eq_some] at finishes
      obtain ⟨within, finishes⟩ := finishes
      simpa [decodeLossyFrom, State.next, within] using ih finishes

theorem replacement_mem_of_finish? {lo hi : UInt8} {later bits : Nat}
    (refuses : finish? lo hi later bits bs = none) :
    replacement ∈ decodeLossyFrom (.inside lo hi later bits) seen bs := by
  induction bs generalizing lo hi later bits with
  | nil => simp [decodeLossyFrom]
  | cons b bs ih =>
    by_cases within : lo ≤ b ∧ b ≤ hi
    · cases later with
      | zero => simp [finish?, within] at refuses
      | succ later =>
        rw [finish?, if_pos within] at refuses
        simpa [decodeLossyFrom, State.next, within] using ih refuses
    · -- The octet that is refused ends the character with a replacement.
      have ends : (State.inside lo hi later bits).next b =
          (replacement :: (State.begin b).1, (State.begin b).2) := if_neg within
      rw [decodeLossyFrom, ends]
      exact mem_decodeLossyFrom _ (by simp)

/-! ## The first octet of a character -/

theorem scalar?_eq_finish?_two (low : 0xC2 ≤ a.toNat) (high : a.toNat < 0xE0) (rest : Octets) :
    scalar? (a :: rest) = finish? 0x80 0xBF 0 (a.toNat - 0xC0) rest := by
  have above : ¬ a < 0x80 := Nat.not_lt.2 (Nat.le_trans (by decide) low)
  have below : a < 0xE0 := high
  have least : 0xC0 ≤ a := Nat.le_trans (by decide) low
  cases rest with
  | nil => simp [scalar?, finish?, above, below]
  | cons b rest =>
    have value : a.toNat % 32 * 64 + tailBits b = (a.toNat - 0xC0) * 64 + b.toNat % 64 := by
      rw [tailBits]
      omega
    have shortest : 0x80 ≤ (a.toNat - 0xC0) * 64 + b.toNat % 64 := by omega
    have tail : isTail b = true ↔ 0x80 ≤ b ∧ b ≤ 0xBF := by simp [isTail]
    simp only [scalar?, finish?, above, below, least, value, shortest, tail, true_and,
      and_true, ↓reduceIte]

theorem scalar?_eq_finish?_three {lo hi : UInt8} {bits : Nat}
    (first : 0xE0 ≤ a.toNat ∧ a.toNat < 0xF0 ∧ a.toNat % 16 = bits)
    (range : ∀ b c : UInt8, (isTail b ∧ isTail c ∧
      0x800 ≤ (bits * 64 + b.toNat % 64) * 64 + c.toNat % 64 ∧
        ((bits * 64 + b.toNat % 64) * 64 + c.toNat % 64 < 0xD800 ∨
          0xDFFF < (bits * 64 + b.toNat % 64) * 64 + c.toNat % 64)) ↔
      (lo ≤ b ∧ b ≤ hi) ∧ 0x80 ≤ c ∧ c ≤ 0xBF) (rest : Octets) :
    scalar? (a :: rest) = finish? lo hi 1 bits rest := by
  obtain ⟨low, high, value⟩ := first
  have above : ¬ a < 0x80 := Nat.not_lt.2 (Nat.le_trans (by decide) low)
  have above' : ¬ a < 0xE0 := Nat.not_lt.2 low
  have below : a < 0xF0 := high
  match rest with
  | [] => simp [scalar?, finish?, above, above', below]
  | [b] => simp [scalar?, finish?, above, above', below]
  | b :: c :: rest =>
    simp only [scalar?, finish?, above, above', below, value, tailBits, range, ite_and,
      ↓reduceIte]

theorem scalar?_eq_finish?_four {lo hi : UInt8} {bits : Nat}
    (first : 0xF0 ≤ a.toNat ∧ a.toNat < 0xF8 ∧ a.toNat % 8 = bits)
    (range : ∀ b c d : UInt8, (isTail b ∧ isTail c ∧ isTail d ∧
      0x10000 ≤ ((bits * 64 + b.toNat % 64) * 64 + c.toNat % 64) * 64 + d.toNat % 64 ∧
        ((bits * 64 + b.toNat % 64) * 64 + c.toNat % 64) * 64 + d.toNat % 64 ≤ 0x10FFFF) ↔
      (lo ≤ b ∧ b ≤ hi) ∧ (0x80 ≤ c ∧ c ≤ 0xBF) ∧ 0x80 ≤ d ∧ d ≤ 0xBF) (rest : Octets) :
    scalar? (a :: rest) = finish? lo hi 2 bits rest := by
  obtain ⟨low, high, value⟩ := first
  have above : ¬ a < 0x80 := Nat.not_lt.2 (Nat.le_trans (by decide) low)
  have above' : ¬ a < 0xE0 := Nat.not_lt.2 (Nat.le_trans (by decide) low)
  have above'' : ¬ a < 0xF0 := Nat.not_lt.2 low
  have below : a < 0xF8 := high
  match rest with
  | [] => simp [scalar?, finish?, above, above', above'', below]
  | [b] => simp [scalar?, finish?, above, above', above'', below]
  | [b, c] => simp [scalar?, finish?, above, above', above'', below]
  | b :: c :: d :: rest =>
    simp only [scalar?, finish?, above, above', above'', below, value, tailBits, range,
      ite_and, ↓reduceIte]

/-- A continuation octet begins no character, and neither does an octet whose characters have a
    shorter form. -/
theorem scalar?_of_low (low : 0x80 ≤ a.toNat) (high : a.toNat < 0xC2) (rest : Octets) :
    scalar? (a :: rest) = none := by
  have above : ¬ a < 0x80 := Nat.not_lt.2 low
  have below : a < 0xE0 := Nat.lt_trans high (by decide)
  cases rest with
  | nil => simp [scalar?, above, below]
  | cons b rest =>
    have short : ¬ (0xC0 ≤ a ∧ isTail b ∧ 0x80 ≤ a.toNat % 32 * 64 + tailBits b) := by
      rintro ⟨least, -, shortest⟩
      have least' : 0xC0 ≤ a.toNat := least
      rw [tailBits] at shortest
      omega
    simp only [scalar?, above, below, short, ↓reduceIte]

/-- An octet whose characters would lie behind the last one begins none. -/
theorem scalar?_of_high (low : 0xF5 ≤ a.toNat) (rest : Octets) : scalar? (a :: rest) = none := by
  have above : ¬ a < 0x80 := Nat.not_lt.2 (Nat.le_trans (by decide) low)
  have above' : ¬ a < 0xE0 := Nat.not_lt.2 (Nat.le_trans (by decide) low)
  have above'' : ¬ a < 0xF0 := Nat.not_lt.2 (Nat.le_trans (by decide) low)
  by_cases below : a < 0xF8
  · match rest with
    | [] => simp [scalar?, above, above', above'', below]
    | [b] => simp [scalar?, above, above', above'', below]
    | [b, c] => simp [scalar?, above, above', above'', below]
    | b :: c :: d :: rest =>
      have high : a.toNat < 0xF8 := below
      have late : ¬ (((a.toNat % 8 * 64 + tailBits b) * 64 + tailBits c) * 64 + tailBits d ≤
          0x10FFFF) := by
        omega
      simp only [scalar?, above, above', above'', below, late, and_false, ↓reduceIte]
  · simp [scalar?, above, above', above'', below]

/-- What a first octet begins: it is a character, or refused, or the strict reader reads on just
    as the machine does. -/
theorem begin_cases (a : UInt8) :
    (State.begin a = ([Char.ofNat a.toNat], .start) ∧
      ∀ rest, scalar? (a :: rest) = some (Char.ofNat a.toNat, rest)) ∨
    (State.begin a = ([replacement], .start) ∧ ∀ rest, scalar? (a :: rest) = none) ∨
    ∃ lo hi later bits, State.begin a = ([], .inside lo hi later bits) ∧
      ∀ rest, scalar? (a :: rest) = finish? lo hi later bits rest := by
  have atMost : a.toNat < 256 := a.toNat_lt
  simp only [State.begin, UInt8.lt_iff_toNat_lt, ← UInt8.toNat_inj, UInt8.reduceToNat]
  split
  case isTrue ascii => exact .inl ⟨rfl, fun rest => scalar?_one rest ascii rfl⟩
  split
  case isTrue low => exact .inr (.inl ⟨rfl, scalar?_of_low (by omega) low⟩)
  split
  case isTrue two => exact .inr (.inr ⟨_, _, _, _, rfl, scalar?_eq_finish?_two (by omega) two⟩)
  -- The second octet tells the shortest form, surrogates and the last character.
  split
  case isTrue shortest =>
    refine .inr (.inr ⟨_, _, _, _, rfl, scalar?_eq_finish?_three (by omega) fun b c => ?_⟩)
    simp only [isTail_iff, UInt8.le_iff_toNat_le, UInt8.reduceToNat]
    omega
  split
  case isTrue surrogates =>
    refine .inr (.inr ⟨_, _, _, _, rfl, scalar?_eq_finish?_three (by omega) fun b c => ?_⟩)
    simp only [isTail_iff, UInt8.le_iff_toNat_le, UInt8.reduceToNat]
    omega
  split
  case isTrue three =>
    refine .inr (.inr ⟨_, _, _, _, rfl, scalar?_eq_finish?_three (by omega) fun b c => ?_⟩)
    simp only [isTail_iff, UInt8.le_iff_toNat_le, UInt8.reduceToNat]
    omega
  split
  case isTrue shortest =>
    refine .inr (.inr ⟨_, _, _, _, rfl, scalar?_eq_finish?_four (by omega) fun b c d => ?_⟩)
    simp only [isTail_iff, UInt8.le_iff_toNat_le, UInt8.reduceToNat]
    omega
  split
  case isTrue four =>
    refine .inr (.inr ⟨_, _, _, _, rfl, scalar?_eq_finish?_four (by omega) fun b c d => ?_⟩)
    simp only [isTail_iff, UInt8.le_iff_toNat_le, UInt8.reduceToNat]
    omega
  split
  case isTrue last =>
    refine .inr (.inr ⟨_, _, _, _, rfl, scalar?_eq_finish?_four (by omega) fun b c d => ?_⟩)
    simp only [isTail_iff, UInt8.le_iff_toNat_le, UInt8.reduceToNat]
    omega
  case isFalse high => exact .inr (.inl ⟨rfl, scalar?_of_high (by omega)⟩)

/-! ## One character -/

theorem decodeLossyFrom_of_scalar? {char : Char} (read : scalar? bs = some (char, rest)) :
    decodeLossyFrom .start seen bs = decodeLossyFrom .start (char :: seen) rest := by
  cases bs with
  | nil => simp [scalar?] at read
  | cons a bs =>
    rw [decodeLossyFrom, State.next]
    rcases begin_cases a with ⟨begins, strict⟩ | ⟨begins, strict⟩ | ⟨lo, hi, later, bits, begins,
      strict⟩
    · rw [strict] at read
      obtain ⟨rfl, rfl⟩ := Prod.mk.inj (Option.some.inj read)
      rw [begins]
      rfl
    · exact absurd (strict bs ▸ read) (Option.some_ne_none _).symm
    · rw [begins]
      exact decodeLossyFrom_of_finish? (strict bs ▸ read)

theorem replacement_mem_of_scalar? (notEmpty : bs ≠ []) (refuses : scalar? bs = none) :
    replacement ∈ decodeLossyFrom .start seen bs := by
  cases bs with
  | nil => exact absurd rfl notEmpty
  | cons a bs =>
    rw [decodeLossyFrom, State.next]
    rcases begin_cases a with ⟨-, strict⟩ | ⟨begins, -⟩ | ⟨lo, hi, later, bits, begins, strict⟩
    · exact absurd (strict bs ▸ refuses) (Option.some_ne_none _)
    · rw [begins]
      exact mem_decodeLossyFrom _ (List.mem_append_left _ (List.mem_singleton_self _))
    · rw [begins]
      exact replacement_mem_of_finish? (strict bs ▸ refuses)

/-! ## The octets of a character -/

section Encodings

variable {n : Nat}

theorem val_toNat_ofNat (valid : n < 0xD800 ∨ 0xDFFF < n ∧ n < 0x110000) :
    (Char.ofNat n).val.toNat = n := by
  have valid' : n.isValidChar := valid
  rw [Char.ofNat, dif_pos valid']
  rfl

theorem eq_ofNat (value : a.toNat = n) : a = UInt8.ofNat n := by
  rw [← value, UInt8.ofNat_toNat]

theorem eq_ofNat_of_isTail (tail : isTail b) (bits : tailBits b = n % 64) :
    b = UInt8.ofNat (n % 64 + 0x80) := by
  rw [isTail_iff] at tail
  rw [tailBits] at bits
  exact eq_ofNat (by omega)

theorem utf8EncodeChar_two (high : a.toNat < 0xE0) (low : 0xC0 ≤ a.toNat) (tail : isTail b)
    (value : a.toNat % 32 * 64 + tailBits b = n) (shortest : 0x80 ≤ n) :
    String.utf8EncodeChar (Char.ofNat n) = [a, b] := by
  have bits : tailBits b < 64 := Nat.mod_lt _ (by decide)
  simp only [String.utf8EncodeChar, val_toNat_ofNat (n := n) (by omega)]
  rw [if_neg (by omega), if_pos (by omega), eq_ofNat (a := a) (n := n / 64 % 32 + 192) (by omega),
    eq_ofNat_of_isTail (b := b) (n := n) tail (by omega)]

theorem utf8EncodeChar_three (high : a.toNat < 0xF0) (low : 0xE0 ≤ a.toNat) (tail : isTail b)
    (tail' : isTail c) (value : (a.toNat % 16 * 64 + tailBits b) * 64 + tailBits c = n)
    (shortest : 0x800 ≤ n) (scalar : n < 0xD800 ∨ 0xDFFF < n) :
    String.utf8EncodeChar (Char.ofNat n) = [a, b, c] := by
  have bits : tailBits b < 64 := Nat.mod_lt _ (by decide)
  have bits' : tailBits c < 64 := Nat.mod_lt _ (by decide)
  simp only [String.utf8EncodeChar, val_toNat_ofNat (n := n) (by omega)]
  rw [if_neg (by omega), if_neg (by omega), if_pos (by omega),
    eq_ofNat (a := a) (n := n / 4096 % 16 + 224) (by omega),
    eq_ofNat_of_isTail (b := b) (n := n / 64) tail (by omega),
    eq_ofNat_of_isTail (b := c) (n := n) tail' (by omega)]

theorem utf8EncodeChar_four (high : a.toNat < 0xF8) (low : 0xF0 ≤ a.toNat) (tail : isTail b)
    (tail' : isTail c) (tail'' : isTail d)
    (value : ((a.toNat % 8 * 64 + tailBits b) * 64 + tailBits c) * 64 + tailBits d = n)
    (shortest : 0x10000 ≤ n) (scalar : n ≤ 0x10FFFF) :
    String.utf8EncodeChar (Char.ofNat n) = [a, b, c, d] := by
  have bits : tailBits b < 64 := Nat.mod_lt _ (by decide)
  have bits' : tailBits c < 64 := Nat.mod_lt _ (by decide)
  have bits'' : tailBits d < 64 := Nat.mod_lt _ (by decide)
  simp only [String.utf8EncodeChar, val_toNat_ofNat (n := n) (by omega)]
  rw [if_neg (by omega), if_neg (by omega), if_neg (by omega),
    eq_ofNat (a := a) (n := n / 262144 % 8 + 240) (by omega),
    eq_ofNat_of_isTail (b := b) (n := n / 4096) tail (by omega),
    eq_ofNat_of_isTail (b := c) (n := n / 64) tail' (by omega),
    eq_ofNat_of_isTail (b := d) (n := n) tail'' (by omega)]

end Encodings

/-- Strict reading takes just the encoding of a character off the octets. -/
theorem eq_of_scalar? {char : Char} (read : scalar? bs = some (char, rest)) :
    bs = String.utf8EncodeChar char ++ rest := by
  unfold scalar? at read
  split at read
  · simp at read
  rename_i a bs
  split at read
  case isTrue ascii =>
    obtain ⟨rfl, rfl⟩ := Prod.mk.inj (Option.some.inj read)
    have small : a.toNat < 0x80 := ascii
    have code : (Char.ofNat a.toNat).toNat = a.toNat := val_toNat_ofNat (by omega)
    rw [utf8EncodeChar_of_ascii (by rw [code]; exact small), code, UInt8.ofNat_toNat]
    rfl
  split at read
  case isTrue two =>
    split at read
    · simp only [Option.ite_none_right_eq_some, Option.some.injEq, Prod.mk.injEq] at read
      obtain ⟨⟨low, tail, shortest⟩, rfl, rfl⟩ := read
      rw [utf8EncodeChar_two two low tail rfl shortest]
      rfl
    · simp at read
  rename_i low
  split at read
  case isTrue three =>
    split at read
    · simp only [Option.ite_none_right_eq_some, Option.some.injEq, Prod.mk.injEq] at read
      obtain ⟨⟨tail, tail', shortest, scalar⟩, rfl, rfl⟩ := read
      rw [utf8EncodeChar_three three (Nat.not_lt.1 low) tail tail' rfl shortest scalar]
      rfl
    · simp at read
  rename_i low
  split at read
  case isTrue four =>
    split at read
    · simp only [Option.ite_none_right_eq_some, Option.some.injEq, Prod.mk.injEq] at read
      obtain ⟨⟨tail, tail', tail'', shortest, scalar⟩, rfl, rfl⟩ := read
      rw [utf8EncodeChar_four four (Nat.not_lt.1 low) tail tail' tail'' rfl shortest scalar]
      rfl
    · simp at read
  · simp at read

/-! ## Texts -/

theorem decodeFrom?_of_scalar? {char : Char} (seen : List Char)
    (read : scalar? bs = some (char, rest)) :
    decodeFrom? seen bs = decodeFrom? (char :: seen) rest := by
  rw [decodeFrom?.eq_def]
  split
  · simp [scalar?] at read
  · split <;> simp_all

theorem decodeFrom?_of_refused (seen : List Char) (notEmpty : bs ≠ [])
    (refuses : scalar? bs = none) : decodeFrom? seen bs = none := by
  rw [decodeFrom?.eq_def]
  split
  · exact absurd rfl notEmpty
  · split <;> simp_all

theorem decodeFrom?_cases (seen : List Char) (bs : Octets) :
    (∃ cs, decodeFrom? seen bs = some cs ∧ decodeLossyFrom .start seen bs = cs ∧
      encodeChars cs = encodeChars seen.reverse ++ bs) ∨
    (decodeFrom? seen bs = none ∧ replacement ∈ decodeLossyFrom .start seen bs) := by
  induction seen, bs using decodeFrom?.induct with
  | case1 seen => exact .inl ⟨seen.reverse, by rw [decodeFrom?], by rw [decodeLossyFrom],
      (List.append_nil _).symm⟩
  | case2 seen b bs refuses =>
    have notEmpty := List.cons_ne_nil b bs
    exact .inr ⟨decodeFrom?_of_refused seen notEmpty refuses,
      replacement_mem_of_scalar? notEmpty refuses⟩
  | case3 seen b bs char rest read ih =>
    rw [decodeFrom?_of_scalar? seen read, decodeLossyFrom_of_scalar? read]
    rcases ih with ⟨cs, strict, lossy, octets⟩ | refused
    · refine .inl ⟨cs, strict, lossy, octets.trans ?_⟩
      rw [eq_of_scalar? read]
      simp
    · exact .inr refused

/-- Octets are the encoding of a text, which both ways of reading give, or strict reading refuses
    them and the other makes a replacement. -/
theorem decode?_cases (bs : Octets) :
    (∃ s, decode? bs = some s ∧ decodeLossy bs = s ∧ encode s = bs) ∨
      (decode? bs = none ∧ replacement ∈ (decodeLossy bs).toList) := by
  simp only [decode?, decodeChars?, decodeLossy, decodeCharsLossy]
  rcases decodeFrom?_cases [] bs with ⟨cs, strict, lossy, octets⟩ | ⟨strict, replaced⟩
  · refine .inl ⟨String.ofList cs, by rw [strict]; rfl, by rw [lossy], ?_⟩
    rw [encode, String.toList_ofList]
    exact octets
  · rw [strict, String.toList_ofList]
    exact .inr ⟨rfl, replaced⟩

theorem decode?_eq_some_iff {s : String} : decode? bs = some s ↔ encode s = bs := by
  constructor
  · intro strict
    rcases decode?_cases bs with ⟨s', strict', -, octets⟩ | ⟨refused, -⟩
    · rwa [Option.some.inj (strict.symm.trans strict')]
    · exact absurd (strict.symm.trans refused) (Option.some_ne_none s)
  · rintro rfl
    exact decode?_encode s

/-- Reading with replacement replaces nothing in the encoding of a text. -/
@[simp] theorem decodeLossy_encode (s : String) : decodeLossy (encode s) = s := by
  rcases decode?_cases (encode s) with ⟨s', strict, lossy, -⟩ | ⟨refused, -⟩
  · rw [lossy]
    exact Option.some.inj (strict.symm.trans (decode?_encode s))
  · exact absurd ((decode?_encode s).symm.trans refused) (Option.some_ne_none s)

theorem replacement_mem_decodeLossy (refused : decode? bs = none) :
    replacement ∈ (decodeLossy bs).toList := by
  rcases decode?_cases bs with ⟨s, strict, -, -⟩ | ⟨-, replaced⟩
  · exact absurd (strict.symm.trans refused) (Option.some_ne_none s)
  · exact replaced

-- A surrogate is no character, and each of its octets is replaced.
example : decodeLossy [0x61, 0xED, 0xA0, 0x80] = "a\uFFFD\uFFFD\uFFFD" := by decide

end PeekLock.Utf8
