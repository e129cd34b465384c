import PeekLock.Text.Utf8

/-! # Texts come back from their octets

Strict reading gives back the characters that were encoded (`decode?_encode`).  The
encoding has four forms by the size of the code point; in each of them the reader finds
the bits where they were put, and its demand for the shortest form is met because the
form was chosen by size.  Surrogates, which the reader refuses, are no characters.
-/

namespace PeekLock.Utf8

/-! ## Octets of a form -/

theorem toNat_ofNat {n : Nat} (small : n < 256) : (UInt8.ofNat n).toNat = n := by
  rw [UInt8.toNat_ofNat']
  exact Nat.mod_eq_of_lt small

theorem isTail_iff {b : UInt8} : isTail b = true ↔ 0x80 ≤ b.toNat ∧ b.toNat ≤ 0xBF := by
  simp only [isTail, Bool.and_eq_true, decide_eq_true_eq]
  exact Iff.rfl

/-- A continuation octet is recognised and keeps its six bits. -/
theorem tail_ofNat {n : Nat} (small : n < 64) :
    isTail (UInt8.ofNat (n + 0x80)) ∧ tailBits (UInt8.ofNat (n + 0x80)) = n := by
  rw [isTail_iff, tailBits, toNat_ofNat (by omega)]
  omega

section Forms

variable {a b c d : UInt8} {n : Nat} (rest : Octets)

theorem scalar?_one (small : a.toNat < 0x80) (value : a.toNat = n) :
    scalar? (a :: rest) = some (Char.ofNat n, rest) := by
  have first : a < 0x80 := small
  simp only [scalar?, first, ↓reduceIte, value]

theorem scalar?_two (low : 0xC0 ≤ a.toNat) (high : a.toNat < 0xE0) (tail : isTail b)
    (value : a.toNat % 32 * 64 + tailBits b = n) (shortest : 0x80 ≤ n) :
    scalar? (a :: b :: rest) = some (Char.ofNat n, rest) := by
  have above : ¬ a < 0x80 := Nat.not_lt.2 (Nat.le_trans (by decide) low)
  have below : a < 0xE0 := high
  have least : 0xC0 ≤ a := low
  simp only [scalar?, above, below, least, tail, value, shortest, and_self, ↓reduceIte]

theorem scalar?_three (low : 0xE0 ≤ a.toNat) (high : a.toNat < 0xF0) (tail : isTail b)
    (tail' : isTail c) (value : (a.toNat % 16 * 64 + tailBits b) * 64 + tailBits c = n)
    (shortest : 0x800 ≤ n) (scalar : n < 0xD800 ∨ 0xDFFF < n) :
    scalar? (a :: b :: c :: rest) = some (Char.ofNat n, rest) := by
  have above : ¬ a < 0x80 := Nat.not_lt.2 (Nat.le_trans (by decide) low)
  have above' : ¬ a < 0xE0 := Nat.not_lt.2 low
  have below : a < 0xF0 := high
  simp only [scalar?, above, above', below, tail, tail', value, shortest, scalar, and_self,
    ↓reduceIte]

theorem scalar?_four (low : 0xF0 ≤ a.toNat) (high : a.toNat < 0xF8) (tail : isTail b)
    (tail' : isTail c) (tail'' : isTail d)
    (value : ((a.toNat % 8 * 64 + tailBits b) * 64 + tailBits c) * 64 + tailBits d = n)
    (shortest : 0x10000 ≤ n) (scalar : n ≤ 0x10FFFF) :
    scalar? (a :: b :: c :: d :: rest) = some (Char.ofNat n, rest) := by
  have above : ¬ a < 0x80 := Nat.not_lt.2 (Nat.le_trans (by decide) low)
  have above' : ¬ a < 0xE0 := Nat.not_lt.2 (Nat.le_trans (by decide) low)
  have above'' : ¬ a < 0xF0 := Nat.not_lt.2 low
  have below : a < 0xF8 := high
  simp only [scalar?, above, above', above'', below, tail, tail', tail'', value, shortest, scalar,
    and_self, ↓reduceIte]

end Forms

/-! ## One character -/

theorem scalar?_utf8EncodeChar (c : Char) (rest : Octets) :
    scalar? (String.utf8EncodeChar c ++ rest) = some (c, rest) := by
  have char : Char.ofNat c.val.toNat = c := c.ofNat_toNat
  have valid : c.val.toNat < 0xD800 ∨ 0xDFFF < c.val.toNat ∧ c.val.toNat < 0x110000 := c.valid
  unfold String.utf8EncodeChar
  generalize c.val.toNat = v at char valid
  subst char
  obtain ⟨low, lowBits⟩ := tail_ofNat (n := v % 64) (by omega)
  obtain ⟨mid, midBits⟩ := tail_ofNat (n := v / 64 % 64) (by omega)
  obtain ⟨high, highBits⟩ := tail_ofNat (n := v / 4096 % 64) (by omega)
  dsimp only
  split
  case isTrue one =>
    have first : (UInt8.ofNat v).toNat = v := toNat_ofNat (by omega)
    exact scalar?_one rest (by omega) first
  split
  case isTrue two =>
    have first := toNat_ofNat (n := v / 64 % 32 + 192) (by omega)
    refine scalar?_two rest ?_ ?_ low ?_ ?_ <;> omega
  split
  case isTrue three =>
    have first := toNat_ofNat (n := v / 4096 % 16 + 224) (by omega)
    refine scalar?_three rest ?_ ?_ mid low ?_ ?_ ?_ <;> omega
  case isFalse four =>
    have first := toNat_ofNat (n := v / 262144 % 8 + 240) (by omega)
    refine scalar?_four rest ?_ ?_ high mid low ?_ ?_ ?_ <;> omega

/-! ## Characters of ASCII and others -/

/-- The octets of a character above ASCII lie above ASCII. -/
theorem le_of_mem_utf8EncodeChar {c : Char} (above : 0x7F < c.toNat) {b : UInt8}
    (member : b ∈ String.utf8EncodeChar c) : 0x80 ≤ b.toNat := by
  have above' : ¬ c.val.toNat ≤ 0x7F := Nat.not_le.2 above
  have tail (n : Nat) : 0x80 ≤ (UInt8.ofNat (n % 64 + 128)).toNat := by
    rw [toNat_ofNat (by omega)]
    omega
  have first (n k : Nat) (low : 128 ≤ k) (high : n + k < 256) :
      0x80 ≤ (UInt8.ofNat (n + k)).toNat := by
    rw [toNat_ofNat high]
    omega
  unfold String.utf8EncodeChar at member
  dsimp only at member
  rw [if_neg above'] at member
  split at member
  · simp only [List.mem_cons, List.not_mem_nil, or_false] at member
    rcases member with rfl | rfl
    · exact first _ _ (by omega) (by omega)
    · exact tail _
  split at member
  · simp only [List.mem_cons, List.not_mem_nil, or_false] at member
    rcases member with rfl | rfl | rfl
    · exact first _ _ (by omega) (by omega)
    · exact tail _
    · exact tail _
  · simp only [List.mem_cons, List.not_mem_nil, or_false] at member
    rcases member with rfl | rfl | rfl | rfl
    · exact first _ _ (by omega) (by omega)
    · exact tail _
    · exact tail _
    · exact tail _

theorem utf8EncodeChar_of_ascii {c : Char} (ascii : c.toNat < 0x80) :
    String.utf8EncodeChar c = [UInt8.ofNat c.toNat] := by
  have small : c.val.toNat ≤ 0x7F := Nat.le_of_lt_succ ascii
  unfold String.utf8EncodeChar
  dsimp only
  rw [if_pos small]
  rfl

/-! ## Texts of characters -/

@[simp] theorem encodeChars_nil : encodeChars [] = [] := rfl

@[simp] theorem encodeChars_cons (c : Char) (cs : List Char) :
    encodeChars (c :: cs) = String.utf8EncodeChar c ++ encodeChars cs := rfl

@[simp] theorem encodeChars_append (cs ds : List Char) :
    encodeChars (cs ++ ds) = encodeChars cs ++ encodeChars ds :=
  List.flatMap_append

/-- Octets of ASCII are the text that is made of them. -/
theorem encodeChars_map_ofNat {bs : Octets} (ascii : ∀ b ∈ bs, b < 0x80) :
    encodeChars (bs.map fun b => Char.ofNat b.toNat) = bs := by
  induction bs with
  | nil => rfl
  | cons b bs ih =>
    have small : b.toNat < 0x80 := ascii b (List.mem_cons_self ..)
    have valid : b.toNat.isValidChar := .inl (by omega)
    have value : (Char.ofNat b.toNat).toNat = b.toNat := by
      rw [Char.ofNat, dif_pos valid]
      rfl
    have one : String.utf8EncodeChar (Char.ofNat b.toNat) = [b] := by
      rw [utf8EncodeChar_of_ascii (by rw [value]; exact small), value, UInt8.ofNat_toNat]
    rw [List.map_cons, encodeChars_cons, one,
      ih fun b' member => ascii b' (List.mem_cons_of_mem _ member)]
    rfl

/-! ## Reading texts -/

theorem decodeFrom?_encodeChars (cs seen : List Char) :
    decodeFrom? seen (encodeChars cs) = some (seen.reverse ++ cs) := by
  induction cs generalizing seen with
  | nil => simp [decodeFrom?]
  | cons c cs ih =>
    have read := scalar?_utf8EncodeChar c (encodeChars cs)
    rw [← encodeChars_cons] at read
    rw [decodeFrom?.eq_def]
    split
    case h_1 empty => simp [empty, scalar?] at read
    case h_2 some_ =>
      split
      · simp_all
      · simp_all

/-- Strict reading gives back the text that was encoded. -/
@[simp] theorem decode?_encode (s : String) : decode? (encode s) = some s := by
  simp [decode?, decodeChars?, encode, decodeFrom?_encodeChars]

end PeekLock.Utf8
