import PeekLock.Json.Reader
import PeekLock.Proofs.Text.Utf8

/-! # Strings come back from their JSON text

A text that was quoted is read back to its closing quote (`stringBody_quoted`).  The
reader goes by pieces that are single octets or whole escapes, while the writer goes by
characters, so what is followed through is how many pieces one character takes
(`Spells`).  No octet of a character that is written as it is can be taken for a quote,
a backslash or a control, because the octets of longer characters all lie above those.
-/

namespace PeekLock.Json

/-! ## Pieces -/

/-- Some octets stand for the octets of a character inside a string, whatever is in front of
    them and behind them, and are read in no more pieces than there are octets. -/
def Spells (written octets : Octets) : Prop :=
  ∃ pieces ≤ written.length, ∀ seen rounds rest,
    stringOctets seen (rounds + pieces) (written ++ rest) =
      stringOctets (octets.reverse ++ seen) rounds rest

namespace Spells

protected theorem nil : Spells [] [] := ⟨0, Nat.le_refl _, fun _ _ _ => rfl⟩

protected theorem append {front front' back back' : Octets} (first : Spells front front')
    (second : Spells back back') : Spells (front ++ back) (front' ++ back') := by
  obtain ⟨n, le, reads⟩ := first
  obtain ⟨m, le', reads'⟩ := second
  refine ⟨m + n, by rw [List.length_append]; omega, fun seen rounds rest => ?_⟩
  rw [List.append_assoc, ← Nat.add_assoc, reads, reads', List.reverse_append, List.append_assoc]

/-- What is read as one piece. -/
theorem of_piece {written octets : Octets} (some_ : written ≠ [])
    (piece : ∀ rest, stringPiece (written ++ rest) = .ok (some octets, rest)) :
    Spells written octets := by
  refine ⟨1, List.length_pos_iff.2 some_, fun seen rounds rest => ?_⟩
  simp only [stringOctets, piece]
  rfl

/-- An octet that is no quote, no backslash and no control stands for itself. -/
theorem of_plain {b : UInt8} (quote : b ≠ 0x22) (backslash : b ≠ 0x5C) (control : ¬ b < 0x20) :
    Spells [b] [b] := by
  refine of_piece (List.cons_ne_nil _ _) fun rest => ?_
  simp only [List.singleton_append, stringPiece, quote, backslash, control, ↓reduceIte]

theorem of_all_plain {octets : Octets}
    (plain : ∀ b ∈ octets, b ≠ 0x22 ∧ b ≠ 0x5C ∧ ¬ b < 0x20) : Spells octets octets := by
  induction octets with
  | nil => exact .nil
  | cons b bs ih =>
    obtain ⟨quote, backslash, control⟩ := plain b (List.mem_cons_self ..)
    exact (of_plain quote backslash control).append
      (ih fun b' member => plain b' (List.mem_cons_of_mem _ member))

end Spells

/-! ## Characters -/

theorem hexValue?_hexDigit {n : Nat} (small : n < 16) :
    ∃ o, String.utf8EncodeChar (hexDigit n) = [o] ∧ hexValue? o = some n := by
  have all : ∀ n < 16, String.utf8EncodeChar (hexDigit n) = [UInt8.ofNat (hexDigit n).toNat] ∧
      hexValue? (UInt8.ofNat (hexDigit n).toNat) = some n := by decide
  exact ⟨_, all n small⟩

/-- A control without a short escape is written by its code point. -/
theorem spells_control {c : Char} (control : c.toNat < 0x20) :
    Spells (Utf8.encodeChars
      ['\\', 'u', '0', '0', hexDigit (c.toNat / 16), hexDigit (c.toNat % 16)])
      (String.utf8EncodeChar c) := by
  obtain ⟨high, highOctets, highValue⟩ := hexValue?_hexDigit (n := c.toNat / 16) (by omega)
  obtain ⟨low, lowOctets, lowValue⟩ := hexValue?_hexDigit (n := c.toNat % 16) (by omega)
  have written : Utf8.encodeChars
      ['\\', 'u', '0', '0', hexDigit (c.toNat / 16), hexDigit (c.toNat % 16)] =
        [0x5C, 0x75, 0x30, 0x30, high, low] := by
    simp only [Utf8.encodeChars_cons, highOctets, lowOctets, Utf8.encodeChars_nil]
    rfl
  have unit : ((0 * 16 + 0) * 16 + c.toNat / 16) * 16 + c.toNat % 16 = c.toNat := by omega
  have zero : hexValue? 0x30 = some 0 := by decide
  rw [written]
  refine .of_piece (List.cons_ne_nil _ _) fun rest => ?_
  have read : escapedChar (0x30 :: 0x30 :: high :: low :: rest) = .ok (c, rest) := by
    simp only [escapedChar, hexUnit, zero, highValue, lowValue, unit, bind, Except.bind]
    rw [if_neg (by omega), if_neg (by omega), Char.ofNat_toNat]
  simp only [List.cons_append, List.nil_append, stringPiece, read, bind, Except.bind]
  rfl

/-- Other characters are written as they are. -/
theorem spells_plain {c : Char} (quote : c ≠ '"') (backslash : c ≠ '\\')
    (above : ¬ c.toNat < 0x20) : Spells (String.utf8EncodeChar c) (String.utf8EncodeChar c) := by
  refine .of_all_plain fun b member => ?_
  have value : b.toNat = c.toNat ∨ 0x80 ≤ b.toNat := by
    by_cases ascii : c.toNat < 0x80
    · rw [Utf8.utf8EncodeChar_of_ascii ascii] at member
      obtain rfl := List.mem_singleton.1 member
      exact .inl (Utf8.toNat_ofNat (by omega))
    · exact .inr (Utf8.le_of_mem_utf8EncodeChar (by omega) member)
  have quote' : c.toNat ≠ 0x22 := fun same => quote (Char.toNat_inj.1 same)
  have backslash' : c.toNat ≠ 0x5C := fun same => backslash (Char.toNat_inj.1 same)
  refine ⟨?_, ?_, ?_⟩
  · rintro rfl
    exact quote' (value.elim Eq.symm fun le => absurd le (by decide))
  · rintro rfl
    exact backslash' (value.elim Eq.symm fun le => absurd le (by decide))
  · intro control
    have : b.toNat < 0x20 := control
    omega

theorem spells_escape (c : Char) :
    Spells (Utf8.encodeChars (escape c)) (String.utf8EncodeChar c) := by
  have short (e : UInt8) (o : UInt8) (escape : escapeOctet? e = some o) (hex : e ≠ 0x75) :
      Spells [0x5C, e] [o] := by
    refine .of_piece (List.cons_ne_nil _ _) fun rest => ?_
    simp only [List.cons_append, List.nil_append, stringPiece, escape, hex, ↓reduceIte]
    rfl
  unfold escape
  split
  case h_1 => exact short 0x22 0x22 (by decide) (by decide)
  case h_2 => exact short 0x5C 0x5C (by decide) (by decide)
  case h_3 => exact short 0x62 0x08 (by decide) (by decide)
  case h_4 => exact short 0x66 0x0C (by decide) (by decide)
  case h_5 => exact short 0x6E 0x0A (by decide) (by decide)
  case h_6 => exact short 0x72 0x0D (by decide) (by decide)
  case h_7 => exact short 0x74 0x09 (by decide) (by decide)
  case h_8 quote backslash _ _ _ _ _ =>
    split
    case isTrue control => exact spells_control control
    case isFalse above =>
      simp only [Utf8.encodeChars_cons, Utf8.encodeChars_nil, List.append_nil]
      exact spells_plain quote backslash above

/-! ## Texts -/

theorem spells_escapes (cs : List Char) :
    Spells (Utf8.encodeChars (cs.flatMap escape)) (Utf8.encodeChars cs) := by
  induction cs with
  | nil => exact .nil
  | cons c cs ih =>
    rw [List.flatMap_cons, Utf8.encodeChars_append, Utf8.encodeChars_cons]
    exact (spells_escape c).append ih

/-- A text in quotes is read back, up to its closing quote. -/
theorem stringBody_quoted (s : String) (rest : Octets) :
    stringBody (Utf8.encodeChars (s.toList.flatMap escape) ++ 0x22 :: rest) = .ok (s, rest) := by
  obtain ⟨pieces, le, reads⟩ := spells_escapes s.toList
  have ends (seen : Octets) (rounds : Nat) :
      stringOctets seen (rounds + 1) (0x22 :: rest) = .ok (seen.reverse, rest) := rfl
  have octets : stringOctets [] ((Utf8.encodeChars (s.toList.flatMap escape) ++
      0x22 :: rest).length + 1) (Utf8.encodeChars (s.toList.flatMap escape) ++ 0x22 :: rest) =
        .ok (Utf8.encode s, rest) := by
    have enough : (Utf8.encodeChars (s.toList.flatMap escape) ++ 0x22 :: rest).length + 1 =
        (Utf8.encodeChars (s.toList.flatMap escape)).length - pieces + rest.length + 1 + 1 +
          pieces := by
      rw [List.length_append, List.length_cons]
      omega
    rw [enough, reads, ends]
    simp [Utf8.encode]
  simp only [stringBody, octets, bind, Except.bind, Utf8.decode?_encode]

end PeekLock.Json
