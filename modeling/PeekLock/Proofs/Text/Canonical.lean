import PeekLock.Proofs.Json.Record
import PeekLock.Proofs.Text.Base64
import PeekLock.Proofs.Text.Utf8

/-! # One base64 text for the same octets

The reader of base64 accepts a text only if it is the one that the writer makes of the octets
that were read (`decode_eq_ok_iff`), so no two texts are read as the same octets.  Which texts
those are can be said without the writer: they are the texts without a flaw
(`Flawed`, `not_flawed_iff`).
-/

namespace PeekLock.Base64

/-! ## Groups of symbols -/

theorem symbol_of_sextet? {b : UInt8} {n : Nat} (value : sextet? b = some n) :
    n < 64 ∧ symbol n = b := by
  have all : ∀ k < 256,
      (sextet? (UInt8.ofNat k)).all fun n => n < 64 ∧ symbol n = UInt8.ofNat k := by
    decide +kernel
  have here := all b.toNat b.toNat_lt
  rw [UInt8.ofNat_toNat, value] at here
  simpa using here

theorem symbol_of_sextetAt {offset n : Nat} {b : UInt8} (read : sextetAt offset b = .ok n) :
    n < 64 ∧ symbol n = b := by
  simp only [sextetAt] at read
  split at read
  · next value => exact symbol_of_sextet? (Except.ok.inj read ▸ value)
  · simp at read

section Groups

variable {a b c d : Nat}

/-- The bits of four symbols are those of three octets. -/
theorem encode_four (ha : a < 64) (hb : b < 64) (hc : c < 64) (hd : d < 64) (rest : Octets) :
    encode (UInt8.ofNat (a * 4 + b / 16) :: UInt8.ofNat (b % 16 * 16 + c / 4) ::
      UInt8.ofNat (c % 4 * 64 + d) :: rest) =
        [symbol a, symbol b, symbol c, symbol d] ++ encode rest := by
  rw [encode, encodeTriple, Utf8.toNat_ofNat (by omega), Utf8.toNat_ofNat (by omega),
    Utf8.toNat_ofNat (by omega)]
  have first : (a * 4 + b / 16) / 4 = a := by omega
  have second : (a * 4 + b / 16) % 4 * 16 + (b % 16 * 16 + c / 4) / 16 = b := by omega
  have third : (b % 16 * 16 + c / 4) % 16 * 4 + (c % 4 * 64 + d) / 64 = c := by omega
  have fourth : (c % 4 * 64 + d) % 64 = d := by omega
  rw [first, second, third, fourth]

theorem encode_three (ha : a < 64) (hb : b < 64) (hc : c < 64) (unused : c % 4 = 0) :
    encode [UInt8.ofNat (a * 4 + b / 16), UInt8.ofNat (b % 16 * 16 + c / 4)] =
      [symbol a, symbol b, symbol c, pad] := by
  rw [encode, Utf8.toNat_ofNat (by omega), Utf8.toNat_ofNat (by omega)]
  have first : (a * 4 + b / 16) / 4 = a := by omega
  have second : (a * 4 + b / 16) % 4 * 16 + (b % 16 * 16 + c / 4) / 16 = b := by omega
  have third : (b % 16 * 16 + c / 4) % 16 * 4 = c := by omega
  rw [first, second, third]

theorem encode_two (ha : a < 64) (hb : b < 64) (unused : b % 16 = 0) :
    encode [UInt8.ofNat (a * 4 + b / 16)] = [symbol a, symbol b, pad, pad] := by
  rw [encode, Utf8.toNat_ofNat (by omega)]
  have first : (a * 4 + b / 16) / 4 = a := by omega
  have second : (a * 4 + b / 16) % 4 * 16 = b := by omega
  rw [first, second]

end Groups

/-! ## What is read -/

theorem encode_of_decodeQuad {offset : Nat} {a b c d : UInt8} {octets : Octets}
    (read : decodeQuad offset a b c d = .ok octets) (rest : Octets) :
    encode (octets ++ rest) = [a, b, c, d] ++ encode rest := by
  obtain ⟨w, first, read⟩ := bind_eq_ok read
  obtain ⟨x, second, read⟩ := bind_eq_ok read
  obtain ⟨y, third, read⟩ := bind_eq_ok read
  obtain ⟨z, fourth, read⟩ := bind_eq_ok read
  obtain rfl := Except.ok.inj read
  obtain ⟨hw, rfl⟩ := symbol_of_sextetAt first
  obtain ⟨hx, rfl⟩ := symbol_of_sextetAt second
  obtain ⟨hy, rfl⟩ := symbol_of_sextetAt third
  obtain ⟨hz, rfl⟩ := symbol_of_sextetAt fourth
  exact encode_four hw hx hy hz rest

/-- The last group is made up of symbols and of padding behind them. -/
theorem scan_eq_ok {base i : Nat} {tail tail' : Tail} {bs : Octets}
    (scanned : Tail.scan base i tail bs = .ok tail') :
    ∃ (ns : List Nat) (k : Nat), (∀ n ∈ ns, n < 64) ∧
      bs = ns.map symbol ++ List.replicate k pad ∧
        tail'.symbols = tail.symbols ++ ns.map (fun n => (symbol n, n)) ∧
          tail'.padding = tail.padding + k ∧ (0 < tail.padding → ns = []) := by
  induction bs generalizing i tail with
  | nil =>
    obtain rfl := Except.ok.inj scanned
    exact ⟨[], 0, by simp⟩
  | cons b rest ih =>
    simp only [Tail.scan] at scanned
    split at scanned
    case isTrue padding =>
      split at scanned
      · simp at scanned
      · obtain ⟨ns, k, -, split, symbols, count, none⟩ := ih scanned
        -- Behind padding there is no symbol.
        obtain rfl := none (Nat.succ_pos _)
        refine ⟨[], k + 1, by simp, ?_, symbols, ?_, fun _ => rfl⟩
        · rw [padding, split]
          rfl
        · rw [count]
          show tail.padding + 1 + k = tail.padding + (k + 1)
          omega
    case isFalse =>
      split at scanned
      · simp at scanned
      · next unpadded =>
        split at scanned
        · simp at scanned
        · next n value =>
          obtain ⟨small, rfl⟩ := symbol_of_sextet? value
          obtain ⟨ns, k, others, split, symbols, count, -⟩ := ih scanned
          refine ⟨n :: ns, k, ?_, ?_, ?_, count, fun padded => absurd padded unpadded⟩
          · simpa using ⟨small, others⟩
          · rw [split]
            rfl
          · simpa using symbols

theorem encode_of_octets {base : Nat} {tail : Tail} {octets : Octets} {ns : List Nat}
    (small : ∀ n ∈ ns, n < 64) (symbols : tail.symbols = ns.map fun n => (symbol n, n))
    (short : ns.length + tail.padding ≤ 4) (read : tail.octets base = .ok octets) :
    encode octets = ns.map symbol ++ List.replicate tail.padding pad := by
  have length : tail.symbols.length = ns.length := by rw [symbols, List.length_map]
  simp only [Tail.octets, length] at read
  split at read
  · simp at read
  split at read
  · simp at read
  next many full =>
    -- There are two symbols at least, and with the padding there are four octets.
    have four : ns.length + tail.padding = 4 := by omega
    rw [symbols] at read
    rcases ns with _ | ⟨a, _ | ⟨b, _ | ⟨c, _ | ⟨d, _ | ⟨e, rest⟩⟩⟩⟩⟩
    · simp at many
    · simp at many
    · have padding : tail.padding = 2 := Nat.add_left_cancel (n := 2) four
      simp only [List.map_cons, List.map_nil] at read
      split at read
      · simp at read
      · rw [padding, ← Except.ok.inj read]
        exact encode_two (small a (by simp)) (small b (by simp)) (by omega)
    · have padding : tail.padding = 1 := Nat.add_left_cancel (n := 3) four
      simp only [List.map_cons, List.map_nil] at read
      split at read
      · simp at read
      · rw [padding, ← Except.ok.inj read]
        exact encode_three (small a (by simp)) (small b (by simp)) (small c (by simp)) (by omega)
    · have padding : tail.padding = 0 := Nat.add_left_cancel (n := 4) four
      rw [padding, ← Except.ok.inj read]
      exact encode_four (small a (by simp)) (small b (by simp)) (small c (by simp))
        (small d (by simp)) []
    · simp only [List.length_cons] at four
      omega

theorem length_le_four {text : Octets}
    (short : ∀ a b c d e rest, text = a :: b :: c :: d :: e :: rest → False) : text.length ≤ 4 := by
  rcases text with _ | ⟨a, _ | ⟨b, _ | ⟨c, _ | ⟨d, _ | ⟨e, rest⟩⟩⟩⟩⟩
  · exact Nat.zero_le 4
  · exact Nat.le_add_right 1 3
  · exact Nat.le_add_right 2 2
  · exact Nat.le_add_right 3 1
  · exact Nat.le_refl 4
  · exact (short a b c d e rest rfl).elim

theorem encode_of_decodeFrom {offset : Nat} {text octets : Octets}
    (read : decodeFrom offset text = .ok octets) : encode octets = text := by
  fun_induction decodeFrom offset text generalizing octets with
  | case1 offset a b c d e rest ih =>
    obtain ⟨head, first, read⟩ := bind_eq_ok read
    obtain ⟨tail, others, read⟩ := bind_eq_ok read
    obtain rfl := Except.ok.inj read
    rw [encode_of_decodeQuad first, ih others]
    rfl
  | case2 =>
    obtain rfl := Except.ok.inj read
    rfl
  | case3 offset last many some_ =>
    have short := length_le_four many
    obtain ⟨tail, scanned, told⟩ := bind_eq_ok read
    obtain ⟨ns, k, small, rfl, symbols, padding, -⟩ := scan_eq_ok scanned
    obtain rfl : tail.padding = k := padding.trans (Nat.zero_add k)
    refine encode_of_octets small symbols ?_ told
    simpa using short

/-- A text is read if and only if it is the one that is written of the octets. -/
theorem decode_eq_ok_iff {text octets : Octets} : decode text = .ok octets ↔ text = encode octets := by
  constructor
  · intro read
    simp only [decode] at read
    split at read
    · split at read
      · simp at read
      · exact (encode_of_decodeFrom read).symm
    · next empty =>
      rw [List.getLast?_eq_none_iff.1 empty, ← Except.ok.inj read]
      rfl
  · rintro rfl
    exact decode_encode octets

/-! ## Flaws -/

/-- The symbols in the order of their values. -/
def alphabet : List Char :=
  ['A', 'B', 'C', 'D', 'E', 'F', 'G', 'H', 'I', 'J', 'K', 'L', 'M', 'N', 'O', 'P', 'Q', 'R', 'S', 'T',
    'U', 'V', 'W', 'X', 'Y', 'Z', 'a', 'b', 'c', 'd', 'e', 'f', 'g', 'h', 'i', 'j', 'k', 'l', 'm', 'n',
    'o', 'p', 'q', 'r', 's', 't', 'u', 'v', 'w', 'x', 'y', 'z', '0', '1', '2', '3', '4', '5', '6', '7',
    '8', '9', '+', '/']

/-- What keeps a text from being the base64 text of any octets. -/
inductive Flawed (text : List Char) : Prop where
  /-- Padding is missing, or there is too much of it, so that the groups are not full. -/
  | uneven (length : text.length % 4 ≠ 0)
  /-- A character is neither padding nor a symbol: a blank, a hyphen, an underscore. -/
  | foreign (c : Char) (member : c ∈ text) (unknown : c ∉ alphabet) (other : c ≠ '=')
  /-- There is a symbol behind padding. -/
  | inside (c : Char) (within : ['=', c] <:+: text) (symbol : c ≠ '=')
  /-- There is more padding than a group needs. -/
  | excess (ends : ['=', '=', '='] <:+ text)
  /-- Of the second symbol in the last group four bits are not used. -/
  | fourBits (c : Char) (ends : [c, '=', '='] <:+ text) (bits : alphabet.idxOf c % 16 ≠ 0)
  /-- Of the third symbol in the last group two bits are not used. -/
  | twoBits (c : Char) (ends : [c, '='] <:+ text) (bits : alphabet.idxOf c % 4 ≠ 0)

/-- Values of symbols, and a number of padding characters, that make up full groups without bits
    that are not used. -/
structure Fits (ns : List Nat) (k : Nat) : Prop where
  small : ∀ n ∈ ns, n < 64
  full : (ns.length + k) % 4 = 0
  atMostTwo : k ≤ 2
  fourBits : k = 2 → ∀ n ∈ ns.getLast?, n % 16 = 0
  twoBits : k = 1 → ∀ n ∈ ns.getLast?, n % 4 = 0

/-- A full group in front of others changes nothing about the last one. -/
theorem fits_four_iff {w x y z : Nat} {ns : List Nat} {k : Nat} :
    Fits (w :: x :: y :: z :: ns) k ↔ (w < 64 ∧ x < 64 ∧ y < 64 ∧ z < 64) ∧ Fits ns k := by
  have last (short : k ≠ 0) (full : (ns.length + k) % 4 = 0) (atMostTwo : k ≤ 2) :
      (w :: x :: y :: z :: ns).getLast? = ns.getLast? := by
    cases ns with
    | nil =>
      simp only [List.length_nil] at full
      omega
    | cons n ns => rfl
  have length : ((w :: x :: y :: z :: ns).length + k) % 4 = (ns.length + k) % 4 := by
    simp only [List.length_cons]
    omega
  constructor
  · intro fits
    obtain ⟨small, full, atMostTwo, fourBits, twoBits⟩ := fits
    simp only [List.forall_mem_cons] at small
    obtain ⟨hw, hx, hy, hz, others⟩ := small
    rw [length] at full
    refine ⟨⟨hw, hx, hy, hz⟩, others, full, atMostTwo, fun two => ?_, fun one => ?_⟩
    · rw [← last (by omega) full atMostTwo]
      exact fourBits two
    · rw [← last (by omega) full atMostTwo]
      exact twoBits one
  · rintro ⟨⟨hw, hx, hy, hz⟩, fits⟩
    obtain ⟨others, full, atMostTwo, fourBits, twoBits⟩ := fits
    refine ⟨?_, length.trans full, atMostTwo, fun two => ?_, fun one => ?_⟩
    · simp only [List.forall_mem_cons]
      exact ⟨hw, hx, hy, hz, others⟩
    · rw [last (by omega) full atMostTwo]
      exact fourBits two
    · rw [last (by omega) full atMostTwo]
      exact twoBits one

/-- What is written fits. -/
theorem exists_fits (bs : Octets) :
    ∃ ns k, Fits ns k ∧ encode bs = ns.map symbol ++ List.replicate k pad := by
  fun_induction encode bs with
  | case1 => exact ⟨[], 0, ⟨by simp, rfl, by simp, by simp, by simp⟩, rfl⟩
  | case2 a =>
    have := a.toNat_lt
    refine ⟨[a.toNat / 4, a.toNat % 4 * 16], 2, ⟨?small, by simp, by simp, ?unused, by simp⟩, rfl⟩
    case small =>
      simp only [List.forall_mem_cons]
      exact ⟨by omega, by omega, by simp⟩
    case unused => simp
  | case3 a b =>
    have := a.toNat_lt
    have := b.toNat_lt
    refine ⟨[a.toNat / 4, a.toNat % 4 * 16 + b.toNat / 16, b.toNat % 16 * 4], 1,
      ⟨?small, by simp, by simp, by simp, ?unused⟩, rfl⟩
    case small =>
      simp only [List.forall_mem_cons]
      exact ⟨by omega, by omega, by omega, by simp⟩
    case unused => simp
  | case4 a b c rest ih =>
    have := a.toNat_lt
    have := b.toNat_lt
    have := c.toNat_lt
    obtain ⟨ns, k, fits, written⟩ := ih
    have group : a.toNat / 4 < 64 ∧ a.toNat % 4 * 16 + b.toNat / 16 < 64 ∧
        b.toNat % 16 * 4 + c.toNat / 64 < 64 ∧ c.toNat % 64 < 64 := by omega
    refine ⟨_, k, fits_four_iff.2 ⟨group, fits⟩, ?_⟩
    rw [written]
    rfl

/-- What fits is written of some octets. -/
theorem Fits.exists_encode {ns : List Nat} {k : Nat} (fits : Fits ns k) :
    ∃ bs, encode bs = ns.map symbol ++ List.replicate k pad := by
  -- Group by group, so the induction is on the length.
  induction length : ns.length using Nat.strongRecOn generalizing ns with
  | ind m ih =>
    have atMostTwo := fits.atMostTwo
    have full := fits.full
    have small := fits.small
    rcases ns with _ | ⟨w, _ | ⟨x, _ | ⟨y, _ | ⟨z, rest⟩⟩⟩⟩
    · obtain rfl : k = 0 := by simp only [List.length_nil] at full; omega
      exact ⟨[], rfl⟩
    · simp only [List.length_cons, List.length_nil] at full
      omega
    · obtain rfl : k = 2 := by simp only [List.length_cons, List.length_nil] at full; omega
      exact ⟨_, encode_two (small w (by simp)) (small x (by simp)) (fits.fourBits rfl x rfl)⟩
    · obtain rfl : k = 1 := by simp only [List.length_cons, List.length_nil] at full; omega
      exact ⟨_, encode_three (small w (by simp)) (small x (by simp)) (small y (by simp))
        (fits.twoBits rfl y rfl)⟩
    · obtain ⟨⟨hw, hx, hy, hz⟩, others⟩ := fits_four_iff.1 fits
      have shorter : rest.length < m := by
        rw [← length]
        simp only [List.length_cons]
        omega
      obtain ⟨bs, written⟩ := ih rest.length shorter others rfl
      refine ⟨_, (encode_four hw hx hy hz bs).trans ?_⟩
      rw [written]
      rfl

def character (b : UInt8) : Char := Char.ofNat b.toNat

def letter (n : Nat) : Char := character (symbol n)

theorem alphabet_eq : alphabet = (List.range 64).map letter := by
  decide +kernel

theorem letter_mem {n : Nat} (small : n < 64) : letter n ∈ alphabet := by
  rw [alphabet_eq]
  exact List.mem_map_of_mem (List.mem_range.2 small)

theorem exists_letter_of_mem {c : Char} (member : c ∈ alphabet) :
    ∃ n < 64, letter n = c := by
  rw [alphabet_eq] at member
  obtain ⟨n, small, rfl⟩ := List.mem_map.1 member
  exact ⟨n, List.mem_range.1 small, rfl⟩

theorem idxOf_letter {n : Nat} (small : n < 64) :
    alphabet.idxOf (letter n) = n := by
  have all : ∀ n < 64, alphabet.idxOf (letter n) = n := by decide +kernel
  exact all n small

theorem letter_ne {n : Nat} (small : n < 64) : letter n ≠ '=' := by
  intro same
  have absent : '=' ∉ alphabet := by decide
  exact absent (same ▸ letter_mem small)

/-- Symbols and padding as characters. -/
def characters (ns : List Nat) (k : Nat) : List Char :=
  ns.map letter ++ List.replicate k '='

theorem map_character (ns : List Nat) (k : Nat) :
    (ns.map symbol ++ List.replicate k pad).map character = characters ns k := by
  rw [List.map_append, List.map_map, List.map_replicate]
  rfl

/-- A text without foreign characters has all its padding at the end. -/
theorem exists_characters {text : List Char} (known : ∀ c ∈ text, c ∈ alphabet ∨ c = '=')
    (behind : ∀ c, ['=', c] <:+: text → c = '=') :
    ∃ ns k, (∀ n ∈ ns, n < 64) ∧ text = characters ns k := by
  induction text with
  | nil => exact ⟨[], 0, by simp, rfl⟩
  | cons c rest ih =>
    obtain ⟨ns, k, small, rfl⟩ := ih (fun d member => known d (List.mem_cons_of_mem _ member))
      fun d within => behind d (within.trans (List.suffix_cons c _).isInfix)
    rcases known c (List.mem_cons_self ..) with symbol_ | rfl
    · obtain ⟨n, here, rfl⟩ := exists_letter_of_mem symbol_
      refine ⟨n :: ns, k, ?_, rfl⟩
      simp only [List.forall_mem_cons]
      exact ⟨here, small⟩
    · -- No symbol stands behind this padding.
      cases ns with
      | nil => exact ⟨[], k + 1, by simp, rfl⟩
      | cons n ns =>
        have first := behind (letter n) ⟨[], _, rfl⟩
        exact absurd first (letter_ne (small n (List.mem_cons_self ..)))

theorem fits_of_not_flawed {ns : List Nat} {k : Nat} (small : ∀ n ∈ ns, n < 64)
    (sound : ¬ Flawed (characters ns k)) : Fits ns k := by
  have length : (characters ns k).length = ns.length + k := by simp [characters]
  -- The last symbol and the padding end the text.
  have ends {n : Nat} (last : n ∈ ns.getLast?) :
      letter n :: List.replicate k '=' <:+ characters ns k := by
    obtain ⟨front, rfl⟩ := List.getLast?_eq_some_iff.1 last
    refine ⟨front.map letter, ?_⟩
    simp [characters]
  have value {n : Nat} (last : n ∈ ns.getLast?) : alphabet.idxOf (letter n) = n :=
    idxOf_letter (small n (List.mem_of_getLast? last))
  refine ⟨small, ?full, ?atMostTwo, ?fourBits, ?twoBits⟩
  case full =>
    rw [← length]
    exact Decidable.byContradiction fun uneven => sound (.uneven uneven)
  case atMostTwo =>
    refine Nat.le_of_not_lt fun more => sound (.excess ?_)
    refine ⟨ns.map letter ++ List.replicate (k - 3) '=', ?_⟩
    have split : List.replicate k '=' = List.replicate (k - 3) '=' ++ ['=', '=', '='] := by
      show _ = List.replicate (k - 3) '=' ++ List.replicate 3 '='
      rw [List.replicate_append_replicate]
      congr 1
      omega
    rw [characters, split, List.append_assoc]
  case fourBits =>
    rintro rfl n last
    refine Decidable.byContradiction fun bits => sound (.fourBits _ (ends last) ?_)
    rwa [value last]
  case twoBits =>
    rintro rfl n last
    refine Decidable.byContradiction fun bits => sound (.twoBits _ (ends last) ?_)
    rwa [value last]

theorem exists_getLast?_of_append {α β : Type} {f : α → β} {xs : List α} {front : List β} {y : β}
    (whole : front ++ [y] = xs.map f) : ∃ x ∈ xs.getLast?, f x = y := by
  have last : (xs.map f).getLast? = some y := by rw [← whole, List.getLast?_concat]
  rw [List.getLast?_map, Option.map_eq_some_iff] at last
  exact last

theorem Fits.not_flawed {ns : List Nat} {k : Nat} (fits : Fits ns k) :
    ¬ Flawed (characters ns k) := by
  have small := fits.small
  have atMostTwo := fits.atMostTwo
  have symbols : ∀ c ∈ ns.map letter, c ∈ alphabet ∧ c ≠ '=' := by
    intro c member
    obtain ⟨n, here, rfl⟩ := List.mem_map.1 member
    exact ⟨letter_mem (small n here), letter_ne (small n here)⟩
  have count : (characters ns k).count '=' = k := by
    have none : '=' ∉ ns.map letter := fun member =>
      (symbols _ member).2 rfl
    rw [characters, List.count_append, List.count_eq_zero.2 none, List.count_replicate_self,
      Nat.zero_add]
  intro flawed
  cases flawed with
  | uneven length =>
    apply length
    simpa [characters] using fits.full
  | foreign c member unknown other =>
    rcases List.mem_append.1 member with here | padding
    · exact unknown (symbols c here).1
    · exact other (List.eq_of_mem_replicate padding)
  | inside c within symbol_ =>
    -- Of two characters in their order, the second is padding if the first one is.
    have ordered : (characters ns k).Pairwise fun a b => a = '=' → b = '=' := by
      refine List.pairwise_append.2 ⟨?_, ?_, ?_⟩
      · exact List.pairwise_of_forall_mem_list fun a here b _ same =>
          absurd same (symbols a here).2
      · exact List.pairwise_of_forall_mem_list fun a _ b there _ => List.eq_of_mem_replicate there
      · exact fun a here b _ same => absurd same (symbols a here).2
    have both := ordered.sublist within.sublist
    exact symbol_ (List.rel_of_pairwise_cons both (List.mem_singleton_self c) rfl)
  | excess ends =>
    have three := ends.sublist.count_le '='
    rw [count] at three
    exact absurd (Nat.le_trans three atMostTwo) (by decide)
  | fourBits c ends bits =>
    have two := ends.sublist.count_le '='
    rw [count] at two
    have atLeastTwo : 2 ≤ k := Nat.le_trans (by simp [List.count_cons]) two
    obtain rfl : k = 2 := Nat.le_antisymm atMostTwo atLeastTwo
    obtain ⟨front, whole⟩ := ends
    have same : (front ++ [c]) ++ ['=', '='] =
        ns.map letter ++ ['=', '='] := by
      simpa [characters] using whole
    obtain ⟨n, there, rfl⟩ := exists_getLast?_of_append (List.append_cancel_right same)
    rw [idxOf_letter (small n (List.mem_of_getLast? there))] at bits
    exact bits (fits.fourBits rfl n there)
  | twoBits c ends bits =>
    have one := ends.sublist.count_le '='
    rw [count] at one
    have atLeastOne : 1 ≤ k := Nat.le_trans (by simp [List.count_cons]) one
    obtain ⟨front, whole⟩ := ends
    obtain rfl | rfl : k = 1 ∨ k = 2 := by omega
    · have same : (front ++ [c]) ++ ['='] = ns.map letter ++ ['='] := by
        simpa [characters] using whole
      obtain ⟨n, there, rfl⟩ := exists_getLast?_of_append (List.append_cancel_right same)
      rw [idxOf_letter (small n (List.mem_of_getLast? there))] at bits
      exact bits (fits.twoBits rfl n there)
    · -- What stands in front of the last padding is padding, too.
      have same : (front ++ [c]) ++ ['='] =
          (ns.map letter ++ ['=']) ++ ['='] := by
        simpa [characters, List.replicate] using whole
      have last := List.append_cancel_right same
      obtain rfl : c = '=' := by simpa using (List.append_inj' last rfl).2
      exact bits (by decide)

/-- A text is that of some octets exactly if it has no flaw. -/
theorem not_flawed_iff {text : List Char} :
    ¬ Flawed text ↔ ∃ bs, text = (encode bs).map character := by
  constructor
  · intro sound
    obtain ⟨ns, k, small, rfl⟩ := exists_characters
      (fun c member => Decidable.byContradiction fun foreign =>
        sound (.foreign c member (fun known => foreign (.inl known)) fun padding =>
          foreign (.inr padding)))
      fun c within => Decidable.byContradiction fun symbol_ => sound (.inside c within symbol_)
    obtain ⟨bs, written⟩ := (fits_of_not_flawed small sound).exists_encode
    exact ⟨bs, by rw [written, map_character]⟩
  · rintro ⟨bs, rfl⟩
    obtain ⟨ns, k, fits, written⟩ := exists_fits bs
    rw [written, map_character]
    exact fits.not_flawed

/-- Line breaks are not passed over, and the two symbols of the URL alphabet are foreign. -/
example : Flawed ['Q', 'Q', '\n', '='] ∧ Flawed ['-', '_', '-', '_'] :=
  ⟨.foreign '\n' (by decide) (by decide) (by decide),
    .foreign '_' (by decide) (by decide) (by decide)⟩

end PeekLock.Base64
