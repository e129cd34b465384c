import PeekLock.Text.Base64

/-! # Octets come back from base64

Whatever is written in base64 is read back (`decode_encode`), however many octets there are.
The reader treats the last group of symbols by itself, so the induction goes by groups and
ends in one of three of them: one octet, two octets, or three with nothing behind.
-/

namespace PeekLock.Base64

/-! ## Symbols -/

theorem sextet?_symbol {n : Nat} (small : n < 64) : sextet? (symbol n) = some n := by
  have all : ∀ n < 64, sextet? (symbol n) = some n := by decide
  exact all n small

theorem symbol_ne_pad {n : Nat} (small : n < 64) : symbol n ≠ pad := by
  intro same
  have absent : sextet? pad = none := by decide
  rw [← same, sextet?_symbol small] at absent
  simp at absent

/-- Every symbol is an octet of ASCII. -/
theorem symbol_lt (n : Nat) : symbol n < 0x80 := by
  have all : ∀ n < 64, symbol n < 0x80 := by decide
  by_cases small : n < 64
  · exact all n small
  · have last : symbol n = 0x2F := by
      simp only [symbol]
      repeat' rw [if_neg (by omega)]
    rw [last]
    decide

/-! ## Groups -/

section Groups

variable {a b c d : Nat} (offset : Nat)

theorem scan_symbol {i n : Nat} (small : n < 64) {tail : Tail} (unpadded : tail.padding = 0)
    (rest : Octets) :
    Tail.scan offset i tail (symbol n :: rest) =
      Tail.scan offset (i + 1) { tail with symbols := tail.symbols ++ [(symbol n, n)] } rest := by
  simp [Tail.scan, symbol_ne_pad small, unpadded, sextet?_symbol small]

theorem decodeQuad_symbols (ha : a < 64) (hb : b < 64) (hc : c < 64) (hd : d < 64) :
    decodeQuad offset (symbol a) (symbol b) (symbol c) (symbol d) =
      .ok [UInt8.ofNat (a * 4 + b / 16), UInt8.ofNat (b % 16 * 16 + c / 4),
        UInt8.ofNat (c % 4 * 64 + d)] := by
  simp only [decodeQuad, sextetAt, sextet?_symbol, ha, hb, hc, hd]
  rfl

theorem decodeFrom_two (ha : a < 64) (hb : b < 64) (unused : b % 16 = 0) :
    decodeFrom offset [symbol a, symbol b, pad, pad] = .ok [UInt8.ofNat (a * 4 + b / 16)] := by
  simp only [decodeFrom, scan_symbol, ha, hb]
  simp [Tail.scan, Tail.octets, unused, bind, Except.bind]

theorem decodeFrom_three (ha : a < 64) (hb : b < 64) (hc : c < 64) (unused : c % 4 = 0) :
    decodeFrom offset [symbol a, symbol b, symbol c, pad] =
      .ok [UInt8.ofNat (a * 4 + b / 16), UInt8.ofNat (b % 16 * 16 + c / 4)] := by
  simp only [decodeFrom, scan_symbol, ha, hb, hc]
  simp [Tail.scan, Tail.octets, unused, bind, Except.bind]

theorem decodeFrom_four (ha : a < 64) (hb : b < 64) (hc : c < 64) (hd : d < 64) :
    decodeFrom offset [symbol a, symbol b, symbol c, symbol d] =
      .ok [UInt8.ofNat (a * 4 + b / 16), UInt8.ofNat (b % 16 * 16 + c / 4),
        UInt8.ofNat (c % 4 * 64 + d)] := by
  simp only [decodeFrom, scan_symbol, ha, hb, hc, hd]
  simp [Tail.scan, Tail.octets, bind, Except.bind]

end Groups

/-- An octet is put together of its bits. -/
theorem ofNat_eq {a : UInt8} {n : Nat} (value : a.toNat = n) : UInt8.ofNat n = a := by
  rw [← value]
  exact UInt8.ofNat_toNat

/-! ## Texts -/

theorem length_encode (bs : Octets) : (encode bs).length = (bs.length + 2) / 3 * 4 := by
  fun_induction encode bs with
  | case1 | case2 | case3 => simp
  | case4 a b c rest ih =>
    simp only [encodeTriple, List.length_append, List.length_cons, List.length_nil, ih]
    omega

theorem lt_of_mem_encode {bs : Octets} {b : UInt8} (member : b ∈ encode bs) : b < 0x80 := by
  have padding : pad < 0x80 := by decide
  fun_induction encode bs with
  | case1 => simp at member
  | case2 | case3 =>
    simp only [List.mem_cons, List.not_mem_nil, or_false] at member
    rcases member with rfl | rfl | rfl | rfl <;> first | exact symbol_lt _ | exact padding
  | case4 a b c rest ih =>
    simp only [encodeTriple, List.mem_append, List.mem_cons, List.not_mem_nil, or_false] at member
    rcases member with (rfl | rfl | rfl | rfl) | later
    · exact symbol_lt _
    · exact symbol_lt _
    · exact symbol_lt _
    · exact symbol_lt _
    · exact ih later

theorem decodeFrom_encode (bs : Octets) (offset : Nat) : decodeFrom offset (encode bs) = .ok bs := by
  fun_induction encode bs generalizing offset with
  | case1 => rfl
  | case2 a =>
    have := a.toNat_lt
    rw [decodeFrom_two offset (by omega) (by omega) (by omega), ofNat_eq (a := a) (by omega)]
  | case3 a b =>
    have := a.toNat_lt
    have := b.toNat_lt
    rw [decodeFrom_three offset (by omega) (by omega) (by omega) (by omega),
      ofNat_eq (a := a) (by omega), ofNat_eq (a := b) (by omega)]
  | case4 a b c rest ih =>
    have := a.toNat_lt
    have := b.toNat_lt
    have := c.toNat_lt
    have octets : [UInt8.ofNat (a.toNat / 4 * 4 + (a.toNat % 4 * 16 + b.toNat / 16) / 16),
        UInt8.ofNat ((a.toNat % 4 * 16 + b.toNat / 16) % 16 * 16 +
          (b.toNat % 16 * 4 + c.toNat / 64) / 4),
        UInt8.ofNat ((b.toNat % 16 * 4 + c.toNat / 64) % 4 * 64 + c.toNat % 64)] = [a, b, c] := by
      rw [ofNat_eq (a := a) (by omega), ofNat_eq (a := b) (by omega), ofNat_eq (a := c) (by omega)]
    have later := ih (offset + 4)
    simp only [encodeTriple, List.cons_append, List.nil_append]
    -- What is behind decides whether this is the last group.
    cases behind : encode rest with
    | nil =>
      rw [behind] at later
      obtain rfl : [] = rest := by simpa [decodeFrom] using later
      rw [decodeFrom_four offset (by omega) (by omega) (by omega) (by omega), octets]
    | cons e es =>
      rw [behind] at later
      rw [decodeFrom, decodeQuad_symbols offset (by omega) (by omega) (by omega) (by omega), later,
        octets]
      rfl

/-- What is written in base64 is read back. -/
theorem decode_encode (bs : Octets) : decode (encode bs) = .ok bs := by
  have length := length_encode bs
  have read := decodeFrom_encode bs 0
  simp only [decode]
  split
  · rw [if_neg (fun bad => by omega), read]
  · rename_i empty
    rw [List.getLast?_eq_none_iff.1 empty] at read
    exact read

end PeekLock.Base64
