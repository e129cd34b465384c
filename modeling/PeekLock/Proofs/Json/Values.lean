import Mathlib.Data.List.Forall2
import PeekLock.Proofs.Json.Members
import PeekLock.Proofs.Json.Numerals

/-! # Values come back from their text

A value is read back from the text that is written for it, if its integers have 64 bits, the
keys of its objects stand in order, each once, and it is not nested too deeply
(`Json.Fits`).  The induction is over the value, and goes through because a value is read
up to its end whatever ends it, be it a comma, a bracket or the end of the text
(`reads_chars`).  What is not obvious is that a text of a value never begins with what
could be taken for the end of the list that it stands in (`Opens`).
-/

namespace PeekLock.Json

/-- A value that can be told from its text: integers are of 64 bits, signed or unsigned, keys
    stand in order, and arrays and objects are nested so many levels at most. -/
inductive Fits : Nat → Json → Prop where
  | null {depth : Nat} : Fits depth .null
  | bool {depth : Nat} (b : Bool) : Fits depth (.bool b)
  | integer {depth : Nat} {n : Int} (low : minSigned64 ≤ n) (high : n ≤ maxUnsigned64) :
      Fits depth (.integer n)
  | text {depth : Nat} (s : String) : Fits depth (.text s)
  | array {depth : Nat} {items : List Json} (items_fit : ∀ item ∈ items, Fits depth item) :
      Fits (depth + 1) (.array items)
  | object {depth : Nat} {members : List (String × Json)} (ascend : KeysAscend members)
      (members_fit : ∀ m ∈ members, Fits depth m.2) : Fits (depth + 1) (.object members)

/-! ## Reading one value -/

/-- What a value begins with: no blank, no comma and no closing bracket. -/
def Opens (bs : Octets) : Prop :=
  ∃ b rest, bs = b :: rest ∧ isBlank b = false ∧ b ≠ 0x2C ∧ b ≠ 0x5D

theorem Opens.append {bs : Octets} (opens : Opens bs) (rest : Octets) : Opens (bs ++ rest) := by
  obtain ⟨b, behind, rfl, first⟩ := opens
  exact ⟨b, behind ++ rest, rfl, first⟩

/-- A value is read from a piece of text, whatever ends it.  What ends any value is what ends a
    number, which has no end of its own. -/
structure Reads {α : Type} (reader : Reader α) (piece : List Char) (v : α) : Prop where
  opens : Opens (Utf8.encodeChars piece)
  reads : ∀ rest, EndsNumber rest → reader (Utf8.encodeChars piece ++ rest) = .ok (v, rest)

theorem endsNumber_nil : EndsNumber [] := by
  intro b first
  exact absurd first (by simp)

theorem endsNumber_comma (rest : Octets) : EndsNumber (0x2C :: rest) := by
  intro b first
  obtain rfl := Option.some.inj first
  decide

/-- What ends a member ends a number. -/
theorem endsNumber_of_endsMember {rest : Octets} (ends : EndsMember rest) : EndsNumber rest := by
  obtain ⟨behind, rfl | rfl⟩ := ends
  · exact endsNumber_comma behind
  · intro b first
    obtain rfl := Option.some.inj first
    decide

/-! ## Arrays -/

section Arrays

variable {α : Type} {item : Reader α} {seen : List α} {pieces : List (List Char)} {vs : List α}

theorem nextItem_first {bs : Octets} (opens : Opens bs) : nextItem true bs = .ok (some bs) := by
  obtain ⟨b, rest, rfl, dark, comma, bracket⟩ := opens
  simp [nextItem, skipBlanks_cons dark, bracket]

theorem nextItem_comma {bs : Octets} (opens : Opens bs) :
    nextItem false (0x2C :: bs) = .ok (some bs) := by
  obtain ⟨b, rest, rfl, dark, comma, bracket⟩ := opens
  have blank : skipBlanks (0x2C :: b :: rest) = 0x2C :: b :: rest := rfl
  simp [nextItem, blank, skipBlanks_cons dark, bracket]

theorem itemsFrom_of_nextItem {first : Bool} {rounds : Nat} {bs bs' rest : Octets} {v : α}
    (next : nextItem first bs = .ok (some bs')) (reads : item bs' = .ok (v, rest)) :
    itemsFrom item seen first (rounds + 1) bs =
      itemsFrom item (v :: seen) false rounds rest := by
  simp only [itemsFrom, next, bind, Except.bind, reads]

theorem endsNumber_tail (pieces : List (List Char)) (rest : Octets) :
    EndsNumber (Utf8.encodeChars (pieces.flatMap ([','] ++ ·)) ++ 0x5D :: rest) := by
  have comma : String.utf8EncodeChar ',' = [0x2C] := by decide
  cases pieces with
  | nil =>
    intro b first
    obtain rfl := Option.some.inj first
    decide
  | cons piece pieces =>
    have octets : Utf8.encodeChars ((piece :: pieces).flatMap ([','] ++ ·)) ++ 0x5D :: rest =
        0x2C :: (Utf8.encodeChars (piece ++ pieces.flatMap ([','] ++ ·)) ++ 0x5D :: rest) := by
      simp [comma]
    rw [octets]
    exact endsNumber_comma _

/-- The items behind the first one. -/
theorem itemsFrom_tail (all : List.Forall₂ (Reads item) pieces vs) {rounds : Nat}
    (enough : pieces.length < rounds) (rest : Octets) :
    itemsFrom item seen false rounds
      (Utf8.encodeChars (pieces.flatMap ([','] ++ ·)) ++ 0x5D :: rest) =
        .ok (seen.reverse ++ vs, rest) := by
  have comma : String.utf8EncodeChar ',' = [0x2C] := by decide
  -- Each item takes a round and joins those that are seen, so both vary along the list.
  induction all generalizing seen rounds with
  | nil =>
    obtain ⟨rounds, rfl⟩ := Nat.exists_eq_succ_of_ne_zero (Nat.ne_of_gt enough)
    rw [List.append_nil]
    rfl
  | @cons piece v pieces vs first _ ih =>
    obtain ⟨rounds, rfl⟩ := Nat.exists_eq_succ_of_ne_zero (Nat.ne_of_gt (Nat.zero_lt_of_lt enough))
    have octets : Utf8.encodeChars ((piece :: pieces).flatMap ([','] ++ ·)) ++ 0x5D :: rest =
        0x2C :: (Utf8.encodeChars piece ++
          (Utf8.encodeChars (pieces.flatMap ([','] ++ ·)) ++ 0x5D :: rest)) := by
      simp [comma]
    -- The item ends where the comma of the next one stands, or the bracket.
    have reads := first.reads _ (endsNumber_tail pieces rest)
    rw [octets, itemsFrom_of_nextItem (nextItem_comma (first.opens.append _)) reads,
      ih (Nat.lt_of_succ_lt_succ enough)]
    simp

/-- All items with commas between them. -/
theorem itemsFrom_joined (all : List.Forall₂ (Reads item) pieces vs) {rounds : Nat}
    (enough : pieces.length < rounds) (rest : Octets) :
    itemsFrom item [] true rounds
      (Utf8.encodeChars (joinChars [','] pieces) ++ 0x5D :: rest) = .ok (vs, rest) := by
  obtain ⟨rounds, rfl⟩ := Nat.exists_eq_succ_of_ne_zero (Nat.ne_of_gt (Nat.zero_lt_of_lt enough))
  cases all with
  | nil => rfl
  | @cons piece v pieces vs first others =>
    rw [joinChars_cons, Utf8.encodeChars_append, List.append_assoc]
    have reads := first.reads _ (endsNumber_tail pieces rest)
    rw [itemsFrom_of_nextItem (nextItem_first (first.opens.append _)) reads,
      itemsFrom_tail others (Nat.lt_of_succ_lt_succ enough)]
    rfl

end Arrays

/-! ## Objects -/

/-- How a member of an object of any values is gathered. -/
def gather (depth : Nat) (entries : List (String × Json)) (key : String) :
    Reader (List (String × Json)) := fun bs => do
  let behind ← colon bs
  let value ← readValue depth behind.2
  return (Keyed.insert key value.1 entries, value.2)

/-- Members in the order of their keys are gathered as they stand. -/
theorem gathers_members {depth : Nat} {members : List (String × Json)}
    (seen : List (String × Json))
    (reads : ∀ m ∈ members, Reads (readValue depth) m.2.chars m.2)
    (ascend : KeysAscend (seen ++ members)) :
    Gathers (gather depth) seen (members.map fun m => (m.1, m.2.chars)) (seen ++ members) := by
  induction members generalizing seen with
  | nil =>
    rw [List.append_nil]
    exact .nil seen
  | cons m members ih =>
    -- A key that is above all that are seen goes behind them, where it stands in the list.
    have above : ∀ e ∈ seen, e.1 < m.1 := fun e member =>
      (List.pairwise_append.1 ascend).2.2 e member m (List.mem_cons_self ..)
    have split : seen ++ m :: members = (seen ++ [m]) ++ members := by simp
    rw [split] at ascend ⊢
    refine .cons (fun rest ends => ?_)
      (ih _ (fun m' member => reads m' (List.mem_cons_of_mem _ member)) ascend)
    have value := (reads m (List.mem_cons_self ..)).reads rest (endsNumber_of_endsMember ends)
    have colon : colon (0x3A :: (Utf8.encodeChars m.2.chars ++ rest)) =
        .ok ((), Utf8.encodeChars m.2.chars ++ rest) := rfl
    simp only [gather, colon, bind, Except.bind, value, Keyed.insert_of_forall_lt above]
    rfl

/-! ## Values

What the reader does once it has seen the first octet. -/

section

variable {depth : Nat} {bs rest : Octets}

theorem readValue_quote {s : String} (read : stringBody bs = .ok (s, rest)) :
    readValue depth (0x22 :: bs) = .ok (.text s, rest) := by
  rw [readValue, skipBlanks_cons (by decide)]
  simp only [read, bind, Except.bind]
  rfl

theorem readValue_digit {b : UInt8} {n : Int} (digit : isDigit b)
    (read : number false (b :: bs) = .ok (.integer n, rest)) :
    readValue depth (b :: bs) = .ok (.integer n, rest) := by
  have others : b ≠ 0x6E ∧ b ≠ 0x74 ∧ b ≠ 0x66 ∧ b ≠ 0x22 ∧ b ≠ 0x2D := by
    refine ⟨?_, ?_, ?_, ?_, ?_⟩ <;> rintro rfl <;> exact absurd digit (by decide)
  rw [readValue, skipBlanks_cons (isBlank_of_isDigit digit)]
  simp only [others, digit, ↓reduceIte, decide_false, or_true, read, bind, Except.bind]
  rfl

theorem readValue_minus {n : Int} (read : number true bs = .ok (.integer n, rest)) :
    readValue depth (0x2D :: bs) = .ok (.integer n, rest) := by
  rw [readValue, skipBlanks_cons (by decide)]
  simp [read, bind, Except.bind]
  rfl

theorem readValue_bracket {items : List Json}
    (read : itemsFrom (readValue depth) [] true (bs.length + 1) bs = .ok (items, rest)) :
    readValue (depth + 1) (0x5B :: bs) = .ok (.array items, rest) := by
  rw [readValue, skipBlanks_cons (by decide)]
  simp only [read, bind, Except.bind]
  rfl

theorem readValue_brace {members : List (String × Json)} {behind : Octets}
    (read : membersFrom (gather depth) [] true (bs.length + 1) bs = .ok (members, behind))
    (closes : closeObject behind = .ok ((), rest)) :
    readValue (depth + 1) (0x7B :: bs) = .ok (.object members, rest) := by
  have gathers : readValue (depth + 1) (0x7B :: bs) =
      membersFrom (gather depth) [] true (bs.length + 1) bs >>= fun r =>
        closeObject r.2 >>= fun closed => pure (.object r.1, closed.2) := by
    rw [readValue]
    rfl
  rw [gathers, read]
  simp only [bind, Except.bind, closes]
  rfl

end

theorem itemsChars_eq_map (items : List Json) : itemsChars items = items.map chars := by
  induction items with
  | nil => rfl
  | cons item rest ih => rw [itemsChars, ih, List.map_cons]

theorem membersChars_eq_map (members : List (String × Json)) :
    membersChars members = (members.map fun m => (m.1, m.2.chars)).map Written.chars := by
  induction members with
  | nil => rfl
  | cons m rest ih =>
    rw [membersChars, ih]
    rfl

/-- Numbers of 64 bits are read as they were. -/
theorem reads_integer {depth : Nat} {n : Int} (low : minSigned64 ≤ n) (high : n ≤ maxUnsigned64) :
    Reads (readValue depth) (integerChars n) (.integer n) := by
  cases n with
  | ofNat n =>
    obtain ⟨b, bs, octets, digit⟩ := encodeChars_digitChars n
    constructor
    case opens =>
      refine ⟨b, bs, octets, isBlank_of_isDigit digit, ?_, ?_⟩ <;> rintro rfl <;>
        exact absurd digit (by decide)
    case reads =>
      intro rest ends
      have read := number_digitChars (Int.ofNat_le.1 high) ends
      simp only [integerChars]
      rw [octets] at read ⊢
      exact readValue_digit digit read
  | negSucc n =>
    have minus : String.utf8EncodeChar '-' = [0x2D] := by decide
    have octets : Utf8.encodeChars (integerChars (.negSucc n)) =
        0x2D :: Utf8.encodeChars (digitChars (n + 1)) := by
      simp [integerChars, minus]
    constructor
    case opens => exact ⟨0x2D, _, octets, by decide, by decide, by decide⟩
    case reads =>
      intro rest ends
      have small : n + 1 ≤ maxSigned64 + 1 := by
        simp only [minSigned64] at low
        simp only [maxSigned64]
        omega
      rw [octets]
      exact readValue_minus (number_negative (Nat.succ_pos n) small ends)

theorem reads_array {depth : Nat} {items : List Json}
    (reads : ∀ item ∈ items, Reads (readValue depth) item.chars item) :
    Reads (readValue (depth + 1)) (chars (.array items)) (.array items) := by
  have opening : String.utf8EncodeChar '[' = [0x5B] := by decide
  have closing : String.utf8EncodeChar ']' = [0x5D] := by decide
  have octets (rest : Octets) : Utf8.encodeChars (chars (.array items)) ++ rest =
      0x5B :: (Utf8.encodeChars (joinChars [','] (items.map chars)) ++ 0x5D :: rest) := by
    simp [chars, itemsChars_eq_map, opening, closing]
  constructor
  case opens =>
    exact ⟨0x5B, _, (List.append_nil _).symm.trans (octets []), by decide, by decide, by decide⟩
  case reads =>
    intro rest _
    have all : List.Forall₂ (Reads (readValue depth)) (items.map chars) items :=
      List.forall₂_map_left_iff.2 (List.forall₂_same.2 reads)
    -- The reader has a round for each octet, and every item is followed by a comma or the bracket.
    have pieces := length_le_joinChars (items.map chars)
    rw [octets]
    refine readValue_bracket (itemsFrom_joined all ?_ rest)
    rw [List.length_append, List.length_cons]
    omega

theorem reads_object {depth : Nat} {members : List (String × Json)} (ascend : KeysAscend members)
    (reads : ∀ m ∈ members, Reads (readValue depth) m.2.chars m.2) :
    Reads (readValue (depth + 1)) (chars (.object members)) (.object members) := by
  have opening : String.utf8EncodeChar '\x7b' = [0x7B] := by decide
  have closing : String.utf8EncodeChar '\x7d' = [0x7D] := by decide
  have octets (rest : Octets) : Utf8.encodeChars (chars (.object members)) ++ rest =
      0x7B :: (Utf8.encodeChars (joinChars [',']
        ((members.map fun m => (m.1, m.2.chars)).map Written.chars)) ++ 0x7D :: rest) := by
    simp only [chars, membersChars_eq_map]
    simp [opening, closing]
  constructor
  case opens =>
    exact ⟨0x7B, _, (List.append_nil _).symm.trans (octets []), by decide, by decide, by decide⟩
  case reads =>
    intro rest _
    have gathers := gathers_members [] reads ascend
    have pieces := length_le_joinChars
      ((members.map fun m => (m.1, m.2.chars)).map Written.chars)
    rw [octets]
    refine readValue_brace (membersFrom_joined gathers ?_ rest) rfl
    rw [List.length_map] at pieces
    rw [List.length_append, List.length_cons]
    omega

/-- A value is read back from its text, whatever ends it. -/
theorem reads_chars {depth : Nat} {v : Json} (fits : v.Fits depth) :
    Reads (readValue depth) v.chars v := by
  induction fits with
  | null =>
    refine ⟨⟨0x6E, _, rfl, by decide, by decide, by decide⟩, fun rest _ => ?_⟩
    rw [readValue]
    rfl
  | bool b =>
    cases b with
    | true =>
      refine ⟨⟨0x74, _, rfl, by decide, by decide, by decide⟩, fun rest _ => ?_⟩
      rw [readValue]
      rfl
    | false =>
      refine ⟨⟨0x66, _, rfl, by decide, by decide, by decide⟩, fun rest _ => ?_⟩
      rw [readValue]
      rfl
  | integer low high => exact reads_integer low high
  | text s =>
    have octets (rest : Octets) : Utf8.encodeChars (chars (.text s)) ++ rest =
        0x22 :: (Utf8.encodeChars (s.toList.flatMap escape) ++ 0x22 :: rest) :=
      encodeChars_quoteChars s rest
    constructor
    case opens =>
      exact ⟨0x22, _, (List.append_nil _).symm.trans (octets []), by decide, by decide, by decide⟩
    case reads =>
      intro rest _
      rw [octets]
      exact readValue_quote (stringBody_quoted s rest)
  | array _ ih => exact reads_array ih
  | object ascend _ ih => exact reads_object ascend ih

/-- The whole text of a value is read as the value. -/
theorem run_readValue {depth : Nat} {v : Json} (fits : v.Fits depth) :
    Reader.run (readValue depth) v.octets = .ok v := by
  have read := (reads_chars fits).reads [] endsNumber_nil
  rw [List.append_nil] at read
  simp only [Reader.run, octets, read, bind, Except.bind]
  rfl

theorem octets_ne_nil {depth : Nat} {v : Json} (fits : v.Fits depth) : v.octets ≠ [] := by
  obtain ⟨b, rest, octets, _⟩ := (reads_chars fits).opens
  rw [Json.octets, octets]
  exact List.cons_ne_nil _ _

end PeekLock.Json
