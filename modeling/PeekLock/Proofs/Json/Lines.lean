import PeekLock.Proofs.Json.Values
import PeekLock.Settings.Render

/-! # Objects with one member a line

An object may be written over several lines, with blanks in front of its keys and of its values.
The reader passes over them, and gathers the members in the order of their keys, in
whatever order the lines stand (`parse_lines`).
-/

namespace PeekLock.Json

/-- An object with one member a line. -/
def lines (members : List (String × Json)) : List Char :=
  ['\x7b', '\n'] ++
    joinChars [',', '\n'] (members.map fun m => Settings.jsonLine m.1 m.2) ++ ['\n', '\x7d']

section

variable {depth rounds : Nat} {entries members : List (String × Json)} {key : String} {v : Json}

theorem readValue_blank (depth : Nat) (bs : Octets) :
    readValue depth (0x20 :: bs) = readValue depth bs := by
  have passed : skipBlanks (0x20 :: bs) = skipBlanks bs := rfl
  rw [readValue, passed, readValue]

/-- A line is a member with blanks in front of its key and of its value. -/
theorem encodeChars_jsonLine (key : String) (v : Json) (rest : Octets) :
    Utf8.encodeChars (Settings.jsonLine key v) ++ rest =
      0x20 :: 0x20 :: 0x22 :: (Utf8.encodeChars (key.toList.flatMap escape) ++
        0x22 :: 0x3A :: (Utf8.encodeChars (' ' :: v.chars) ++ rest)) := by
  have blank : String.utf8EncodeChar ' ' = [0x20] := by decide
  have line : Settings.jsonLine key v = ' ' :: ' ' :: Written.chars (key, ' ' :: v.chars) := by
    simp [Settings.jsonLine, Written.chars]
  rw [line, ← encodeChars_written]
  simp [blank]

theorem gather_blank (reads : Reads (readValue depth) v.chars v) {rest : Octets}
    (ends : EndsNumber rest) :
    gather depth entries key (0x3A :: (Utf8.encodeChars (' ' :: v.chars) ++ rest)) =
      .ok (Keyed.insert key v entries, rest) := by
  have blank : String.utf8EncodeChar ' ' = [0x20] := by decide
  have colon : colon (0x3A :: 0x20 :: (Utf8.encodeChars v.chars ++ rest)) =
      .ok ((), 0x20 :: (Utf8.encodeChars v.chars ++ rest)) := rfl
  have octets : Utf8.encodeChars (' ' :: v.chars) ++ rest =
      0x20 :: (Utf8.encodeChars v.chars ++ rest) := by simp [blank]
  simp only [octets, gather, colon, bind, Except.bind, readValue_blank, reads.reads rest ends]
  rfl

/-- A comma and a line break in front of each line. -/
def furtherLines (members : List (String × Json)) : List Char :=
  members.flatMap fun m => [',', '\n'] ++ Settings.jsonLine m.1 m.2

theorem encodeChars_furtherLines (m : String × Json) (members : List (String × Json))
    (rest : Octets) :
    Utf8.encodeChars (furtherLines (m :: members)) ++ rest =
      0x2C :: 0x0A :: (Utf8.encodeChars (Settings.jsonLine m.1 m.2) ++
        (Utf8.encodeChars (furtherLines members) ++ rest)) := by
  have comma : String.utf8EncodeChar ',' = [0x2C] := by decide
  have newline : String.utf8EncodeChar '\n' = [0x0A] := by decide
  simp [furtherLines, comma, newline]

/-- A value ends where the next line begins, or at the line of the closing brace. -/
theorem endsNumber_furtherLines (members : List (String × Json)) (rest : Octets) :
    EndsNumber (Utf8.encodeChars (furtherLines members) ++ 0x0A :: rest) := by
  cases members with
  | nil =>
    intro b first
    obtain rfl := Option.some.inj first
    decide
  | cons m members =>
    rw [encodeChars_furtherLines]
    exact endsNumber_comma _

/-- One line is read, whatever blanks stand in front of it. -/
theorem membersFrom_line {first : Bool} {bs rest : Octets}
    (next : nextKey first bs = .ok (some (Utf8.encodeChars (key.toList.flatMap escape) ++
      0x22 :: 0x3A :: (Utf8.encodeChars (' ' :: v.chars) ++ rest))))
    (reads : Reads (readValue depth) v.chars v) (ends : EndsNumber rest) :
    membersFrom (gather depth) entries first (rounds + 1) bs =
      membersFrom (gather depth) (Keyed.insert key v entries) false rounds rest :=
  membersFrom_of_nextKey next (gather_blank reads ends)

/-- The lines behind the first one. -/
theorem membersFrom_furtherLines (reads : ∀ m ∈ members, Reads (readValue depth) m.2.chars m.2)
    (enough : members.length < rounds) (rest : Octets) :
    membersFrom (gather depth) entries false rounds
      (Utf8.encodeChars (furtherLines members) ++ 0x0A :: 0x7D :: rest) =
      .ok (members.foldl (fun all m => Keyed.insert m.1 m.2 all) entries,
        0x0A :: 0x7D :: rest) := by
  induction members generalizing entries rounds with
  | nil =>
    obtain ⟨rounds, rfl⟩ := Nat.exists_eq_succ_of_ne_zero (Nat.ne_of_gt enough)
    rfl
  | cons m members ih =>
    obtain ⟨rounds, rfl⟩ := Nat.exists_eq_succ_of_ne_zero (Nat.ne_of_gt (Nat.zero_lt_of_lt enough))
    rw [encodeChars_furtherLines, encodeChars_jsonLine,
      membersFrom_line rfl (reads m (List.mem_cons_self ..)) (endsNumber_furtherLines members _),
      ih (fun m' member => reads m' (List.mem_cons_of_mem _ member))
        (Nat.lt_of_succ_lt_succ enough), List.foldl_cons]

/-- All lines, of which there is one at least, up to the line of the closing brace. -/
theorem membersFrom_lines (m : String × Json)
    (reads : ∀ m' ∈ m :: members, Reads (readValue depth) m'.2.chars m'.2)
    (enough : members.length < rounds) (rest : Octets) :
    membersFrom (gather depth) [] true (rounds + 1)
      (0x0A :: (Utf8.encodeChars (Settings.jsonLine m.1 m.2 ++ furtherLines members) ++
        0x0A :: 0x7D :: rest)) =
      .ok (Keyed.ofList (m :: members), 0x0A :: 0x7D :: rest) := by
  rw [Utf8.encodeChars_append, List.append_assoc, encodeChars_jsonLine,
    membersFrom_line rfl (reads m (List.mem_cons_self ..)) (endsNumber_furtherLines members _),
    membersFrom_furtherLines (fun m' member => reads m' (List.mem_cons_of_mem _ member)) enough]
  rfl

end

/-- Every further line takes an octet at least. -/
theorem length_le_furtherLines (members : List (String × Json)) :
    members.length ≤ (Utf8.encodeChars (furtherLines members)).length := by
  induction members with
  | nil => exact Nat.zero_le _
  | cons m members ih =>
    have octets := encodeChars_furtherLines m members []
    rw [List.append_nil, List.append_nil] at octets
    rw [octets, List.length_cons, List.length_cons, List.length_cons, List.length_append]
    omega

/-- An object that is written over several lines is read with its members in the order of their
    keys. -/
theorem parse_lines (m : String × Json) {members : List (String × Json)}
    (fits : ∀ m' ∈ m :: members, m'.2.Fits 126) :
    parse (String.ofList (lines (m :: members))) = .ok (.object (Keyed.ofList (m :: members))) := by
  have brace : String.utf8EncodeChar '\x7b' = [0x7B] := by decide
  have closing : String.utf8EncodeChar '\x7d' = [0x7D] := by decide
  have newline : String.utf8EncodeChar '\n' = [0x0A] := by decide
  have joined : joinChars [',', '\n'] ((m :: members).map fun m => Settings.jsonLine m.1 m.2) =
      Settings.jsonLine m.1 m.2 ++ furtherLines members := by
    rw [List.map_cons, joinChars_cons, List.flatMap_map]
    rfl
  have octets : Utf8.encode (String.ofList (lines (m :: members))) =
      0x7B :: 0x0A :: (Utf8.encodeChars (Settings.jsonLine m.1 m.2 ++ furtherLines members) ++
        [0x0A, 0x7D]) := by
    rw [Utf8.encode, String.toList_ofList, lines, joined]
    simp [brace, closing, newline]
  have enough : members.length < (0x0A :: (Utf8.encodeChars
      (Settings.jsonLine m.1 m.2 ++ furtherLines members) ++ [0x0A, 0x7D])).length := by
    have further := length_le_furtherLines members
    rw [List.length_cons, List.length_append, Utf8.encodeChars_append, List.length_append]
    omega
  have read := membersFrom_lines m (fun m' member => reads_chars (fits m' member)) enough []
  have closes : closeObject [0x0A, 0x7D] = .ok ((), []) := rfl
  have value := readValue_brace read closes
  simp only [parse, Reader.run, octets, maxDepth, value, bind, Except.bind]
  rfl

end PeekLock.Json
