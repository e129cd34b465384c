import PeekLock.Json.Record
import PeekLock.Proofs.Json.Quoted

/-! # Objects come back member by member

An object is written as its members with commas between them, and read by a reader that
gathers one member after the other into a state.  If each member, whatever ends it, takes
the state one step further, then the whole object takes it all the way
(`membersFrom_joined`), and for a record what comes out is put together from the last
state (`Record.read_written`).
-/

namespace PeekLock.Json

/-! ## Texts -/

/-- A text in quotes, as octets. -/
theorem encodeChars_quoteChars (s : String) (rest : Octets) :
    Utf8.encodeChars (quoteChars s) ++ rest =
      0x22 :: (Utf8.encodeChars (s.toList.flatMap escape) ++ 0x22 :: rest) := by
  have quote : String.utf8EncodeChar '"' = [0x22] := by decide
  simp [quoteChars, quote]

theorem readText_quoteChars (s : String) (rest : Octets) :
    readText (Utf8.encodeChars (quoteChars s) ++ rest) = .ok (s, rest) := by
  rw [encodeChars_quoteChars, readText]
  exact stringBody_quoted s rest

theorem encode_render (v : Json) : Utf8.encode v.render = v.octets := by
  rw [Utf8.encode, render, String.toList_ofList, Json.octets]

/-! ## Members -/

/-- A member of an object as it is written: its key and the text of its value. -/
abbrev Written := String × List Char

/-- What stands behind a member: a comma or the closing brace. -/
def EndsMember (rest : Octets) : Prop :=
  ∃ behind, rest = 0x2C :: behind ∨ rest = 0x7D :: behind

def Written.chars (m : Written) : List Char :=
  quoteChars m.1 ++ ':' :: m.2

theorem joinChars_cons (separator piece : List Char) (pieces : List (List Char)) :
    joinChars separator (piece :: pieces) = piece ++ pieces.flatMap (separator ++ ·) := by
  induction pieces generalizing piece with
  | nil => simp [joinChars]
  | cons next pieces ih =>
    rw [joinChars, ih, List.flatMap_cons, List.append_assoc, List.append_assoc]
    exact List.cons_ne_nil _ _

/-- Every piece takes an octet at least, but perhaps the first one. -/
theorem length_le_joinChars (pieces : List (List Char)) :
    pieces.length ≤ (Utf8.encodeChars (joinChars [','] pieces)).length + 1 := by
  have comma : String.utf8EncodeChar ',' = [0x2C] := by decide
  cases pieces with
  | nil => exact Nat.zero_le _
  | cons piece pieces =>
    rw [joinChars_cons, Utf8.encodeChars_append, List.length_append, List.length_cons]
    have behind :
        pieces.length ≤ (Utf8.encodeChars (pieces.flatMap ([','] ++ ·))).length := by
      induction pieces with
      | nil => exact Nat.zero_le _
      | cons next pieces ih =>
        simp only [List.flatMap_cons, List.cons_append,
          Utf8.encodeChars_append, Utf8.encodeChars_cons, comma, List.length_append,
          List.length_cons] at ih ⊢
        omega
    omega

/-- Members that a reader gathers one after the other, from one state to another. -/
inductive Gathers {σ : Type} (member : σ → String → Reader σ) : σ → List Written → σ → Prop where
  | nil (s : σ) : Gathers member s [] s
  | cons {s s₁ s' : σ} {key : String} {value : List Char} {members : List Written} :
      (∀ rest, EndsMember rest →
        member s key (0x3A :: (Utf8.encodeChars value ++ rest)) = .ok (s₁, rest)) →
      Gathers member s₁ members s' → Gathers member s ((key, value) :: members) s'

section Objects

variable {σ : Type} {member : σ → String → Reader σ} {s s₁ s' : σ}

theorem encodeChars_written (key : String) (value : List Char) (rest : Octets) :
    Utf8.encodeChars (Written.chars (key, value)) ++ rest =
      0x22 :: (Utf8.encodeChars (key.toList.flatMap escape) ++
        0x22 :: 0x3A :: (Utf8.encodeChars value ++ rest)) := by
  have colon : String.utf8EncodeChar ':' = [0x3A] := by decide
  rw [Written.chars, Utf8.encodeChars_append, List.append_assoc, encodeChars_quoteChars,
    Utf8.encodeChars_cons, colon]
  rfl

/-- One member is read behind its opening quote. -/
theorem membersFrom_of_nextKey {first : Bool} {rounds : Nat} {bs rest : Octets} {key : String}
    {value : List Char}
    (next : nextKey first bs = .ok (some (Utf8.encodeChars (key.toList.flatMap escape) ++
      0x22 :: 0x3A :: (Utf8.encodeChars value ++ rest))))
    (reads : member s key (0x3A :: (Utf8.encodeChars value ++ rest)) = .ok (s₁, rest)) :
    membersFrom member s first (rounds + 1) bs = membersFrom member s₁ false rounds rest := by
  simp only [membersFrom, next, bind, Except.bind, stringBody_quoted, reads]

theorem endsMember_tail (members : List Written) (rest : Octets) :
    EndsMember (Utf8.encodeChars (members.flatMap (',' :: Written.chars ·)) ++ 0x7D :: rest) := by
  have comma : String.utf8EncodeChar ',' = [0x2C] := by decide
  cases members with
  | nil => exact ⟨rest, .inr rfl⟩
  | cons m members =>
    refine ⟨Utf8.encodeChars (m.chars ++ members.flatMap (',' :: Written.chars ·)) ++ 0x7D :: rest,
      .inl ?_⟩
    simp [comma]

/-- The members behind the first one. -/
theorem membersFrom_tail {members : List Written} (gathers : Gathers member s members s')
    {rounds : Nat} (enough : members.length < rounds) (rest : Octets) :
    membersFrom member s false rounds
      (Utf8.encodeChars (members.flatMap (',' :: Written.chars ·)) ++ 0x7D :: rest) =
        .ok (s', 0x7D :: rest) := by
  have comma : String.utf8EncodeChar ',' = [0x2C] := by decide
  induction gathers generalizing rounds with
  | nil s =>
    obtain ⟨rounds, rfl⟩ := Nat.exists_eq_succ_of_ne_zero (Nat.ne_of_gt enough)
    rfl
  | @cons s s₁ s' key value members reads _ ih =>
    obtain ⟨rounds, rfl⟩ := Nat.exists_eq_succ_of_ne_zero (Nat.ne_of_gt (Nat.zero_lt_of_lt enough))
    have behind := endsMember_tail members rest
    have octets : Utf8.encodeChars (((key, value) :: members).flatMap (',' :: Written.chars ·)) ++
        0x7D :: rest = 0x2C :: 0x22 :: (Utf8.encodeChars (key.toList.flatMap escape) ++
          0x22 :: 0x3A :: (Utf8.encodeChars value ++
            (Utf8.encodeChars (members.flatMap (',' :: Written.chars ·)) ++ 0x7D :: rest))) := by
      rw [← encodeChars_written]
      simp [comma]
    rw [octets, membersFrom_of_nextKey rfl (reads _ behind)]
    exact ih (Nat.lt_of_succ_lt_succ enough)

/-- All members with commas between them. -/
theorem membersFrom_joined {members : List Written} (gathers : Gathers member s members s')
    {rounds : Nat} (enough : members.length < rounds) (rest : Octets) :
    membersFrom member s true rounds
      (Utf8.encodeChars (joinChars [','] (members.map Written.chars)) ++ 0x7D :: rest) =
        .ok (s', 0x7D :: rest) := by
  obtain ⟨rounds, rfl⟩ := Nat.exists_eq_succ_of_ne_zero (Nat.ne_of_gt (Nat.zero_lt_of_lt enough))
  cases gathers with
  | nil => rfl
  | @cons _ s₁ _ key value members reads gathers =>
    have octets : Utf8.encodeChars (joinChars [','] (((key, value) :: members).map Written.chars)) ++
        0x7D :: rest = 0x22 :: (Utf8.encodeChars (key.toList.flatMap escape) ++
          0x22 :: 0x3A :: (Utf8.encodeChars value ++
            (Utf8.encodeChars (members.flatMap (',' :: Written.chars ·)) ++ 0x7D :: rest))) := by
      rw [← encodeChars_written, List.map_cons, joinChars_cons, List.flatMap_map]
      simp
    rw [octets, membersFrom_of_nextKey rfl (reads _ (endsMember_tail members rest))]
    exact membersFrom_tail gathers (Nat.lt_of_succ_lt_succ enough) rest

end Objects

/-! ## Records -/

namespace Record

variable {σ α : Type} {r : Record σ α} {s s' : σ}

/-- A member under the name of a field that is not given yet is read as the field. -/
theorem member_of_field {depth : Nat} {key : String} {value : List Char} {rest : Octets}
    {field : Field σ} (found : r.fields.find? (·.name = key) = some field)
    (open_ : field.given s = false)
    (reads : field.read depth s (Utf8.encodeChars value ++ rest) = .ok (s', rest)) :
    r.member depth s key (0x3A :: (Utf8.encodeChars value ++ rest)) = .ok (s', rest) := by
  have colon : colon (0x3A :: (Utf8.encodeChars value ++ rest)) =
      .ok ((), Utf8.encodeChars value ++ rest) := rfl
  simp only [member, found, open_, colon, bind, Except.bind, reads]
  rfl

/-- A record is read from its members. -/
theorem read_written {depth : Nat} {members : List Written} {v : α}
    (gathers : Gathers (r.member depth) r.empty members s) (finished : r.finish s = .ok v)
    (rest : Octets) :
    r.read (depth + 1) (Utf8.encodeChars
      ('\x7b' :: joinChars [','] (members.map Written.chars) ++ ['\x7d']) ++ rest) =
        .ok (v, rest) := by
  have opening : String.utf8EncodeChar '\x7b' = [0x7B] := by decide
  have closing : String.utf8EncodeChar '\x7d' = [0x7D] := by decide
  have octets : Utf8.encodeChars
      ('\x7b' :: joinChars [','] (members.map Written.chars) ++ ['\x7d']) ++ rest =
        0x7B :: (Utf8.encodeChars (joinChars [','] (members.map Written.chars)) ++
          0x7D :: rest) := by
    simp [opening, closing]
  have enough : members.length < (Utf8.encodeChars
      (joinChars [','] (members.map Written.chars)) ++ 0x7D :: rest).length + 1 := by
    have pieces := length_le_joinChars (members.map Written.chars)
    rw [List.length_map] at pieces
    rw [List.length_append, List.length_cons]
    omega
  have read := membersFrom_joined gathers enough rest
  have closed : closeObject (0x7D :: rest) = .ok ((), rest) := rfl
  have blank : skipBlanks (0x7B :: (Utf8.encodeChars
      (joinChars [','] (members.map Written.chars)) ++ 0x7D :: rest)) =
        0x7B :: (Utf8.encodeChars (joinChars [','] (members.map Written.chars)) ++
          0x7D :: rest) := rfl
  rw [octets, Record.read, blank]
  simp only [read, bind, Except.bind, Record.finished, finished, closed]
  rfl

/-- The same for a whole text. -/
theorem run_written {members : List Written} {v : α}
    (gathers : Gathers (r.member 126) r.empty members s) (finished : r.finish s = .ok v) :
    Reader.run (r.read maxDepth) (Utf8.encodeChars
      ('\x7b' :: joinChars [','] (members.map Written.chars) ++ ['\x7d'])) = .ok v := by
  have read := read_written gathers finished []
  rw [List.append_nil] at read
  simp only [Reader.run, maxDepth, read, bind, Except.bind]
  rfl

end Record

end PeekLock.Json
