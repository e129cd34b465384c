import Mathlib.Data.List.TakeDrop
import PeekLock.Proofs.Json.Numerals
import PeekLock.Settings.Render
import PeekLock.Toml.Reader

/-! # Lines of TOML come back

A line that gives a bare key a value is one statement, and is read up to its end whatever lines
follow (`statements?_line`).  Lines for different keys make a text with one entry for each, unless
one of them stands for no value (`parse_lines`).

Two kinds of values are written: texts in quotes, of which those come
back here that need no escape (`readsAs_quoteChars`), and digits.  Digits come back as their number
as far as 64 bits with a sign hold it, and what is not obvious is that greater ones are
refused: they are no date and no time, and without a point or an exponent they are no
floating-point number either (`word?_digitChars`).
-/

namespace PeekLock.Toml

/-! ## Words -/

/-- What is taken as long as a test holds ends where it first does not hold. -/
theorem span_append {p : Char → Bool} {front rest : List Char} (all : ∀ c ∈ front, p c)
    (ends : ∀ c ∈ rest.head?, p c = false) : (front ++ rest).span p = (front, rest) := by
  have stops : rest.takeWhile p = [] ∧ rest.dropWhile p = rest := by
    cases rest with
    | nil => exact ⟨rfl, rfl⟩
    | cons c rest => simp [ends c rfl]
  rw [List.span_eq_takeWhile_dropWhile, List.takeWhile_append_of_pos all,
    List.dropWhile_append_of_pos all, stops.1, stops.2, List.append_nil]

/-! ## Digits -/

theorem digit?_of_isDigit {c : Char} (digit : c.isDigit) :
    digit? 10 c = some (c.toNat - '0'.toNat) := by
  have bounds : '0' ≤ c ∧ c ≤ '9' := by
    simp only [Char.isDigit, Bool.and_eq_true, decide_eq_true_eq] at digit
    exact digit
  have small : c.toNat - '0'.toNat < 10 := by
    have : c.toNat ≤ '9'.toNat := bounds.2
    have : '9'.toNat = 57 := rfl
    have : '0'.toNat = 48 := rfl
    omega
  simp only [digit?, bounds, and_self, ↓reduceIte, small]

theorem go_of_isDigit {ds : List Char} (digits : ∀ c ∈ ds, c.isDigit) (n : Nat) :
    digits?.go 10 n ds = some (Nat.ofDigitChars 10 ds n) := by
  induction ds generalizing n with
  | nil => rfl
  | cons c ds ih =>
    have digit := digits c (List.mem_cons_self ..)
    rw [digits?.go, digit?_of_isDigit digit, Nat.ofDigitChars_cons, Nat.mul_comm 10 n]
    · exact ih (fun d member => digits d (List.mem_cons_of_mem _ member)) _
    · rintro _ _ rfl _
      exact absurd digit (by decide)

section Numbers

variable (n : Nat)

theorem isDigit_of_digitChars {c : Char} (member : c ∈ digitChars n) : c.isDigit :=
  Json.isDigit_of_mem_digitChars member

/-- A character that is no digit is none of the digits of a number. -/
theorem not_mem_digitChars {c : Char} (other : c.isDigit = false) : c ∉ digitChars n := by
  intro member
  rw [isDigit_of_digitChars n member] at other
  cases other

theorem digitChars_ne {c : Char} {word : List Char} (other : c.isDigit = false)
    (inside : c ∈ word) : digitChars n ≠ word := by
  rintro rfl
  exact not_mem_digitChars n other inside

theorem digits?_digitChars : digits? 10 (digitChars n) = some n := by
  have whole : Nat.ofDigitChars 10 (digitChars n) 0 = n := Nat.ofDigitChars_ten_toDigits
  have all (c) (member : c ∈ digitChars n) := isDigit_of_digitChars n member
  cases digits : digitChars n with
  | nil => exact absurd digits Nat.toDigits_ne_nil
  | cons c cs =>
    rw [digits] at whole all
    have digit := all c (List.mem_cons_self ..)
    rw [Nat.ofDigitChars_cons, Nat.mul_zero, Nat.zero_add] at whole
    rw [digits?, digit?_of_isDigit digit]
    simp only [Option.bind_eq_bind, Option.bind_some]
    rw [go_of_isDigit (fun d member => all d (List.mem_cons_of_mem _ member)), whole]

theorem plainDigits?_digitChars : plainDigits? (digitChars n) = some n := by
  have several : ¬ ((digitChars n).head? = some '0' ∧ 1 < (digitChars n).length) := by
    rintro ⟨zero, several⟩
    rcases Nat.eq_zero_or_pos n with rfl | positive
    · exact absurd several (by decide)
    · exact Json.head?_digitChars_ne_zero positive zero
  rw [plainDigits?, if_neg several, digits?_digitChars]

theorem takeSign_digitChars : takeSign (digitChars n) = (false, digitChars n) := by
  unfold takeSign
  split
  case h_1 digits =>
    exact absurd (digits ▸ List.mem_cons_self ..) (not_mem_digitChars n (by decide))
  case h_2 digits =>
    exact absurd (digits ▸ List.mem_cons_self ..) (not_mem_digitChars n (by decide))
  case h_3 => rfl

theorem minSigned64_le_natCast (n : Nat) : minSigned64 ≤ (n : Int) :=
  Int.le_trans (by decide) (Int.natCast_nonneg n)

theorem bounded?_natCast (n : Nat) :
    bounded? n = if n ≤ maxSigned64 then some (n : Int) else none := by
  simp [bounded?, minSigned64_le_natCast]

theorem integer?_digitChars : integer? (digitChars n) = bounded? n := by
  have second {c : Char} {rest : List Char} (digits : digitChars n = '0' :: c :: rest)
      (other : c.isDigit = false) : False :=
    not_mem_digitChars n other (digits ▸ List.mem_cons_of_mem _ (List.mem_cons_self ..))
  unfold integer?
  split
  case h_1 digits => exact (second digits (by decide)).elim
  case h_2 digits => exact (second digits (by decide)).elim
  case h_3 digits => exact (second digits (by decide)).elim
  case h_4 =>
    simp only [takeSign_digitChars, plainDigits?_digitChars]
    rfl

/-- Digits alone are no date and no time: something else than a digit stands in both. -/
theorem dateTime?_digitChars : dateTime? (digitChars n) = none := by
  have behind {count m : Nat} {rest : List Char}
      (read : fixed? count (digitChars n) = some (m, rest))
      {c : Char} (inside : c ∈ rest) : c ∈ digitChars n := by
    simp only [fixed?] at read
    split at read
    case isTrue =>
      obtain ⟨_, _, same⟩ := Option.bind_eq_some_iff.1 read
      obtain ⟨_, rfl⟩ := Prod.mk.inj (Option.some.inj same)
      exact List.mem_of_mem_drop inside
    case isFalse => cases read
  have noDate : date? (digitChars n) = none := by
    unfold date?
    cases read : fixed? 4 (digitChars n) with
    | none => rfl
    | some taken =>
      simp only [Option.bind_eq_bind, Option.bind_some]
      split
      case h_1 rest dashed =>
        exact absurd (behind read (dashed ▸ List.mem_cons_self ..))
          (not_mem_digitChars n (by decide))
      case h_2 => rfl
  have noTime : time? (digitChars n) = none := by
    unfold time?
    cases read : fixed? 2 (digitChars n) with
    | none => rfl
    | some taken =>
      simp only [Option.bind_eq_bind, Option.bind_some]
      split
      case h_1 rest parted =>
        exact absurd (behind read (parted ▸ List.mem_cons_self ..))
          (not_mem_digitChars n (by decide))
      case h_2 => rfl
  simp only [dateTime?, noDate, noTime, Option.bind_eq_bind, Option.bind_none]

/-- Without a point and without an exponent there is no floating-point number. -/
theorem real?_digitChars : real? (digitChars n) = none := by
  have whole {p : Char → Bool} (all : ∀ c, c.isDigit → p c) :
      (digitChars n).span p = (digitChars n, []) := by
    have taken : (digitChars n ++ []).span p = (digitChars n, []) :=
      span_append (fun c member => all c (isDigit_of_digitChars n member)) (by simp)
    rwa [List.append_nil] at taken
  have differs {c d : Char} (digit : c.isDigit) (other : d.isDigit = false) : c ≠ d := by
    rintro rfl
    simp [other] at digit
  have noMark := whole (p := fun c => !(c = 'e' || c = 'E')) fun c digit => by
    simp [differs digit (d := 'e') (by decide), differs digit (d := 'E') (by decide)]
  have noPoint := whole (p := (· ≠ '.')) fun c digit => by
    simp [differs digit (d := '.') (by decide)]
  simp only [real?, takeSign_digitChars, noMark, noPoint, plainDigits?_digitChars]
  rw [if_neg (digitChars_ne n (c := 'i') (by decide) (by decide)),
    if_neg (digitChars_ne n (c := 'n') (by decide) (by decide))]
  rfl

theorem word?_digitChars : word? (digitChars n) = (bounded? n).map .integer := by
  rw [word?, if_neg (digitChars_ne n (c := 't') (by decide) (by decide)),
    if_neg (digitChars_ne n (c := 'f') (by decide) (by decide)), integer?_digitChars]
  cases bounded? n with
  | some m => rfl
  | none => simp [dateTime?_digitChars, real?_digitChars]

end Numbers

/-! ## Values up to the end of their line -/

/-- A piece that stands for a value, or for none, where its line ends.  It begins with no blank, so
    that it is told from what is in front of it. -/
structure ReadsAs (piece : List Char) (v : Option Value) : Prop where
  opens : ∃ c rest, piece = c :: rest ∧ isBlank c = false
  reads : ∀ depth rest, value? (depth + 1) (piece ++ '\n' :: rest) = v.map (·, '\n' :: rest)

theorem isWordChar_of_isDigit {c : Char} (digit : c.isDigit) : isWordChar c := by
  have bounds : '0' ≤ c ∧ c ≤ '9' := by
    simp only [Char.isDigit, Bool.and_eq_true, decide_eq_true_eq] at digit
    exact digit
  simp [isWordChar, isKeyChar, bounds]

theorem readsAs_digitChars (n : Nat) :
    ReadsAs (digitChars n) ((bounded? n).map .integer) := by
  have all (c) (member : c ∈ digitChars n) := isDigit_of_digitChars n member
  obtain ⟨c, cs, digits⟩ := List.exists_cons_of_ne_nil (Nat.toDigits_ne_nil (n := n) (b := 10))
  change digitChars n = c :: cs at digits
  have digit := all c (digits ▸ List.mem_cons_self ..)
  constructor
  case opens =>
    refine ⟨c, cs, digits, ?_⟩
    refine Bool.eq_false_iff.2 fun blank => ?_
    simp only [isBlank, Bool.or_eq_true, decide_eq_true_eq] at blank
    rcases blank with rfl | rfl <;> exact absurd digit (by decide)
  case reads =>
    intro depth rest
    have word : (digitChars n ++ '\n' :: rest).span isWordChar = (digitChars n, '\n' :: rest) := by
      refine span_append (fun c member => isWordChar_of_isDigit (all c member)) fun c first => ?_
      obtain rfl := Option.some.inj first
      decide
    have scalar : scalar? (digitChars n ++ '\n' :: rest) =
        (word? (digitChars n)).map (·, '\n' :: rest) := by
      simp only [scalar?, word]
      rfl
    rw [← word?_digitChars, ← scalar, digits]
    -- What begins with a digit is no bracket, no brace and no quote.
    rw [value?]
    all_goals
      rintro _ same
      obtain rfl := (List.cons.inj same).1
      exact absurd digit (by decide)

/-- A character that stands for itself in quotes. -/
def IsPlain (c : Char) : Prop :=
  0x20 ≤ c.toNat ∧ c.toNat ≠ 0x7F ∧ c ≠ '"' ∧ c ≠ '\\'

section Texts

variable {c : Char} {cs : List Char}

theorem ne_of_isPlain {d : Char} (plain : IsPlain c) (control : d.toNat < 0x20) : c ≠ d := by
  rintro rfl
  exact absurd plain.1 (by omega)

theorem isControl_of_isPlain (plain : IsPlain c) : isControl c = false := by
  have above : ¬ c.toNat < 0x20 := Nat.not_lt.2 plain.1
  simp [isControl, above, plain.2.1]

theorem isForbidden_of_isPlain (plain : IsPlain c) : isForbidden c = false := by
  have above : ¬ c.toNat < 0x20 := Nat.not_lt.2 plain.1
  simp [isForbidden, above, plain.2.1]

theorem escapeChars_plain (multiline : Bool) (quotes : Nat) (plain : ∀ c ∈ cs, IsPlain c) :
    escapeChars multiline quotes cs = cs := by
  induction cs generalizing quotes with
  | nil => rfl
  | cons c cs ih =>
    have first := plain c (List.mem_cons_self ..)
    have itself : escape? multiline c = none := by
      unfold escape?
      split
      case h_6 => exact absurd rfl first.2.2.2
      case h_7 => simp [isControl_of_isPlain first]
      all_goals exact absurd rfl (ne_of_isPlain first (by decide))
    rw [escapeChars, if_neg first.2.2.1, itself]
    exact congrArg _ (ih 0 fun d member => plain d (List.mem_cons_of_mem _ member))

theorem longestRun_of_not_mem (absent : c ∉ cs) : longestRun c cs = 0 := by
  suffices longestRun.go c 0 0 cs = 0 from this
  induction cs with
  | nil => rfl
  | cons d cs ih =>
    obtain ⟨differs, later⟩ := List.ne_and_not_mem_of_not_mem_cons absent
    rw [longestRun.go, if_neg (Ne.symm differs)]
    exact ih later

/-- A text that needs no escape is written in quotes as it stands. -/
theorem quoteChars_plain {s : String} (plain : ∀ c ∈ s.toList, IsPlain c) :
    quoteChars s = '"' :: (s.toList ++ ['"']) := by
  have absent {d : Char} (special : ¬ IsPlain d) : d ∉ s.toList := fun member =>
    special (plain d member)
  have basic : TextForm.holds ⟨true, false⟩ s.toList := by
    have control : s.toList.any isControl = false :=
      List.any_eq_false.2 fun c member => by simp [isControl_of_isPlain (plain c member)]
    have backslash : '\\' ∉ s.toList := absent fun special => special.2.2.2 rfl
    have newline : '\n' ∉ s.toList := absent fun special => absurd special.1 (by decide)
    have quote : '"' ∉ s.toList := absent fun special => special.2.2.1 rfl
    simp [TextForm.holds, control, backslash, newline, longestRun_of_not_mem quote]
  have chosen : TextForm.choose s.toList = ⟨true, false⟩ := by
    simp [TextForm.choose, basic]
  simp [quoteChars, chosen, TextForm.write, escapeChars_plain false 0 plain]

theorem basicBody_plain (plain : ∀ c ∈ cs, IsPlain c) {rounds : Nat} (enough : cs.length < rounds)
    (seen rest : List Char) :
    basicBody seen rounds (cs ++ '"' :: rest) = some (seen.reverse ++ cs, rest) := by
  induction cs generalizing seen rounds with
  | nil =>
    obtain ⟨rounds, rfl⟩ := Nat.exists_eq_succ_of_ne_zero (Nat.ne_of_gt enough)
    simp [basicBody]
  | cons c cs ih =>
    obtain ⟨rounds, rfl⟩ := Nat.exists_eq_succ_of_ne_zero (Nat.ne_of_gt (Nat.zero_lt_of_lt enough))
    have first := plain c (List.mem_cons_self ..)
    rw [List.cons_append, basicBody, if_neg first.2.2.1, if_neg first.2.2.2,
      isForbidden_of_isPlain first]
    simp [ih (fun d member => plain d (List.mem_cons_of_mem _ member))
      (Nat.lt_of_succ_lt_succ enough)]

end Texts

/-- A text that needs no escape is read back from its quotes. -/
theorem readsAs_quoteChars {s : String} (plain : ∀ c ∈ s.toList, IsPlain c) :
    ReadsAs (quoteChars s) (some (.text s)) := by
  rw [quoteChars_plain plain]
  constructor
  case opens => exact ⟨'"', _, rfl, by decide⟩
  case reads =>
    intro depth rest
    have enough : s.toList.length < (s.toList ++ '"' :: '\n' :: rest).length + 1 := by
      rw [List.length_append]
      omega
    have body := basicBody_plain plain enough [] ('\n' :: rest)
    have read : text? ('"' :: (s.toList ++ '"' :: '\n' :: rest)) =
        some (s.toList, '\n' :: rest) := by
      unfold text?
      split
      case h_1 behind quotes =>
        -- Three quotes would be two of the text itself, or the end of the line would be one.
        exfalso
        have quotes := (List.cons.inj quotes).2
        cases chars : s.toList with
        | nil => simp [chars] at quotes
        | cons c cs =>
          have first := plain c (chars ▸ List.mem_cons_self ..)
          simp only [chars, List.cons_append, List.cons.injEq] at quotes
          exact first.2.2.1 quotes.1
      case h_2 other => simp at other
      case h_3 behind _ basic =>
        obtain rfl := (List.cons.inj basic).2
        exact body
      case h_4 other => simp at other
      case h_5 _ _ _ other _ => exact absurd rfl (other _)
    have octets : '"' :: (s.toList ++ ['"']) ++ '\n' :: rest =
        '"' :: (s.toList ++ '"' :: '\n' :: rest) := by simp
    rw [octets, value?]
    simp [read]

/-! ## Lines -/

/-- A key that is written without quotes. -/
def IsBare (key : String) : Prop :=
  key.toList ≠ [] ∧ ∀ c ∈ key.toList, isKeyChar c

theorem ne_of_isKeyChar {c d : Char} (bare : isKeyChar c) (other : isKeyChar d = false) :
    c ≠ d := by
  rintro rfl
  simp [other] at bare

theorem isBlank_of_isKeyChar {c : Char} (bare : isKeyChar c) : isBlank c = false := by
  simp [isBlank, ne_of_isKeyChar bare (d := ' ') (by decide),
    ne_of_isKeyChar bare (d := '\t') (by decide)]

theorem skipBlanks_of_first {c : Char} (dark : isBlank c = false) (cs : List Char) :
    skipBlanks (c :: cs) = c :: cs := by
  rw [skipBlanks, List.dropWhile_cons_of_neg (by simp [dark])]

section

variable {key : String} {piece : List Char} {v : Option Value}

/-- A bare key is read up to what stands in front of the value. -/
theorem key?_bare (bare : IsBare key) (rest : List Char) :
    key? (key.toList ++ ' ' :: '=' :: rest) = some ([key], '=' :: rest) := by
  obtain ⟨c, cs, chars⟩ := List.exists_cons_of_ne_nil bare.1
  have first : isKeyChar c := bare.2 c (chars ▸ List.mem_cons_self ..)
  have word : (key.toList ++ ' ' :: '=' :: rest).span isKeyChar =
      (key.toList, ' ' :: '=' :: rest) := by
    refine span_append bare.2 fun c first => ?_
    obtain rfl := Option.some.inj first
    decide
  have part : keyPart? (key.toList ++ ' ' :: '=' :: rest) = some (key, ' ' :: '=' :: rest) := by
    unfold keyPart?
    split
    case h_1 quoted =>
      rw [chars] at quoted
      exact absurd (List.cons.inj quoted).1 (ne_of_isKeyChar first (by decide))
    case h_2 quoted =>
      rw [chars] at quoted
      exact absurd (List.cons.inj quoted).1 (ne_of_isKeyChar first (by decide))
    case h_3 =>
      simp only [word]
      rw [if_neg (by simp [chars]), String.ofList_toList]
  have skipped : skipBlanks (key.toList ++ ' ' :: '=' :: rest) =
      key.toList ++ ' ' :: '=' :: rest := by
    rw [chars]
    exact skipBlanks_of_first (isBlank_of_isKeyChar first) _
  rw [key?, maxDepth, keyParts?, skipped, part]
  rfl

/-- A line up to its value, and the lines after it. -/
theorem tomlLine_append (key : String) (piece rest : List Char) :
    Settings.tomlLine key piece ++ rest =
      key.toList ++ ' ' :: '=' :: ' ' :: (piece ++ '\n' :: rest) := by
  simp [Settings.tomlLine]

theorem statement?_line (bare : IsBare key) (reads : ReadsAs piece v) (rest : List Char) :
    statement? (Settings.tomlLine key piece ++ rest) =
      v.map fun v => (.assign [key] v, '\n' :: rest) := by
  obtain ⟨c, cs, chars⟩ := List.exists_cons_of_ne_nil bare.1
  have bracket : c ≠ '[' :=
    ne_of_isKeyChar (bare.2 c (chars ▸ List.mem_cons_self ..)) (by decide)
  obtain ⟨e, es, begins, dark⟩ := reads.opens
  have blank : skipBlanks (' ' :: (piece ++ '\n' :: rest)) = piece ++ '\n' :: rest := by
    have passed : skipBlanks (' ' :: (piece ++ '\n' :: rest)) =
        skipBlanks (piece ++ '\n' :: rest) := rfl
    rw [passed, begins]
    exact skipBlanks_of_first dark _
  rw [tomlLine_append]
  unfold statement?
  split
  case h_1 opened =>
    rw [chars] at opened
    exact absurd (List.cons.inj opened).1 bracket
  case h_2 opened =>
    rw [chars] at opened
    exact absurd (List.cons.inj opened).1 bracket
  case h_3 =>
    simp only [key?_bare bare, Option.bind_eq_bind, Option.bind_some, blank, reads.reads]
    cases v <;> rfl

/-- A line that gives a bare key a value is one statement, whatever lines follow. -/
theorem statements?_line (bare : IsBare key) (reads : ReadsAs piece v) (d : Document)
    (rounds : Nat) (rest : List Char) :
    statements? d (rounds + 1) (Settings.tomlLine key piece ++ rest) =
      v.bind fun v => (d.add (.assign [key] v)).bind fun d => statements? d rounds rest := by
  obtain ⟨c, cs, chars⟩ := List.exists_cons_of_ne_nil bare.1
  have first : isKeyChar c := bare.2 c (chars ▸ List.mem_cons_self ..)
  have opens : skipLines false (Settings.tomlLine key piece ++ rest) =
      some (Settings.tomlLine key piece ++ rest) := by
    rw [tomlLine_append, chars, List.cons_append, skipLines]
    · simp [isBlank_of_isKeyChar first, ne_of_isKeyChar first (d := '#') (by decide)]
    · exact ne_of_isKeyChar first (by decide)
    · rintro _ rfl _
      exact absurd first (by decide)
  rw [statements?]
  simp only [opens, Option.bind_eq_bind, Option.bind_some]
  split
  case h_1 nothing =>
    rw [tomlLine_append, chars] at nothing
    cases nothing
  case h_2 =>
    rw [statement?_line bare reads]
    cases v <;> rfl

end

/-- A line that gives a key a value, told by the piece of text behind the key and by what that
    stands for, if for anything. -/
structure Line where
  key : String
  piece : List Char
  value? : Option Value

namespace Line

structure IsSound (l : Line) : Prop where
  bare : IsBare l.key
  reads : ReadsAs l.piece l.value?

def chars (l : Line) : List Char :=
  Settings.tomlLine l.key l.piece

def entry? (l : Line) : Option (String × Value) :=
  l.value?.map (l.key, ·)

end Line

section

variable {before : Entries} {key : String} {lines : List Line} {rounds : Nat}

theorem add_assign (fresh : key ∉ before.map Prod.fst) (v : Value) :
    (⟨before, []⟩ : Document).add (.assign [key] v) = some ⟨before ++ [(key, v)], []⟩ := by
  have absent : before.find? key = none := by
    refine List.lookup_eq_none_iff.2 fun entry member => ?_
    refine bne_iff_ne.2 ?_
    rintro rfl
    exact fresh (List.mem_map_of_mem member)
  simp [Document.add, Entries.assignUnder, Entries.assign, absent]

/-- Lines for different keys are read one after the other, up to one that stands for no value. -/
theorem statements?_lines (sound : ∀ l ∈ lines, l.IsSound)
    (fresh : ∀ l ∈ lines, l.key ∉ before.map Prod.fst) (distinct : (lines.map Line.key).Nodup)
    (enough : lines.length < rounds) :
    statements? ⟨before, []⟩ rounds (lines.flatMap Line.chars) =
      (lines.mapM Line.entry?).map fun entries => ⟨before ++ entries, []⟩ := by
  induction lines generalizing before rounds with
  | nil =>
    obtain ⟨rounds, rfl⟩ := Nat.exists_eq_succ_of_ne_zero (Nat.ne_of_gt enough)
    simp [statements?, skipLines]
  | cons l lines ih =>
    obtain ⟨rounds, rfl⟩ := Nat.exists_eq_succ_of_ne_zero (Nat.ne_of_gt (Nat.zero_lt_of_lt enough))
    obtain ⟨first, later⟩ := List.forall_mem_cons.1 sound
    obtain ⟨freshFirst, freshLater⟩ := List.forall_mem_cons.1 fresh
    obtain ⟨apart, distinct⟩ := List.nodup_cons.1 distinct
    rw [List.flatMap_cons, Line.chars, statements?_line first.bare first.reads]
    cases stands : l.value? with
    | none => simp [Line.entry?, stands]
    | some v =>
      -- The key of this line is among the entries now, and no later line has it.
      have freshLater (l') (member : l' ∈ lines) :
          l'.key ∉ (before ++ [(l.key, v)]).map Prod.fst := by
        have differs : l'.key ≠ l.key := by
          intro same
          exact apart (same ▸ List.mem_map_of_mem member)
        simpa [differs] using freshLater l' member
      rw [Option.bind_some, add_assign freshFirst, Option.bind_some,
        ih later freshLater distinct (Nat.lt_of_succ_lt_succ enough)]
      simp only [List.mapM_cons, Line.entry?, stands, Option.map_some, List.append_assoc]
      cases lines.mapM Line.entry? <;> rfl

/-- Every line takes a character at least. -/
theorem length_le_chars (lines : List Line) :
    lines.length ≤ (lines.flatMap Line.chars).length := by
  induction lines with
  | nil => exact Nat.zero_le _
  | cons l lines ih =>
    rw [List.flatMap_cons, List.length_append, List.length_cons]
    have : 0 < l.chars.length := by
      simp only [Line.chars, Settings.tomlLine, List.length_append, List.length_singleton]
      omega
    omega

/-- Lines for different keys make the entries of a text, or none of it can be read. -/
theorem parse_lines (sound : ∀ l ∈ lines, l.IsSound) (distinct : (lines.map Line.key).Nodup) :
    parse (lines.flatMap Line.chars) = lines.mapM Line.entry? := by
  have fresh : ∀ l ∈ lines, l.key ∉ ([] : Entries).map Prod.fst := by simp
  have read := statements?_lines sound fresh distinct
    (Nat.lt_succ_of_le (length_le_chars lines))
  rw [parse, read]
  cases lines.mapM Line.entry? <;> rfl

end

end PeekLock.Toml
