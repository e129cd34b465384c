import PeekLock.Broker.Operations
import PeekLock.Proofs.Json.Members

/-! # What names keep the rules

The checks of `parse`, one after the other, let through just the names that keep the rules
(`parse_eq_ok_iff`), and these are the names of the grammar (`parse_eq_ok_iff_isWellFormed`).  Which
check refuses another text says what is wrong with it (`accepts_exactly_grammar`).  But what
is read from stored data may be any text, and a queue can be made of that name as well.  Its
settings pass their check only if the name happens to keep the rules (`named_queue_passes_iff`).
-/

namespace PeekLock.QueueName

/-- The rules for names, one by one. -/
structure KeepsRules (s : String) : Prop where
  nonempty : 1 ≤ s.utf8ByteSize
  short : s.utf8ByteSize ≤ maxOctets
  characters : ∀ c ∈ s.toList, isNameChar c
  leading : s.toList.head? ≠ some '-'
  trailing : s.toList.getLast? ≠ some '-'
  single : ¬ ['-', '-'] <:+: s.toList

/-! ## Hyphens -/

theorem hasDoubleHyphen_iff (cs : List Char) : hasDoubleHyphen cs ↔ ['-', '-'] <:+: cs := by
  fun_induction hasDoubleHyphen cs with
  | case1 rest => exact iff_of_true rfl ⟨[], rest, rfl⟩
  | case2 c rest noPair ih =>
    rw [ih, List.infix_cons_iff]
    refine ⟨.inr, fun found => found.resolve_left ?_⟩
    rintro ⟨tail, same⟩
    exact noPair tail (List.cons.inj same).1.symm (List.cons.inj same).2.symm
  | case3 => simp

theorem isSegmentChar_hyphen : isSegmentChar '-' = false := by decide

theorem isNameChar_iff {c : Char} : isNameChar c ↔ isSegmentChar c ∨ c = '-' := by
  simp [isNameChar]

theorem ne_hyphen {c : Char} (segment : isSegmentChar c) : c ≠ '-' := by
  rintro rfl
  simp [isSegmentChar_hyphen] at segment

theorem placed_iff {cs : List Char} : hasMisplacedHyphen cs = false ↔
    cs.head? ≠ some '-' ∧ cs.getLast? ≠ some '-' ∧ hasDoubleHyphen cs = false := by
  simp [hasMisplacedHyphen, and_assoc]

/-! ## Parsing -/

theorem parse_eq_ok_iff {s : String} {name : QueueName} :
    parse s = .ok name ↔ name.text = s ∧ KeepsRules s := by
  have placed : hasMisplacedHyphen s.toList = false ↔ s.toList.head? ≠ some '-' ∧
      s.toList.getLast? ≠ some '-' ∧ ¬ ['-', '-'] <:+: s.toList := by
    rw [placed_iff, ← hasDoubleHyphen_iff, Bool.not_eq_true]
  obtain ⟨text⟩ := name
  simp only [parse]
  split
  case isTrue size =>
    refine iff_of_false nofun fun ⟨_, rules⟩ => ?_
    have := rules.nonempty
    have := rules.short
    omega
  case isFalse size =>
    split
    case isTrue characters =>
      refine iff_of_false nofun fun ⟨_, rules⟩ => ?_
      simp [List.all_eq_true.2 rules.characters] at characters
    case isFalse characters =>
      split
      case isTrue hyphens =>
        refine iff_of_false nofun fun ⟨_, rules⟩ => ?_
        rw [placed.2 ⟨rules.leading, rules.trailing, rules.single⟩] at hyphens
        exact nomatch hyphens
      case isFalse hyphens =>
        obtain ⟨leading, trailing, single⟩ := placed.1 (Bool.eq_false_iff.2 hyphens)
        have all : ∀ c ∈ s.toList, isNameChar c := List.all_eq_true.1 (by simpa using characters)
        refine ⟨fun parsed => ⟨?_, by omega, by omega, all, leading, trailing, single⟩,
          fun ⟨same, _⟩ => by rw [← same]⟩
        exact (congrArg QueueName.text (Except.ok.inj parsed)).symm

/-! ## The grammar -/

theorem hasDoubleHyphen_segment {segment : List Char} (all : ∀ c ∈ segment, isSegmentChar c)
    (cs : List Char) : hasDoubleHyphen (segment ++ cs) = hasDoubleHyphen cs := by
  induction segment with
  | nil => rfl
  | cons c rest ih =>
    rw [List.cons_append, hasDoubleHyphen, ih fun d inRest => all d (.tail _ inRest)]
    rintro _ rfl _
    exact ne_hyphen (all _ (.head _)) rfl

theorem hasDoubleHyphen_hyphen {cs : List Char} (leading : cs.head? ≠ some '-') :
    hasDoubleHyphen ('-' :: cs) = hasDoubleHyphen cs := by
  rw [hasDoubleHyphen]
  rintro rest _ rfl
  exact leading rfl

theorem Segments.cons {c : Char} {cs : List Char} (segment : isSegmentChar c)
    (segments : Segments cs) : Segments (c :: cs) := by
  cases segments with
  | last _ all => exact .last nofun (List.forall_mem_cons.2 ⟨segment, all⟩)
  | more _ all rest =>
    exact Segments.more (List.cons_ne_nil c _) (List.forall_mem_cons.2 ⟨segment, all⟩) rest

/-- Segments joined by single hyphens have no hyphen out of place. -/
theorem Segments.placed {cs : List Char} (segments : Segments cs) :
    cs ≠ [] ∧ (∀ c ∈ cs, isNameChar c) ∧ hasMisplacedHyphen cs = false := by
  induction segments with
  | @last segment nonempty all =>
    have leading (c) (first : segment.head? = some c) := ne_hyphen (all c (List.mem_of_head? first))
    have trailing (c) (last : segment.getLast? = some c) :=
      ne_hyphen (all c (List.mem_of_getLast? last))
    have single := hasDoubleHyphen_segment all []
    rw [List.append_nil] at single
    exact ⟨nonempty, fun c inside => isNameChar_iff.2 (.inl (all c inside)),
      placed_iff.2 ⟨fun first => leading _ first rfl, fun last => trailing _ last rfl, single⟩⟩
  | @more segment rest nonempty all _ ih =>
    obtain ⟨restNonempty, restChars, restPlaced⟩ := ih
    obtain ⟨restLeading, restTrailing, restSingle⟩ := placed_iff.1 restPlaced
    refine ⟨by simp, fun c inside => ?_, placed_iff.2 ⟨?_, ?_, ?_⟩⟩
    · rcases List.mem_append.1 inside with inSegment | inRest
      · exact isNameChar_iff.2 (.inl (all c inSegment))
      · rcases List.mem_cons.1 inRest with rfl | inRest
        · exact isNameChar_iff.2 (.inr rfl)
        · exact restChars c inRest
    · obtain ⟨c, tail, rfl⟩ := List.exists_cons_of_ne_nil nonempty
      exact fun first => ne_hyphen (all c (.head _)) (Option.some.inj first)
    · obtain ⟨c, tail, rfl⟩ := List.exists_cons_of_ne_nil restNonempty
      simpa [List.getLast?_append, List.getLast?_cons_cons] using restTrailing
    · rw [hasDoubleHyphen_segment all, hasDoubleHyphen_hyphen restLeading, restSingle]

/-- Hyphens that are all in place split a text into segments. -/
theorem Segments.of_placed : ∀ {cs : List Char}, cs ≠ [] → (∀ c ∈ cs, isNameChar c) →
    hasMisplacedHyphen cs = false → Segments cs
  | [], nonempty, _, _ => absurd rfl nonempty
  | [c], _, characters, placed => by
    have segment := (isNameChar_iff.1 (characters c (.head _))).resolve_right
      fun hyphen => (placed_iff.1 placed).1 (congrArg some hyphen)
    exact .last nofun (by simpa using segment)
  | c :: d :: rest, _, characters, placed => by
    obtain ⟨leading, trailing, single⟩ := placed_iff.1 placed
    have restChars (e) (inRest : e ∈ rest) := characters e (.tail _ (.tail _ inRest))
    have notHyphen : c ≠ '-' := fun hyphen => leading (congrArg some hyphen)
    have segment := (isNameChar_iff.1 (characters c (.head _))).resolve_right notHyphen
    have all : ∀ e ∈ [c], isSegmentChar e := by simpa using segment
    have single : hasDoubleHyphen (d :: rest) = false :=
      hasDoubleHyphen_segment all (d :: rest) ▸ single
    rw [List.getLast?_cons_cons] at trailing
    by_cases hyphen : d = '-'
    · -- The hyphen stands between two segments.
      subst hyphen
      have restNonempty : rest ≠ [] := by
        rintro rfl
        exact trailing rfl
      obtain ⟨e, tail, rfl⟩ := List.exists_cons_of_ne_nil restNonempty
      have restLeading : e ≠ '-' := by
        rintro rfl
        exact nomatch single
      rw [List.getLast?_cons_cons] at trailing
      rw [hasDoubleHyphen_hyphen (by simpa using restLeading)] at single
      have restPlaced := placed_iff.2 ⟨by simpa using restLeading, trailing, single⟩
      exact .more (List.cons_ne_nil c []) all (of_placed restNonempty restChars restPlaced)
    · exact .cons segment (of_placed nofun (fun e inside => characters e (.tail _ inside))
        (placed_iff.2 ⟨by simpa using hyphen, trailing, single⟩))

/-- The rules are those of the grammar. -/
theorem isWellFormed_iff {s : String} : IsWellFormed s ↔ KeepsRules s := by
  constructor
  · rintro ⟨nonempty, short, segments⟩
    obtain ⟨_, characters, placed⟩ := segments.placed
    obtain ⟨leading, trailing, single⟩ := placed_iff.1 placed
    exact ⟨nonempty, short, characters, leading, trailing, by
      rwa [← hasDoubleHyphen_iff, Bool.not_eq_true]⟩
  · intro rules
    have nonempty : s.toList ≠ [] := by
      intro empty
      have := rules.nonempty
      simp [String.toList_eq_nil_iff.1 empty] at this
    refine ⟨rules.nonempty, rules.short, .of_placed nonempty rules.characters ?_⟩
    rw [placed_iff, ← Bool.not_eq_true, hasDoubleHyphen_iff]
    exact ⟨rules.leading, rules.trailing, rules.single⟩

/-- Parsing lets through just what the grammar makes. -/
theorem parse_eq_ok_iff_isWellFormed {s : String} {name : QueueName} :
    parse s = .ok name ↔ name.text = s ∧ IsWellFormed s := by
  rw [isWellFormed_iff, parse_eq_ok_iff]

theorem segments_iff {cs : List Char} :
    Segments cs ↔ cs ≠ [] ∧ (∀ c ∈ cs, isNameChar c) ∧ hasMisplacedHyphen cs = false :=
  ⟨Segments.placed, fun ⟨nonempty, characters, placed⟩ => .of_placed nonempty characters placed⟩

theorem parse_eq_outOfRange_iff {s field message : String} :
    parse s = .error (.outOfRange field message) ↔
      (s.utf8ByteSize = 0 ∨ maxOctets < s.utf8ByteSize) ∧
        field = fieldName ∧ message = "must be 1-260 characters" := by
  simp only [parse]
  split
  case isTrue size =>
    constructor
    · intro refused
      cases refused
      exact ⟨size, rfl, rfl⟩
    · rintro ⟨_, rfl, rfl⟩
      rfl
  case isFalse size =>
    -- Neither of the later checks complains about the size.
    simp only [size, false_and, iff_false]
    split
    · nofun
    · split <;> nofun

theorem invalidFormat_inj {field message field' message' : String} :
    (.error (.invalidFormat field message) : Except ValidationError QueueName) =
      .error (.invalidFormat field' message') ↔ field' = field ∧ message' = message := by
  constructor
  · intro same
    cases same
    exact ⟨rfl, rfl⟩
  · rintro ⟨rfl, rfl⟩
    rfl

theorem parse_eq_invalidFormat_iff {s field message : String} :
    parse s = .error (.invalidFormat field message) ↔
      (1 ≤ s.utf8ByteSize ∧ s.utf8ByteSize ≤ maxOctets ∧ ¬ Segments s.toList) ∧
        field = fieldName ∧
        message = if s.toList.all isNameChar then
          "no leading/trailing hyphens or consecutive hyphens"
        else "only ASCII alphanumeric, hyphens, underscores and dots allowed" := by
  simp only [parse]
  split
  case isTrue size =>
    refine iff_of_false nofun ?_
    rintro ⟨⟨least, most, _⟩, _⟩
    omega
  case isFalse size =>
    have between : 1 ≤ s.utf8ByteSize ∧ s.utf8ByteSize ≤ maxOctets := by omega
    split
    case isTrue characters =>
      have foreign : s.toList.all isNameChar = false := by simpa using characters
      have broken : ¬ Segments s.toList := by
        intro segments
        rw [List.all_eq_true.2 (segments_iff.1 segments).2.1] at foreign
        cases foreign
      rw [foreign, invalidFormat_inj]
      exact (and_iff_right ⟨between.1, between.2, broken⟩).symm
    case isFalse characters =>
      have all : s.toList.all isNameChar = true := by simpa using characters
      split
      case isTrue hyphens =>
        have broken : ¬ Segments s.toList := by
          intro segments
          rw [(segments_iff.1 segments).2.2] at hyphens
          cases hyphens
        rw [invalidFormat_inj]
        exact (and_iff_right ⟨between.1, between.2, broken⟩).symm
      case isFalse hyphens =>
        have nonempty : s.toList ≠ [] := by
          intro empty
          rw [String.toList_eq_nil_iff.1 empty] at between
          exact absurd between.1 (by decide)
        have segments : Segments s.toList := segments_iff.2
          ⟨nonempty, List.all_eq_true.1 all, Bool.eq_false_iff.2 hyphens⟩
        exact iff_of_false nofun fun ⟨⟨_, _, broken⟩, _⟩ => broken segments

/-- Parsing takes just the names of the grammar, as they stand.  It refuses a text of no octets or
    of too many for its size, and all others that are no names for their form: for a character
    that does not belong in a name, or else for a hyphen out of place. -/
theorem accepts_exactly_grammar (s : String) (name : QueueName) (field message : String) :
    (parse s = .ok name ↔ IsWellFormed s ∧ name.text = s ∧ name.display = s) ∧
    (parse s = .error (.outOfRange field message) ↔
      (s.utf8ByteSize = 0 ∨ maxOctets < s.utf8ByteSize) ∧
        field = fieldName ∧ message = "must be 1-260 characters") ∧
    (parse s = .error (.invalidFormat field message) ↔
      (1 ≤ s.utf8ByteSize ∧ s.utf8ByteSize ≤ maxOctets ∧ ¬ Segments s.toList) ∧
        field = fieldName ∧
        message = if s.toList.all isNameChar then
          "no leading/trailing hyphens or consecutive hyphens"
        else "only ASCII alphanumeric, hyphens, underscores and dots allowed") := by
  refine ⟨?_, parse_eq_outOfRange_iff, parse_eq_invalidFormat_iff⟩
  rw [parse_eq_ok_iff_isWellFormed]
  constructor
  · intro ⟨same, formed⟩
    exact ⟨formed, same, same⟩
  · intro ⟨formed, same, _⟩
    exact ⟨same, formed⟩

/-! ## Stored names and the queues made of them -/

/-- Every name, whatever its text, is read from its own JSON. -/
theorem ofJson_render (name : QueueName) : ofJson name.toValue.render = .ok name := by
  have octets : Utf8.encode name.toValue.render = Utf8.encodeChars (Json.quoteChars name.text) :=
    Json.encode_render name.toValue
  have read := Json.readText_quoteChars name.text []
  rw [List.append_nil, ← octets] at read
  rw [ofJson, Json.Reader.run, read]
  rfl

theorem check_named (s : String) : (Settings.named s).check = .ok () ↔ KeepsRules s := by
  have parsed : KeepsRules s ↔ parse s = .ok ⟨s⟩ := by simp [parse_eq_ok_iff]
  rw [parsed, Settings.check]
  cases result : parse (Settings.named s).name with
  | error e => exact iff_of_false nofun (by rw [show parse s = .error e from result]; nofun)
  | ok name =>
    exact iff_of_true rfl (parsed.1 (parse_eq_ok_iff.1 result).2)

theorem queue?_newQueue (b : Broker) (name : QueueName) (counters : Option Nat) :
    ∃ queue, (b.newQueue name counters).1.queue? (b.newQueue name counters).2 = some queue ∧
      queue.settings = .named name.text := by
  refine ⟨⟨.named name.text, counters, false, .empty, [], (b.openScope none).2⟩, ?_, rfl⟩
  have queues : (b.openScope none).1.queues = b.queues := rfl
  simp [Broker.newQueue, Broker.addQueue, Broker.queue?, queues]

/-- Parsing makes just the names that keep the rules.  Stored data makes any name at all, and
    of the queues that are made of names just those have settings that pass whose names keep
    the rules. -/
theorem named_queue_passes_iff (s : String) (name : QueueName) (b : Broker)
    (counters : Option Nat) :
    (parse s = .ok name ↔ name.text = s ∧ KeepsRules s) ∧
    ofJson name.toValue.render = .ok name ∧
    ∃ queue, (b.newQueue name counters).1.queue? (b.newQueue name counters).2 = some queue ∧
      (queue.settings.check = .ok () ↔ KeepsRules name.text) := by
  refine ⟨parse_eq_ok_iff, ofJson_render name, ?_⟩
  obtain ⟨queue, made, settings⟩ := queue?_newQueue b name counters
  exact ⟨queue, made, settings ▸ check_named name.text⟩

/-- A stored name with hyphens out of place is taken, and its queue would not pass. -/
theorem stored_name_is_not_checked :
    ofJson "\"-bad--\"" = .ok ⟨"-bad--"⟩ ∧ ¬ KeepsRules "-bad--" ∧
      ∃ queue, ((Broker.new .epoch).newQueue ⟨"-bad--"⟩ none).1.queue? 0 = some queue ∧
        queue.settings.check ≠ .ok () := by
  have broken : ¬ KeepsRules "-bad--" := fun rules => rules.leading (by decide)
  obtain ⟨queue, made, settings⟩ := queue?_newQueue (.new .epoch) ⟨"-bad--"⟩ none
  refine ⟨ofJson_render ⟨"-bad--"⟩, broken, queue, made, ?_⟩
  rw [settings]
  exact fun passes => broken ((check_named _).1 passes)

end PeekLock.QueueName
