import PeekLock.Proofs.Settings.Layering

/-! # Which file a path leads to

A path leads to the file that has it, or else to the first file that has it with one of the known
endings (`find_eq_ok_iff`).  With an ending the path tells the format of that ending
(`ofName?_candidate`), so a file that is found this way is what its own path leads to
(`leadsTo_candidate`).

Nothing but the format and the text of the file counts for its entries (`fileEntries_eq_ok_iff`).
-/

namespace PeekLock

/-! ## Names and paths -/

/-- The ending of a name is what stands behind its last point. -/
theorem FileFormat.extension?_append {stem ending : String} (named : stem ≠ "")
    (plain : '.' ∉ ending.toList) : extension? (stem ++ "." ++ ending) = some ending := by
  have reversed : (stem ++ "." ++ ending).toList.reverse =
      ending.toList.reverse ++ '.' :: stem.toList.reverse := by simp
  have noPoint : ∀ c ∈ ending.toList.reverse, decide (c ≠ '.') = true := by
    intro c inside
    refine decide_eq_true ?_
    rintro rfl
    exact plain (List.mem_reverse.1 inside)
  have parted : (ending.toList.reverse ++ '.' :: stem.toList.reverse).span (· ≠ '.') =
      (ending.toList.reverse, '.' :: stem.toList.reverse) := by
    rw [List.span_eq_takeWhile_dropWhile, List.takeWhile_append_of_pos noPoint,
      List.dropWhile_append_of_pos noPoint]
    simp
  have more : stem.toList.reverse ≠ [] := by simpa using named
  obtain ⟨c, cs, chars⟩ := List.exists_cons_of_ne_nil more
  simp only [extension?, reversed, parted]
  rw [chars, List.reverse_reverse, String.ofList_toList]

namespace Directory

variable {d : Directory} {path candidate ending last text : String} {format : FileFormat}
  {current cs : List Char}

theorem splitPath_of_not_mem (plain : '/' ∉ cs) :
    splitPath current cs = [String.ofList (current.reverse ++ cs)] := by
  induction cs generalizing current with
  | nil => simp [splitPath]
  | cons c cs ih =>
    obtain ⟨differs, later⟩ := List.ne_and_not_mem_of_not_mem_cons plain
    rw [splitPath, ih later]
    · simp
    · exact Ne.symm differs

theorem splitPath_append (current cs rest : List Char) :
    splitPath current (cs ++ '/' :: rest) = splitPath current cs ++ splitPath [] rest := by
  induction cs generalizing current with
  | nil => rfl
  | cons c cs ih =>
    by_cases slash : c = '/'
    · subst slash
      simp [splitPath, ih]
    · rw [List.cons_append, splitPath, splitPath, ih] <;> exact slash

theorem not_mem_of_splitPath (before : '/' ∉ current) :
    ∀ part ∈ splitPath current cs, '/' ∉ part.toList := by
  induction cs generalizing current with
  | nil => simpa [splitPath] using before
  | cons c cs ih =>
    by_cases slash : c = '/'
    · subst slash
      rw [splitPath, List.forall_mem_cons]
      exact ⟨by simpa using before, ih List.not_mem_nil⟩
    · rw [splitPath]
      · exact ih (List.not_mem_cons_of_ne_of_not_mem (Ne.symm slash) before)
      · exact slash

/-- What can be a part of a path: a name or two points. -/
structure IsPart (part : String) : Prop where
  nonempty : part ≠ ""
  elsewhere : part ≠ "."
  whole : '/' ∉ part.toList

theorem isPart_of_mem_parts {part : String} (member : part ∈ parts path) : IsPart part := by
  obtain ⟨split, kept⟩ := List.mem_filter.1 member
  simp only [Bool.and_eq_true, decide_eq_true_eq] at kept
  exact ⟨kept.1, kept.2, not_mem_of_splitPath List.not_mem_nil part split⟩

/-- The last part of a path is what stands behind its last slash. -/
theorem getLast?_parts (part : IsPart last)
    (ends : path.toList = last.toList ∨ ∃ front, path.toList = front ++ '/' :: last.toList) :
    (parts path).getLast? = some last := by
  have alone : splitPath [] last.toList = [last] := by
    simp [splitPath_of_not_mem part.whole]
  rcases ends with same | ⟨front, same⟩
  · simp [parts, same, alone, part.nonempty, part.elsewhere]
  · simp [parts, same, splitPath_append, alone, part.nonempty, part.elsewhere]

/-! ## Endings -/

/-- With an ending the last name of a path is longer, and nothing is behind it. -/
theorem ends_of_withEnding? (added : withEnding? path ending = some candidate) :
    ∃ last ∈ parts path, candidate.toList = (last ++ "." ++ ending).toList ∨
      ∃ front, candidate.toList = front ++ '/' :: (last ++ "." ++ ending).toList := by
  simp only [withEnding?, Option.bind_eq_bind, Option.bind_eq_some_iff] at added
  obtain ⟨last, isLast, added⟩ := added
  refine ⟨last, List.mem_of_getLast? isLast, ?_⟩
  split at added
  case isTrue => cases added
  case isFalse =>
    obtain rfl := Option.some.inj added
    -- What is in front of the name ends in a slash: that of the join, or that of the root.
    by_cases first : (parts path).dropLast = []
    · rw [first, List.nil_append, String.intercalate_singleton]
      split
      · exact .inr ⟨[], by simp⟩
      · exact .inl rfl
    · rw [String.intercalate_append_of_ne_nil first (List.cons_ne_nil _ _),
        String.intercalate_singleton]
      split
      · exact .inr ⟨'/' :: ("/".intercalate (parts path).dropLast).toList, by simp⟩
      · exact .inr ⟨("/".intercalate (parts path).dropLast).toList, by simp⟩

/-- A path with a known ending is that of a file in the format of the ending. -/
theorem ofName?_candidate (member : (candidate, format) ∈ candidates path) :
    FileFormat.ofName? ((parts candidate).getLast?.getD "") = some format := by
  have known : ∀ e ∈ FileFormat.extensions, '.' ∉ e.1.toList ∧ '/' ∉ e.1.toList ∧
      List.lookup e.1 FileFormat.extensions = some e.2 := by decide
  obtain ⟨⟨ending, format'⟩, extension, tried⟩ := List.mem_filterMap.1 member
  obtain ⟨candidate', added, same⟩ := Option.map_eq_some_iff.1 tried
  obtain ⟨rfl, rfl⟩ := Prod.mk.inj same
  obtain ⟨noPoint, noSlash, found⟩ := known _ extension
  obtain ⟨last, isPart, ends⟩ := ends_of_withEnding? added
  have isPart := isPart_of_mem_parts isPart
  have name : IsPart (last ++ "." ++ ending) := by
    constructor
    case nonempty => simp
    case elsewhere =>
      -- The name is at least a stem and a point, and the stem is not empty.
      intro same
      have lengths := congrArg String.length same
      have := String.length_eq_zero_iff.not.2 isPart.nonempty
      simp at lengths
      omega
    case whole => simp [isPart.whole, noSlash]
  rw [getLast?_parts name ends, Option.getD_some, FileFormat.ofName?,
    FileFormat.extension?_append isPart.nonempty noPoint]
  exact found

/-! ## Files -/

/-- The first path with an ending that is that of a file. -/
def firstCandidate? (d : Directory) (path : String) : Option (String × FileFormat) :=
  (candidates path).find? fun c => (d.text? c.1).isSome

/-- The file that a path leads to, told by its format and its text. -/
inductive LeadsTo (d : Directory) (path : String) (format : FileFormat) (text : String) : Prop where
  | itself : d.text? path = some text →
      FileFormat.ofName? ((parts path).getLast?.getD "") = some format → LeadsTo d path format text
  | ending {candidate : String} : d.text? path = none →
      d.firstCandidate? path = some (candidate, format) → d.text? candidate = some text →
      LeadsTo d path format text

/-- A search through a list ends at the first element that gives anything. -/
theorem findSome?_eq_bind {α β : Type} (f : α → Option β) (l : List α) :
    l.findSome? f = (l.find? fun a => (f a).isSome).bind f := by
  induction l with
  | nil => rfl
  | cons a l ih =>
    cases gives : f a with
    | none => simp [gives, ih]
    | some b => simp [gives]

theorem text?_of_firstCandidate? {c : String × FileFormat}
    (first : d.firstCandidate? path = some c) : ∃ text, d.text? c.1 = some text := by
  have there := List.find?_some first
  exact Option.isSome_iff_exists.1 there

/-- The file that has the path of a candidate, if there is one. -/
def attempt (d : Directory) (c : String × FileFormat) : Option SettingsFile :=
  (d.text? c.1).bind fun text => some ⟨d.originOf c.1, c.2, text⟩

theorem findSome?_attempt (d : Directory) (path : String) :
    (candidates path).findSome? d.attempt = (d.firstCandidate? path).bind d.attempt := by
  have attempts (c : String × FileFormat) : (d.attempt c).isSome = (d.text? c.1).isSome := by
    rw [attempt]
    cases d.text? c.1 <;> rfl
  rw [findSome?_eq_bind, firstCandidate?]
  simp only [attempts]

/-- Where no file has the path itself, the first candidate counts. -/
theorem find_eq_ok_of_missing {file : SettingsFile} (missing : d.text? path = none) :
    d.find path = .ok file ↔ (d.firstCandidate? path).bind d.attempt = some file := by
  rw [← findSome?_attempt]
  simp only [find, missing]
  constructor
  · intro found
    split at found
    case h_1 attempted => exact Except.ok.inj found ▸ attempted
    case h_2 => cases found
  · intro attempted
    split
    case h_1 attempted' => exact congrArg _ (Option.some.inj (attempted'.symm.trans attempted))
    case h_2 attempted' => cases attempted'.symm.trans attempted

theorem find_eq_ok_iff :
    (∃ origin, d.find path = .ok ⟨origin, format, text⟩) ↔ d.LeadsTo path format text := by
  constructor
  · rintro ⟨origin, found⟩
    cases there : d.text? path with
    | some text' =>
      simp only [find, there] at found
      split at found
      case h_1 known =>
        obtain ⟨_, rfl, rfl⟩ := SettingsFile.mk.inj (Except.ok.inj found)
        exact .itself there known
      case h_2 => cases found
    | none =>
      obtain ⟨c, first, attempted⟩ :=
        Option.bind_eq_some_iff.1 ((find_eq_ok_of_missing there).1 found)
      obtain ⟨text', inside, same⟩ := Option.bind_eq_some_iff.1 attempted
      obtain ⟨_, rfl, rfl⟩ := SettingsFile.mk.inj (Option.some.inj same)
      exact .ending there first inside
  · rintro (⟨there, known⟩ | @⟨candidate, missing, first, there⟩)
    · exact ⟨d.originOf path, by simp only [find, there, known]⟩
    · refine ⟨d.originOf candidate, (find_eq_ok_of_missing missing).2 ?_⟩
      simp only [first, attempt, there, Option.bind_some]

theorem leadsTo_candidate (first : d.firstCandidate? path = some (candidate, format))
    (there : d.text? candidate = some text) : d.LeadsTo candidate format text :=
  .itself there (ofName?_candidate (List.mem_of_find?_eq_some first))

theorem hasPath_of_text? (there : d.text? path = some text) : d.hasPath path := by
  have named : path.isEmpty = false := by
    refine Bool.eq_false_iff.2 fun empty => ?_
    rw [String.isEmpty_iff.1 empty] at there
    cases there
  simp [hasPath, named, there]

/-- A path leads to one file at most. -/
theorem LeadsTo.unique {format' : FileFormat} {text' : String} (leads : d.LeadsTo path format text)
    (leads' : d.LeadsTo path format' text') : format' = format ∧ text' = text := by
  obtain ⟨origin, found⟩ := find_eq_ok_iff.2 leads
  obtain ⟨origin', found'⟩ := find_eq_ok_iff.2 leads'
  obtain ⟨_, same⟩ := SettingsFile.mk.inj (Except.ok.inj (found'.symm.trans found))
  exact same

end Directory

/-! ## Entries -/

namespace Settings

variable {d : Directory} {path text : String} {format : FileFormat}
  {environment : List (String × String)} {entries : List (String × SettingValue)}

theorem fileEntries_eq_ok_iff : fileEntries d (some path) = .ok entries ↔
    ∃ format text, d.LeadsTo path format text ∧ format.read (withoutMark text) = some entries := by
  have layered (file : SettingsFile) : file.layer = .ok entries ↔
      file.format.read (withoutMark file.text) = some entries := by
    simp only [SettingsFile.layer]
    cases file.format.read (withoutMark file.text) <;> simp
  constructor
  · intro read
    obtain ⟨file, found, layer⟩ := bind_eq_ok read
    exact ⟨file.format, file.text, Directory.find_eq_ok_iff.1 ⟨file.origin, found⟩,
      (layered file).1 layer⟩
  · rintro ⟨format, text, leads, read⟩
    obtain ⟨origin, found⟩ := Directory.find_eq_ok_iff.2 leads
    simp only [fileEntries, found, bind, Except.bind]
    exact (layered _).2 read

/-- Nothing is loaded from a text that breaks the rules of its format. -/
theorem load_of_unreadable (leads : d.LeadsTo path format text)
    (broken : format.read (withoutMark text) = none) :
    ∃ reason, load d environment (some path) = .error (.parsing reason) := by
  rcases load_cases d environment (some path) with ⟨reason, _, fails⟩ | ⟨file, _, entries, _⟩
  · exact ⟨reason, fails⟩
  · obtain ⟨format', text', leads', read⟩ := fileEntries_eq_ok_iff.1 entries
    obtain ⟨rfl, rfl⟩ := leads.unique leads'
    simp [broken] at read

end Settings

end PeekLock
