import PeekLock.CommandLine.Run
import PeekLock.Proofs.Json.Lines
import PeekLock.Proofs.QueueName
import PeekLock.Proofs.Settings.Files
import PeekLock.Proofs.Toml.Lines

/-! # Settings that are shown, saved and loaded again

Settings that pass the check come back from their JSON whatever their timings are
(`json_loads_back`).  From their TOML they come back just as long as both timings are numbers of 64
bits with a sign; TOML has no larger ones, and a text with a larger one is refused as a whole
(`toml_loads_back`).

Nothing that a name may look like stands in the way.  A name needs no escape in quotes, and what
stands in quotes is a text in both formats.
-/

namespace PeekLock

open CommandLine (perform)

/-- No variable is for a setting. -/
def Environment.Unset (environment : List (String × String)) : Prop :=
  ∀ v ∈ environment, key? v.1 = none

theorem Environment.layer_eq_nil {environment : List (String × String)}
    (unset : Unset environment) : layer environment = [] := by
  refine List.filterMap_eq_nil_iff.2 fun v member => ?_
  simp only [unset v member, Option.map_none]

/-- Characters of a printable range are plain, if there is no quote in it and no backslash. -/
theorem Toml.isPlain_of_between {c low high : Char} (between : low ≤ c ∧ c ≤ high)
    (printable : 0x20 ≤ low.toNat) (ascii : high.toNat < 0x7F)
    (noQuote : ¬ (low ≤ '"' ∧ '"' ≤ high)) (noBackslash : ¬ (low ≤ '\\' ∧ '\\' ≤ high)) :
    IsPlain c := by
  have lower : low.toNat ≤ c.toNat := between.1
  have upper : c.toNat ≤ high.toNat := between.2
  refine ⟨by omega, by omega, ?_, ?_⟩
  · rintro rfl
    exact noQuote between
  · rintro rfl
    exact noBackslash between

theorem Toml.isPlain_of_isNameChar {c : Char} (allowed : QueueName.isNameChar c) : IsPlain c := by
  simp only [QueueName.isNameChar, QueueName.isSegmentChar, QueueName.isAlphanumeric,
    Bool.or_eq_true, Bool.and_eq_true, decide_eq_true_eq] at allowed
  rcases allowed with ((((small | capital) | digit) | rfl) | rfl) | rfl
  · exact isPlain_of_between small (by decide) (by decide) (by decide) (by decide)
  · exact isPlain_of_between capital (by decide) (by decide) (by decide) (by decide)
  · exact isPlain_of_between digit (by decide) (by decide) (by decide) (by decide)
  all_goals exact ⟨by decide, by decide, by decide, by decide⟩

namespace Settings

variable {s : Settings} {d : Directory} {path text : String} {format : FileFormat}
  {environment : List (String × String)} {entries : List (String × SettingValue)}

theorem isPlain_of_check (passes : s.check = .ok ()) : ∀ c ∈ s.name.toList, Toml.IsPlain c := by
  have rules : QueueName.KeepsRules s.name := by
    cases parsed : QueueName.parse s.name with
    | error e => simp [check, parsed] at passes
    | ok name => exact (QueueName.parse_eq_ok_iff.1 parsed).2
  exact fun c inside => Toml.isPlain_of_isNameChar (rules.characters c inside)

/-! ## Entries of what is shown -/

def timingLine (key : String) (n : Nat) : Toml.Line :=
  ⟨key, digitChars n, (Toml.bounded? n).map .integer⟩

/-- The lines of settings as TOML.  A timing that is too large stands for nothing. -/
def tomlLines (s : Settings) : List Toml.Line :=
  [⟨nameKey, Toml.quoteChars s.name, some (.text s.name)⟩,
    timingLine pollKey s.listenPollIntervalMs, timingLine receiveKey s.listenReceiveTimeoutMs]

theorem isBare_of_mem_fields {key : String} (member : key ∈ [nameKey, pollKey, receiveKey]) :
    Toml.IsBare key := by
  have all : ∀ key ∈ [nameKey, pollKey, receiveKey],
      key.toList ≠ [] ∧ key.toList.all Toml.isKeyChar := by decide
  obtain ⟨nonempty, bare⟩ := all key member
  exact ⟨nonempty, List.all_eq_true.1 bare⟩

theorem tomlLines_sound (plain : ∀ c ∈ s.name.toList, Toml.IsPlain c) :
    ∀ l ∈ s.tomlLines, l.IsSound := by
  have timing {key : String} (n : Nat) (member : key ∈ [nameKey, pollKey, receiveKey]) :
      (timingLine key n).IsSound :=
    ⟨isBare_of_mem_fields member, Toml.readsAs_digitChars n⟩
  simp only [tomlLines, List.forall_mem_cons]
  refine ⟨⟨?_, Toml.readsAs_quoteChars plain⟩, timing _ (by simp), timing _ (by simp), by simp⟩
  exact isBare_of_mem_fields (List.mem_cons_self ..)

theorem parse_tomlChars (plain : ∀ c ∈ s.name.toList, Toml.IsPlain c) :
    Toml.parse s.tomlChars =
      (Toml.bounded? s.listenPollIntervalMs).bind fun poll =>
        (Toml.bounded? s.listenReceiveTimeoutMs).map fun receive =>
          [(nameKey, .text s.name), (pollKey, .integer poll), (receiveKey, .integer receive)] := by
  have shown : s.tomlChars = s.tomlLines.flatMap Toml.Line.chars := by
    simp [tomlChars, tomlLines, timingLine, Toml.Line.chars]
  have distinct : (s.tomlLines.map Toml.Line.key).Nodup := by
    have keys : [nameKey, pollKey, receiveKey].Nodup := by decide
    exact keys
  rw [shown, Toml.parse_lines (tomlLines_sound plain) distinct]
  simp only [tomlLines, timingLine, List.mapM_cons, List.mapM_nil, Toml.Line.entry?]
  cases Toml.bounded? s.listenPollIntervalMs with
  | none => rfl
  | some poll => cases Toml.bounded? s.listenReceiveTimeoutMs <;> rfl

theorem read_toml (plain : ∀ c ∈ s.name.toList, Toml.IsPlain c) :
    FileFormat.toml.read (s.render .toml) =
      if s.listenPollIntervalMs ≤ maxSigned64 ∧ s.listenReceiveTimeoutMs ≤ maxSigned64 then
        some [(nameKey, .text s.name), (pollKey, .integer s.listenPollIntervalMs),
          (receiveKey, .integer s.listenReceiveTimeoutMs)]
      else none := by
  rw [FileFormat.read, render, String.toList_ofList, parse_tomlChars plain, Toml.bounded?_natCast,
    Toml.bounded?_natCast]
  by_cases poll : s.listenPollIntervalMs ≤ maxSigned64
  case neg => simp [poll]
  case pos =>
    by_cases receive : s.listenReceiveTimeoutMs ≤ maxSigned64
    case neg => simp [poll, receive]
    case pos => simp [poll, receive, FileFormat.ofToml]

/-- The members of settings as JSON, in the order of their lines. -/
def jsonMembers (s : Settings) : List (String × Json) :=
  [(nameKey, .text s.name), (pollKey, .integer s.listenPollIntervalMs),
    (receiveKey, .integer s.listenReceiveTimeoutMs)]

theorem read_json (poll : s.listenPollIntervalMs ≤ maxUnsigned64)
    (receive : s.listenReceiveTimeoutMs ≤ maxUnsigned64) :
    FileFormat.json.read (s.render .json) =
      some [(pollKey, .integer s.listenPollIntervalMs),
        (receiveKey, .integer s.listenReceiveTimeoutMs), (nameKey, .text s.name)] := by
  have fits : ∀ m ∈ s.jsonMembers, m.2.Fits 126 := by
    simp only [jsonMembers, List.forall_mem_cons]
    exact ⟨.text s.name, .integer (Toml.minSigned64_le_natCast _) (Int.ofNat_le.2 poll),
      .integer (Toml.minSigned64_le_natCast _) (Int.ofNat_le.2 receive), by simp⟩
  have shown : s.render .json = String.ofList (Json.lines s.jsonMembers) := rfl
  rw [FileFormat.read, shown, jsonMembers, Json.parse_lines _ fits]
  rfl

theorem withoutMark_ofList {c : Char} {cs : List Char} (other : c ≠ '\uFEFF') :
    withoutMark (String.ofList (c :: cs)) = String.ofList (c :: cs) := by
  unfold withoutMark
  split
  case h_1 marked =>
    rw [String.toList_ofList] at marked
    exact absurd (List.cons.inj marked).1 other
  case h_2 => rfl

theorem withoutMark_render (format : SettingsFormat) :
    withoutMark (s.render format) = s.render format := by
  cases format with
  | json => exact withoutMark_ofList (c := '\x7b') (by decide)
  | toml => exact withoutMark_ofList (c := 'n') (by decide)

/-! ## Loading -/

theorem load_of_entries (leads : d.LeadsTo path format text)
    (read : format.read (withoutMark text) = some entries)
    (unset : Environment.Unset environment) (passes : s.check = .ok ())
    (keys : ∀ entry ∈ entries, entry.1 ∈ [nameKey, pollKey, receiveKey])
    (name : entries.reverse.lookup nameKey = some (.text s.name))
    (poll : entries.reverse.lookup pollKey = some (.integer s.listenPollIntervalMs))
    (receive : entries.reverse.lookup receiveKey = some (.integer s.listenReceiveTimeoutMs)) :
    load d environment (some path) = .ok s := by
  refine load_eq_ok_iff.2 ⟨entries, fileEntries_eq_ok_iff.2 ⟨format, text, leads, read⟩, ?_, passes⟩
  have gives (field : String) : layered? entries [] field = entries.reverse.lookup field :=
    valueOf?_of_whole (fun entry member => whole_of_mem_fields (keys entry member)) field
  rw [Environment.layer_eq_nil unset]
  constructor
  case name => simp [gives, name, Supplies, SettingValue.toText]
  case poll => simp [gives, poll, Supplies, SettingValue.toNumber]
  case receive => simp [gives, receive, Supplies, SettingValue.toNumber]

/-- Settings that pass are shown as JSON, whatever their timings of 64 bits, and come back from
    where the text has been saved. -/
theorem json_loads_back (start : Timestamp) (correlationId : String) (s : Settings)
    (passes : s.check = .ok ()) (poll : s.listenPollIntervalMs ≤ maxUnsigned64)
    (receive : s.listenReceiveTimeoutMs ≤ maxUnsigned64) :
    perform start correlationId s (.showSettings .json) = .ok (s.render .json, 0) ∧
      ∀ (d : Directory) (path : String) (environment : List (String × String)),
        d.LeadsTo path .json (s.render .json) → Environment.Unset environment →
          load d environment (some path) = .ok s := by
  refine ⟨rfl, fun d path environment leads unset => ?_⟩
  have read := read_json poll receive
  rw [← withoutMark_render] at read
  exact load_of_entries leads read unset passes (by simp) rfl rfl rfl

/-- The longest timing comes back and so does one that no floating-point number is equal to, and
    a name that looks like a truth value stays a name. -/
theorem longest_timings_load_back :
    let s : Settings := ⟨"true", 18446744073709551615, 9223372036854775809⟩
    let d : Directory := ⟨[("conf/queue.json", s.render .json)], [], []⟩
    s.check = .ok () ∧ d.LeadsTo "conf/queue" .json (s.render .json) ∧
      load d [("HOME", "/root")] (some "conf/queue") = .ok s := by
  intro s d
  have passes : s.check = .ok () := by simp only [s]; rfl
  have leads : d.LeadsTo "conf/queue" .json (s.render .json) := .ending rfl rfl rfl
  have unset : Environment.Unset [("HOME", "/root")] := by
    intro v member
    rw [List.mem_singleton.1 member]
    rfl
  exact ⟨passes, leads,
    (json_loads_back .epoch "" s passes (by decide) (by decide)).2 d _ _ leads unset⟩

/-- Settings that pass are shown as TOML.  From where the text has been saved they come back if
    neither timing is larger than the integers of TOML, and are refused if one is. -/
theorem toml_loads_back (start : Timestamp) (correlationId : String) (s : Settings)
    (passes : s.check = .ok ()) :
    perform start correlationId s (.showSettings .toml) = .ok (s.render .toml, 0) ∧
      ∀ (d : Directory) (path : String) (environment : List (String × String)),
        d.LeadsTo path .toml (s.render .toml) → Environment.Unset environment →
          (s.listenPollIntervalMs ≤ maxSigned64 ∧ s.listenReceiveTimeoutMs ≤ maxSigned64 →
            load d environment (some path) = .ok s) ∧
          (maxSigned64 < s.listenPollIntervalMs ∨ maxSigned64 < s.listenReceiveTimeoutMs →
            ∃ reason, load d environment (some path) = .error (.parsing reason)) := by
  refine ⟨rfl, fun d path environment leads unset => ?_⟩
  have read := read_toml (isPlain_of_check passes)
  rw [← withoutMark_render] at read
  constructor
  · intro fits
    rw [if_pos fits] at read
    exact load_of_entries leads read unset passes (by simp) rfl rfl rfl
  · intro large
    rw [if_neg (by omega)] at read
    exact load_of_unreadable leads read

/-- The largest integer of TOML comes back. -/
theorem largest_integer_loads_back :
    let s : Settings := ⟨"1.5", 9223372036854775807, 1⟩
    let d : Directory := ⟨[("queue.toml", s.render .toml)], [], []⟩
    s.check = .ok () ∧ d.LeadsTo "queue.toml" .toml (s.render .toml) ∧
      load d [] (some "queue.toml") = .ok s := by
  intro s d
  have passes : s.check = .ok () := by simp only [s]; rfl
  have leads : d.LeadsTo "queue.toml" .toml (s.render .toml) := .itself rfl rfl
  exact ⟨passes, leads,
    ((toml_loads_back .epoch "" s passes).2 d _ _ leads (by nofun)).1 ⟨by decide, by decide⟩⟩

/-- One more than that is shown without a complaint, and does not come back. -/
theorem larger_integer_is_refused :
    let s : Settings := ⟨"memory", 9223372036854775808, 1000⟩
    let text := "name = \"memory\"\nlisten_poll_interval_ms = 9223372036854775808\n" ++
      "listen_receive_timeout_ms = 1000\n"
    let d : Directory := ⟨[("queue.toml", text)], [], []⟩
    s.check = .ok () ∧ perform .epoch "" s (.showSettings .toml) = .ok (text, 0) ∧
      load d [] (some "queue.toml") ≠ .ok s := by
  intro s text d
  have passes : s.check = .ok () := by simp only [s]; rfl
  have shown : s.render .toml = text := by decide
  have leads : d.LeadsTo "queue.toml" .toml text := .itself rfl rfl
  have read := read_toml (isPlain_of_check passes)
  rw [← withoutMark_render, shown, if_neg (by decide)] at read
  obtain ⟨reason, refused⟩ : ∃ reason, load d [] (some "queue.toml") = .error (.parsing reason) :=
    load_of_unreadable leads read
  refine ⟨passes, by rw [← shown]; rfl, ?_⟩
  rw [refused]
  nofun

end Settings

end PeekLock
