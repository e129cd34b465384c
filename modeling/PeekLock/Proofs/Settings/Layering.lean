import Mathlib.Data.List.TakeDrop
import PeekLock.Broker.Operations
import PeekLock.Proofs.Json.Record
import PeekLock.Proofs.Keyed
import PeekLock.Settings.Load

/-! # Layers of settings, told by what they give

Entries are gathered one after the other, each over what was there before.  What counts for a field
in the end is told without the gathering: it is what the last entry gives that is for
the field or for a part of it, and the environment comes after the file
(`value?_add`).  An entry for a part makes the field a table or a list, which fits no
setting.

From this, loading is told by its three outcomes: settings, if the layers have them and they pass
the check (`load_eq_ok_iff`); a rule that is broken, if the layers have settings that do not pass
(`load_eq_invalid_iff`); and else something that cannot be read.
-/

namespace PeekLock

/-- A computation of two steps that fails has failed in the first or in the second. -/
theorem bind_eq_error {ε α β : Type} {x : Except ε α} {f : α → Except ε β} {e : ε}
    (fails : (x >>= f) = .error e) : x = .error e ∨ ∃ a, x = .ok a ∧ f a = .error e := by
  cases x with
  | error _ => exact .inl (congrArg _ (Except.error.inj fails))
  | ok a => exact .inr ⟨a, rfl, fails⟩

/-! ## What entries give a field -/

/-- What an entry gives a field: its value if it stands under the field itself, and a table or a
    list if it stands under a part of the field. -/
def given? (field : String) (entry : String × SettingValue) : Option SettingValue :=
  let path := KeyPath.parse entry.1
  if path.root = field then
    match path.step with
    | none => some entry.2
    | some .name => some .table
    | some .index => some .list
  else none

/-- What the entries of a layer give a field: the last one that gives it anything counts. -/
def valueOf? (field : String) (layer : List (String × SettingValue)) : Option SettingValue :=
  layer.reverse.findSome? (given? field)

variable {field : String} {layer : List (String × SettingValue)}

theorem valueOf?_cons (field : String) (entry : String × SettingValue)
    (layer : List (String × SettingValue)) :
    valueOf? field (entry :: layer) = (valueOf? field layer).or (given? field entry) := by
  simp [valueOf?]

namespace KeyPath

/-- Only where nothing is left there is no step. -/
theorem eq_nil_of_steps? {rounds : Nat} {cs : List Char} (read : steps? rounds cs = some []) :
    cs = [] := by
  cases rounds with
  | zero => simp [steps?] at read
  | succ rounds =>
    simp only [steps?] at read
    split at read
    · rfl
    · split at read <;> simp at read
    · simp [Option.bind_eq_some_iff] at read
    · simp at read

/-- A key without steps is its own root. -/
theorem root_of_step_eq_none {key : String} (whole : (parse key).step = none) :
    (parse key).root = key := by
  simp only [parse, List.span_eq_takeWhile_dropWhile] at whole ⊢
  split
  case h_2 => rfl
  case h_1 c cs steps named read =>
    simp only [named, read, List.head?_eq_none_iff] at whole
    subst whole
    have ends := eq_nil_of_steps? read
    have all := List.takeWhile_append_dropWhile (p := isNameChar) (l := key.toList)
    rw [ends, List.append_nil] at all
    simp [all]

end KeyPath

/-! ## Settings of what is given -/

/-- A setting is what is given for it, coerced, or else its default. -/
def Supplies {α : Type} (given : Option SettingValue) (coerce : SettingValue → Except String α)
    (default x : α) : Prop :=
  match given with
  | none => x = default
  | some v => coerce v = .ok x

/-- Settings that are made of what is given for each field. -/
structure Settings.Supplied (given : String → Option SettingValue) (s : Settings) : Prop where
  name : Supplies (given nameKey) SettingValue.toText default.name s.name
  poll : Supplies (given pollKey) SettingValue.toNumber default.listenPollIntervalMs
    s.listenPollIntervalMs
  receive : Supplies (given receiveKey) SettingValue.toNumber default.listenReceiveTimeoutMs
    s.listenReceiveTimeoutMs

/-! ## What is gathered -/

namespace Gathered

/-- What has been gathered for a field, wherever it comes from. -/
def value? (g : Gathered) (field : String) : Option SettingValue :=
  (Keyed.get? field g).map Setting.value

theorem value?_assign (g : Gathered) (origin field : String) (entry : String × SettingValue) :
    (g.assign origin entry.1 entry.2).value? field =
      (given? field entry).or (g.value? field) := by
  simp only [value?, assign, Keyed.get?_insert, given?]
  by_cases concerns : field = (KeyPath.parse entry.1).root
  case neg => simp [concerns, Ne.symm concerns]
  case pos =>
    subst concerns
    simp only [↓reduceIte, Option.map_some]
    cases (KeyPath.parse entry.1).step with
    | none => cases entry.2 <;> rfl
    | some step =>
      cases step with
      | name => rfl
      | index =>
        -- A list that is there already keeps its place, and is a list all the same.
        dsimp only
        split <;> rfl

/-- A layer over what was there before. -/
theorem value?_add (g : Gathered) (origin field : String)
    (layer : List (String × SettingValue)) :
    (g.add origin layer).value? field = (valueOf? field layer).or (g.value? field) := by
  induction layer generalizing g with
  | nil => rfl
  | cons entry rest ih =>
    have step : g.add origin (entry :: rest) = (g.assign origin entry.1 entry.2).add origin rest :=
      rfl
    rw [step, ih, value?_assign, valueOf?_cons, Option.or_assoc]

/-! ## What is read -/

section

variable {α : Type} {g : Gathered} {key : String} {coerce : SettingValue → Except String α}
  {default x : α} {s : Settings}

theorem read_eq_ok_iff : g.read key coerce default = .ok x ↔
    Supplies (g.value? key) coerce default x := by
  simp only [read, value?]
  cases Keyed.get? key g with
  | none => simp [Supplies, eq_comm]
  | some setting =>
    simp only [Option.map_some, Supplies]
    cases coerce setting.value <;> simp

theorem parsing_of_read {e : ConfigurationError} (fails : g.read key coerce default = .error e) :
    ∃ reason, e = .parsing reason := by
  simp only [read] at fails
  split at fails
  · simp at fails
  · split at fails
    · simp at fails
    · exact ⟨_, (Except.error.inj fails).symm⟩

theorem settings_eq_ok_iff : g.settings = .ok s ↔ s.Supplied g.value? := by
  simp only [settings]
  constructor
  · intro done
    obtain ⟨name, named, done⟩ := bind_eq_ok done
    obtain ⟨poll, polled, done⟩ := bind_eq_ok done
    obtain ⟨receive, received, done⟩ := bind_eq_ok done
    obtain rfl := Except.ok.inj done
    exact ⟨read_eq_ok_iff.1 named, read_eq_ok_iff.1 polled, read_eq_ok_iff.1 received⟩
  · rintro ⟨name, poll, receive⟩
    simp only [read_eq_ok_iff.2 name, read_eq_ok_iff.2 poll, read_eq_ok_iff.2 receive]
    rfl

theorem parsing_of_settings {e : ConfigurationError} (fails : g.settings = .error e) :
    ∃ reason, e = .parsing reason := by
  simp only [settings] at fails
  -- The first field that cannot be read is reported.
  obtain named | ⟨_, _, fails⟩ := bind_eq_error fails
  · exact parsing_of_read named
  obtain polled | ⟨_, _, fails⟩ := bind_eq_error fails
  · exact parsing_of_read polled
  obtain received | ⟨_, _, fails⟩ := bind_eq_error fails
  · exact parsing_of_read received
  · cases fails

end

end Gathered

/-! ## Loading -/

namespace Settings

theorem invalid_of_check {s : Settings} {e : ConfigurationError} (fails : s.check = .error e) :
    ∃ reason, e = .invalid reason := by
  have timing {key : String} {n : Nat} (fails : checkTiming key n = .error e) :
      ∃ reason, e = .invalid reason := by
    simp only [checkTiming] at fails
    split at fails
    · exact ⟨_, (Except.error.inj fails).symm⟩
    · cases fails
  simp only [check] at fails
  split at fails
  · exact ⟨_, (Except.error.inj fails).symm⟩
  · obtain polled | ⟨_, _, received⟩ := bind_eq_error fails
    · exact timing polled
    · exact timing received

/-- The entries of the file, if one is asked for. -/
def fileEntries (d : Directory) (path : Option String) :
    Except ConfigurationError (List (String × SettingValue)) :=
  match path with
  | none => .ok []
  | some path => do
    let file ← d.find path
    file.layer

/-- What a file and the environment give a field; the environment wins. -/
def layered? (file environment : List (String × SettingValue)) (field : String) :
    Option SettingValue :=
  (valueOf? field environment).or (valueOf? field file)

variable {d : Directory} {environment : List (String × String)} {path : Option String}
  {s : Settings}

theorem parsing_of_find {p : String} {e : ConfigurationError} (fails : d.find p = .error e) :
    ∃ reason, e = .parsing reason := by
  simp only [Directory.find] at fails
  split at fails
  all_goals
    split at fails
    all_goals first
      | exact ⟨_, (Except.error.inj fails).symm⟩
      | cases fails

theorem parsing_of_layer {file : SettingsFile} {e : ConfigurationError}
    (fails : file.layer = .error e) : ∃ reason, e = .parsing reason := by
  simp only [SettingsFile.layer] at fails
  split at fails
  · cases fails
  · exact ⟨_, (Except.error.inj fails).symm⟩

/-- A file cannot be read, or else its entries are gathered. -/
theorem fileLayer_cases (d : Directory) (path : Option String) :
    (∃ reason, fileEntries d path = .error (.parsing reason) ∧
      fileLayer d path = .error (.parsing reason)) ∨
    ∃ file g, fileEntries d path = .ok file ∧ fileLayer d path = .ok g ∧
      ∀ field, g.value? field = valueOf? field file := by
  cases path with
  | none => exact .inr ⟨[], [], rfl, rfl, fun _ => rfl⟩
  | some path =>
    simp only [fileEntries, fileLayer]
    cases found : d.find path with
    | error e =>
      obtain ⟨reason, rfl⟩ := parsing_of_find found
      exact .inl ⟨reason, rfl, rfl⟩
    | ok file =>
      cases read : file.layer with
      | error e =>
        obtain ⟨reason, rfl⟩ := parsing_of_layer read
        exact .inl ⟨reason, read, by simp only [bind, Except.bind, read]⟩
      | ok layer =>
        refine .inr ⟨layer, Gathered.add [] file.origin layer, read, ?_, fun field => ?_⟩
        · simp only [bind, Except.bind, read]
          rfl
        · rw [Gathered.value?_add]
          exact Option.or_none

/-- Loading fails with the file, or else goes by what both layers give together. -/
theorem load_cases (d : Directory) (environment : List (String × String))
    (path : Option String) :
    (∃ reason, fileEntries d path = .error (.parsing reason) ∧
      load d environment path = .error (.parsing reason)) ∨
    ∃ file, ∃ g : Gathered, fileEntries d path = .ok file ∧
      g.value? = layered? file (Environment.layer environment) ∧
      load d environment path =
        g.settings >>= fun s => s.check >>= fun _ => .ok s := by
  rcases fileLayer_cases d path with ⟨reason, entries, fails⟩ | ⟨file, g, entries, layer, values⟩
  · exact .inl ⟨reason, entries, by rw [load, fails]; rfl⟩
  · refine .inr ⟨file, g.add Environment.origin (Environment.layer environment), entries, ?_, ?_⟩
    · funext field
      rw [Gathered.value?_add, values, layered?]
    · rw [load, layer]
      rfl

theorem load_eq_ok_iff : load d environment path = .ok s ↔
    ∃ file, fileEntries d path = .ok file ∧
      s.Supplied (layered? file (Environment.layer environment)) ∧ s.check = .ok () := by
  rcases load_cases d environment path with
    ⟨reason, entries, load⟩ | ⟨file, g, entries, values, load⟩
  · simp [entries, load]
  · simp only [load, entries, Except.ok.injEq, exists_eq_left', ← values,
      ← Gathered.settings_eq_ok_iff]
    constructor
    · intro done
      obtain ⟨s', read, done⟩ := bind_eq_ok done
      obtain ⟨_, passed, done⟩ := bind_eq_ok done
      obtain rfl := Except.ok.inj done
      exact ⟨read, passed⟩
    · rintro ⟨read, passed⟩
      simp only [read, passed, bind, Except.bind]

theorem load_eq_invalid_iff : (∃ reason, load d environment path = .error (.invalid reason)) ↔
    ∃ file, ∃ s : Settings, fileEntries d path = .ok file ∧
      s.Supplied (layered? file (Environment.layer environment)) ∧ s.check ≠ .ok () := by
  rcases load_cases d environment path with
    ⟨reason, entries, load⟩ | ⟨file, g, entries, values, load⟩
  · simp [entries, load]
  · simp only [load, entries, Except.ok.injEq, exists_and_left, exists_eq_left', ← values,
      ← Gathered.settings_eq_ok_iff]
    constructor
    · rintro ⟨reason, fails⟩
      rcases bind_eq_error fails with unread | ⟨s, read, fails⟩
      · obtain ⟨_, other⟩ := Gathered.parsing_of_settings unread
        cases other
      · rcases bind_eq_error fails with refused | ⟨_, _, done⟩
        · exact ⟨s, read, by simp [refused]⟩
        · cases done
    · rintro ⟨s, read, broken⟩
      cases checked : s.check with
      | ok _ => exact absurd checked broken
      | error e =>
        obtain ⟨reason, rfl⟩ := invalid_of_check checked
        exact ⟨reason, by simp only [read, checked, bind, Except.bind]⟩

/-! ## Variables -/

/-- No field is named by two variables, capital letters counting as small ones. -/
def NamedOnce (environment : List (String × String)) : Prop :=
  ∀ field ∈ [nameKey, pollKey, receiveKey], ∀ v ∈ environment, ∀ w ∈ environment,
    Environment.key? v.1 = some field → Environment.key? w.1 = some field → v = w

/-- A setting is the value of its variable, coerced; without a variable it is what the file gives
    for it, coerced, and else its default. -/
structure Resolves {α : Type} (file : List (String × SettingValue))
    (environment : List (String × String)) (field : String)
    (coerce : SettingValue → Except String α) (default x : α) : Prop where
  of_variable : ∀ v ∈ environment, Environment.key? v.1 = some field → coerce (.text v.2) = .ok x
  of_file : (∀ v ∈ environment, Environment.key? v.1 ≠ some field) →
    Supplies (valueOf? field file) coerce default x

theorem whole_of_mem_fields {field : String} (member : field ∈ [nameKey, pollKey, receiveKey]) :
    KeyPath.parse field = ⟨field, none⟩ := by
  have all : ∀ field ∈ [nameKey, pollKey, receiveKey], KeyPath.parse field = ⟨field, none⟩ := by
    decide
  exact all field member

/-- A key that is no path gives nothing to another field. -/
theorem given?_of_whole {key : String} (whole : KeyPath.parse key = ⟨key, none⟩) (field : String)
    (v : SettingValue) : given? field (key, v) = if key = field then some v else none := by
  simp [given?, whole]

/-- Without paths, what a field gets is looked up. -/
theorem valueOf?_of_whole {layer : List (String × SettingValue)}
    (whole : ∀ entry ∈ layer, KeyPath.parse entry.1 = ⟨entry.1, none⟩) (field : String) :
    valueOf? field layer = layer.reverse.lookup field := by
  have search (entries : List (String × SettingValue))
      (whole : ∀ entry ∈ entries, KeyPath.parse entry.1 = ⟨entry.1, none⟩) :
      entries.findSome? (given? field) = entries.lookup field := by
    induction entries with
    | nil => rfl
    | cons entry rest ih =>
      obtain ⟨first, later⟩ := List.forall_mem_cons.1 whole
      rw [List.findSome?_cons, List.lookup_cons, ih later, given?_of_whole first]
      by_cases same : entry.1 = field
      · simp [same]
      · simp [same, beq_false_of_ne (Ne.symm same)]
  exact search layer.reverse fun entry member => whole entry (List.mem_reverse.1 member)

/-- What makes a field neither a table nor a list stands under the field itself. -/
theorem eq_of_given? {field : String} {entry : String × SettingValue} {v : SettingValue}
    (gives : given? field entry = some v) (noTable : v ≠ .table) (noList : v ≠ .list) :
    entry = (field, v) := by
  simp only [given?] at gives
  split at gives
  case isFalse => cases gives
  case isTrue concerns =>
    split at gives
    case h_1 whole =>
      obtain rfl := Option.some.inj gives
      exact Prod.ext ((KeyPath.root_of_step_eq_none whole).symm.trans concerns) rfl
    case h_2 => exact absurd (Option.some.inj gives).symm noTable
    case h_3 => exact absurd (Option.some.inj gives).symm noList

section

variable {α : Type} {coerce : SettingValue → Except String α} {default x : α} {field : String}
  {file : List (String × SettingValue)}

theorem resolves_of_supplies (whole : KeyPath.parse field = ⟨field, none⟩)
    (once : ∀ v ∈ environment, ∀ w ∈ environment, Environment.key? v.1 = some field →
      Environment.key? w.1 = some field → v = w)
    (noTable : ∀ y, coerce .table ≠ .ok y) (noList : ∀ y, coerce .list ≠ .ok y)
    (supplied : Supplies (layered? file (Environment.layer environment) field) coerce default x) :
    Resolves file environment field coerce default x := by
  cases given : valueOf? field (Environment.layer environment) with
  | none =>
    have silent : ∀ v ∈ environment, Environment.key? v.1 ≠ some field := by
      intro v member names
      have entry : (field, SettingValue.text v.2) ∈ Environment.layer environment :=
        List.mem_filterMap.2 ⟨v, member, by simp [names]⟩
      have gives := List.findSome?_eq_none_iff.1 given _ (List.mem_reverse.2 entry)
      simp [given?_of_whole whole] at gives
    rw [layered?, given, Option.none_or] at supplied
    exact ⟨fun v member names => absurd names (silent v member), fun _ => supplied⟩
  | some value =>
    simp only [layered?, given, Option.some_or, Supplies] at supplied
    obtain ⟨entry, member, gives⟩ := List.exists_of_findSome?_eq_some given
    -- A table or a list would not have been coerced, so the entry is of a variable for the field.
    have entry_eq := eq_of_given? gives (by rintro rfl; exact noTable x supplied)
      (by rintro rfl; exact noList x supplied)
    obtain ⟨w, member', layer⟩ := List.mem_filterMap.1 (List.mem_reverse.1 member)
    obtain ⟨key, names, entry'⟩ := Option.map_eq_some_iff.1 layer
    obtain ⟨rfl, rfl⟩ := Prod.mk.inj (entry'.trans entry_eq)
    constructor
    case of_variable =>
      intro v inside names'
      rw [once v inside w member' names' names]
      exact supplied
    case of_file => exact fun silent => absurd names (silent w member')

end

/-- Settings that are loaded have each field from its variable, or else from the file, or else by
    default; they pass the check, and every broker makes a queue of them.  A rule that is broken is
    reported just where the layers have settings that do not pass, and then there are no
    settings. -/
theorem loaded_is_layered (d : Directory) (environment : List (String × String))
    (path : Option String) (once : NamedOnce environment) :
    (∀ s, load d environment path = .ok s →
      (∃ file, fileEntries d path = .ok file ∧
        Resolves file environment nameKey SettingValue.toText default.name s.name ∧
        Resolves file environment pollKey SettingValue.toNumber default.listenPollIntervalMs
          s.listenPollIntervalMs ∧
        Resolves file environment receiveKey SettingValue.toNumber default.listenReceiveTimeoutMs
          s.listenReceiveTimeoutMs) ∧
      s.check = .ok () ∧
      ∀ (b : Broker) (counters : Option Nat),
        b.newQueueOf s counters = .ok (b.addQueue s counters)) ∧
    ((∃ reason, load d environment path = .error (.invalid reason)) ↔
      ∃ file, ∃ s : Settings, fileEntries d path = .ok file ∧
        s.Supplied (layered? file (Environment.layer environment)) ∧ s.check ≠ .ok ()) := by
  refine ⟨fun s loaded => ?_, load_eq_invalid_iff⟩
  obtain ⟨file, entries, supplied, passed⟩ := load_eq_ok_iff.1 loaded
  have named : nameKey ∈ [nameKey, pollKey, receiveKey] := by simp
  have polled : pollKey ∈ [nameKey, pollKey, receiveKey] := by simp
  have received : receiveKey ∈ [nameKey, pollKey, receiveKey] := by simp
  refine ⟨⟨file, entries, ?_, ?_, ?_⟩, passed, fun b counters => by rw [Broker.newQueueOf, passed]⟩
  · exact resolves_of_supplies (whole_of_mem_fields named) (once _ named) nofun nofun supplied.name
  · exact resolves_of_supplies (whole_of_mem_fields polled) (once _ polled) nofun nofun
      supplied.poll
  · exact resolves_of_supplies (whole_of_mem_fields received) (once _ received) nofun nofun
      supplied.receive

/-- A name from a variable, a timing from a text in the file, and a default. -/
theorem loaded_is_layered_of_three :
    let d : Directory := ⟨[("queue.toml",
      "name = \"orders\"\nlisten_poll_interval_ms = \"250\"")], [], []⟩
    let environment := [("PATH", "/bin"), ("Memqueue__Name", "jobs")]
    let s : Settings := ⟨"jobs", 250, 1000⟩
    NamedOnce environment ∧ load d environment (some "queue.toml") = .ok s ∧
      (∃ file, fileEntries d (some "queue.toml") = .ok file ∧
        Resolves file environment nameKey SettingValue.toText default.name s.name ∧
        Resolves file environment pollKey SettingValue.toNumber default.listenPollIntervalMs
          s.listenPollIntervalMs ∧
        Resolves file environment receiveKey SettingValue.toNumber default.listenReceiveTimeoutMs
          s.listenReceiveTimeoutMs) ∧
      s.check = .ok () := by
  intro d environment s
  have once : NamedOnce environment := by
    simp only [NamedOnce]
    decide
  have loaded : load d environment (some "queue.toml") = .ok s := by
    simp only [d, environment, s]
    rfl
  obtain ⟨layered, passed, _⟩ := (loaded_is_layered d environment _ once).1 s loaded
  exact ⟨once, loaded, layered, passed⟩

end Settings

end PeekLock
