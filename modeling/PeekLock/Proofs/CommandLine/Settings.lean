import PeekLock.CommandLine.Run
import PeekLock.Proofs.Settings.Files

/-! # Settings of a command

A command looks whether there is anything under the path of its settings before it loads them.
Where there is, it loads what is loaded without that look (`loadSettings_eq_ok_iff`).  Where there is
not, it gives up, although a file may still be found there, which has the path with an ending.
Given with that ending the path leads a command to the same settings (`load_of_missing_iff`).
-/

namespace PeekLock.CommandLine

variable {d : Directory} {environment : List (String × String)} {path : Option String} {p : String}
  {s : Settings}

theorem loadSettings_of_missing (missing : d.hasPath p = false) :
    loadSettings d environment (some p) = .error (.fileNotFound p) := by
  simp only [loadSettings, Option.filter_some, missing, Bool.not_false, ↓reduceIte]

theorem loadSettings_of_present (present : ∀ p ∈ path, d.hasPath p) :
    loadSettings d environment path = (Settings.load d environment path).mapError .invalid := by
  have kept : path.filter (fun p => !d.hasPath p) = none := by
    cases path with
    | none => rfl
    | some p =>
      simp only [Option.filter_some, present p rfl, Bool.not_true, Bool.false_eq_true, ↓reduceIte]
  rw [loadSettings, kept]
  cases Settings.load d environment path <;> rfl

theorem mapError_eq_ok_iff {ε δ α : Type} {x : Except ε α} {f : ε → δ} {a : α} :
    x.mapError f = .ok a ↔ x = .ok a := by
  cases x <;> simp [Except.mapError]

theorem loadSettings_eq_ok_iff : loadSettings d environment path = .ok s ↔
    (∀ p ∈ path, d.hasPath p) ∧ Settings.load d environment path = .ok s := by
  by_cases present : ∀ p ∈ path, d.hasPath p
  case pos => rw [loadSettings_of_present present, mapError_eq_ok_iff, and_iff_right present]
  case neg =>
    refine iff_of_false ?_ fun both => present both.1
    simp only [not_forall] at present
    obtain ⟨p, given, missing⟩ := present
    rw [Option.mem_def.1 given, loadSettings_of_missing (Bool.eq_false_iff.2 missing)]
    nofun

/-- What is loaded from a path without its ending is what a command loads from the path with it. -/
theorem load_of_missing_iff (missing : d.hasPath p = false) :
    Settings.load d environment (some p) = .ok s ↔
      ∃ candidate, d.firstCandidate? p = some candidate ∧
        loadSettings d environment (some candidate.1) = .ok s := by
  have noText : d.text? p = none := by
    refine Option.eq_none_iff_forall_ne_some.2 fun text there => ?_
    simp [Directory.hasPath_of_text? there] at missing
  simp only [loadSettings_eq_ok_iff, Settings.load_eq_ok_iff, Settings.fileEntries_eq_ok_iff]
  constructor
  · rintro ⟨file, ⟨format, text, leads, read⟩, supplied, passes⟩
    -- Nothing has the path itself, so the file was found through its ending.
    cases leads with
    | itself there _ => simp [noText] at there
    | @ending candidate _ first there =>
      refine ⟨_, first, ?_, file, ⟨format, text, ?_, read⟩, supplied, passes⟩
      · intro p given
        obtain rfl := Option.some.inj given
        exact Directory.hasPath_of_text? there
      · exact Directory.leadsTo_candidate first there
  · rintro ⟨⟨candidate, format⟩, first, _, file, ⟨format', text', leads, read⟩, supplied, passes⟩
    obtain ⟨text, there⟩ := Directory.text?_of_firstCandidate? first
    obtain ⟨rfl, rfl⟩ := (Directory.leadsTo_candidate first there).unique leads
    exact ⟨file, ⟨_, _, .ending noText first there, read⟩, supplied, passes⟩

/-- A command that is given no path, or one where something is, has the settings that are loaded,
    and fails where they cannot be.  If nothing is under the path, it fails, and what would have been
    loaded is what it has if it is given the path with the ending that is found first. -/
theorem loadSettings_agrees (d : Directory) (environment : List (String × String))
    (path : Option String) :
    ((∀ p ∈ path, d.hasPath p) → ∀ s,
      loadSettings d environment path = .ok s ↔ Settings.load d environment path = .ok s) ∧
    ∀ p ∈ path, d.hasPath p = false →
      loadSettings d environment path = .error (.fileNotFound p) ∧
      ∀ s, Settings.load d environment path = .ok s ↔
        ∃ candidate, d.firstCandidate? p = some candidate ∧
          loadSettings d environment (some candidate.1) = .ok s := by
  constructor
  · intro present s
    rw [loadSettings_eq_ok_iff, and_iff_right present]
  · intro p given missing
    rw [Option.mem_def.1 given]
    exact ⟨loadSettings_of_missing missing, fun s => load_of_missing_iff missing⟩

theorem loadSettings_agrees_with_ending :
    let d : Directory := ⟨[("settings.toml", "name = \"orders\"")], [], []⟩
    let s : Settings := ⟨"orders", 1000, 1000⟩
    d.hasPath "settings.toml" ∧ d.hasPath "settings" = false ∧
      loadSettings d [] (some "settings.toml") = .ok s ∧
      Settings.load d [] (some "settings") = .ok s := by
  intro d s
  have present : ∀ p ∈ some "settings.toml", d.hasPath p := by
    intro p given
    obtain rfl := Option.some.inj given
    rfl
  have missing : d.hasPath "settings" = false := rfl
  have loaded : Settings.load d [] (some "settings.toml") = .ok s := by
    simp only [d, s]
    rfl
  have commanded := ((loadSettings_agrees d [] (some "settings.toml")).1 present s).2 loaded
  have bare := ((loadSettings_agrees d [] (some "settings")).2 _ rfl missing).2 s
  exact ⟨present _ rfl, missing, commanded, bare.2 ⟨("settings.toml", .toml), rfl, commanded⟩⟩

/-- Without the ending a command does not find what can be loaded. -/
theorem command_misses_ending :
    let d : Directory := ⟨[("settings.toml", "")], [], []⟩
    Settings.load d [] (some "settings") = .ok Settings.default ∧
      loadSettings d [] (some "settings") = .error (.fileNotFound "settings") :=
  ⟨rfl, rfl⟩

end PeekLock.CommandLine
