import PeekLock.Demo.Run
import PeekLock.Settings.Layer
import PeekLock.Settings.Render

/-! # The arguments of the command line

A command with options of its own stands behind the options for all commands.  An option is given by
its long name or by its letter, with its value behind an equals sign, right behind the letter, or as
the next argument.  Arguments are read from left to right, and the first fault is reported.  A value
is looked at when the next option begins, or when the arguments of its command end; the
command's own options are looked at to their end before the last one in front of it.
-/

namespace PeekLock

/-- Why arguments are refused, or what they ask for instead of a command. -/
inductive UsageError where
  /-- A value is missing, or is none of those that are possible. -/
  | invalidValue
  /-- A value cannot be read. -/
  | unreadableValue
  | unknownArgument
  /-- An option is given twice. -/
  | conflict
  /-- A switch is given a value. -/
  | superfluousValue
  | unknownCommand
  | missingCommand
  /-- There is nothing at all. -/
  | noArguments
  | help
  | version
deriving DecidableEq, Repr

namespace CommandLine

/-! ## Options -/

/-- An option. -/
inductive Flag where
  | config
  | logLevel
  | jsonLogs
  | messages
  | messageType
  | failEvery
  | timeout
  | format
  | help
  | version
deriving DecidableEq, Repr

/-- How an option is given. -/
structure FlagSpec where
  flag : Flag
  letter : Option Char
  name : String
  takesValue : Bool
deriving DecidableEq, Repr

def helpSpec : FlagSpec := ⟨.help, some 'h', "help", false⟩

def commonFlags : List FlagSpec := [
  ⟨.config, some 'c', "config", true⟩,
  ⟨.logLevel, some 'l', "log-level", true⟩,
  ⟨.jsonLogs, none, "json-logs", false⟩,
  helpSpec,
  ⟨.version, some 'V', "version", false⟩]

def demoFlags : List FlagSpec := [
  ⟨.messages, some 'm', "messages", true⟩,
  ⟨.messageType, some 't', "message-type", true⟩,
  ⟨.failEvery, some 'f', "fail-every", true⟩,
  ⟨.timeout, none, "timeout", true⟩,
  helpSpec]

def configFlags : List FlagSpec := [
  ⟨.format, some 'f', "format", true⟩,
  helpSpec]

/-- A number as an argument tells it. -/
def number? (s : String) : Option Nat :=
  SettingValue.number? s.toList

def format? (s : String) : Option SettingsFormat :=
  if s = "json" then some .json
  else if s = "toml" then some .toml
  else none

def checkValue (flag : Flag) (s : String) : Except UsageError Unit :=
  match flag with
  | .config => if s.isEmpty then .error .invalidValue else .ok ()
  | .messages | .failEvery | .timeout =>
    if (number? s).isSome then .ok () else .error .unreadableValue
  | .format => if (format? s).isSome then .ok () else .error .invalidValue
  | .logLevel | .messageType | .jsonLogs | .help | .version => .ok ()

/-! ## Reading options -/

/-- An option whose value is still to be looked at. -/
structure Pending where
  flag : Flag
  value : Option String
deriving DecidableEq, Repr

/-- The options of a command as far as they have been read. -/
structure Given where
  values : List (Flag × String) := []
  pending : Option Pending := none
  /-- Whether two hyphens have ended the options. -/
  trailing : Bool := false
deriving DecidableEq, Repr

namespace Given

def value? (g : Given) (flag : Flag) : Option String :=
  g.values.lookup flag

/-- Enters an option, which must not be there yet, with a possible value. -/
def enter (g : Given) (flag : Flag) (value : String) : Except UsageError Given :=
  if (g.value? flag).isSome then .error .conflict
  else do
    checkValue flag value
    return { g with values := g.values ++ [(flag, value)] }

def resolve (g : Given) : Except UsageError Given :=
  match g.pending with
  | none => .ok g
  | some ⟨_, none⟩ => .error .invalidValue
  | some ⟨flag, some value⟩ => { g with pending := none }.enter flag value

def awaitsValue (g : Given) : Bool :=
  g.pending.any (·.value.isNone)

def switch (g : Given) (flag : Flag) : Except UsageError Given := do
  let g ← g.resolve
  match flag with
  | .help => .error .help
  | .version => .error .version
  | _ => g.enter flag "true"

/-- An option with a value, given already or still to come. -/
def option (g : Given) (flag : Flag) (value : Option String) : Except UsageError Given := do
  let g ← g.resolve
  match value with
  | some value => g.enter flag value
  | none => return { g with pending := some ⟨flag, none⟩ }

end Given

def readLong (specs : List FlagSpec) (g : Given) (cs : List Char) : Except UsageError Given :=
  let (name, rest) := cs.span (· ≠ '=')
  match specs.find? (·.name.toList = name) with
  | none => .error .unknownArgument
  | some spec =>
    match spec.takesValue, rest with
    | true, [] => g.option spec.flag none
    | true, _ :: value => g.option spec.flag (some (String.ofList value))
    | false, [] => g.switch spec.flag
    | false, _ :: _ => .error .superfluousValue

/-- The value behind an option's letter; an equals sign may stand in front of it. -/
def attached : List Char → Option String
  | [] => none
  | '=' :: value => some (String.ofList value)
  | value => some (String.ofList value)

def readLetters (specs : List FlagSpec) (g : Given) : List Char → Except UsageError Given
  | [] => .ok g
  | c :: rest =>
    match specs.find? (·.letter = some c) with
    | none => .error .unknownArgument
    | some spec =>
      if spec.takesValue then g.option spec.flag (attached rest)
      else do
        let g ← g.switch spec.flag
        readLetters specs g rest

/-- The meaning of an argument by its first characters. -/
inductive ArgumentForm where
  /-- Two hyphens alone. -/
  | ending
  | long (cs : List Char)
  | letters (cs : List Char)
  | plain

/-- The form of an argument.  A hyphen alone is a plain argument. -/
def ArgumentForm.of (arg : String) : ArgumentForm :=
  match arg.toList with
  | ['-', '-'] => .ending
  | '-' :: '-' :: cs => .long cs
  | '-' :: c :: cs => .letters (c :: cs)
  | _ => .plain

/-- One argument among the options of a command.  A plain argument that is no value is refused with
    the error given. -/
def readArgument (specs : List FlagSpec) (refusal : UsageError) (g : Given) (arg : String) :
    Except UsageError Given :=
  if g.trailing then .error refusal
  else
    match ArgumentForm.of arg with
    | .ending => .ok { g with trailing := true }
    | .long cs => readLong specs g cs
    | .letters cs => readLetters specs g cs
    | .plain =>
      match g.pending with
      | some ⟨flag, none⟩ => .ok { g with pending := some ⟨flag, some arg⟩ }
      | _ => .error refusal

/-- The options of a command, to the end of the arguments. -/
def readOptions (specs : List FlagSpec) (args : List String) : Except UsageError Given := do
  let g ← args.foldlM (readArgument specs .unknownArgument) {}
  g.resolve

/-! ## Commands -/

/-- A command. -/
inductive Action where
  | demo (o : DemoOptions)
  | showSettings (format : SettingsFormat)
deriving Repr

/-- A command line. -/
structure Invocation where
  /-- The path of the settings file. -/
  config : Option String
  logLevel : String
  jsonLogs : Bool
  action : Action
deriving Repr

/-- The name of the variable that gives the path of the settings file. -/
def configVariable : String := "MEMQUEUE_CONFIG"

def helpWord : String := "help"

def commandNames : List String := ["demo", "config"]

/-- A number that an option gives, or a default. -/
def numberOr (g : Given) (flag : Flag) (default : Nat) : Nat :=
  ((g.value? flag).bind number?).getD default

def readAction (name : String) (args : List String) : Except UsageError Action :=
  if name = "demo" then do
    let g ← readOptions demoFlags args
    return .demo {
      messages := numberOr g .messages 10
      messageType := (g.value? .messageType).getD "demo"
      failEvery := (g.value? .failEvery).bind number?
      timeout := .ofParts (numberOr g .timeout 60) 0 }
  else do
    let g ← readOptions configFlags args
    return .showSettings (((g.value? .format).bind format?).getD .toml)

/-- Asking for help on commands, each below the one before. -/
def readHelp : List String → UsageError
  | [] => .help
  | [name] => if name = helpWord ∨ commandNames.contains name then .help else .unknownCommand
  | _ => .unknownCommand

/-- A plain argument where a command should stand. -/
def refusedCommand (g : Given) (arg : String) : UsageError :=
  if g.trailing ∧ (arg = helpWord ∨ commandNames.contains arg) then .unknownArgument
  else .unknownCommand

/-- Reads the options for all commands up to the command, and the command. -/
def readCommon (g : Given) : List String → Except UsageError (Given × Option Action)
  | [] => .ok (g, none)
  | arg :: rest =>
    if !g.trailing && !g.awaitsValue && arg = helpWord then .error (readHelp rest)
    else if !g.trailing && !g.awaitsValue && commandNames.contains arg then do
      let action ← readAction arg rest
      return (g, some action)
    else do
      let g ← readArgument commonFlags (refusedCommand g arg) g arg
      readCommon g rest

/-- Takes the path of the settings file from the environment if no argument gives it. -/
def withVariables (g : Given) (environment : List (String × String)) : Except UsageError Given :=
  match g.value? .config, environment.lookup configVariable with
  | none, some path => g.enter .config path
  | _, _ => .ok g

def parse (args : List String) (environment : List (String × String)) :
    Except UsageError Invocation := do
  let (g, action) ← readCommon {} args
  let g ← g.resolve
  let g ← withVariables g environment
  match action with
  | some action =>
    return ⟨g.value? .config, (g.value? .logLevel).getD "info", (g.value? .jsonLogs).isSome, action⟩
  | none => .error (if g.values.isEmpty then .noArguments else .missingCommand)

end CommandLine

end PeekLock
