import PeekLock.CommandLine.Run
import PeekLock.Number.Limits

/-! # The program

Gathers what a command line may ask for (the variables of the environment, the settings files that
it may mean, the time and a random number), runs it, prints, waits for the time that it takes, and
ends with its exit code.
-/

namespace PeekLock

/-- The text up to the first character with code 0, and what stands behind it. -/
def splitAtZero (current : List Char) : List Char → List String
  | [] => [String.ofList current.reverse]
  | c :: rest =>
    if c.toNat = 0 then String.ofList current.reverse :: splitAtZero [] rest
    else splitAtZero (c :: current) rest

/-- A variable of the environment from its line, which has an equals sign behind the name. -/
def variableOfLine? (line : String) : Option (String × String) :=
  match line.toList.span (· ≠ '=') with
  | (name, _ :: value) => some (String.ofList name, String.ofList value)
  | _ => none

/-- The variables that a command line looks at by their usual names. -/
def usualVariables : List String :=
  [CommandLine.configVariable, CommandLine.logVariable,
    "MEMQUEUE__NAME", "MEMQUEUE__LISTEN_POLL_INTERVAL_MS", "MEMQUEUE__LISTEN_RECEIVE_TIMEOUT_MS"]

/-- The variables of the environment: all of them where the system lists them, and otherwise those
    with the usual names. -/
def readVariables : IO (List (String × String)) := do
  try
    let text ← IO.FS.readFile "/proc/self/environ"
    return (splitAtZero [] text.toList).filterMap variableOfLine?
  catch _ =>
    usualVariables.filterMapM fun name => do
      return (← IO.getEnv name).map (name, ·)

/-- What is found at a path. -/
inductive Found where
  | nothing
  | file (text : String)
  /-- Something that is there and is no file with a text. -/
  | other

def look (path : String) : IO Found := do
  try
    return .file (← IO.FS.readFile path)
  catch
    | .noFileOrDirectory .. => return .nothing
    | .noSuchThing .. => return .nothing
    | _ => return .other

/-- What can be reached of a path and the other paths that are tried for it. -/
def readDirectory (path : Option String) : IO Directory := do
  let here := Directory.parts (toString (← IO.currentDir))
  let paths : List String := match path with
    | some path => path :: (Directory.candidates path).map Prod.fst
    | none => []
  paths.foldlM (fun d path => do
    match ← look path with
    | .nothing => return d
    | .file text => return { d with files := d.files ++ [(path, text)] }
    | .other => return { d with folders := d.folders ++ [path] })
    { files := [], here := here }

def freshIdentifier : IO String := do
  let seed ← IO.rand 0 maxUnsigned64
  match MessageId.fresh (UInt64.ofNat seed) 1 with
  | id :: _ => return id.text
  | [] => return ""

def runCommandLine (args : List String) : IO UInt8 := do
  let environment ← readVariables
  let path := match CommandLine.parse args environment with
    | .ok invocation => invocation.config
    | .error _ => none
  let outcome := CommandLine.run .epoch (← freshIdentifier) (← readDirectory path) environment args
  IO.sleep (UInt32.ofNat outcome.took)
  IO.print outcome.output
  match outcome.error with
  | some line => IO.eprintln line
  | none => pure ()
  return outcome.code

end PeekLock

def main (args : List String) : IO UInt32 := do
  return (← PeekLock.runCommandLine args).toUInt32
