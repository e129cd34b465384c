import PeekLock.Json.Reader
import PeekLock.Settings.Layer
import PeekLock.Toml.Reader
import PeekLock.Yaml.Document

/-! # Where settings come from

A file of a directory, in a format told by the end of its name, and the environment.  A file may be
named without the end of its name.
-/

namespace PeekLock

/-! ## Formats -/

/-- A format of settings files. -/
inductive FileFormat where
  | toml
  | json
  | yaml
deriving DecidableEq, Repr

namespace FileFormat

/-- The ends of names, in the order in which they are tried. -/
def extensions : List (String × FileFormat) :=
  [("toml", .toml), ("json", .json), ("yaml", .yaml), ("yml", .yaml)]

/-- The end of a name behind its last point; nothing for a name whose only point is its first
    character. -/
def extension? (name : String) : Option String :=
  let (reversed, rest) := name.toList.reverse.span (· ≠ '.')
  match rest with
  | [] => none
  | [_] => none
  | _ => some (String.ofList reversed.reverse)

def ofName? (name : String) : Option FileFormat := do
  let ending ← extension? name
  List.lookup ending extensions

/-- A JSON value as a setting. -/
def ofJson : Json → SettingValue
  | .null => .null
  | .bool b => .bool b
  | .integer n => .integer n
  | .real x => .real x
  | .text s => .text s
  | .array _ => .list
  | .object _ => .table

/-- A TOML value as a setting. -/
def ofToml : Toml.Value → SettingValue
  | .text s => .text s
  | .integer n => .integer n
  | .real x => .real x
  | .bool b => .bool b
  | .dateTime s => .text s
  | .array _ => .list
  | .table .. => .table
  | .tables _ => .list

/-- A YAML scalar as a setting. -/
def ofYamlScalar : Yaml.Scalar → SettingValue
  | .null | .unfit => .null
  | .bool b => .bool b
  | .integer n => .integer n
  | .real word => ((Yaml.real? word).map SettingValue.real).getD .null
  | .text s => .text s

/-- A YAML value as a setting. -/
def ofYaml : Yaml.Value → SettingValue
  | .scalar s => ofYamlScalar s
  | .list _ => .list
  | .map _ => .table

/-- The values at the top level of a text; nothing for a text that breaks the format's rules or
    has no keys at the top level. -/
def read (f : FileFormat) (s : String) : Option (List (String × SettingValue)) :=
  match f with
  | .toml => (Toml.parse s.toList).map fun entries => entries.map fun (k, v) => (k, ofToml v)
  | .json =>
    match Json.parse s with
    | .ok (.object members) => some (members.map fun (k, v) => (k, ofJson v))
    | _ => none
  | .yaml =>
    match Yaml.parse s.toList with
    | some (.map entries) => entries.mapM fun (k, v) => k.keyText?.map (·, ofYaml v)
    | _ => none

end FileFormat

/-! ## Files -/

/-- The files that can be reached from a directory. -/
structure Directory where
  /-- Files by their paths, with their contents. -/
  files : List (String × String)
  /-- The paths of other directories that are there. -/
  folders : List String := []
  /-- The parts of the path of the directory itself. -/
  here : List String := []
deriving Inhabited

/-- A settings file that has been found. -/
structure SettingsFile where
  /-- The path of the file as reports show it. -/
  origin : String
  format : FileFormat
  text : String

namespace Directory

def splitPath (current : List Char) : List Char → List String
  | [] => [String.ofList current.reverse]
  | '/' :: rest => String.ofList current.reverse :: splitPath [] rest
  | c :: rest => splitPath (c :: current) rest

/-- The parts of a path; empty parts and single points say nothing. -/
def parts (path : String) : List String :=
  (splitPath [] path.toList).filter fun part => part ≠ "" && part ≠ "."

def isRooted (path : String) : Bool :=
  path.toList.head? = some '/'

def root : String := "/"

/-- One step further from a place, whose parts come with the last one first. -/
def next (seen : List String) (part : String) : List String :=
  if part ≠ ".." then part :: seen
  else
    match seen with
    | [] => [".."]
    | last :: earlier =>
      if last = ".." then ".." :: seen
      else if last = root then seen
      else earlier

def start (path : String) : List String :=
  if isRooted path then [root] else []

def place (path : String) : List String :=
  ((parts path).foldl next (start path)).reverse

/-- Whether a place is above or at the directory, or the root. -/
def isAbove (place : List String) : Bool :=
  place.all (· = "..") || place = [root]

def hasFolder (d : Directory) (target : List String) : Bool :=
  isAbove target || d.folders.any (fun name => place name = target) ||
    d.files.any fun (name, _) => target.isPrefixOf (place name) && target ≠ place name

/-- The place that parts lead to from another, if every place on the way is a directory. -/
def reachFrom? (d : Directory) (seen : List String) : List String → Option (List String)
  | [] => some seen.reverse
  | part :: rest => if d.hasFolder seen.reverse then reachFrom? d (next seen part) rest else none

/-- The place that a path leads to, if every place on the way is a directory. -/
def reach? (d : Directory) (path : String) : Option (List String) :=
  d.reachFrom? (start path) (parts path)

/-- Whether a path can only be that of a directory. -/
def endsAsDirectory (path : String) : Bool :=
  match (splitPath [] path.toList).getLast? with
  | some last => last = "" || last = "." || last = ".."
  | none => true

def text? (d : Directory) (path : String) : Option String := do
  if endsAsDirectory path then none
  else
    let target ← d.reach? path
    let (_, text) ← d.files.find? fun (name, _) => place name = target
    return text

/-- Whether there is a file or directory with a path. -/
def hasPath (d : Directory) (path : String) : Bool :=
  !path.isEmpty && ((d.text? path).isSome || (d.reach? path).any d.hasFolder)

/-- The way from one list of parts to another: up from what they do not share, and down. -/
def way : List String → List String → List String
  | a :: start, b :: goal =>
    if a = b then way start goal else (a :: start).map (fun _ => "..") ++ b :: goal
  | start, goal => start.map (fun _ => "..") ++ goal

/-- The path of a file as reports show it: from the directory on. -/
def originOf (d : Directory) (path : String) : String :=
  "/".intercalate (if isRooted path then way d.here (parts path) else parts path)

/-- A path with an ending behind the last name, if it ends in a name. -/
def withEnding? (path ending : String) : Option String := do
  let names := parts path
  let last ← names.getLast?
  if last = ".." then none
  else
    let joined := "/".intercalate (names.dropLast ++ [last ++ "." ++ ending])
    return if isRooted path then "/" ++ joined else joined

/-- The paths that are tried for a settings file with their formats, the path itself left out. -/
def candidates (path : String) : List (String × FileFormat) :=
  FileFormat.extensions.filterMap fun (ending, format) =>
    (withEnding? path ending).map (·, format)

/-- Finds a settings file: the path itself, or else the path with one of the known endings. -/
def find (d : Directory) (path : String) : Except ConfigurationError SettingsFile :=
  match d.text? path with
  | some text =>
    match FileFormat.ofName? ((parts path).getLast?.getD "") with
    | some format => .ok ⟨d.originOf path, format, text⟩
    | none =>
      .error (.parsing
        ("configuration file \"" ++ path ++ "\" is not of a registered file format"))
  | none =>
    let attempt : String × FileFormat → Option SettingsFile := fun (candidate, format) => do
      let text ← d.text? candidate
      return ⟨d.originOf candidate, format, text⟩
    match (candidates path).findSome? attempt with
    | some file => .ok file
    | none => .error (.parsing ("configuration file \"" ++ path ++ "\" not found"))

end Directory

/-- A text without the mark that may stand in front of it. -/
def withoutMark (s : String) : String :=
  match s.toList with
  | '\uFEFF' :: rest => String.ofList rest
  | _ => s

def SettingsFile.layer (f : SettingsFile) :
    Except ConfigurationError (List (String × SettingValue)) :=
  match f.format.read (withoutMark f.text) with
  | some layer => .ok layer
  | none => .error (.parsing (f.origin ++ " cannot be read"))

/-! ## The environment -/

namespace Environment

def front : List Char := "memqueue__".toList

def origin : String := "the environment"

/-- A path for the name of a variable: two underscores are a point. -/
def pointed : List Char → List Char
  | '_' :: '_' :: rest => '.' :: pointed rest
  | c :: rest => c :: pointed rest
  | [] => []

/-- The key that a variable sets, capital letters counting as small ones. -/
def key? (name : String) : Option String :=
  let cs := SettingValue.lower name.toList
  if front.isPrefixOf cs then some (String.ofList (pointed (cs.drop front.length))) else none

def layer (environment : List (String × String)) : List (String × SettingValue) :=
  environment.filterMap fun (name, value) => (key? name).map (·, .text value)

end Environment

end PeekLock
