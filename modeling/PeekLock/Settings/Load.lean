import PeekLock.Settings.Source

/-! # Loading settings

Defaults, then a file, then the environment: what comes later wins, key by key.  Settings that
have been loaded have passed the check, so a queue can be built of them.
-/

namespace PeekLock.Settings

/-- The layer of a file, if one is asked for. -/
def fileLayer (d : Directory) (path : Option String) : Except ConfigurationError Gathered :=
  match path with
  | none => .ok []
  | some path => do
    let file ← d.find path
    let layer ← file.layer
    return Gathered.add [] file.origin layer

/-- Settings from a file, if one is asked for, and from the environment over it. -/
def load (d : Directory) (environment : List (String × String)) (path : Option String) :
    Except ConfigurationError Settings := do
  let gathered ← fileLayer d path
  let settings ← (gathered.add Environment.origin (Environment.layer environment)).settings
  settings.check
  return settings

end PeekLock.Settings
