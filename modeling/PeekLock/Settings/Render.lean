import PeekLock.Settings
import PeekLock.Toml.Text

/-! # Settings as text

Two formats that can be read back: JSON with one member a line, and TOML.
-/

namespace PeekLock

/-- A format that settings are shown in. -/
inductive SettingsFormat where
  | json
  | toml
deriving DecidableEq, Repr

namespace Settings

def jsonLine (key : String) (v : Json) : List Char :=
  [' ', ' '] ++ Json.quoteChars key ++ [':', ' '] ++ v.chars

/-- The settings as a JSON object over several lines. -/
def jsonChars (s : Settings) : List Char :=
  ['\x7b', '\n'] ++
    Json.joinChars [',', '\n'] [
      jsonLine nameKey (.text s.name),
      jsonLine pollKey (.integer s.listenPollIntervalMs),
      jsonLine receiveKey (.integer s.listenReceiveTimeoutMs)] ++
    ['\n', '\x7d']

def tomlLine (key : String) (value : List Char) : List Char :=
  key.toList ++ [' ', '=', ' '] ++ value ++ ['\n']

/-- The settings as TOML. -/
def tomlChars (s : Settings) : List Char :=
  tomlLine nameKey (Toml.quoteChars s.name) ++
    tomlLine pollKey (digitChars s.listenPollIntervalMs) ++
    tomlLine receiveKey (digitChars s.listenReceiveTimeoutMs)

def render (s : Settings) : SettingsFormat → String
  | .json => String.ofList s.jsonChars
  | .toml => String.ofList s.tomlChars

end Settings

end PeekLock
