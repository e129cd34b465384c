import PeekLock.Json.Record
import PeekLock.QueueName
import PeekLock.Time.Duration

/-! # Settings of a queue

The name of a queue and the two timings of its listen loops.  `check` finds the first rule that
settings break; settings that pass can build a queue.
-/

namespace PeekLock

/-- The settings of a queue. -/
structure Settings where
  /-- The name, in counters and logs. -/
  name : String
  /-- The pause between two rounds of a listen loop. -/
  listenPollIntervalMs : Nat
  /-- How long a listen loop waits for one message. -/
  listenReceiveTimeoutMs : Nat
deriving DecidableEq, Repr, Inhabited

/-- The timings of a listen loop. -/
structure ListenOptions where
  receiveTimeout : Duration
  pollInterval : Duration
deriving DecidableEq, Repr, Inhabited

namespace Settings

def nameKey : String := "name"

def pollKey : String := "listen_poll_interval_ms"

def receiveKey : String := "listen_receive_timeout_ms"

/-- What holds where nothing is set. -/
def default : Settings :=
  ⟨"memory", 1000, 1000⟩

/-- The settings of a queue with a name and default timings. -/
def named (name : String) : Settings :=
  { default with name := name }

/-- The timings as durations. -/
def listenOptions (s : Settings) : ListenOptions :=
  ⟨.ofMillis s.listenReceiveTimeoutMs, .ofMillis s.listenPollIntervalMs⟩

def checkTiming (key : String) (n : Nat) : Except ConfigurationError Unit :=
  if n = 0 then .error (.invalid (key ++ " must be greater than zero")) else .ok ()

/-- Refuses settings that cannot build a queue: the name is looked at first, then the pause,
    then the wait. -/
def check (s : Settings) : Except ConfigurationError Unit :=
  match QueueName.parse s.name with
  | .error e => .error (.invalid ("name: " ++ e.message))
  | .ok _ => do
    checkTiming pollKey s.listenPollIntervalMs
    checkTiming receiveKey s.listenReceiveTimeoutMs

/-! ## JSON -/

/-- The settings as a JSON value, in the order of declaration. -/
def toValue (s : Settings) : Json :=
  .object [
    (nameKey, .text s.name),
    (pollKey, .integer s.listenPollIntervalMs),
    (receiveKey, .integer s.listenReceiveTimeoutMs)]

/-- The settings that have been read. -/
structure Parts where
  name : Option String := none
  poll : Option Nat := none
  receive : Option Nat := none

/-- The settings of their parts, with defaults for what is missing. -/
def Parts.finish (p : Parts) : Settings :=
  ⟨p.name.getD default.name, p.poll.getD default.listenPollIntervalMs,
    p.receive.getD default.listenReceiveTimeoutMs⟩

def record : Json.Record Parts Settings where
  name := "MemoryQueueConfig"
  lenient := true
  empty := {}
  finish := fun p => .ok p.finish
  fields := [
    { name := nameKey
      given := (·.name.isSome)
      read := fun _ p bs => do
        let (v, rest) ← Json.readText bs
        return ({ p with name := some v }, rest) },
    { name := pollKey
      given := (·.poll.isSome)
      read := fun _ p bs => do
        let (v, rest) ← Json.readUnsigned 64 bs
        return ({ p with poll := some v }, rest) },
    { name := receiveKey
      given := (·.receive.isSome)
      read := fun _ p bs => do
        let (v, rest) ← Json.readUnsigned 64 bs
        return ({ p with receive := some v }, rest) }]

end Settings

end PeekLock
