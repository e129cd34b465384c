import PeekLock.Number.Limits

/-! # Durations
-/

namespace PeekLock

/-- A length of time, never negative. -/
structure Duration where
  nanoseconds : Nat
deriving DecidableEq, Repr, Inhabited

namespace Duration

def zero : Duration := ⟨0⟩

def ofMillis (n : Nat) : Duration := ⟨n * 1000000⟩

def ofParts (seconds nanoseconds : Nat) : Duration := ⟨seconds * 1000000000 + nanoseconds⟩

def max : Duration := ofParts maxUnsigned64 999999999

def seconds (d : Duration) : Nat := d.nanoseconds / 1000000000

/-- The nanoseconds behind the whole seconds. -/
def subsecond (d : Duration) : Nat := d.nanoseconds % 1000000000

/-- The least number of milliseconds that is not shorter. -/
def ceilMillis (d : Duration) : Nat := (d.nanoseconds + 999999) / 1000000

end Duration

end PeekLock
