import PeekLock.Json.Record

/-! # Connection and credential parameters

Named texts that are handed over when a queue is opened.  What describes credentials shows
their names in order and never their values.
-/

namespace PeekLock

/-- Named texts, in the order of the names. -/
structure Parameters where
  entries : List (String × String)
  ascend : KeysAscend entries

namespace Parameters

def empty : Parameters := ⟨[], List.Pairwise.nil⟩

instance : Inhabited Parameters := ⟨empty⟩

def set (p : Parameters) (name value : String) : Parameters :=
  ⟨Keyed.insert name value p.entries, Keyed.insert_ascend _ _ p.ascend⟩

/-- Sets parameters one after the other. -/
def ofList (entries : List (String × String)) : Parameters :=
  entries.foldl (fun p (name, value) => p.set name value) empty

def get? (p : Parameters) (name : String) : Option String :=
  Keyed.get? name p.entries

def names (p : Parameters) : List String :=
  p.entries.map (·.1)

instance : BEq Parameters := ⟨fun a b => a.entries == b.entries⟩

/-- The parameters as a JSON value. -/
def toValue (p : Parameters) : Json :=
  .object [("values", .object (p.entries.map fun (name, value) => (name, .text value)))]

/-- How parameters are read, as a record of some name. -/
def record (name : String) : Json.Record (Option Parameters) Parameters where
  name := name
  lenient := false
  empty := none
  finish
    | some p => .ok p
    | none => .error "values"
  fields := [
    { name := "values"
      given := (·.isSome)
      read := fun depth _ bs => do
        let (entries, rest) ← Json.readMap depth (fun _ => Json.readText) bs
        return (some (ofList entries), rest) }]

end Parameters

/-- Where a queue is found.  A queue in memory has no use for it. -/
structure ConnectionParams where
  values : Parameters
deriving BEq, Inhabited

namespace ConnectionParams

def uri (c : ConnectionParams) : Option String :=
  c.values.get? "uri"

def record : Json.Record (Option Parameters) Parameters :=
  Parameters.record "ConnectionParams"

end ConnectionParams

/-- What gives access to a queue. -/
structure CredentialParams where
  values : Parameters
deriving BEq, Inhabited

namespace CredentialParams

/-- Sets credentials one after the other. -/
def ofList (entries : List (String × String)) : CredentialParams :=
  ⟨Parameters.ofList entries⟩

def get? (c : CredentialParams) (name : String) : Option String :=
  c.values.get? name

def inOrder (names : List String) : List String :=
  names.mergeSort fun a b => decide (a ≤ b)

/-- Names as diagnostics show them: in order, whatever order they come in. -/
def describeNames (names : List String) : String :=
  "CredentialParams \x7b keys: " ++ Quoted.quoteList (inOrder names) ++ " \x7d"

/-- The credentials as diagnostics show them: their names and no values. -/
def describe (c : CredentialParams) : String :=
  describeNames c.values.names

def record : Json.Record (Option Parameters) Parameters :=
  Parameters.record "CredentialParams"

end CredentialParams

end PeekLock
