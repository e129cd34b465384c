import PeekLock.Yaml.Node

/-! # YAML values

What nodes stand for once aliases have been followed.  An alias means what its name stood for last
in front of it; inside what it names it stands for nothing.
-/

namespace PeekLock.Yaml

/-- A value. -/
inductive Value where
  | scalar (s : Scalar)
  | list (items : List Value)
  | map (entries : List (Scalar × Value))
deriving Inhabited

/-! ## Anchors -/

/-- The names that have been given, and the values of those that are complete. -/
structure Anchors where
  /-- Names with their numbers, the latest first. -/
  names : List (String × Nat) := []
  values : List (Nat × Value) := []

namespace Anchors

def declare (p : Properties) (anchors : Anchors) : Anchors :=
  match p.anchor with
  | some name => { anchors with names := (name, anchors.names.length) :: anchors.names }
  | none => anchors

/-- Gives its value to the name in front of a node that was read from here on. -/
def complete (start : Anchors) (p : Properties) (v : Value) (anchors : Anchors) : Anchors :=
  match p.anchor with
  | some _ => { anchors with values := (start.names.length, v) :: anchors.values }
  | none => anchors

/-- What a name stands for, if it has been given. -/
def value? (name : String) (anchors : Anchors) : Option Value :=
  (anchors.names.lookup name).map fun number =>
    (anchors.values.lookup number).getD (.scalar .unfit)

end Anchors

/-! ## Values of nodes -/

/-- The scalar of a word without quotes. -/
def plainScalar (p : Properties) (word : List Char) : Scalar :=
  match p.tag with
  | some tag => .ofTagged tag word
  | none => .ofWord word

namespace Value

def key? : Value → Option Scalar
  | .scalar s => if s.keyText?.isSome then some s else none
  | .list _ | .map _ => none

/-- A value that may stand where a value is read. -/
def checked? : Value → Option Value
  | .scalar s => if s.isValue then some (.scalar s) else none
  | v => some v

/-- Whether a value is a scalar that does not fit its tag. -/
def isUnfit : Value → Bool
  | .scalar s => s = .unfit
  | .list _ | .map _ => false

end Value

/-- A mapping that has been read up to some node, which is a key or the value of one. -/
structure Mapping where
  entries : List (Scalar × Value) := []
  key : Option Value := none

/-- Adds a node to a mapping, which has every key once.  A scalar that does not fit its tag is
    passed over as a key, so that the next node is the key. -/
def Mapping.add? (m : Mapping) (v : Value) : Option Mapping :=
  match m.key with
  | none => some (if v.isUnfit then m else { m with key := some v })
  | some key => do
    let key ← key.key?
    let v ← v.checked?
    if m.entries.any (·.1 = key) then none else return ⟨m.entries ++ [(key, v)], none⟩

mutual

/-- The value of a node, with the names that are known after it. -/
def Node.value? (anchors : Anchors) : Node → Option (Value × Anchors)
  | .alias name => (anchors.value? name).map (·, anchors)
  | .plain p word =>
    let v := Value.scalar (plainScalar p word)
    some (v, anchors.complete p v (anchors.declare p))
  | .text p s =>
    let v := Value.scalar (.text s)
    some (v, anchors.complete p v (anchors.declare p))
  | .sequence p items => do
    let (vs, known) ← itemValues? (anchors.declare p) items
    return (.list vs, anchors.complete p (.list vs) known)
  | .mapping p entries => do
    let (m, known) ← entryValues? (anchors.declare p) {} entries
    return (.map m.entries, anchors.complete p (.map m.entries) known)

/-- The values of nodes one after the other. -/
def itemValues? (anchors : Anchors) : List Node → Option (List Value × Anchors)
  | [] => some ([], anchors)
  | node :: rest => do
    let (v, anchors) ← node.value? anchors
    let v ← v.checked?
    let (vs, anchors) ← itemValues? anchors rest
    return (v :: vs, anchors)

/-- A mapping with entries behind what has been read of it. -/
def entryValues? (anchors : Anchors) (m : Mapping) :
    List (Node × Node) → Option (Mapping × Anchors)
  | [] => some (m, anchors)
  | (k, node) :: rest => do
    let (key, anchors) ← k.value? anchors
    let m ← m.add? key
    let (v, anchors) ← node.value? anchors
    let m ← m.add? v
    entryValues? anchors m rest

end

end PeekLock.Yaml
