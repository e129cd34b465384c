import PeekLock.Yaml.Token.Lexer
import PeekLock.Yaml.Value

/-! # YAML documents

A text of one document.  `Yaml.parse` gives nothing for a text that it cannot read, or that holds
more than one document; what exactly is wrong is not told.
-/

namespace PeekLock.Yaml

/-- The value of a text that holds one document; a text without any is an empty mapping. -/
def parse (cs : List Char) : Option Value := do
  let ts ← Token.ofText? cs
  match ← Node.ofTokens? ts with
  | none => return .map []
  | some node =>
    let (v, _) ← node.value? {}
    v.checked?

end PeekLock.Yaml
