/-! # YAML tokens

What a text consists of once blanks, comments and indentation have been read: marks, words and the
names and tags in front of them.
-/

namespace PeekLock.Yaml

/-- A part of a text. -/
inductive Token where
  /-- The version that a document is written in. -/
  | version
  /-- What a tag's handle stands for. -/
  | handle (name value : String)
  | documentStart
  | documentEnd
  /-- The first item of a sequence on lines of its own. -/
  | sequenceStart
  /-- The first entry of a mapping on lines of its own. -/
  | mappingStart
  /-- The end of such a sequence or mapping. -/
  | blockEnd
  /-- The hyphen in front of an item. -/
  | item
  | bracketOpen
  | bracketClose
  | braceOpen
  | braceClose
  | comma
  /-- A key follows. -/
  | key
  /-- A value follows. -/
  | value
  | alias (name : String)
  | anchor (name : String)
  /-- A tag with its handle in front. -/
  | tag (handle suffix : String)
  /-- A word without quotes. -/
  | plain (word : List Char)
  /-- A scalar in quotes, or a block of lines. -/
  | text (cs : List Char)
deriving DecidableEq, Repr, Inhabited

end PeekLock.Yaml
