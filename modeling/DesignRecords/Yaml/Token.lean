import DesignRecords.Text.Basic

namespace DesignRecords.Yaml

/-- The name of a type, as bytes. Escapes in a tag can stand for bytes that are no text. -/
abbrev Tag := List UInt8

namespace Tag

def ofText (t : Text) : Tag := (String.ofList t).toUTF8.toList

/-- The text that a tag is, if it is one. -/
def text? (tag : Tag) : Option Text := (String.fromUTF8? ⟨tag.toArray⟩).map String.toList

end Tag

/-- How a scalar is written. -/
inductive Style
  | plain
  | quoted
  | literal
  | folded
deriving DecidableEq, Repr

/-- The pieces that a YAML text is made of. -/
inductive Token
  | version (major minor : Nat)
  | handle (name : Text) (lead : Tag)
  | documentStart
  | documentEnd
  | blockSequence
  | blockMapping
  /-- The end of a sequence or mapping that is marked by indentation. -/
  | blockEnd
  | openSequence
  | closeSequence
  | openMapping
  | closeMapping
  /-- The hyphen in front of an item. -/
  | item
  | comma
  | key
  | value
  | alias (name : Text)
  | anchor (name : Text)
  | tag (handle : Text) (suffix : Tag)
  | scalar (style : Style) (text : Text)
  | streamEnd
deriving DecidableEq, Repr

end DesignRecords.Yaml
