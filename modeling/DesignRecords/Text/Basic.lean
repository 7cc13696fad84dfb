namespace DesignRecords

/-- Text is a list of Unicode characters. -/
abbrev Text := List Char

instance : Coe String Text := ⟨String.toList⟩

namespace Text

/-- The parts with `sep` between each two neighbours. -/
def joined (sep : Text) (parts : List Text) : Text := sep.intercalate parts

/-- What follows `lead` in a text that starts with it. -/
def after? (lead t : Text) : Option Text := lead.isPrefixOf? t

/-- What precedes `tail` in a text that ends with it. -/
def before? (tail t : Text) : Option Text := tail.isSuffixOf? t

def startsWith (t lead : Text) : Bool := lead.isPrefixOf t

def endsWith (t tail : Text) : Bool := tail.isSuffixOf t

/-- Whether `part` stands somewhere in the text. -/
def occursIn (part : Text) : Text → Bool
  | [] => part.isEmpty
  | c :: rest => part.isPrefixOf (c :: rest) || occursIn part rest

/-- Equality up to the case of the letters `A` to `Z`. -/
def sameIgnoringCase (s t : Text) : Bool := s.map Char.toLower == t.map Char.toLower

/-- Every occurrence of the character `c` replaced by `new`. -/
def replaced (c : Char) (new : Text) (t : Text) : Text :=
  t.flatMap fun d => if d = c then new else [d]

/-- A text without the occurrences of the character `c` at its ends. -/
def stripped (c : Char) (t : Text) : Text :=
  ((t.dropWhile (· == c)).reverse.dropWhile (· == c)).reverse

/-- The number of bytes of a text in UTF-8. -/
def byteCount (t : Text) : Nat := t.foldr (·.utf8Size + ·) 0

end Text

end DesignRecords
