import DesignRecords.Text.Basic

namespace DesignRecords

/-- The characters with the Unicode property White_Space. -/
def isBlank (c : Char) : Bool :=
  let n := c.toNat
  (9 ≤ n && n ≤ 13) || n == 0x20 || n == 0x85 || n == 0xA0 || n == 0x1680 ||
    (0x2000 ≤ n && n ≤ 0x200A) || n == 0x2028 || n == 0x2029 || n == 0x202F || n == 0x205F ||
    n == 0x3000

namespace Text

/-- A text is blank when it has no character but blanks. -/
def blank (t : Text) : Bool := t.all isBlank

def trimStart (t : Text) : Text := t.dropWhile isBlank

def trimEnd (t : Text) : Text := (t.reverse.dropWhile isBlank).reverse

def trim (t : Text) : Text := t.trimStart.trimEnd

/-- The longest pieces of a text without blanks, in order. -/
def words (t : Text) : List Text := (t.splitOnP isBlank).filter (· ≠ [])

/-- Equality up to the amount and kind of blanks between words. -/
def sameWords (s t : Text) : Bool := s.words == t.words

end Text

end DesignRecords
