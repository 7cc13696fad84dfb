import DesignRecords.Text.Basic

namespace DesignRecords.Yaml

def isSpace (c : Char) : Bool := c = ' ' || c = '\t'

def isBreak (c : Char) : Bool := c = '\n' || c = '\u2028' || c = '\u2029'

/-- The characters of names. -/
def isWord (c : Char) : Bool := Char.isAlphanum c || c = '_' || c = '-'

/-- The characters that a YAML text may have. -/
def isPrintable (c : Char) : Bool :=
  let n := c.toNat
  n = 9 || n = 10 || n = 13 || (0x20 ≤ n && n ≤ 0x7E) || n = 0x85 || (0xA0 ≤ n && n ≤ 0xD7FF) ||
    (0xE000 ≤ n && n ≤ 0xFFFD) || 0x10000 ≤ n

/-- The text with a line feed for each line break, but for the line and the paragraph separator,
which stay. -/
def withLineFeeds : Text → Text
  | [] => []
  | '\r' :: '\n' :: rest => '\n' :: withLineFeeds rest
  | c :: rest => (if c = '\r' || c = '\u0085' then '\n' else c) :: withLineFeeds rest

/-- A position in a text. -/
structure Mark where
  line : Nat
  /-- The number of characters before it on its line. -/
  column : Nat
  /-- The number of bytes before it. -/
  index : Nat
deriving DecidableEq, Repr

/-- The position behind a character. -/
def Mark.after (m : Mark) (c : Char) : Mark :=
  let index := m.index + c.utf8Size
  if isBreak c then ⟨m.line + 1, 0, index⟩ else ⟨m.line, m.column + 1, index⟩

/-- A position in a text and what follows there. -/
structure Cursor where
  mark : Mark
  rest : Text
deriving Repr

namespace Cursor

def ofText (t : Text) : Cursor := ⟨⟨0, 0, 0⟩, t⟩

/-- The cursor `n` characters on. -/
def forward : Nat → Cursor → Cursor
  | 0, c => c
  | n + 1, c =>
    match c.rest with
    | [] => c
    | a :: rest => forward n ⟨c.mark.after a, rest⟩

/-- The cursor behind all characters with a property. -/
def skip (p : Char → Bool) (c : Cursor) : Cursor := c.forward (c.rest.takeWhile p).length

/-- The character `n` places on. -/
def peek? (n : Nat) (c : Cursor) : Option Char := c.rest[n]?

/-- Whether a character is `n` places on. -/
def sees (n : Nat) (a : Char) (c : Cursor) : Bool := c.peek? n == some a

/-- Whether a space, a line break or the end is `n` places on. -/
def seesGap (n : Nat) (c : Cursor) : Bool :=
  match c.peek? n with
  | none => true
  | some a => isSpace a || isBreak a

/-- Whether the line ends here. -/
def atLineEnd (c : Cursor) : Bool :=
  match c.rest with
  | [] => true
  | a :: _ => isBreak a

/-- Whether a line starts here with three characters `a` by themselves. -/
def atTriple (a : Char) (c : Cursor) : Bool :=
  c.mark.column = 0 && c.sees 0 a && c.sees 1 a && c.sees 2 a && c.seesGap 3

/-- Whether a document starts or ends here. -/
def atDocumentMark (c : Cursor) : Bool := c.atTriple '-' || c.atTriple '.'

/-- The cursor behind a comment, if there is one here. -/
def skipComment (c : Cursor) : Cursor := if c.sees 0 '#' then c.skip (!isBreak ·) else c

/-- The start of the next line, if nothing but blanks and a comment are left on this one. -/
def nextLine? (c : Cursor) : Option Cursor :=
  let c := (c.skip isSpace).skipComment
  if c.atLineEnd then some (c.forward 1) else none

end Cursor

end DesignRecords.Yaml
