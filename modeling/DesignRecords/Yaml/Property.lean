import DesignRecords.Yaml.Quoted
import DesignRecords.Yaml.Token

namespace DesignRecords.Yaml

/-- The name behind the mark of an anchor or an alias. -/
def name? (c : Cursor) : Option (Text × Cursor) :=
  let name := (c.forward 1).rest.takeWhile isWord
  let c := c.forward (name.length + 1)
  let ended := c.seesGap 0 || (c.rest.head?.map "?:,]\x7d%@`".toList.contains).getD false
  if name.isEmpty || !ended then none else some (name, c)

namespace Tag

/-- The characters of the second part of a tag; in angle brackets there are more of them. -/
def isSuffix (angled : Bool) (c : Char) : Bool :=
  isWord c || ";/?:@&=+$.%!~*'()".toList.contains c || (angled && ",[]".toList.contains c)

/-- The number of bytes of a character that starts with a byte. -/
def byteCount (first : Nat) : Nat :=
  if first < 0x80 then 1
  else if 0xC0 ≤ first && first < 0xE0 then 2
  else if 0xE0 ≤ first && first < 0xF0 then 3
  else if 0xF0 ≤ first && first < 0xF8 then 4
  else 0

/-- The values of `count` bytes that are written with percent signs at the start of a text. -/
def bytes? : Nat → Text → Option (List UInt8)
  | 0, _ => some []
  | count + 1, '%' :: a :: b :: rest => do
    let byte ← Quoted.hexNumber? [a, b]
    return .ofNat byte :: (← bytes? count rest)
  | _ + 1, _ => none

/-- Whether a byte can stand in a character behind its first byte. -/
def isInner (byte : UInt8) : Bool := 0x80 ≤ byte && byte < 0xC0

/-- The bytes that are written with percent signs at the start of a text: a first byte and as many
inner ones as it announces. They need not be a character. -/
def encoded? (t : Text) : Option (List UInt8) := do
  let first ← (← bytes? 1 t).head?
  let bytes ← bytes? (byteCount first.toNat) t
  if bytes.isEmpty || !(bytes.drop 1).all isInner then none else some bytes

/-- The bytes of the second part of a tag. -/
def suffix? (angled : Bool) : Nat → Cursor → Option (List UInt8 × Cursor)
  | 0, _ => none
  | fuel + 1, c =>
    match c.rest with
    | [] => some ([], c)
    | a :: _ =>
      if a = '%' then do
        let bytes ← encoded? c.rest
        let (more, c) ← suffix? angled fuel (c.forward (3 * bytes.length))
        return (bytes ++ more, c)
      else if isSuffix angled a then do
        let (more, c) ← suffix? angled fuel (c.forward 1)
        return (ofText [a] ++ more, c)
      else some ([], c)

/-- What counts of some bytes: those before the first one that is zero. -/
def beforeZero (bytes : List UInt8) : Tag := bytes.takeWhile (· ≠ 0)

/-- The second part of a tag, which has some character. -/
def suffixHere? (angled : Bool) (fuel : Nat) (c : Cursor) : Option (Tag × Cursor) := do
  let (bytes, c) ← suffix? angled fuel c
  if bytes.isEmpty then none else some (beforeZero bytes, c)

/-- The first part of a tag: an exclamation mark, or a name between two of them. -/
def handleHere (c : Cursor) : Text :=
  let name := (c.forward 1).rest.takeWhile isWord
  '!' :: name ++ (if c.sees (name.length + 1) '!' then ['!'] else [])

/-- Whether a text is the first part of a tag that has a name. -/
def isNamedHandle (t : Text) : Bool := 1 < t.length && t.endsWith "!"

/-- The two parts of a tag without angle brackets. -/
def shorthand? (fuel : Nat) (c : Cursor) : Option (Token × Cursor) := do
  let handle := handleHere c
  let rest := c.forward handle.length
  if isNamedHandle handle then
    let (suffix, c) ← suffixHere? false fuel rest
    return (.tag handle suffix, c)
  else
    let (more, c) ← suffix? false fuel rest
    let suffix := ofText (handle.drop 1) ++ beforeZero more
    return (if suffix.isEmpty then .tag [] (ofText "!") else .tag "!" suffix, c)

/-- A tag, `inside` brackets or not. -/
def read? (inside : Bool) (fuel : Nat) (c : Cursor) : Option (Token × Cursor) := do
  let (token, c) ←
    if c.sees 1 '<' then do
      let (suffix, c) ← suffixHere? true fuel (c.forward 2)
      if c.sees 0 '>' then some (Token.tag [] suffix, c.forward 1) else none
    else shorthand? fuel c
  if c.seesGap 0 || (inside && c.sees 0 ',') then some (token, c) else none

end Tag

namespace Directive

/-- A number of up to nine digits. -/
def number? (c : Cursor) : Option (Nat × Cursor) :=
  let digits := c.rest.takeWhile Char.isDigit
  if digits.isEmpty || 9 < digits.length then none
  else some (digits.foldl (fun n a => 10 * n + (a.toNat - '0'.toNat)) 0, c.forward digits.length)

def version? (c : Cursor) : Option (Token × Cursor) := do
  let (major, c) ← number? (c.skip isSpace)
  if !c.sees 0 '.' then none
  let (minor, c) ← number? (c.forward 1)
  return (.version major minor, c)

def handle? (c : Cursor) : Option (Token × Cursor) := do
  let c := c.skip isSpace
  if !c.sees 0 '!' then none
  let name := Tag.handleHere c
  let c := c.forward name.length
  if !(name == ['!'] || Tag.isNamedHandle name) || c.atLineEnd || !c.seesGap 0 then none
  let c := c.skip isSpace
  let (lead, c) ← Tag.suffixHere? true (c.rest.length + 1) c
  if c.seesGap 0 then some (.handle name lead, c) else none

/-- A directive, and the start of the next line. -/
def read? (c : Cursor) : Option (Token × Cursor) := do
  let name := (c.forward 1).rest.takeWhile isWord
  let c := c.forward (name.length + 1)
  if !c.seesGap 0 then none
  let (token, c) ←
    if name == "YAML" then version? c else if name == "TAG" then handle? c else none
  return (token, ← c.nextLine?)

end Directive

end DesignRecords.Yaml
