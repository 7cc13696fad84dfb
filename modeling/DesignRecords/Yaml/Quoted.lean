import DesignRecords.Yaml.Gap

namespace DesignRecords.Yaml.Quoted

def hexValue? (c : Char) : Option Nat :=
  if c.isDigit then some (c.toNat - '0'.toNat)
  else if 'a' ≤ c && c ≤ 'f' then some (c.toNat - 'a'.toNat + 10)
  else if 'A' ≤ c && c ≤ 'F' then some (c.toNat - 'A'.toNat + 10)
  else none

/-- The value of a text of digits in base 16. -/
def hexNumber? (t : Text) : Option Nat :=
  t.foldlM (fun n c => (hexValue? c).map (16 * n + ·)) 0

/-- The character with a code of `digits` places at the start of a text. -/
def coded? (digits : Nat) (t : Text) : Option Char := do
  let code := t.take digits
  if code.length < digits then none
  let n ← hexNumber? code
  if h : n.isValidChar then some (.ofNatAux n h) else none

/-- The character that is written with a backslash and what starts a text, and how much of the text
is part of it. -/
def escape? : Text → Option (Char × Nat)
  | [] => none
  | a :: rest =>
    match a with
    | '0' => some ('\x00', 1)
    | 'a' => some ('\x07', 1)
    | 'b' => some ('\x08', 1)
    | 't' => some ('\t', 1)
    | '\t' => some ('\t', 1)
    | 'n' => some ('\n', 1)
    | 'v' => some ('\x0b', 1)
    | 'f' => some ('\x0c', 1)
    | 'r' => some ('\r', 1)
    | 'e' => some ('\x1b', 1)
    | ' ' => some (' ', 1)
    | '"' => some ('"', 1)
    | '/' => some ('/', 1)
    | '\\' => some ('\\', 1)
    | 'N' => some ('\u0085', 1)
    | '_' => some ('\u00a0', 1)
    | 'L' => some ('\u2028', 1)
    | 'P' => some ('\u2029', 1)
    | 'x' => (coded? 2 rest).map (·, 3)
    | 'u' => (coded? 4 rest).map (·, 5)
    | 'U' => (coded? 8 rest).map (·, 9)
    | _ => none

/-- The characters up to the next gap or the closing quote, and whether they end with an escaped
line break. -/
def word (quote : Char) : Nat → Cursor → Option (Text × Bool × Cursor)
  | 0, _ => none
  | fuel + 1, c =>
    let more (a : Char) (n : Nat) : Option (Text × Bool × Cursor) := do
      let (t, escaped, c) ← word quote fuel (c.forward n)
      return (a :: t, escaped, c)
    match c.rest with
    | [] => some ([], false, c)
    | a :: rest =>
      if isSpace a || isBreak a then some ([], false, c)
      else if a = quote then
        if quote = '\'' && rest.head? == some '\'' then more a 2 else some ([], false, c)
      else if quote = '"' && a = '\\' then
        if (rest.head?.map isBreak).getD false then some ([], true, c.forward 2)
        else (escape? rest).bind fun (b, n) => more b (n + 1)
      else more a 1

/-- The rest of a quoted scalar after `done`, and what follows. -/
def readFrom (quote : Char) : Nat → Text → Cursor → Option (Text × Cursor)
  | 0, _, _ => none
  | fuel + 1, done, c => do
    if c.atDocumentMark || c.rest.isEmpty then none
    let (word, escaped, c) ← word quote (fuel + 1) c
    let done := done ++ word
    if c.sees 0 quote then return (done, c.forward 1)
    let gap := (if escaped then Gap.escaped else .empty).extend c.gapHere
    readFrom quote fuel (done ++ gap.text) (c.forward c.gapHere.length)

/-- A scalar in quotes, of which the first one stands here. -/
def read? (quote : Char) (fuel : Nat) (c : Cursor) : Option (Text × Cursor) :=
  readFrom quote fuel [] (c.forward 1)

end DesignRecords.Yaml.Quoted
