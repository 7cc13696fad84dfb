import DesignRecords.Yaml.Block
import DesignRecords.Yaml.Plain
import DesignRecords.Yaml.Property

namespace DesignRecords.Yaml

/-- A token that turns out to be a key when a colon follows on its line. -/
structure KeyStart where
  /-- Whether the line is an error without a colon. -/
  required : Bool
  /-- The number of tokens in front of it. -/
  before : Nat
  mark : Mark
deriving Repr

/-- A text of which some tokens have been read. -/
structure Lexer where
  cursor : Cursor
  /-- The last token first. -/
  tokens : List Token
  /-- The number of these tokens. -/
  count : Nat
  /-- The column of the innermost block, `-1` outside of all blocks. -/
  indent : Int
  /-- The columns of the blocks around it. -/
  outer : List Int
  /-- The number of open brackets. -/
  depth : Nat
  /-- Whether a key without a question mark may start here. -/
  keyAllowed : Bool
  /-- What may be a key, for each open bracket and for the text outside, innermost first. -/
  keys : List (Option KeyStart)

namespace Lexer

def ofText (t : Text) : Lexer := ⟨.ofText t, [], 0, -1, [], 0, true, [none]⟩

def inside (l : Lexer) : Bool := 0 < l.depth

def column (l : Lexer) : Int := l.cursor.mark.column

def add (t : Token) (l : Lexer) : Lexer :=
  { l with tokens := t :: l.tokens, count := l.count + 1 }

/-- Puts a token behind the first `before` ones. -/
def addBehind (before : Nat) (t : Token) (l : Lexer) : Lexer :=
  { l with tokens := l.tokens.insertIdx (l.count - before) t, count := l.count + 1 }

def forward (n : Nat) (l : Lexer) : Lexer := { l with cursor := l.cursor.forward n }

/-- Ends the blocks that reach further right than a column, of those that lie in the blocks at some
columns. -/
def dedentFrom (column : Int) : List Int → Lexer → Lexer
  | [], l => l
  | o :: outer, l =>
    if column < l.indent then
      dedentFrom column outer { l.add .blockEnd with indent := o, outer := outer }
    else l

/-- Ends the blocks that reach further right than a column. In brackets there are none. -/
def dedent (column : Int) (l : Lexer) : Lexer :=
  if l.inside then l else l.dedentFrom column l.outer

/-- Starts a block at a column that lies further right than the one around it; its token goes behind
the first `before` ones. -/
def indentTo (column : Int) (before : Nat) (t : Token) (l : Lexer) : Lexer :=
  if l.inside || column ≤ l.indent then l
  else { l.addBehind before t with indent := column, outer := l.indent :: l.outer }

/-- Gives up what might have been a key; an error if it had to be one. -/
def dropKey (l : Lexer) : Option Lexer :=
  match l.keys with
  | [] => some l
  | k :: keys =>
    if (k.map (·.required)).getD false then none else some { l with keys := none :: keys }

/-- Notes that what follows may be a key. -/
def noteKey (l : Lexer) : Option Lexer :=
  if !l.keyAllowed then some l
  else do
    let l ← l.dropKey
    let required := !l.inside && l.indent = l.column
    return { l with keys := some ⟨required, l.count, l.cursor.mark⟩ :: l.keys.drop 1 }

/-- Whether what may be a key lies on another line or too far back. -/
def isStale (m : Mark) (k : KeyStart) : Bool :=
  k.mark.line < m.line || k.mark.index + 1024 < m.index

/-- Gives up the keys that have become stale. -/
def dropStale (l : Lexer) : Option Lexer := do
  let keys ← l.keys.mapM fun k =>
    match k with
    | none => some none
    | some k =>
      if !isStale l.cursor.mark k then some (some k) else if k.required then none else some none
  return { l with keys := keys }

/-- Passes over blanks, comments and line breaks, and over a byte order mark at the start of a line.
Outside brackets, a new line may start with a key, and where a key may start a tab is no blank. -/
def skipGap : Nat → Lexer → Lexer
  | 0, l => l
  | fuel + 1, l =>
    let mark := l.cursor.mark.column = 0 && l.cursor.sees 0 '\uFEFF'
    let c := if mark then l.cursor.forward 1 else l.cursor
    let c := c.skip fun a => a = ' ' || ((l.inside || !l.keyAllowed) && a = '\t')
    let c := c.skipComment
    let l := { l with cursor := c }
    if c.rest.isEmpty || !c.atLineEnd then l
    else skipGap fuel { l.forward 1 with keyAllowed := l.keyAllowed || !l.inside }

/-- The end of the text. -/
def finish (l : Lexer) : Option (List Token) := do
  let l ← (l.dedent (-1)).dropKey
  return (Token.streamEnd :: l.tokens).reverse

/-- A mark that ends all blocks. -/
def readDocumentMark (t : Token) (l : Lexer) : Option Lexer := do
  let l ← (l.dedent (-1)).dropKey
  return { (l.forward 3).add t with keyAllowed := false }

def readDirective (l : Lexer) : Option Lexer := do
  let l ← (l.dedent (-1)).dropKey
  let (t, c) ← Directive.read? l.cursor
  return { l.add t with cursor := c, keyAllowed := false }

def openBracket (t : Token) (l : Lexer) : Option Lexer := do
  let l ← l.noteKey
  return { (l.forward 1).add t with
    depth := l.depth + 1, keys := none :: l.keys, keyAllowed := true }

def closeBracket (t : Token) (l : Lexer) : Option Lexer := do
  let l ← l.dropKey
  let keys := if l.inside then l.keys.drop 1 else l.keys
  return { (l.forward 1).add t with depth := l.depth - 1, keys := keys, keyAllowed := false }

def readComma (l : Lexer) : Option Lexer := do
  let l ← l.dropKey
  return { (l.forward 1).add .comma with keyAllowed := true }

/-- A hyphen in front of an item. -/
def readItem (l : Lexer) : Option Lexer := do
  if !l.inside && !l.keyAllowed then none
  let l ← (l.indentTo l.column l.count .blockSequence).dropKey
  return { (l.forward 1).add .item with keyAllowed := true }

/-- A question mark in front of a key. -/
def readKey (l : Lexer) : Option Lexer := do
  if !l.inside && !l.keyAllowed then none
  let l ← (l.indentTo l.column l.count .blockMapping).dropKey
  return { (l.forward 1).add .key with keyAllowed := !l.inside }

/-- A colon in front of a value. What may be a key becomes one. -/
def readValue (l : Lexer) : Option Lexer :=
  match l.keys.head?.join with
  | some k =>
    let l := (l.addBehind k.before .key).indentTo k.mark.column k.before .blockMapping
    some { (l.forward 1).add .value with keyAllowed := false, keys := none :: l.keys.drop 1 }
  | none => do
    if !l.inside && !l.keyAllowed then none
    let l := l.indentTo l.column l.count .blockMapping
    return { (l.forward 1).add .value with keyAllowed := !l.inside }

/-- A token that may be a key or the start of one. -/
def readNamed (token : Text → Token) (l : Lexer) : Option Lexer := do
  let l ← l.noteKey
  let (name, c) ← name? l.cursor
  return { l.add (token name) with cursor := c, keyAllowed := false }

def readTag (fuel : Nat) (l : Lexer) : Option Lexer := do
  let l ← l.noteKey
  let (t, c) ← Tag.read? l.inside fuel l.cursor
  return { l.add t with cursor := c, keyAllowed := false }

def readBlock (folded : Bool) (fuel : Nat) (l : Lexer) : Option Lexer := do
  let l ← l.dropKey
  let (t, c) ← Block.read? folded l.indent fuel l.cursor
  let style := if folded then Style.folded else .literal
  return { l.add (.scalar style t) with cursor := c, keyAllowed := true }

def readQuoted (quote : Char) (fuel : Nat) (l : Lexer) : Option Lexer := do
  let l ← l.noteKey
  let (t, c) ← Quoted.read? quote fuel l.cursor
  return { l.add (.scalar .quoted t) with cursor := c, keyAllowed := false }

def readPlain (fuel : Nat) (l : Lexer) : Option Lexer := do
  let l ← l.noteKey
  let (t, newLine, c) ← Plain.read? l.inside (l.indent + 1) fuel l.cursor
  return { l.add (.scalar .plain t) with cursor := c, keyAllowed := newLine }

/-- Characters that start no plain scalar. -/
def indicators : List Char := "-?:,[]\x7b\x7d#&*!|>'\"%@`".toList

/-- Whether a plain scalar may start here. -/
def startsPlain (l : Lexer) (a : Char) : Bool :=
  (!l.cursor.seesGap 0 && !indicators.contains a) ||
    (a = '-' && !(l.cursor.sees 1 ' ' || l.cursor.sees 1 '\t')) ||
    (!l.inside && (a = '?' || a = ':') && !l.cursor.seesGap 1)

/-- Reads a token that starts with `a`, which stands here; `fuel` is more than the characters that
are left. -/
def read (a : Char) (fuel : Nat) (l : Lexer) : Option Lexer :=
  let c := l.cursor
  if c.mark.column = 0 && a = '%' then l.readDirective
  else if c.atTriple '-' then l.readDocumentMark .documentStart
  else if c.atTriple '.' then l.readDocumentMark .documentEnd
  else if a = '[' then l.openBracket .openSequence
  else if a = '{' then l.openBracket .openMapping
  else if a = ']' then l.closeBracket .closeSequence
  else if a = '}' then l.closeBracket .closeMapping
  else if a = ',' then l.readComma
  else if a = '-' && c.seesGap 1 then l.readItem
  else if a = '?' && (l.inside || c.seesGap 1) then l.readKey
  else if a = ':' && (l.inside || c.seesGap 1) then l.readValue
  else if a = '*' then l.readNamed .alias
  else if a = '&' then l.readNamed .anchor
  else if a = '!' then l.readTag fuel
  else if a = '|' && !l.inside then l.readBlock false fuel
  else if a = '>' && !l.inside then l.readBlock true fuel
  else if a = '\'' || a = '"' then l.readQuoted a fuel
  else if l.startsPlain a then l.readPlain fuel
  else none

/-- The tokens of the whole text. Each step but the last one passes a character, so that there is
always more fuel than characters are left. -/
def run : Nat → Lexer → Option (List Token)
  | 0, _ => none
  | fuel + 1, l => do
    let l ← (l.skipGap (fuel + 1)).dropStale
    let l := l.dedent l.column
    match l.cursor.rest with
    | [] => l.finish
    | a :: _ => run fuel (← l.read a (fuel + 1))

end Lexer

/-- The tokens of a text; nothing if it cannot be divided into tokens. -/
def Token.ofText? (t : Text) : Option (List Token) :=
  if t.all isPrintable then (Lexer.ofText (withLineFeeds t)).run (t.length + 2) else none

end DesignRecords.Yaml
