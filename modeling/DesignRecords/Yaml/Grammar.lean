import DesignRecords.Yaml.Lexer
import DesignRecords.Yaml.Node

namespace DesignRecords.Yaml

/-- What has been read of a document. -/
structure Reading where
  /-- The tokens that are left. -/
  tokens : List Token
  /-- What the first parts of tags stand for. -/
  handles : List (Text × Tag)
  /-- The names of anchors, each with the number that it has at present. -/
  anchors : List (Text × Nat)
  /-- The nodes with anchors by their numbers, the last one first. -/
  anchored : List (Nat × Node)

abbrev Reader := StateT Reading Option

namespace Reader

/-- The next token. -/
def peek : Reader Token := do (← get).tokens.head?

/-- Passes over the next token. -/
def skip : Reader Unit := modify fun r => { r with tokens := r.tokens.drop 1 }

/-- Passes over the next token if it is `t`, and tells whether it is. -/
def skipIf (t : Token) : Reader Bool := do
  if (← peek) = t then
    skip
    return true
  else return false

/-- Passes over the next token, which has to be `t`. -/
def expect (t : Token) : Reader Unit := do
  if !(← skipIf t) then failure

/-- Whether the next token is one of some. -/
def peekIn (ts : List Token) : Reader Bool := return ts.contains (← peek)

/-- Passes over an anchor, if there is one. -/
def anchor? : Reader (Option Text) := do
  match ← peek with
  | .anchor name =>
    skip
    return some name
  | _ => return none

/-- Passes over a tag, if there is one. -/
def tag? : Reader (Option Tag) := do
  match ← peek with
  | .tag handle suffix =>
    skip
    if handle.isEmpty then return some suffix
    let lead ← (← get).handles.lookup handle
    return some (lead ++ suffix)
  | _ => return none

/-- Passes over an anchor and a tag in any order. -/
def properties : Reader (Option Text × Option Tag) := do
  let anchor ← anchor?
  let tag ← tag?
  if anchor.isNone && tag.isSome then return (← anchor?, tag)
  return (anchor, tag)

/-- The alias for the node with an anchor of some name. -/
def aliased (name : Text) : Reader Node := do
  return .alias (← (← get).anchors.lookup name)

/-- Numbers an anchor, and puts the empty node where its node will stand. The number is that of the
names before it, so that a name which is not new gets the number that the next new one will get. -/
def startAnchor (name : Text) : Reader Unit := modify fun r =>
  let number := r.anchors.length
  { r with
    anchors := (name, number) :: r.anchors.filter (·.1 ≠ name)
    anchored := (number, .empty) :: r.anchored }

/-- Puts `n` where the node of the anchor behind `earlier` others stands. -/
def endAnchor (earlier : Nat) (n : Node) : Reader Unit := modify fun r =>
  { r with anchored := r.anchored.modify (r.anchored.length - 1 - earlier) fun a => (a.1, n) }

/-- Reads a node that may have an anchor. An alias may be part of the node that it stands for. -/
def anchoring (anchor : Option Text) (reader : Reader Node) : Reader Node := do
  match anchor with
  | none => reader
  | some name =>
    let earlier := (← get).anchored.length
    startAnchor name
    let n ← reader
    endAnchor earlier n
    return n

mutual

/-- A node. Outside brackets it may be a block, and where `indentless` a sequence of items that are
not indented. -/
def node (block indentless : Bool) : Nat → Reader Node
  | 0 => failure
  | fuel + 1 => do
    if let .alias name := ← peek then
      skip
      return ← aliased name
    let (anchor, tag) ← properties
    anchoring anchor <| do
      match ← peek with
      | .scalar style t =>
        skip
        return .scalar tag style t
      | .openSequence =>
        skip
        return .sequence tag (← flowItems true fuel)
      | .openMapping =>
        skip
        return .mapping tag (← flowEntries true fuel)
      | t =>
        if indentless && t = .item then return .sequence tag (← looseItems fuel)
        else if block && t = .blockSequence then
          skip
          return .sequence tag (← items fuel)
        else if block && t = .blockMapping then
          skip
          return .mapping tag (← entries fuel)
        else if anchor.isSome || tag.isSome then return .scalar tag .plain []
        else failure

/-- A node, or the empty one if one of the tokens `ends` is next. -/
def nodeBefore (ends : List Token) (block indentless : Bool) : Nat → Reader Node
  | 0 => failure
  | fuel + 1 => do
    if ← peekIn ends then return .empty else node block indentless fuel

/-- The value behind a colon, or the empty node without a colon. -/
def value (ends : List Token) (block indentless : Bool) : Nat → Reader Node
  | 0 => failure
  | fuel + 1 => do
    if ← skipIf .value then nodeBefore ends block indentless fuel else return .empty

/-- The items of an indented sequence. -/
def items : Nat → Reader (List Node)
  | 0 => failure
  | fuel + 1 => do
    if ← skipIf .blockEnd then return []
    expect .item
    let n ← nodeBefore [.item, .blockEnd] true false fuel
    return n :: (← items fuel)

/-- The items of a sequence that is not indented. -/
def looseItems : Nat → Reader (List Node)
  | 0 => failure
  | fuel + 1 => do
    if !(← skipIf .item) then return []
    let n ← nodeBefore [.item, .key, .value, .blockEnd] true false fuel
    return n :: (← looseItems fuel)

/-- The entries of a mapping without brackets. -/
def entries : Nat → Reader (List (Node × Node))
  | 0 => failure
  | fuel + 1 => do
    if ← skipIf .blockEnd then return []
    expect .key
    let k ← nodeBefore [.key, .value, .blockEnd] true true fuel
    let v ← value [.key, .value, .blockEnd] true true fuel
    return (k, v) :: (← entries fuel)

/-- The items of a sequence in brackets. -/
def flowItems (first : Bool) : Nat → Reader (List Node)
  | 0 => failure
  | fuel + 1 => do
    if ← skipIf .closeSequence then return []
    unless first do expect .comma
    if ← skipIf .closeSequence then return []
    if ← skipIf .key then
      let n ← pair fuel
      return n :: (← flowItems false fuel)
    else
      let n ← node false false fuel
      return n :: (← flowItems false fuel)

/-- A mapping with one entry among the items of a sequence in brackets. Where its key is empty, the
token that shows so is passed over. -/
def pair : Nat → Reader Node
  | 0 => failure
  | fuel + 1 => do
    let bare ← peekIn [.value, .comma, .closeSequence]
    let k ← if bare then pure .empty else node false false fuel
    if bare then skip
    let v ← value [.comma, .closeSequence] false false fuel
    return .mapping none [(k, v)]

/-- The entries of a mapping in brackets. -/
def flowEntries (first : Bool) : Nat → Reader (List (Node × Node))
  | 0 => failure
  | fuel + 1 => do
    if ← skipIf .closeMapping then return []
    unless first do expect .comma
    if ← skipIf .closeMapping then return []
    if ← skipIf .key then
      let k ← nodeBefore [.value, .comma, .closeMapping] false false fuel
      let v ← value [.comma, .closeMapping] false false fuel
      return (k, v) :: (← flowEntries false fuel)
    else
      let k ← node false false fuel
      return (k, .empty) :: (← flowEntries false fuel)

end

/-- What the first parts of tags stand for without directives. -/
def standardHandles : List (Text × Tag) :=
  [("!".toList, .ofText "!"), ("!!".toList, .ofText "tag:yaml.org,2002:")]

/-- The directives in front of a document, of which no two may say something of the same thing. -/
def directives (versioned : Bool) (handles : List (Text × Tag)) :
    List Token → Option (List (Text × Tag) × List Token)
  | .version major minor :: rest =>
    if versioned || major ≠ 1 || !(minor = 1 || minor = 2) then none
    else directives true handles rest
  | .handle name lead :: rest =>
    if (handles.lookup name).isSome then none
    else directives versioned (handles ++ [(name, lead)]) rest
  | rest => some (handles, rest)

/-- Passes over the marks at the end of a document; nothing may follow them. -/
def finished (tokens : List Token) : Bool := tokens.dropWhile (· = .documentEnd) == [.streamEnd]

/-- The document whose node some tokens are, up to the marks at its end. -/
def graph (handles : List (Text × Tag)) (tokens : List Token) : Option Graph := do
  let (n, r) ← (node true false (4 * tokens.length + 4)).run ⟨tokens, handles, [], []⟩
  if finished r.tokens then some ⟨n, r.anchored⟩ else none

/-- The only document among some tokens; the empty node if there is none. -/
def document (tokens : List Token) : Option Graph := do
  let (handles, rest) ← directives false [] tokens
  let handles := handles ++ standardHandles
  match rest with
  | .documentStart :: rest =>
    match rest with
    | .documentEnd :: _ => if finished rest then some (.ofNode .empty) else none
    | [.streamEnd] => some (.ofNode .empty)
    | _ => graph handles rest
  | _ =>
    if rest.length < tokens.length then none
    else if rest == [.streamEnd] then some (.ofNode .empty)
    else graph handles rest

end Reader

/-- The document in a text; nothing unless the text is well formed and has one document at most. -/
def Graph.ofText? (t : Text) : Option Graph := do Reader.document (← Token.ofText? t)

end DesignRecords.Yaml
