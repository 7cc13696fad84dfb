import DesignRecords.Yaml.Cursor

namespace DesignRecords.Yaml.Block

/-- What becomes of the line breaks at the end of a block. -/
inductive Chomping
  | strip
  | clip
  | keep
deriving DecidableEq, Repr

def chomping? : Char → Option Chomping
  | '+' => some .keep
  | '-' => some .strip
  | _ => none

/-- An indentation of 1 to 9 columns at the start of a text, and the rest; no digit gives nothing,
and zero is an error. -/
def indentation? (c : Cursor) : Option (Option Nat × Cursor) :=
  match c.rest with
  | a :: _ =>
    if a = '0' then none
    else if a.isDigit then some (some (a.toNat - '0'.toNat), c.forward 1)
    else some (none, c)
  | [] => some (none, c)

/-- What stands behind the bar or the angle bracket of a block: its chomping and its indentation, in
any order. -/
def header? (c : Cursor) : Option (Chomping × Option Nat × Cursor) := do
  match c.rest.head?.bind chomping? with
  | some chomping =>
    let (indentation, c) ← indentation? (c.forward 1)
    return (chomping, indentation, ← c.nextLine?)
  | none =>
    let (indentation, c) ← indentation? c
    match (if indentation.isSome then c.rest.head?.bind chomping? else none) with
    | some chomping => return (chomping, indentation, ← (c.forward 1).nextLine?)
    | none => return (.clip, indentation, ← c.nextLine?)

/-- The line breaks of empty lines, with the widest column that was reached. A tab cannot stand for
indentation; where the indentation is not known, every space is part of it. -/
def breaks (indent : Option Nat) : Nat → Nat → Cursor → Option (Text × Nat × Cursor)
  | 0, _, _ => none
  | fuel + 1, widest, c => do
    let room := (indent.map (· - c.mark.column)).getD c.rest.length
    let c := c.forward ((c.rest.take room).takeWhile (· = ' ')).length
    let widest := max widest c.mark.column
    if c.sees 0 '\t' && (indent.map fun n => decide (c.mark.column < n)).getD true then none
    match c.rest with
    | [] => return ([], widest, c)
    | a :: _ =>
      if !isBreak a then return ([], widest, c)
      let (more, widest, c) ← breaks indent fuel widest (c.forward 1)
      return (a :: more, widest, c)

/-- The rest of a block after `done`: `first` is the break of the line before and `empty` are those
of the empty lines behind it; `wide` tells whether the line before starts with a space. -/
def readFrom (folded : Bool) (indent : Nat) :
    Nat → Text → Text → Text → Bool → Cursor → Option (Text × Text × Text × Cursor)
  | 0, _, _, _, _, _ => none
  | fuel + 1, done, first, empty, wide, c => do
    if c.mark.column ≠ indent || c.rest.isEmpty then return (done, first, empty, c)
    let wideHere := (c.rest.head?.map isSpace).getD false
    let first :=
      if folded && first == ['\n'] && !wide && !wideHere then
        (if empty.isEmpty then [' '] else [])
      else first
    let line := c.rest.takeWhile (!isBreak ·)
    let c := c.forward line.length
    let newBreak := c.rest.take 1
    let c := c.forward 1
    let (newEmpty, _, c) ← breaks (some indent) (fuel + 1) 0 c
    readFrom folded indent fuel (done ++ first ++ empty ++ line) newBreak newEmpty wideHere c

/-- A block that the bar or the angle bracket here announces, below a line indented to `outer`. -/
def read? (folded : Bool) (outer : Int) (fuel : Nat) (c : Cursor) : Option (Text × Cursor) := do
  let (chomping, indentation, c) ← header? (c.forward 1)
  let known := indentation.map fun n => (max outer 0).toNat + n
  let (empty, widest, c) ← breaks known fuel 0 c
  let indent := known.getD (max (max widest (outer + 1).toNat) 1)
  let (done, first, empty, c) ← readFrom folded indent fuel [] [] empty false c
  match chomping with
  | .strip => return (done, c)
  | .clip => return (done ++ first, c)
  | .keep => return (done ++ first ++ empty, c)

end DesignRecords.Yaml.Block
