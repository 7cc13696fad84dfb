import DesignRecords.Text.Basic

namespace DesignRecords

/-- A JSON value; the fields of a record are written in their order. -/
inductive Json
  | null
  | boolean (b : Bool)
  | text (t : Text)
  | list (items : List Json)
  | record (fields : List (Text × Json))
deriving Repr

namespace Json

def hexDigit (n : Nat) : Char := Nat.digitChar n

/-- A character inside quotes. -/
def escaped (c : Char) : Text :=
  match c with
  | '"' => "\\\""
  | '\\' => "\\\\"
  | '\n' => "\\n"
  | '\r' => "\\r"
  | '\t' => "\\t"
  | '\x08' => "\\b"
  | '\x0c' => "\\f"
  | c =>
    if c.toNat < 0x20 then "\\u00" ++ [hexDigit (c.toNat / 16), hexDigit (c.toNat % 16)] else [c]

def quoted (t : Text) : Text := "\"" ++ t.flatMap escaped ++ "\""

/-- The start of a line that is indented by `margin`. -/
def newLine (margin : Nat) : Text := '\n' :: List.replicate margin ' '

mutual

/-- The JSON text of a value, its lines after the first one indented by `margin`. Each item and each
field stands on a line of its own, two places further right. -/
def render (margin : Nat) : Json → Text
  | null => "null"
  | boolean true => "true"
  | boolean false => "false"
  | text t => quoted t
  | list [] => "[]"
  | list (j :: items) => "[" ++ renderItems (margin + 2) (j :: items) ++ newLine margin ++ "]"
  | record [] => "\x7b\x7d"
  | record (f :: fields) =>
    "\x7b" ++ renderFields (margin + 2) (f :: fields) ++ newLine margin ++ "\x7d"

def renderItems (margin : Nat) : List Json → Text
  | [] => []
  | [j] => newLine margin ++ render margin j
  | j :: k :: rest => newLine margin ++ render margin j ++ "," ++ renderItems margin (k :: rest)

def renderFields (margin : Nat) : List (Text × Json) → Text
  | [] => []
  | [(name, j)] => newLine margin ++ quoted name ++ ": " ++ render margin j
  | (name, j) :: f :: rest =>
    newLine margin ++ quoted name ++ ": " ++ render margin j ++ "," ++
      renderFields margin (f :: rest)

end

/-- The text, or `null` for none. -/
def ofText? (t : Option Text) : Json := (t.map text).getD null

def ofTexts (ts : List Text) : Json := list (ts.map text)

end Json

end DesignRecords
