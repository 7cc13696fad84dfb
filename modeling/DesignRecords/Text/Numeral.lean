import DesignRecords.Text.Basic

namespace DesignRecords.Text

/-- The value of a list of decimal digits. -/
def digitsValue (t : Text) : Nat := t.foldl (fun n c => 10 * n + (c.toNat - '0'.toNat)) 0

/-- The number at the start of a text, of `least` to `most` decimal digits, and the rest. -/
def number? (least most : Nat) (t : Text) : Option (Nat × Text) :=
  let digits := (t.take most).takeWhile Char.isDigit
  if digits.length < least then none else some (digitsValue digits, t.drop digits.length)

/-- The value of a text of decimal digits alone. -/
def decimal? (t : Text) : Option Nat :=
  if t.isEmpty || !t.all Char.isDigit then none else some (digitsValue t)

/-- A number in decimal digits, filled up on the left with zeros to `width` places. -/
def ofNat (width n : Nat) : Text :=
  let digits := Nat.toDigits 10 n
  List.replicate (width - digits.length) '0' ++ digits

end DesignRecords.Text
