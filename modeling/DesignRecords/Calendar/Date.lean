import DesignRecords.Text.Blank
import DesignRecords.Text.Numeral

namespace DesignRecords

/-- A day of the proleptic Gregorian calendar. -/
structure Date where
  year : Int
  month : Nat
  day : Nat
deriving DecidableEq, Repr

namespace Date

def leap (year : Int) : Bool := year % 4 == 0 && (year % 100 != 0 || year % 400 == 0)

def daysIn (year : Int) (month : Nat) : Nat :=
  if month == 2 then (if leap year then 29 else 28)
  else if month == 4 || month == 6 || month == 9 || month == 11 then 30
  else 31

/-- The years that dates may have. -/
def yearInRange (year : Int) : Bool := -262143 ≤ year && year ≤ 262142

/-- The date with the given parts, if the calendar has it. -/
def ofParts? (year : Int) (month day : Nat) : Option Date :=
  if yearInRange year && 1 ≤ month && month ≤ 12 && 1 ≤ day && day ≤ daysIn year month then
    some ⟨year, month, day⟩
  else none

def next? (d : Date) : Option Date :=
  if d.day < daysIn d.year d.month then some { d with day := d.day + 1 }
  else if d.month < 12 then some { d with month := d.month + 1, day := 1 }
  else ofParts? (d.year + 1) 1 1

def previous? (d : Date) : Option Date :=
  if 1 < d.day then some { d with day := d.day - 1 }
  else if 1 < d.month then some { d with month := d.month - 1, day := daysIn d.year (d.month - 1) }
  else ofParts? (d.year - 1) 12 31

/-- The date a number of days after 1 March 0000. Years are counted from March here, so that the
leap day is the last day of its year. -/
def ofMarchDay (days : Int) : Date :=
  let era := days / 146097
  let inEra := days % 146097
  let yearInEra := (inEra - inEra / 1460 + inEra / 36524 - inEra / 146096) / 365
  let inYear := (inEra - (365 * yearInEra + yearInEra / 4 - yearInEra / 100)).toNat
  let month := (5 * inYear + 2) / 153
  let day := inYear - (153 * month + 2) / 5 + 1
  let year := 400 * era + yearInEra
  if month < 10 then ⟨year, month + 3, day⟩ else ⟨year + 1, month - 9, day⟩

/-- The date a number of days after 1 January 1970. -/
def ofEpochDay (days : Int) : Date := ofMarchDay (days + 719468)

/-- Four digits for the years 0 to 9999, a sign and at least four digits for all others. -/
def yearText (year : Int) : Text :=
  if year < 0 then '-' :: Text.ofNat 4 year.natAbs
  else if 9999 < year then '+' :: Text.ofNat 4 year.natAbs
  else Text.ofNat 4 year.natAbs

/-- The date as year, month and day with hyphens between them. -/
def text (d : Date) : Text :=
  yearText d.year ++ "-" ++ Text.ofNat 2 d.month ++ "-" ++ Text.ofNat 2 d.day

/-- A year at the start of a text, after blanks: up to four digits, or a sign and any number of
digits. -/
def readYear? (t : Text) : Option (Int × Text) :=
  match t.trimStart with
  | '-' :: rest => (Text.number? 1 rest.length rest).map fun (n, rest) => (-(n : Int), rest)
  | '+' :: rest => (Text.number? 1 rest.length rest).map fun (n, rest) => ((n : Int), rest)
  | rest => (Text.number? 1 4 rest).map fun (n, rest) => ((n : Int), rest)

/-- A field of one or two digits at the start of a text, after blanks. -/
def readField? (t : Text) : Option (Nat × Text) := t.trimStart.number? 1 2

/-- The date that a text of the form year, month, day with hyphens between them denotes. -/
def read? (t : Text) : Option Date := do
  let (year, t) ← readYear? t
  let (month, t) ← readField? (← Text.after? "-" t)
  let (day, t) ← readField? (← Text.after? "-" t)
  if t.isEmpty then ofParts? year month day else none

end Date

instance : Ord Date where
  compare a b := (compare a.year b.year).then <| (compare a.month b.month).then <| compare a.day b.day

end DesignRecords
