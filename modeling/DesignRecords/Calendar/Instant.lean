import DesignRecords.Calendar.Date

namespace DesignRecords

/-- A moment in UTC. A leap second is the last second of its minute with a billion nanoseconds or
more. -/
structure Instant where
  date : Date
  /-- Seconds since midnight. -/
  second : Nat
  nanosecond : Nat
deriving DecidableEq, Repr

namespace Instant

instance : Ord Instant where
  compare a b :=
    (compare a.date b.date).then <| (compare a.second b.second).then <|
      compare a.nanosecond b.nanosecond

/-- The instant a number of nanoseconds after the start of 1970. -/
def ofEpoch (nanoseconds : Int) : Instant :=
  let seconds := nanoseconds / 1000000000
  ⟨.ofEpochDay (seconds / 86400), (seconds % 86400).toNat, (nanoseconds % 1000000000).toNat⟩

/-- The date and time of day up to the second, without an offset. -/
def textToSecond (i : Instant) : Text :=
  i.date.text ++ "T" ++ Text.ofNat 2 (i.second / 3600) ++ ":" ++
    Text.ofNat 2 (i.second / 60 % 60) ++ ":" ++
    Text.ofNat 2 (i.second % 60 + i.nanosecond / 1000000000)

/-- The instant up to the second. -/
def text (i : Instant) : Text := i.textToSecond ++ "Z"

/-- The fraction of a second with as few of 0, 3, 6 or 9 digits as hold it. -/
def fractionText (nanosecond : Nat) : Text :=
  if nanosecond = 0 then ""
  else if nanosecond % 1000000 = 0 then '.' :: Text.ofNat 3 (nanosecond / 1000000)
  else if nanosecond % 1000 = 0 then '.' :: Text.ofNat 6 (nanosecond / 1000)
  else '.' :: Text.ofNat 9 nanosecond

/-- The instant with its fraction. -/
def exactText (i : Instant) : Text :=
  i.textToSecond ++ fractionText (i.nanosecond % 1000000000) ++ "Z"

/-- The instant at a local date and time, `offset` seconds ahead of UTC. -/
def ofLocal? (date : Date) (second nanosecond : Nat) (offset : Int) : Option Instant :=
  let utc := (second : Int) - offset
  if utc < 0 then date.previous?.map fun d => ⟨d, (utc + 86400).toNat, nanosecond⟩
  else if 86400 ≤ utc then date.next?.map fun d => ⟨d, (utc - 86400).toNat, nanosecond⟩
  else some ⟨date, utc.toNat, nanosecond⟩

/-- The instant with the given local parts; second 60 of any minute is a leap second. -/
def ofParts? (date : Date) (hour minute second nanosecond : Nat) (offset : Int) :
    Option Instant :=
  if 24 ≤ hour || 60 ≤ minute || 61 ≤ second || 86400 ≤ offset.natAbs then none
  else
    ofLocal? date (3600 * hour + 60 * minute + min second 59)
      (nanosecond + if second = 60 then 1000000000 else 0) offset

/-- A fraction of a second at the start of a text in nanoseconds, zero where there is no point.
Digits after the ninth are passed over. -/
def readFraction? (t : Text) : Option (Nat × Text) :=
  match t with
  | '.' :: rest => do
    let (n, after) ← Text.number? 1 9 rest
    return (n * Nat.pow 10 (9 - (rest.length - after.length)), after.dropWhile Char.isDigit)
  | _ => some (0, t)

/-- Hours and minutes of an offset, without its sign; `skip` passes over what stands between. -/
def readHoursMinutes? (skip : Text → Option Text) (t : Text) : Option (Nat × Text) := do
  let (hours, t) ← Text.number? 2 2 t
  let (minutes, t) ← Text.number? 2 2 (← skip t)
  if minutes < 60 then some (3600 * hours + 60 * minutes, t) else none

/-- An offset from UTC in seconds: `Z`, or a sign with hours and minutes. -/
def readOffset? (skip : Text → Option Text) (t : Text) : Option (Int × Text) :=
  match t with
  | [] => none
  | c :: rest =>
    if c = 'Z' || c = 'z' then some (0, rest)
    else if c = '+' then (readHoursMinutes? skip rest).map fun (n, t) => ((n : Int), t)
    else if c = '-' || c = '−' then (readHoursMinutes? skip rest).map fun (n, t) => (-(n : Int), t)
    else none

/-- What follows the mark between date and time. -/
def afterDateMark? : Text → Option Text
  | 'T' :: rest => some rest
  | 't' :: rest => some rest
  | ' ' :: rest => some rest
  | _ => none

/-- The instant that a text in the form of RFC 3339 denotes. -/
def read? (t : Text) : Option Instant := do
  let (year, t) ← Text.number? 4 4 t
  let (month, t) ← Text.number? 2 2 (← Text.after? "-" t)
  let (day, t) ← Text.number? 2 2 (← Text.after? "-" t)
  let (hour, t) ← Text.number? 2 2 (← afterDateMark? t)
  let (minute, t) ← Text.number? 2 2 (← Text.after? ":" t)
  let (second, t) ← Text.number? 2 2 (← Text.after? ":" t)
  let (nanosecond, t) ← readFraction? t
  let (offset, t) ← readOffset? (Text.after? ":") t
  if t.isEmpty then ofParts? (← Date.ofParts? year month day) hour minute second nanosecond offset
  else none

/-- The offset at the end of a relaxed instant, where `UTC` in any case is allowed and colons and
blanks may stand or be missing between hours and minutes. -/
def readLooseOffset? (t : Text) : Option (Int × Text) :=
  if Text.sameIgnoringCase (t.take 3) "UTC" then some (0, t.drop 3)
  else readOffset? (fun t => some (t.dropWhile fun c => c = ':' || isBlank c)) t

/-- The instant that a text in a relaxed form of RFC 3339 denotes: fields may be shorter, the year
may have a sign, and blanks may stand around the fields. -/
def readLoose? (t : Text) : Option Instant := do
  let (year, t) ← Date.readYear? t
  let (month, t) ← Date.readField? (← Text.after? "-" (Text.trimStart t))
  let (day, t) ← Date.readField? (← Text.after? "-" (Text.trimStart t))
  let (hour, t) ← Date.readField? (← afterDateMark? t)
  let (minute, t) ← Date.readField? (← Text.after? ":" (Text.trimStart t))
  let (second, t) ← Date.readField? (← Text.after? ":" (Text.trimStart t))
  let (nanosecond, t) ← readFraction? t
  let (offset, t) ← readLooseOffset? (Text.trimStart t)
  if Text.blank t then
    ofParts? (← Date.ofParts? year month day) hour minute second nanosecond offset
  else none

end Instant

end DesignRecords
