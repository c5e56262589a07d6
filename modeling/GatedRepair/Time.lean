import GatedRepair.Number
import GatedRepair.Text.Character
import GatedRepair.Text.Lines

/-!
# Points in time

A point in time is a date of the Gregorian calendar and a time of the day, both in UTC. A minute may have a
sixty-first second.
-/

namespace GatedRepair.Time

def isLeapYear (year : Int) : Bool := year % 4 = 0 && (year % 100 ≠ 0 || year % 400 = 0)

/-- The number of days in a month. -/
def daysIn (year : Int) (month : Nat) : Nat :=
  if month = 2 then (if isLeapYear year then 29 else 28)
  else if month = 4 ∨ month = 6 ∨ month = 9 ∨ month = 11 then 30
  else 31

/-- The fields name a day of the calendar and a time of the day. -/
def isTime (year : Int) (month day hour minute second nano : Nat) : Bool :=
  -262143 ≤ year && year ≤ 262142 && 1 ≤ month && month ≤ 12 && 1 ≤ day && day ≤ daysIn year month
    && hour ≤ 23 && minute ≤ 59 && second ≤ 60 && nano < 1000000000

end Time

/-- A point in time in UTC. -/
structure Timestamp where
  year : Int
  month : Nat
  day : Nat
  hour : Nat
  minute : Nat
  second : Nat
  nano : Nat
  isTime : Time.isTime year month day hour minute second nano = true
  deriving DecidableEq

namespace Timestamp

open GatedRepair.Number GatedRepair.Time

/-- The point in time with the given fields, if they name one. -/
def ofFields? (year : Int) (month day hour minute second nano : Nat) : Option Timestamp :=
  if h : Time.isTime year month day hour minute second nano = true then
    some ⟨year, month, day, hour, minute, second, nano, h⟩
  else none

/-- The beginning of the year 1970. -/
def epoch : Timestamp := ⟨1970, 1, 1, 0, 0, 0, 0, by decide⟩

instance : Inhabited Timestamp := ⟨epoch⟩

instance : Repr Timestamp where
  reprPrec t _ := repr (t.year, t.month, t.day, t.hour, t.minute, t.second, t.nano)

/-- The day after a date. -/
def dayAfter (year : Int) (month day : Nat) : Int × Nat × Nat :=
  if day < daysIn year month then (year, month, day + 1)
  else if month < 12 then (year, month + 1, 1)
  else (year + 1, 1, 1)

/-- The day before a date. -/
def dayBefore (year : Int) (month day : Nat) : Int × Nat × Nat :=
  if 1 < day then (year, month, day - 1)
  else if 1 < month then (year, month - 1, daysIn year (month - 1))
  else (year - 1, 12, 31)

/-- The point in time when clocks that are `offset` minutes ahead of UTC show the given fields. The offset is
less than a day. -/
def ofLocal? (year : Int) (month day hour minute second nano : Nat) (offset : Int) : Option Timestamp := do
  let _ ← ofFields? year month day hour minute second nano
  let minutes : Int := (hour * 60 + minute : Nat) - offset
  let (date, minutes) :=
    if minutes < 0 then (dayBefore year month day, minutes + 1440)
    else if 1440 ≤ minutes then (dayAfter year month day, minutes - 1440)
    else ((year, month, day), minutes)
  let total := minutes.toNat
  ofFields? date.1 date.2.1 date.2.2 (total / 60) (total % 60) second nano

/-- The year with at least four digits, and with a sign when it has more or is negative. -/
def yearChars (year : Int) : List Char :=
  if 0 ≤ year ∧ year ≤ 9999 then padded 10 4 year.toNat
  else (if year < 0 then '-' else '+') :: padded 10 4 year.natAbs

/-- The fraction of a second with 3, 6 or 9 digits, the fewest that are exact, or nothing at all. -/
def fractionChars (nano : Nat) : List Char :=
  if nano = 0 then []
  else if nano % 1000000 = 0 then '.' :: padded 10 3 (nano / 1000000)
  else if nano % 1000 = 0 then '.' :: padded 10 6 (nano / 1000)
  else '.' :: padded 10 9 nano

/-- The text of a point in time, such as `2024-03-01T10:00:05.250Z`. -/
def text (t : Timestamp) : String :=
  String.ofList (yearChars t.year ++ '-' :: padded 10 2 t.month ++ '-' :: padded 10 2 t.day
    ++ 'T' :: padded 10 2 t.hour ++ ':' :: padded 10 2 t.minute ++ ':' :: padded 10 2 t.second
    ++ fractionChars t.nano ++ ['Z'])

/-- The text of a point in time to the second without punctuation, for file names. -/
def stamp (t : Timestamp) : String :=
  String.ofList (yearChars t.year ++ padded 10 2 t.month ++ padded 10 2 t.day
    ++ 'T' :: padded 10 2 t.hour ++ padded 10 2 t.minute ++ padded 10 2 t.second)

/-- The text of a point in time to the millisecond without punctuation, for file names. -/
def fineStamp (t : Timestamp) : String := t.stamp ++ String.ofList (padded 10 3 (t.nano / 1000000))

end Timestamp

end GatedRepair

/-!
## Seconds since the beginning of 1970

The calendar repeats every 400 years, and within them a year is counted from March, so that the day a leap year adds
is the last one.
-/

namespace GatedRepair.Timestamp

/-- The date so many days after the first of March of the year 0. -/
def dateOfDays (days : Nat) : Nat × Nat × Nat :=
  let day := days % 146097
  let year := (day - day / 1460 + day / 36524 - day / 146096) / 365
  let inYear := day - (365 * year + year / 4 - year / 100)
  let month := (5 * inYear + 2) / 153
  let fromMarch := year + days / 146097 * 400
  let inMonth := inYear - (153 * month + 2) / 5 + 1
  if month < 10 then (fromMarch, month + 3, inMonth) else (fromMarch + 1, month - 9, inMonth)

/-- The point in time so many seconds and nanoseconds after the beginning of 1970. -/
def ofSeconds? (seconds nano : Nat) : Option Timestamp :=
  let (year, month, day) := dateOfDays (seconds / 86400 + 719468)
  let inDay := seconds % 86400
  ofFields? year month day (inDay / 3600) (inDay / 60 % 60) (inDay % 60) nano

end GatedRepair.Timestamp

/-!
## Reading points in time

A date, `T` or a blank, a time of the day with an optional fraction, and an offset from UTC. Blanks may stand
between the parts, leading zeros may be missing, and a year with a sign may have any number of digits.
-/

namespace GatedRepair.Timestamp

open GatedRepair.Number GatedRepair.Text

/-- A number of one to `width` digits in front of a text, and the text after it. -/
def number? (width : Nat) (text : List Char) : Option (Nat × List Char) :=
  let digits := (text.take width).takeWhile fun c => (digit? c).isSome
  (ofDigits? bound64 digits).map fun n => (n, text.drop digits.length)

/-- A number after blanks. -/
def field? (width : Nat) (text : List Char) : Option (Nat × List Char) := number? width (trimStart text)

/-- The text after blanks and a separator. -/
def separator? (c : Char) (text : List Char) : Option (List Char) := after? [c] (trimStart text)

/-- A year of one to four digits, or of any number of digits after a sign. -/
def year? (text : List Char) : Option (Int × List Char) :=
  match trimStart text with
  | '-' :: rest => (number? rest.length rest).map fun (n, rest) => (-(n : Int), rest)
  | '+' :: rest => (number? rest.length rest).map fun (n, rest) => ((n : Int), rest)
  | text => (number? 4 text).map fun (n, rest) => ((n : Int), rest)

/-- The fraction of a second after a point, in nanoseconds. Digits after the ninth are passed over. -/
def fraction? (text : List Char) : Option (Nat × List Char) :=
  match text with
  | '.' :: rest => do
    let (n, more) ← number? 9 rest
    let read := rest.length - more.length
    return (n * Nat.pow 10 (9 - read), more.dropWhile fun c => (digit? c).isSome)
  | _ => some (0, text)

/-- The offset from UTC in minutes: `Z`, `UTC`, or a sign with two digits each for hours and minutes. -/
def offset? (text : List Char) : Option (Int × List Char) :=
  if equalIgnoringAsciiCase (text.take 3) ['u', 't', 'c'] then some (0, text.drop 3) else
    let signed := fun (negative : Bool) (rest : List Char) =>
      match rest with
      | a :: b :: rest => do
        let hours := (← digit? a) * 10 + (← digit? b)
        match rest.dropWhile fun c => c == ':' || isBlank c with
        | c :: d :: rest =>
          let tens ← digit? c
          let minutes := tens * 10 + (← digit? d)
          if 5 < tens ∨ 24 ≤ hours then none
          else some ((if negative then -((hours * 60 + minutes : Nat) : Int) else ((hours * 60 + minutes : Nat) : Int)), rest)
        | _ => none
      | _ => none
    match text with
    | 'Z' :: rest => some (0, rest)
    | 'z' :: rest => some (0, rest)
    | '+' :: rest => signed false rest
    | '-' :: rest => signed true rest
    | '\u2212' :: rest => signed true rest
    | _ => none

/-- The point in time that a text names. -/
def ofText? (text : String) : Option Timestamp := do
  let (year, rest) ← year? text.toList
  let rest ← separator? '-' rest
  let (month, rest) ← field? 2 rest
  let rest ← separator? '-' rest
  let (day, rest) ← field? 2 rest
  let rest ← match rest with
    | 't' :: rest => some rest
    | 'T' :: rest => some rest
    | ' ' :: rest => some rest
    | _ => none
  let (hour, rest) ← field? 2 rest
  let rest ← separator? ':' rest
  let (minute, rest) ← field? 2 rest
  let rest ← separator? ':' rest
  let (second, rest) ← field? 2 rest
  let (nano, rest) ← fraction? rest
  let (offset, rest) ← offset? (trimStart rest)
  if allBlank rest then ofLocal? year month day hour minute second nano offset else none

end GatedRepair.Timestamp
