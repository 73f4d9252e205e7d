import ServiceHealth.Decimal.Positional

/-!
# Calendar dates and time stamps

A time stamp counts seconds from the start of 1970 in universal time, without leap seconds, and
nanoseconds within the second. A date of the proleptic Gregorian calendar is found from the
number of days by counting years from the first of March, so that the day that leap years add
comes last; the rules repeat every four hundred years, which have 146097 days.

The text of a stamp is a date, a time of day to the second and the letter for universal time. A
leap second, one whose nanoseconds exceed a second, is written as the second after. A year
that does not have exactly four digits has a sign.

* `Date.days`: the way back from a date to the number of days.
-/

namespace ServiceHealth.Time

/-! ## 1. Dates -/

/-- A day of the proleptic Gregorian calendar, in which the year before the first is zero. Months
and days count from one. -/
structure Date where
  year : Int
  month : Nat
  day : Nat
  deriving DecidableEq, Repr

/-- Every fourth year is a leap year, of the full centuries only every fourth. -/
def isLeapYear (year : Int) : Bool :=
  year % 4 == 0 && (year % 100 != 0 || year % 400 == 0)

/-- The number of days of a month. -/
def daysInMonth (year : Int) (month : Nat) : Nat :=
  if month = 2 then if isLeapYear year then 29 else 28
  else if month = 4 ∨ month = 6 ∨ month = 9 ∨ month = 11 then 30
  else 31

namespace Date

/-- A month and a day that exist. -/
def isValid (d : Date) : Bool :=
  1 ≤ d.month && d.month ≤ 12 && 1 ≤ d.day && d.day ≤ daysInMonth d.year d.month

/-- The days of a four-hundred-year cycle. -/
def cycleDays : Nat := 146097

/-- The days from the first of March of the year zero to the first of January 1970. -/
def epochOffset : Nat := 719468

/-- The year within its cycle, counted from March, of a day of the cycle. -/
def yearOfCycle (day : Nat) : Nat :=
  (day - day / 1460 + day / 36524 - day / 146096) / 365

/-- The first day, within the cycle, of a year counted from March. -/
def startOfYear (year : Nat) : Nat := 365 * year + year / 4 - year / 100

/-- The month, counted from March as zero, of a day of the year. -/
def monthOfYear (day : Nat) : Nat := (5 * day + 2) / 153

/-- The first day, within the year, of a month counted from March. -/
def startOfMonth (month : Nat) : Nat := (153 * month + 2) / 5

/-- The date of a day, counted from the start of 1970. -/
def ofDays (days : Int) : Date :=
  let shifted := days + epochOffset
  let cycle := shifted / cycleDays
  let day := (shifted % cycleDays).toNat
  let year := yearOfCycle day
  let dayOfYear := day - startOfYear year
  let month := monthOfYear dayOfYear
  { year := 400 * cycle + year + (if 10 ≤ month then 1 else 0)
    month := if month < 10 then month + 3 else month - 9
    day := dayOfYear - startOfMonth month + 1 }

/-- The day of a date, counted from the start of 1970. -/
def days (d : Date) : Int :=
  let year := if d.month ≤ 2 then d.year - 1 else d.year
  let month := if 2 < d.month then d.month - 3 else d.month + 9
  let inCycle := (year % 400).toNat
  year / 400 * cycleDays
    + (startOfYear inCycle + startOfMonth month + (d.day - 1) : Nat) - epochOffset

theorem epoch_days : days ⟨1970, 1, 1⟩ = 0 := by decide

end Date

/-! ## 2. Stamps -/

/-- A point in universal time: the seconds since the start of 1970, and the nanoseconds within the
second, a thousand million or more in a leap second. -/
structure Stamp where
  seconds : Int
  nanos : Nat
  deriving DecidableEq, Repr, Inhabited

/-- The calendar fields of a stamp; the second is sixty in a leap second. -/
structure Fields where
  date : Date
  hour : Nat
  minute : Nat
  second : Nat
  deriving DecidableEq, Repr

namespace Stamp

/-- The seconds of a day. -/
def daySeconds : Nat := 86400

/-- The calendar fields; the fraction of the second is dropped. -/
def fields (t : Stamp) : Fields :=
  let inDay := (t.seconds % daySeconds).toNat
  { date := Date.ofDays (t.seconds / daySeconds)
    hour := inDay / 3600
    minute := inDay / 60 % 60
    second := inDay % 60 + (if Nat.pow 10 9 ≤ t.nanos then 1 else 0) }

/-- A year with four digits as it stands, any other with its sign and at least four digits. -/
def yearText (year : Int) : List Char :=
  if 0 ≤ year ∧ year ≤ 9999 then Decimal.padded 4 year.toNat
  else (if year < 0 then '-' else '+') :: Decimal.padded 4 year.natAbs

/-- The characters of a stamp's text. -/
def chars (t : Stamp) : List Char :=
  let f := t.fields
  yearText f.date.year
    ++ '-' :: Decimal.padded 2 f.date.month ++ '-' :: Decimal.padded 2 f.date.day
    ++ 'T' :: Decimal.padded 2 f.hour ++ ':' :: Decimal.padded 2 f.minute
    ++ ':' :: Decimal.padded 2 f.second ++ ['Z']

/-- Date and time of day to the second. -/
def text (t : Stamp) : String := String.ofList t.chars

end Stamp

/-- The seconds since the start of 1970 of calendar fields. -/
def Fields.seconds (f : Fields) : Int :=
  f.date.days * Stamp.daySeconds + (3600 * f.hour + 60 * f.minute + f.second : Nat)

end ServiceHealth.Time
