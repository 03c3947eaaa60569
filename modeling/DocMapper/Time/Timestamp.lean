import DocMapper.Number.Text

set_option autoImplicit false

/-!
# Points in time as text

Days of the proleptic Gregorian calendar are counted from 1970-01-01. `Date.ofDays` and
`Date.toDays` convert between the count and the calendar; both count from the first of March of a
year divisible by 400, so that the leap day is the last day of a cycle.

A point in time is a count of milliseconds since 1970. `text` shows it in universal time with the
date, the time and the offset; `millisOfText?` reads the profile of ISO 8601 used on the Internet:
four digits of the year, any one separator between date and time, an optional fraction of which nine
digits count, and an offset. A second numbered 60 is taken for the last nanosecond of the second
before it, at the end of a month only.
-/

namespace DocMapper.Time

/-! ## The calendar -/

/-- A day of the calendar. -/
structure Date where
  year : Int
  month : Nat
  day : Nat
deriving DecidableEq

/-- Whether a year has a leap day. -/
def isLeapYear (year : Int) : Bool :=
  year % 4 = 0 && (year % 100 != 0 || year % 400 = 0)

/-- The number of days of a month; there is no month but the first twelve. -/
def daysInMonth (year : Int) (month : Nat) : Nat :=
  match month with
  | 2 => if isLeapYear year then 29 else 28
  | 4 | 6 | 9 | 11 => 30
  | 1 | 3 | 5 | 7 | 8 | 10 | 12 => 31
  | _ => 0

namespace Date

/-- Whether the month and the day exist. -/
def isValid (d : Date) : Bool := 1 ≤ d.day && d.day ≤ daysInMonth d.year d.month

/-- The number of days since 1970-01-01. -/
def toDays (d : Date) : Int :=
  let year := if d.month ≤ 2 then d.year - 1 else d.year
  let cycle := year.fdiv 400
  let yearOfCycle := year - cycle * 400
  let monthFromMarch := (d.month + 9) % 12
  let dayOfYear : Int := (153 * monthFromMarch + 2) / 5 + d.day - 1
  let dayOfCycle := yearOfCycle * 365 + yearOfCycle / 4 - yearOfCycle / 100 + dayOfYear
  cycle * 146097 + dayOfCycle - 719468

/-- The day with a count since 1970-01-01. -/
def ofDays (days : Int) : Date :=
  let shifted := days + 719468
  let cycle := shifted.fdiv 146097
  let dayOfCycle := (shifted - cycle * 146097).toNat
  let yearOfCycle :=
    (dayOfCycle - dayOfCycle / 1460 + dayOfCycle / 36524 - dayOfCycle / 146096) / 365
  let dayOfYear := dayOfCycle - (365 * yearOfCycle + yearOfCycle / 4 - yearOfCycle / 100)
  let monthFromMarch := (5 * dayOfYear + 2) / 153
  let day := dayOfYear - (153 * monthFromMarch + 2) / 5 + 1
  let month := if monthFromMarch < 10 then monthFromMarch + 3 else monthFromMarch - 9
  let year := (yearOfCycle : Int) + cycle * 400
  { year := if month ≤ 2 then year + 1 else year, month := month, day := day }

end Date

/-! ## Texts -/

/-- A number written with at least the given number of digits. -/
def padded (width n : Nat) : List Char :=
  let digits := Nat.toDigits 10 n
  List.replicate (width - digits.length) '0' ++ digits

/-- The milliseconds of a day. -/
def millisPerDay : Int := 86400000

/-- The largest year that is shown as a date. -/
def largestYear : Nat := 999999

/-- A year with at least four digits; a sign shows from five digits on and below zero. -/
def yearText (year : Int) : List Char :=
  if year < 0 then '-' :: padded 4 year.natAbs
  else if 10000 ≤ year then '+' :: padded 4 year.natAbs
  else padded 4 year.natAbs

/-- The fraction of a second without the zeros at its end, but at least one digit. -/
def fractionText (millis : Nat) : List Char :=
  if millis % 100 = 0 then padded 1 (millis / 100)
  else if millis % 10 = 0 then padded 2 (millis / 10)
  else padded 3 millis

/-- The text of a point in time; the plain count where the year is too large. -/
def text (millis : Int) : String :=
  let date := Date.ofDays (millis.fdiv millisPerDay)
  if largestYear < date.year.natAbs then toString millis
  else
    let rest := (millis.fmod millisPerDay).toNat
    String.ofList <|
      yearText date.year ++ '-' :: padded 2 date.month ++ '-' :: padded 2 date.day ++
      ' ' :: padded 1 (rest / 3600000) ++ ':' :: padded 2 (rest / 60000 % 60) ++
      ':' :: padded 2 (rest / 1000 % 60) ++ '.' :: fractionText (rest % 1000) ++
      [' ', '+', '0', '0', ':', '0', '0', ':', '0', '0']

/-! ## Reading -/

/-- A number of exactly the given count of digits, and the text after it. -/
def takeDigits? (width : Nat) (text : List Char) : Option (Nat × List Char) :=
  let digits := text.take width
  if digits.length = width ∧ digits.all Char.isDigit then
    some (digitsValue digits, text.drop width)
  else none

/-- The text after one given character. -/
def skip? (c : Char) : List Char → Option (List Char)
  | d :: rest => if d = c then some rest else none
  | [] => none

/-- The nanoseconds of an optional fraction, and the text after it. -/
def takeFraction? : List Char → Option (Nat × List Char)
  | '.' :: rest =>
      let digits := rest.takeWhile Char.isDigit
      if digits.isEmpty then none
      else
        let nine := (digits ++ List.replicate 9 '0').take 9
        some (digitsValue nine, rest.dropWhile Char.isDigit)
  | rest => some (0, rest)

/-- The minutes that an offset is ahead of universal time; nothing may follow it. -/
def offsetMinutes? : List Char → Option Int
  | ['Z'] | ['z'] => some 0
  | sign :: rest => do
      if sign ≠ '+' ∧ sign ≠ '-' then none
      let (hours, rest) ← takeDigits? 2 rest
      let rest ← skip? ':' rest
      let (minutes, rest) ← takeDigits? 2 rest
      if 23 < hours ∨ 59 < minutes ∨ !rest.isEmpty then none
      let offset : Int := hours * 60 + minutes
      return if sign = '-' then -offset else offset
  | [] => none

/-- The day and the minutes of it in universal time for local minutes and an offset. -/
def minutesSinceEpoch (date : Date) (hour minute : Nat) (offset : Int) : Int :=
  date.toDays * 1440 + (hour * 60 + minute : Nat) - offset

/-- Whether a minute is the last one of a month. -/
def endsMonth (minutes : Int) : Bool :=
  let date := Date.ofDays (minutes.fdiv 1440)
  minutes.fmod 1440 = 1439 && date.day = daysInMonth date.year date.month

/-- The milliseconds since 1970 of a written point in time, fractions of them cut toward 1970. -/
def millisOfText? (text : List Char) : Option Int := do
  let (year, rest) ← takeDigits? 4 text
  let (month, rest) ← skip? '-' rest >>= takeDigits? 2
  let (day, rest) ← skip? '-' rest >>= takeDigits? 2
  let separator ← rest.head?
  if 128 ≤ separator.toNat then none
  let (hour, rest) ← takeDigits? 2 rest.tail
  let (minute, rest) ← skip? ':' rest >>= takeDigits? 2
  let (second, rest) ← skip? ':' rest >>= takeDigits? 2
  let (fraction, rest) ← takeFraction? rest
  let offset ← offsetMinutes? rest
  let date : Date := ⟨year, month, day⟩
  if !date.isValid ∨ 23 < hour ∨ 59 < minute ∨ 60 < second then none
  let minutes := minutesSinceEpoch date hour minute offset
  if second = 60 ∧ !endsMonth minutes then none
  let nanos : Int :=
    if second = 60 then (minutes * 60 + 59) * 1000000000 + 999999999
    else (minutes * 60 + (second : Nat)) * 1000000000 + (fraction : Nat)
  return nanos.tdiv 1000000

end DocMapper.Time
