/-!
# Dates and times

A clock counts microseconds from the start of 1970. Its reading is split into the parts of a
calendar date and a time of day.
-/

namespace LineScript

/-- A calendar date and time of day. -/
structure Moment where
  /-- The year. -/
  year : Nat
  /-- The month, from one. -/
  month : Nat
  /-- The day of the month, from one. -/
  day : Nat
  /-- The hour of the day. -/
  hour : Nat
  /-- The minute of the hour. -/
  minute : Nat
  /-- The second of the minute. -/
  second : Nat
  /-- The microsecond of the second. -/
  microsecond : Nat
  /-- The day of the week, one for Sunday. -/
  weekday : Nat
  /-- The day of the year, from one. -/
  yearDay : Nat
deriving Repr, DecidableEq

namespace Moment

/-- A year with a 29th of February. -/
def isLeap (year : Nat) : Bool := year % 4 == 0 && (year % 100 != 0 || year % 400 == 0)

/-- The lengths of a year's months. -/
def monthLengths (year : Nat) : List Nat :=
  [31, if isLeap year then 29 else 28, 31, 30, 31, 30, 31, 31, 30, 31, 30, 31]

/-- The month and day of the month of the `day`-th day from the start of a list of months, the
first of which is `month`. -/
def monthAndDay (month day : Nat) : List Nat → Nat × Nat
  | [] => (month, day + 1)
  | length :: rest =>
    if day < length then (month, day + 1) else monthAndDay (month + 1) (day - length) rest

/-- The year and day of the year that lie `days` days after the start of `year`; `fuel` bounds the
number of years passed. -/
def yearAndDay : (fuel : Nat) → (year days : Nat) → Nat × Nat
  | 0, year, days => (year, days)
  | fuel + 1, year, days =>
    let length := if isLeap year then 366 else 365
    if days < length then (year, days) else yearAndDay fuel (year + 1) (days - length)

/-- The moment that lies this many microseconds after the start of 1970, which was a Thursday. -/
def ofMicroseconds (time : Nat) : Moment :=
  let seconds := time / 1000000
  let days := seconds / 86400
  let (year, yearDay) := yearAndDay (days / 365 + 1) 1970 days
  let (month, day) := monthAndDay 1 yearDay (monthLengths year)
  { year, month, day
    hour := seconds / 3600 % 24
    minute := seconds / 60 % 60
    second := seconds % 60
    microsecond := time % 1000000
    weekday := (days + 4) % 7 + 1
    yearDay := yearDay + 1 }

/-- A number with zeros in front up to a width. -/
def padded (width n : Nat) : String :=
  let digits := Nat.toDigits 10 n
  String.ofList (List.replicate (width - digits.length) '0' ++ digits)

/-- The date and time as a trace line shows it. -/
def stamp (moment : Moment) : String :=
  padded 4 moment.year ++ "-" ++ padded 2 moment.month ++ "-" ++ padded 2 moment.day ++ " " ++
    padded 2 moment.hour ++ ":" ++ padded 2 moment.minute ++ ":" ++ padded 2 moment.second ++ "." ++
    padded 6 moment.microsecond

end Moment

end LineScript
