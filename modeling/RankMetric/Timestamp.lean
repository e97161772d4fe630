import RankMetric.Text.Basic

/-!
# Timestamps

The header of a generated text tells when it was made, by a date and time of day in Greenwich:
`Thu, 29 Jun 2006 04:12:41 GMT`. Dates and times are the business of a library, of which little is
used (`TimeLibrary`): an instant is converted to the offset 0 and written by a format.
`TimeLibrary.timestamp` is what is done with the library.

`TimeLibrary.civil` is the library that the program runs with. An instant is what a clock shows that
is ahead of Greenwich or behind it. Dates follow the Gregorian calendar, carried back before its
introduction; the year before year 1 is year 0. `Date.ofDays` counts years from the first of March,
so that a leap day is the last day of its year, in spans of 400, 100, 4 and 1 years. `Date.toDays`
counts the days before a date by the rule for leap years and the lengths of the months.
-/

namespace RankMetric

/-! ### Dates -/

/-- A date of the calendar. Months and days are counted from 1. -/
structure Date where
  year : Int
  month : Nat
  day : Nat
  deriving DecidableEq, Repr

namespace Date

/-- Whether a year has a leap day. -/
def isLeap (year : Int) : Bool :=
  year % 4 == 0 && (year % 100 != 0 || year % 400 == 0)

/-- The number of days in a month. -/
def monthLength (year : Int) (month : Nat) : Nat :=
  match month with
  | 2 => if isLeap year then 29 else 28
  | 4 | 6 | 9 | 11 => 30
  | _ => 31

/-- The number of days before the first of January of a year, counted from that of year 0. -/
def daysBeforeYear (year : Int) : Int :=
  let y := year - 1
  365 * year + y / 4 - y / 100 + y / 400 + 1

/-- The number of days of a year before a month. -/
def daysBeforeMonth (year : Int) : Nat → Nat
  | 0 | 1 => 0
  | month + 2 => daysBeforeMonth year (month + 1) + monthLength year (month + 1)

/-- The day of a date, counted from the first of January 1970. -/
def toDays (d : Date) : Int :=
  daysBeforeYear d.year + daysBeforeMonth d.year d.month + d.day - 1 - daysBeforeYear 1970

/-- The days from the first of March of year 0 to the first of January 1970. -/
def marchOffset : Int := 719468

/-- The date of a day, counted from the first of January 1970. -/
def ofDays (n : Int) : Date :=
  let n := n + marchOffset
  let r := (n % 146097).toNat
  let centuries := min (r / 36524) 3
  let r := r - 36524 * centuries
  let leaps := r / 1461
  let r := r % 1461
  let years := min (r / 365) 3
  let r := r - 365 * years
  let year := 400 * (n / 146097) + (100 * centuries + 4 * leaps + years : Nat)
  let month := (5 * r + 2) / 153
  let day := r - (153 * month + 2) / 5 + 1
  if month < 10 then ⟨year, month + 3, day⟩ else ⟨year + 1, month - 9, day⟩

end Date

/-- A date and a time of day as they are written, with the weekday. -/
structure Stamp where
  /-- The weekday, with 0 for a Sunday. -/
  weekday : Nat
  date : Date
  hour : Nat
  minute : Nat
  second : Nat
  deriving DecidableEq, Repr

/-! ### Formats -/

/-- The parts of a format. -/
inductive FormatItem where
  | literal (s : String)
  /-- The short name of the weekday. -/
  | weekday
  /-- The day of the month in two digits. -/
  | day
  /-- The short name of the month. -/
  | month
  /-- The year in four digits. -/
  | year
  /-- The hour of 24, in two digits. -/
  | hour
  | minute
  | second
  deriving DecidableEq, Repr

/-- The format of the time in a header. -/
def headerFormat : List FormatItem := [
  .weekday, .literal ", ", .day, .literal " ", .month, .literal " ", .year, .literal " ",
  .hour, .literal ":", .minute, .literal ":", .second]

/-- What is used of a library of dates and times. -/
structure TimeLibrary where
  /-- Dates with a time of day and an offset from Greenwich. -/
  DateTime : Type
  /-- The whole seconds from the start of 1970 in Greenwich. -/
  unixSeconds : DateTime → Int
  /-- The seconds by which the time of day is ahead of Greenwich. -/
  offset : DateTime → Int
  /-- The date and the time of day, as they are at the offset. -/
  stamp : DateTime → Stamp
  /-- The same instant with the offset 0. -/
  toUtc : DateTime → DateTime
  /-- The text by a format, or what is wrong with it. -/
  format : List FormatItem → DateTime → Except Text Text

/-- The text of an instant for a header, or why there is none. -/
def TimeLibrary.timestamp (lib : TimeLibrary) (t : lib.DateTime) : Except Text Text :=
  (lib.format headerFormat (lib.toUtc t)).map (· ++ " GMT".toList)

/-! ### The texts of the parts -/

namespace Stamp

/-- The short names of the weekdays, from Sunday on. -/
def weekdayNames : List Text :=
  ["Sun", "Mon", "Tue", "Wed", "Thu", "Fri", "Sat"].map String.toList

/-- The short names of the months. -/
def monthNames : List Text :=
  ["Jan", "Feb", "Mar", "Apr", "May", "Jun", "Jul", "Aug", "Sep", "Oct", "Nov", "Dec"].map
    String.toList

/-- A number in decimal with at least `n` digits. -/
def digits (n : Nat) (k : Nat) : Text :=
  (Text.ofNat k).leftpad n '0'

/-- A year with at least four digits. It has a sign if it is negative or has more digits. -/
def yearText (y : Int) : Text :=
  if y < 0 then '-' :: digits 4 y.natAbs
  else if 9999 < y then '+' :: digits 4 y.natAbs
  else digits 4 y.natAbs

/-- The text of a part. -/
def itemText (s : Stamp) : FormatItem → Text
  | .literal t => t.toList
  | .weekday => weekdayNames.getD s.weekday []
  | .day => digits 2 s.date.day
  | .month => monthNames.getD (s.date.month - 1) []
  | .year => yearText s.date.year
  | .hour => digits 2 s.hour
  | .minute => digits 2 s.minute
  | .second => digits 2 s.second

/-- The text by a format. -/
def render (s : Stamp) (items : List FormatItem) : Text :=
  items.flatMap s.itemText

/-- The date and the time of day after a number of seconds since the start of 1970. -/
def ofSeconds (seconds : Int) : Stamp where
  weekday := ((seconds / 86400 + 4) % 7).toNat
  date := Date.ofDays (seconds / 86400)
  hour := (seconds % 86400).toNat / 3600
  minute := (seconds % 86400).toNat / 60 % 60
  second := (seconds % 86400).toNat % 60

end Stamp

/-! ### The library that the program runs with -/

/-- A time as a clock shows it. -/
structure ClockTime where
  /-- The seconds since the start of 1970 by this clock. -/
  reading : Int
  /-- The seconds by which this clock is ahead of Greenwich. -/
  ahead : Int
  deriving DecidableEq, Repr

namespace ClockTime

/-- What a clock that is so much ahead shows at an instant. -/
def ofInstant (seconds ahead : Int) : ClockTime where
  reading := seconds + ahead
  ahead := ahead

/-- The instant at which a clock shows this time, in seconds since the start of 1970. -/
def instant (t : ClockTime) : Int :=
  t.reading - t.ahead

end ClockTime

/-- The library of clocks and of the calendar. -/
def TimeLibrary.civil : TimeLibrary where
  DateTime := ClockTime
  unixSeconds := ClockTime.instant
  offset := ClockTime.ahead
  stamp t := .ofSeconds t.reading
  toUtc t := .ofInstant t.instant 0
  format items t := .ok ((Stamp.ofSeconds t.reading).render items)

end RankMetric
