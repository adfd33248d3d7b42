import Backtest.Calendar.Date
import Backtest.Decimal.Notation

namespace Backtest

structure DateTime where
  date : Date
  hour : Nat
  minute : Nat
  second : Nat
deriving Repr, DecidableEq

namespace DateTime

def toSeconds (t : DateTime) : Int :=
  t.date.dayNumber * 86400 + (t.hour * 3600 + t.minute * 60 + t.second : Nat)

def firstSecond : Int := -8334601228800
def lastSecond : Int := 8210266876799

/-- A timestamp outside the calendar's years counts as 1970-01-01 00:00:00. -/
def withinCalendar (time : Int) : Int :=
  if firstSecond ≤ time && time ≤ lastSecond then time else 0

def ofSeconds (time : Int) : DateTime :=
  let time := withinCalendar time
  let second := (time % 86400).toNat
  ⟨.ofDayNumber (time / 86400), second / 3600, second / 60 % 60, second % 60⟩

/-- Four digits from 0 to 9999, more with a sign beyond. -/
def yearText (year : Int) : String :=
  let digits := Decimal.padded 4 year.natAbs
  if year < 0 then "-" ++ digits else if year > 9999 then "+" ++ digits else digits

def text (t : DateTime) : String :=
  let two := Decimal.padded 2
  yearText t.date.year ++ "-" ++ two t.date.month ++ "-" ++ two t.date.day ++ " " ++
    two t.hour ++ ":" ++ two t.minute ++ ":" ++ two t.second

end DateTime

def timestampText (time : Int) : String := (DateTime.ofSeconds time).text

/-- Day of the week, Sunday being zero; 1970-01-01 was a Thursday. -/
def dayOfWeek (time : Int) : Nat :=
  ((DateTime.withinCalendar time / 86400 + 4) % 7).toNat

end Backtest
