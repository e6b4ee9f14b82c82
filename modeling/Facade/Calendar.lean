import Mathlib.Tactic.Common

/-!
The proleptic Gregorian calendar and POSIX time: the number of a day, counted
from 1970-01-01, and the seconds `timegm` makes of broken-down UTC time. Fields
outside their range are carried over, as the C library does.
-/
namespace Facade.Calendar

/-- `std::tm`, with the fields that `timegm` reads. -/
structure Tm where
  tm_sec : Int
  tm_min : Int
  tm_hour : Int
  tm_mday : Int
  /-- Months since January. -/
  tm_mon : Int
  /-- Years since 1900. -/
  tm_year : Int
deriving DecidableEq,Repr

def isLeap (year : Int) : Bool := year % 4 = 0 && (year % 100 ≠ 0 || year % 400 = 0)

/-- The days of a common year before a month, numbered from 0. -/
def daysBefore : Nat → Int
  | 0 => 0
  | 1 => 31
  | 2 => 59
  | 3 => 90
  | 4 => 120
  | 5 => 151
  | 6 => 181
  | 7 => 212
  | 8 => 243
  | 9 => 273
  | 10 => 304
  | _ => 334

/-- The length of a month, numbered from 1. -/
def daysIn (year : Int) : Nat → Nat
  | 2 => if isLeap year then 29 else 28
  | 4 => 30
  | 6 => 30
  | 9 => 30
  | 11 => 30
  | _ => 31

/-- The number of days from 0001-01-01 to the start of a year. -/
def daysToYear (year : Int) : Int := 365 * (year - 1) + (year - 1) / 4 - (year - 1) / 100 + (year - 1) / 400

/-- The number of a day, with 1970-01-01 for 0; months are numbered from 0. -/
def dayNumber (year : Int) (month : Nat) (day : Int) : Int :=
  daysToYear year - daysToYear 1970 + daysBefore month + (if isLeap year && 2 ≤ month then 1 else 0) + (day - 1)

def timegm (tm : Tm) : Int :=
  dayNumber (1900 + tm.tm_year + tm.tm_mon / 12) (tm.tm_mon % 12).toNat tm.tm_mday * 86400 + tm.tm_hour * 3600 +
    tm.tm_min * 60 + tm.tm_sec

example : timegm ⟨0,0,0,1,2,100⟩ = 951868800 := by decide

end Facade.Calendar
