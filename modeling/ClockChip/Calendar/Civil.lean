/-!
# Civil dates

Dates and times of day as people write them: plain numbers, months and days
counted from one, hours from nought to twenty-three, in the Gregorian calendar.
The host hands the chip such a value, and the chip's registers are read back as
one.
-/

namespace ClockChip

/-- A date and a time of day.  Nothing says that the fields are in range. -/
structure DateTime where
  year : Int
  month : Nat
  day : Nat
  hour : Nat
  minute : Nat
  second : Nat
deriving DecidableEq, Repr, Inhabited

namespace Civil

/-- Every fourth year is a leap year, but of the centuries only every fourth. -/
def isLeap (year : Int) : Bool :=
  decide (year % 4 = 0) && (decide (year % 100 ≠ 0) || decide (year % 400 = 0))

/-- The number of days of a month, zero for a month that there is not. -/
def monthLength (leap : Bool) (month : Nat) : Nat :=
  match month with
  | 1 | 3 | 5 | 7 | 8 | 10 | 12 => 31
  | 4 | 6 | 9 | 11 => 30
  | 2 => if leap then 29 else 28
  | _ => 0

/-- The number of days of a year that lie before the first of a month. -/
def daysBeforeMonth (leap : Bool) (month : Nat) : Nat :=
  (List.range' 1 (month - 1)).foldl (fun days m => days + monthLength leap m) 0

end Civil

namespace DateTime

/-- Whether the date is one of the calendar. -/
def dateExists (t : DateTime) : Bool :=
  decide (1 ≤ t.day) && decide (t.day ≤ Civil.monthLength (Civil.isLeap t.year) t.month)

end DateTime

end ClockChip
