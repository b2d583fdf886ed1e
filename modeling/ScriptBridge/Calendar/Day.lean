/-!
# Days

Days are counted from 1 January 1970 in the Gregorian calendar, extended in both directions.

* `dayNumber`: the count of a year, month and day; `dateOf` inverts it.
* `dayNumber?`: the same for fields that name a day of the supported years.
* `weekday`: `0` for Sunday to `6` for Saturday.
-/

namespace ScriptBridge.Calendar

/-- The first year of the supported calendar. -/
def firstYear : Int := -262143

/-- The last year of the supported calendar. -/
def lastYear : Int := 262142

/-- A fourth year, but of the full centuries only every fourth. -/
def isLeap (year : Int) : Bool := year % 4 == 0 && (year % 100 != 0 || year % 400 == 0)

/-- Days of a month, counted from 1. -/
def monthLength (year : Int) (month : Nat) : Nat :=
  match month with
  | 2 => if isLeap year then 29 else 28
  | 4 | 6 | 9 | 11 => 30
  | _ => 31

/-- The count of a day. Years are taken to start in March, so the leap day ends one; `shifted` days
are counted in eras of 400 years. -/
def dayNumber (year : Int) (month day : Nat) : Int :=
  let y := if month ≤ 2 then year - 1 else year
  let era := y / 400
  let yoe := y % 400
  let mp := (month + 9) % 12
  let doy : Int := (153 * mp + 2) / 5 + day - 1
  era * 146097 + (yoe * 365 + yoe / 4 - yoe / 100 + doy) - 719468

/-- Year, month and day of a count. -/
def dateOf (number : Int) : Int × Nat × Nat :=
  let z := number + 719468
  let era := z / 146097
  let doe := z % 146097
  let yoe := (doe - doe / 1460 + doe / 36524 - doe / 146096) / 365
  let doy := doe - (365 * yoe + yoe / 4 - yoe / 100)
  let mp := (5 * doy + 2) / 153
  let day := (doy - (153 * mp + 2) / 5 + 1).toNat
  let month := (if mp < 10 then mp + 3 else mp - 9).toNat
  (yoe + era * 400 + (if month ≤ 2 then 1 else 0), month, day)

/-- The count of a day, if the fields name one. -/
def dayNumber? (year : Int) (month day : Nat) : Option Int :=
  if firstYear ≤ year ∧ year ≤ lastYear ∧ 1 ≤ month ∧ month ≤ 12 ∧ 1 ≤ day
      ∧ day ≤ monthLength year month then
    some (dayNumber year month day)
  else none

/-- The count of a day lies in the supported years. -/
def isSupported (number : Int) : Bool :=
  dayNumber firstYear 1 1 ≤ number && number ≤ dayNumber lastYear 12 31

/-- The day of the week, from Sunday at 0. Day 0, the first of 1970, is a Thursday. -/
def weekday (number : Int) : Nat := ((number + 4) % 7).toNat

def weekdayNames : List String := ["Sun", "Mon", "Tue", "Wed", "Thu", "Fri", "Sat"]

def monthNames : List String :=
  ["Jan", "Feb", "Mar", "Apr", "May", "Jun", "Jul", "Aug", "Sep", "Oct", "Nov", "Dec"]

/-- The first day of the month that lies `months` months after January of a year. -/
def monthStart? (year : Int) (months : Nat) : Option Int := do
  let _ ← dayNumber? year 1 1
  dayNumber? (year + (months / 12 : Nat)) (months % 12 + 1) 1

end ScriptBridge.Calendar
