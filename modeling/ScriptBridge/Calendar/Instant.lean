import ScriptBridge.Calendar.Day

/-!
# Instants

An `Instant` is a count of seconds since the epoch and of nanoseconds within the second.

* `Instant.ofMillis?`, `Instant.millis`: milliseconds since the epoch, rounded down.
* `dateText`: how scripts show a date; `Instant.isoText`: how native values show one.
-/

namespace ScriptBridge

/-- A point in time: whole seconds since the epoch, rounded down, and the nanoseconds after them. -/
structure Instant where
  seconds : Int
  nanos : Nat
  deriving DecidableEq, Inhabited

namespace Calendar

/-- The decimal digits of a number, padded with zeros on the left. -/
def padded (width n : Nat) : String :=
  let text := toString n
  "".pushn '0' (width - text.length) ++ text

/-- Four digits; years outside them carry a sign. -/
def yearText (year : Int) : String :=
  if 0 ≤ year ∧ year ≤ 9999 then padded 4 year.toNat
  else (if year < 0 then "-" else "+") ++ padded 4 year.natAbs

/-- Hours, minutes and seconds with colons. -/
def clockText (secondOfDay : Nat) : String :=
  padded 2 (secondOfDay / 3600) ++ ":" ++ padded 2 (secondOfDay / 60 % 60) ++ ":"
    ++ padded 2 (secondOfDay % 60)

end Calendar

namespace Instant

open Calendar

/-- The instant of a count of milliseconds, inside the supported years. -/
def ofMillis? (ms : Int) : Option Instant :=
  if isSupported (ms / 1000 / 86400) then some ⟨ms / 1000, (ms % 1000).toNat * 1000000⟩ else none

/-- Whole milliseconds since the epoch, rounded down. -/
def millis (t : Instant) : Int := t.seconds * 1000 + (t.nanos / 1000000 : Nat)

/-- The nanoseconds within the millisecond. -/
def subMillis (t : Instant) : Nat := t.nanos % 1000000

/-- Later by less than a millisecond's worth of nanoseconds. -/
def addNanos (t : Instant) (n : Nat) : Instant :=
  if t.nanos + n < 1000000000 then { t with nanos := t.nanos + n }
  else ⟨t.seconds + 1, t.nanos + n - 1000000000⟩

/-- Three, six or nine digits after a point, as few as are exact; none when all are zero. -/
def fractionText (nanos : Nat) : String :=
  if nanos = 0 then ""
  else if nanos % 1000000 = 0 then "." ++ padded 3 (nanos / 1000000)
  else if nanos % 1000 = 0 then "." ++ padded 6 (nanos / 1000)
  else "." ++ padded 9 nanos

/-- Date and time with a numeric offset of zero. A leap second shows as second 60. -/
def isoText (t : Instant) : String :=
  let (year, month, day) := dateOf (t.seconds / 86400)
  let clock := (t.seconds % 86400).toNat
  let leap := t.nanos / 1000000000
  yearText year ++ "-" ++ padded 2 month ++ "-" ++ padded 2 day ++ "T"
    ++ padded 2 (clock / 3600) ++ ":" ++ padded 2 (clock / 60 % 60) ++ ":"
    ++ padded 2 (clock % 60 + leap) ++ fractionText (t.nanos % 1000000000) ++ "+00:00"

end Instant

namespace Calendar

/-- The text of a count of milliseconds, as scripts show a date. -/
def dateText (ms : Int) : String :=
  match Instant.ofMillis? ms with
  | none => "Invalid Date"
  | some t =>
    let number := t.seconds / 86400
    let (year, month, day) := dateOf number
    (weekdayNames.getD (weekday number) "") ++ " " ++ (monthNames.getD (month - 1) "") ++ " "
      ++ padded 2 day ++ " " ++ yearText year ++ " " ++ clockText (t.seconds % 86400).toNat
      ++ " GMT+0000 (Coordinated Universal Time)"

end Calendar

end ScriptBridge
