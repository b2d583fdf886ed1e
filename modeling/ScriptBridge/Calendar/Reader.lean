import ScriptBridge.Calendar.Instant
import ScriptBridge.Number.Text
import ScriptBridge.Text.Blank

/-!
# Reading dates

A date text is read in three forms, tried in order: a full timestamp (`2024-01-01T00:00:00Z`), a
mail date (`Mon, 1 Jan 2024 00:00:00 +0000`), and a plain day (`2024-01-01`). `millisOf?` gives
milliseconds since the epoch.

A reader takes a list of characters and gives its value with the rest.
-/

namespace ScriptBridge.Calendar

/-- A value and the characters after it. -/
abbrev Reader (α : Type) := List Char → Option (α × List Char)

/-- A natural number of at least `least` and at most `most` digits, as many as there are. -/
def number (least most : Nat) : Reader Nat := fun cs =>
  let ds := (cs.take most).takeWhile isDigit
  if ds.length < least then none else some (natOfDigits ds, cs.drop ds.length)

/-- A given character. -/
def sign (c : Char) : Reader Unit := fun cs =>
  match cs with
  | d :: r => if d = c then some ((), r) else none
  | [] => none

def skipBlank (cs : List Char) : List Char := cs.dropWhile Text.isBlank

/-- At least one blank. -/
def blanks (cs : List Char) : Option (List Char) :=
  match cs with
  | c :: r => if Text.isBlank c then some (skipBlank r) else none
  | [] => none

/-- Hours and minutes of an offset after its sign, in seconds, with what separates them. -/
def offsetBody (colon : Bool) : Reader Nat := fun cs => do
  let (hours, r) ← number 2 2 cs
  let r ← if colon then (sign ':' r).map (·.2) else some r
  let (minutes, r) ← number 2 2 r
  if minutes ≤ 59 then some (hours * 3600 + minutes * 60, r) else none

/-- A signed offset in seconds. The mathematical minus counts as a sign in timestamps. -/
def offset (colon : Bool) : Reader Int := fun cs =>
  match cs with
  | '+' :: r => (offsetBody colon r).map fun (n, r) => ((n : Int), r)
  | '-' :: r => (offsetBody colon r).map fun (n, r) => (-(n : Int), r)
  | '\u2212' :: r =>
    if colon then (offsetBody colon r).map fun (n, r) => (-(n : Int), r) else none
  | _ => none

/-- Milliseconds since the epoch of a day and a time at an offset. Second 60 is a leap second: it
is the second before, prolonged. -/
def assemble? (year : Int) (month day hour minute second nanos : Nat) (off : Int) : Option Int := do
  let number ← dayNumber? year month day
  if 23 < hour ∨ 59 < minute ∨ 60 < second ∨ 86400 ≤ off.natAbs then none
  else
    let (second, nanos) := if second = 60 then (59, nanos + 1000000000) else (second, nanos)
    let total := number * 86400 + (hour * 3600 + minute * 60 + second : Nat) - off
    if isSupported (total / 86400) then some (total * 1000 + (nanos / 1000000 : Nat)) else none

/-- The fraction of a second in nanoseconds; digits past the ninth are dropped. -/
def fraction : Reader Nat := fun cs => do
  let (n, r) ← number 1 9 cs
  let count := cs.length - r.length
  some (n * tenPow (9 - count), r.dropWhile isDigit)

/-- A full timestamp. -/
def timestamp? (cs : List Char) : Option Int := do
  let (year, r) ← number 4 4 cs
  let (_, r) ← sign '-' r
  let (month, r) ← number 2 2 r
  let (_, r) ← sign '-' r
  let (day, r) ← number 2 2 r
  let r ← match r with
    | 'T' :: r | 't' :: r | ' ' :: r => some r
    | _ => none
  let (hour, r) ← number 2 2 r
  let (_, r) ← sign ':' r
  let (minute, r) ← number 2 2 r
  let (_, r) ← sign ':' r
  let (second, r) ← number 2 2 r
  let (nanos, r) ← match r with
    | '.' :: r => fraction r
    | r => some (0, r)
  let (off, r) ← match r with
    | 'Z' :: r | 'z' :: r => some (0, r)
    | r => offset true r
  if r.isEmpty then assemble? year month day hour minute second nanos off else none

/-- One of some three-letter names, in any case, by its position. -/
def shortName (names : List String) : Reader Nat := fun cs =>
  let word := (cs.take 3).map Char.toLower
  if word.length < 3 then none
  else
    (names.findIdx? fun n => n.toList.map Char.toLower == word).map fun i => (i, cs.drop 3)

def isLetter (c : Char) : Bool := ('a' ≤ c && c ≤ 'z') || ('A' ≤ c && c ≤ 'Z')

/-- Hours of the named zones of mail dates. -/
def zoneHours? (name : List Char) : Option Int :=
  match String.ofList (name.map Char.toLower) with
  | "gmt" | "ut" | "z" => some 0
  | "edt" => some (-4)
  | "est" | "cdt" => some (-5)
  | "cst" | "mdt" => some (-6)
  | "mst" | "pdt" => some (-7)
  | "pst" => some (-8)
  | s => if s.length = 1 ∧ s ≠ "j" then some 0 else none

/-- A zone by name or by offset. -/
def zone : Reader Int := fun cs =>
  let name := cs.takeWhile isLetter
  if name.isEmpty then offset false cs
  else (zoneHours? name).map fun h => (h * 3600, cs.drop name.length)

/-- What follows a comment in parentheses, which may nest and escape characters. -/
def afterComment? : Nat → List Char → Option (List Char)
  | _, [] => none
  | depth, c :: r =>
    match depth, c with
    | 0, '(' => afterComment? 1 r
    | 0, _ => none
    | 1, ')' => some r
    | d, '\\' =>
      match r with
      | [] => none
      | _ :: r => afterComment? d r
    | d, '(' => afterComment? (d + 1) r
    | d + 1, ')' => afterComment? d r
    | d, _ => afterComment? d r

/-- Skips comments with blanks before them. -/
def skipComments : Nat → List Char → List Char
  | 0, cs => cs
  | fuel + 1, cs =>
    match afterComment? 0 (skipBlank cs) with
    | some r => skipComments fuel r
    | none => cs

/-- The full year of a year written in two or three digits. -/
def fullYear (digits year : Nat) : Nat :=
  if digits = 2 then (if year ≤ 49 then year + 2000 else year + 1900)
  else if digits = 3 then year + 1900
  else year

/-- A mail date. A day name must be the right one. -/
def mailDate? (cs : List Char) : Option Int := do
  let cs := skipBlank cs
  let (name, r) ← match shortName weekdayNames cs with
    | some (i, ',' :: r) => some (some i, r)
    | some _ => none
    | none => some (none, cs)
  let (day, r) ← number 1 2 (skipBlank r)
  let r ← blanks r
  let (month, r) ← shortName monthNames r
  let r ← blanks r
  let (year, after) ← number 2 r.length r
  let year := fullYear (r.length - after.length) year
  let r ← blanks after
  let (hour, r) ← number 2 2 r
  let (_, r) ← sign ':' (skipBlank r)
  let (minute, r) ← number 2 2 (skipBlank r)
  let (second, r) ← match sign ':' (skipBlank r) with
    | some (_, r) => number 2 2 r
    | none => some (0, r)
  let r ← blanks r
  let (off, r) ← zone r
  let r := skipComments r.length r
  if !r.isEmpty then none
  else
    let number ← dayNumber? year (month + 1) day
    if name.any (· != weekday number) then none
    else assemble? year (month + 1) day hour minute second 0 off

/-- A plain day. Only a signed year may have more or fewer than four digits; blanks may stand before
each field. -/
def plainDay? (cs : List Char) : Option Int := do
  let (year, r) ← match skipBlank cs with
    | '-' :: r => (number 1 r.length r).map fun (n, r) => (-(n : Int), r)
    | '+' :: r => (number 1 r.length r).map fun (n, r) => ((n : Int), r)
    | r => (number 1 4 r).map fun (n, r) => ((n : Int), r)
  let (_, r) ← sign '-' r
  let (month, r) ← number 1 2 (skipBlank r)
  let (_, r) ← sign '-' r
  let (day, r) ← number 1 2 (skipBlank r)
  if r.isEmpty then (dayNumber? year month day).map (· * 86400000) else none

/-- Milliseconds since the epoch of a date text, by the first form that reads it. -/
def millisOf? (s : String) : Option Int :=
  (timestamp? s.toList).or ((mailDate? s.toList).or (plainDay? s.toList))

/-! ## Fields -/

/-- A 64-bit sum or product, wrapped around. -/
def wrap64 (i : Int) : Int := i.bmod 0x10000000000000000

/-- Milliseconds since the epoch of date fields: the month counts from January of the year, from
zero to a century of months, and every smaller unit may be out of its range. -/
def millisOfFields? (year month day hour minute second millis : Int) : Option Int := do
  let start ← monthStart? (year.bmod 0x100000000) (max 0 (min month 1200)).toNat
  let offset := (day - 1) * 86400000 + hour * 3600000 + minute * 60000 + second * 1000 + millis
  some (wrap64 (start * 86400000 + offset))

end ScriptBridge.Calendar
