import Mathlib.Tactic.IntervalCases
import ScriptBridge.Proofs.Exact
import ScriptBridge.Proofs.Exec
import ScriptBridge.Session.Run

/-!
# Dates from fields

A date is made of a year, a month and what is below them, and each of these may be out of its range. What is too many
days for a month, or too few, is carried on, and so are hours, minutes, seconds and milliseconds. A month is carried into
later years, for a century; a month before January is January.

* `Calendar.monthStart`: the calendar, month by month. `Calendar.dayNumber_month`: days are counted by it.
* `DateFields.utc`: the instant that some fields name. `DateFields.Fits`: no number on the way to it overflows.
* `Double.isTime_ofInt`: which whole numbers are time values.
* `Scope.makes_dates`: the date that a constructor makes of fields.

Proof-only: not reachable from `ScriptBridge.Session.Run`.
-/

namespace ScriptBridge

/-! ## The calendar, month by month -/

namespace Calendar

variable {year k : Int} {month months : Nat}

theorem isLeap_iff : isLeap year = true ↔ year % 4 = 0 ∧ (year % 100 ≠ 0 ∨ year % 400 = 0) := by
  simp [isLeap]

/-- A month begins after the days of the one before it in the year. -/
theorem dayNumber_next (first : 1 ≤ month) (last : month < 12) :
    dayNumber year (month + 1) 1 = dayNumber year month 1 + monthLength year month := by
  by_cases february : month = 2
  · subst february
    -- February is counted with the year before, which may belong to the era before.
    have era : (year - 1) / 400 = if year % 400 = 0 then year / 400 - 1 else year / 400 := by split <;> omega
    have within : (year - 1) % 400 = if year % 400 = 0 then 399 else year % 400 - 1 := by split <;> omega
    have fourth : year % 4 = year % 400 % 4 := by omega
    have century : year % 100 = year % 400 % 100 := by omega
    simp only [dayNumber, monthLength, isLeap_iff, fourth, century, era, within, Nat.reduceLeDiff, Nat.reduceAdd,
      Nat.reduceMod, if_true, if_false, le_refl]
    generalize year / 400 = era
    split <;> split <;> omega
  · interval_cases month <;> simp [dayNumber, monthLength] at february ⊢ <;> omega

theorem dayNumber_newYear : dayNumber (year + 1) 1 1 = dayNumber year 12 1 + 31 := by
  simp [dayNumber]
  omega

/-- How many days a month has. Months are counted from January 1970. -/
def monthDays (k : Int) : Int := monthLength (1970 + k / 12) ((k % 12).toNat + 1)

/-- The days of some months, from a month on. -/
def daysFrom (k : Int) : Nat → Int
  | 0 => 0
  | n + 1 => monthDays k + daysFrom (k + 1) n

/-- The days from the epoch to the first of a month, below zero for months before the epoch. -/
def monthStart (k : Int) : Int := if 0 ≤ k then daysFrom 0 k.toNat else -daysFrom k (-k).toNat

theorem dayNumber_succ (k : Int) : dayNumber (1970 + (k + 1) / 12) (((k + 1) % 12).toNat + 1) 1 =
    dayNumber (1970 + k / 12) ((k % 12).toNat + 1) 1 + monthDays k := by
  unfold monthDays
  by_cases december : k % 12 = 11
  · have year : 1970 + (k + 1) / 12 = 1970 + k / 12 + 1 := by omega
    have month : (k + 1) % 12 = 0 := by omega
    rw [year, month, december]
    exact dayNumber_newYear
  · have year : (k + 1) / 12 = k / 12 := by omega
    have month : ((k + 1) % 12).toNat = (k % 12).toNat + 1 := by omega
    rw [year, month]
    exact dayNumber_next (by omega) (by omega)

theorem dayNumber_add (k : Int) (n : Nat) : dayNumber (1970 + (k + n) / 12) (((k + n) % 12).toNat + 1) 1 =
    dayNumber (1970 + k / 12) ((k % 12).toNat + 1) 1 + daysFrom k n := by
  induction n generalizing k with
  | zero => simp [daysFrom]
  | succ n ih =>
    have next := ih (k + 1)
    rw [dayNumber_succ, show k + 1 + (n : Int) = k + (n + 1 : Nat) by omega] at next
    rw [next, daysFrom, Int.add_assoc]

/-- The count of the first of a month goes through all the months since the epoch. -/
theorem dayNumber_month (k : Int) : dayNumber (1970 + k / 12) ((k % 12).toNat + 1) 1 = monthStart k := by
  have epoch : dayNumber (1970 + 0 / 12) ((0 % 12 : Int).toNat + 1) 1 = 0 := by decide
  unfold monthStart
  split
  · have later := dayNumber_add 0 k.toNat
    rw [epoch, show (0 : Int) + (k.toNat : Int) = k by omega] at later
    omega
  · have earlier := dayNumber_add k (-k).toNat
    rw [show k + ((-k).toNat : Int) = 0 by omega, epoch] at earlier
    omega

/-- Every month of the calendar has a first day. -/
theorem dayNumber?_first (first : 1 ≤ month) (last : month ≤ 12) : dayNumber? year month 1 =
    if firstYear ≤ year ∧ year ≤ lastYear then some (dayNumber year month 1) else none := by
  have length : 1 ≤ monthLength year month := by
    unfold monthLength
    split
    · split <;> decide
    all_goals decide
  simp [dayNumber?, first, last, length]

/-- Months after January of a year lead to the first of a month, if the calendar has both years. -/
theorem monthStart?_eq : monthStart? year months =
    if firstYear ≤ year ∧ year ≤ lastYear ∧ year + (months / 12 : Nat) ≤ lastYear then
      some (monthStart (12 * (year - 1970) + months)) else none := by
  have there : 1970 + (12 * (year - 1970) + months) / 12 = year + (months / 12 : Nat) := by omega
  have month : ((12 * (year - 1970) + (months : Int)) % 12).toNat + 1 = months % 12 + 1 := by omega
  have counted := dayNumber_month (12 * (year - 1970) + months)
  rw [there, month] at counted
  unfold monthStart?
  rw [dayNumber?_first (by decide) (by decide), dayNumber?_first (by omega) (by omega), counted]
  by_cases supported : firstYear ≤ year ∧ year ≤ lastYear
  · have above : firstYear ≤ year + (months / 12 : Nat) := by omega
    rw [if_pos supported]
    exact if_congr ⟨fun h => ⟨supported.1, supported.2, h.2⟩, fun h => ⟨above, h.2.2⟩⟩ rfl rfl
  · have none : ¬(firstYear ≤ year ∧ year ≤ lastYear ∧ year + (months / 12 : Nat) ≤ lastYear) :=
      fun h => supported ⟨h.1, h.2.1⟩
    rw [if_neg supported, if_neg none]
    rfl

end Calendar

/-! ## Fields -/

/-- The fields of a date. Months are counted from 0 for January, days from 1. -/
structure DateFields where
  year : Int
  month : Int := 0
  day : Int := 1
  hour : Int := 0
  minute : Int := 0
  second : Int := 0
  millis : Int := 0
  deriving DecidableEq

namespace DateFields

open Calendar

variable {f : DateFields} {xs : List Double}

/-- The integer part of a number in a list, or what a field is where it is left out. -/
def part (xs : List Double) (i : Nat) (default : Int) : Int := (xs[i]?.map Double.truncate).getD default

/-- The fields that some numbers stand for, from the year on. -/
def ofNumbers (xs : List Double) : DateFields where
  year := part xs 0 0
  month := part xs 1 0
  day := part xs 2 1
  hour := part xs 3 0
  minute := part xs 4 0
  second := part xs 5 0
  millis := part xs 6 0

/-- The milliseconds from the epoch to the instant that the fields name, whatever is out of its range. -/
def utc (f : DateFields) : Int :=
  (monthStart (12 * (f.year - 1970) + f.month) + (f.day - 1)) * 86400000 + f.hour * 3600000 + f.minute * 60000 +
    f.second * 1000 + f.millis

/-- The calendar has the year, and the year that the months lead to. -/
def Supported (f : DateFields) : Prop :=
  (firstYear ≤ f.year ∧ f.year ≤ lastYear) ∧ firstYear ≤ f.year + f.month / 12 ∧ f.year + f.month / 12 ≤ lastYear

instance : Decidable f.Supported := inferInstanceAs (Decidable (_ ∧ _))

/-- The time value of the instant, unless the calendar has no such year or the instant is out of the range of dates. -/
def time (f : DateFields) : Double :=
  if f.Supported ∧ f.utc.natAbs ≤ 8640000000000000 then .ofInt f.utc else .nan

/-- The month is January at least, and a century later at most. -/
def bounded (f : DateFields) : DateFields := { f with month := max 0 (min f.month 1200) }

/-- The numbers that are passed when the parts of a date are added up. -/
def passed (f : DateFields) : List Int :=
  let days := (f.day - 1) * 86400000
  let hours := f.hour * 3600000
  let minutes := f.minute * 60000
  let seconds := f.second * 1000
  [f.day - 1, days, hours, days + hours, minutes, days + hours + minutes, seconds, days + hours + minutes + seconds,
    f.millis, days + hours + minutes + seconds + f.millis, f.utc]

/-- Nothing overflows: the year has 32 bits, and what is added up for a year of the calendar has 64. -/
def Fits (f : DateFields) : Prop :=
  (-2 ^ 31 ≤ f.year ∧ f.year < 2 ^ 31) ∧ (f.Supported → ∀ i ∈ f.passed, -2 ^ 63 ≤ i ∧ i < 2 ^ 63)

instance : Decidable f.Fits := inferInstanceAs (Decidable (_ ∧ (_ → ∀ i ∈ f.passed, _)))

/-- Cutting a field to 64 bits leaves what has fewer. -/
def cut (i : Int) : Int := max (-0x8000000000000000) (min 0x7fffffffffffffff i)

theorem wrap64_eq {i : Int} (low : -2 ^ 63 ≤ i) (high : i < 2 ^ 63) : wrap64 i = i := by
  refine Int.bmod_eq_of_le ?_ ?_ <;> omega

/-- Where nothing overflows, the milliseconds of fields are those of the instant that they name, with the month cut to a
century. -/
theorem millisOfFields?_eq (fits : f.bounded.Fits) :
    millisOfFields? (cut f.year) (cut f.month) (cut f.day) (cut f.hour) (cut f.minute) (cut f.second) (cut f.millis) =
      if f.bounded.Supported then some f.bounded.utc else none := by
  obtain ⟨year, month, day, hour, minute, second, millis⟩ := f
  obtain ⟨carried, bound⟩ : ∃ n : Nat, (n : Int) = max 0 (min month 1200) := ⟨(max 0 (min month 1200)).toNat, by omega⟩
  have months : (max 0 (min (cut month) 1200)).toNat = carried := by
    unfold cut
    omega
  simp only [bounded, Fits, Supported, passed, utc, ← bound, List.forall_mem_cons] at fits ⊢
  obtain ⟨⟨low, high⟩, passes⟩ := fits
  have cutYear : (cut year).bmod 0x100000000 = year := by
    rw [cut, Int.bmod_eq_of_le] <;> omega
  unfold millisOfFields?
  rw [months, cutYear, monthStart?_eq]
  by_cases supported : (firstYear ≤ year ∧ year ≤ lastYear) ∧ firstYear ≤ year + carried / 12 ∧ year + carried / 12 ≤ lastYear
  · obtain ⟨days, scaledDays, scaledHours, -, scaledMinutes, -, scaledSeconds, -, rest, -, whole, -⟩ := passes supported
    rw [if_pos ⟨supported.1.1, supported.1.2, by omega⟩, if_pos supported]
    have same : monthStart (12 * (year - 1970) + carried) * 86400000 + ((cut day - 1) * 86400000 + cut hour * 3600000 +
        cut minute * 60000 + cut second * 1000 + cut millis) =
          (monthStart (12 * (year - 1970) + carried) + (day - 1)) * 86400000 + hour * 3600000 + minute * 60000 +
            second * 1000 + millis := by
      unfold cut
      omega
    change some (wrap64 _) = _
    rw [same, wrap64_eq whole.1 whole.2]
  · rw [if_neg fun h => supported ⟨⟨h.1, h.2.1⟩, by omega, by omega⟩, if_neg supported]
    rfl

end DateFields

/-! ## Dates -/

namespace Scope

open Routine DateFields

variable {ε : Type} {s : Scope} {m : Machine} {args : List Value} {fields : List Double} {x : Double} {i : Nat}

/-- A whole number of milliseconds makes a date if it is in the range of dates, and an invalid date otherwise. -/
theorem newDate_returns (millis : Int) :
    let time : Double := if millis.natAbs ≤ 8640000000000000 then .ofInt millis else .nan
    let date : Object := ⟨.date time 0, [], some (m.scopeContext s).intrinsics.date⟩
    (s.newDate (.ofInt millis) 0 : Routine ε Value).Returns m (.object (m.allocate date).1) (m.allocate date).2 := by
  have inRange : (Double.ofInt millis).abs.le maxTime = true ↔ millis.natAbs ≤ 8640000000000000 :=
    Double.abs_le_iff (by decide)
  intro time date
  unfold newDate
  by_cases short : millis.natAbs ≤ 8640000000000000
  · have small : millis.natAbs < 2 ^ 53 := Nat.lt_of_le_of_lt short (by decide)
    have valid : ((Double.ofInt millis).isFinite && (Double.ofInt millis).abs.le maxTime) = true := by
      rw [Double.isFinite_ofInt small, Bool.true_and]
      exact inRange.2 short
    simp only [valid, if_true, Double.whole_ofInt small, Nat.zero_mod, date, time, if_pos short]
    exact .look (.bind .perform .pure)
  · have invalid : ((Double.ofInt millis).isFinite && (Double.ofInt millis).abs.le maxTime) = false :=
      Bool.and_eq_false_imp.2 fun _ => Bool.eq_false_iff.2 (mt inRange.1 short)
    simp only [invalid, Bool.false_eq_true, if_false, date, time, if_neg short]
    exact .look (.bind .perform .pure)

theorem newDate_nan :
    let date : Object := ⟨.date .nan 0, [], some (m.scopeContext s).intrinsics.date⟩
    (s.newDate .nan 0 : Routine ε Value).Returns m (.object (m.allocate date).1) (m.allocate date).2 :=
  .look (.bind .perform .pure)

section

variable (numbers : args.map Value.primitiveNumber? = fields.map some)
include numbers

theorem numberOf_field {v : Value} (there : args[i]? = some v) :
    ∃ x, fields[i]? = some x ∧ (s.numberOf v : Routine ε Double).Returns m x m := by
  have same := congrArg (·[i]?) numbers
  simp only [List.getElem?_map, there, Option.map_some] at same
  obtain ⟨x, field, number⟩ := Option.map_eq_some_iff.1 same.symm
  refine ⟨x, field, ?_⟩
  unfold numberOf
  rw [← number]
  exact .pure

theorem fieldOr_returns (default : Nat) : (s.fieldOr args i default).Returns m (fields[i]?.getD (.ofNat default)) m := by
  unfold fieldOr
  cases there : args[i]? with
  | none =>
    have same := congrArg (·[i]?) numbers
    simp only [List.getElem?_map, there, Option.map_none] at same
    rw [Option.map_eq_none_iff.1 same.symm]
    exact .pure
  | some v =>
    obtain ⟨x, field, gives⟩ := numberOf_field numbers there
    rw [field]
    exact gives

end

/-- A number that is finite is cut to 64 bits like its integer part. -/
theorem int64_part (finite : ∀ x ∈ fields, x.isFinite = true) {default : Nat} (small : default < 2 ^ 53) :
    (fields[i]?.getD (.ofNat default)).isFinite = true ∧
      (fields[i]?.getD (.ofNat default)).int64 = cut (part fields i default) := by
  have cuts {x : Double} (finite : x.isFinite = true) : x.int64 = cut x.truncate := by
    unfold Double.int64 Double.clampTo
    rw [Double.isNaN_of_isFinite finite, Double.isInfinite_of_isFinite finite]
    rfl
  unfold part
  cases there : fields[i]? with
  | none =>
    have value : (Double.ofNat default).truncate = default := Double.truncate_roundScaled small
    have finite : (Double.ofNat default).isFinite = true := Double.isFinite_roundScaled small
    exact ⟨finite, (cuts finite).trans (congrArg cut value)⟩
  | some x =>
    have finite := finite x (List.mem_of_getElem? there)
    exact ⟨finite, cuts finite⟩

/-- Fields that are finite give the milliseconds of their integer parts. -/
theorem fieldsTime_returns (numbers : args.map Value.primitiveNumber? = fields.map some) (nonempty : fields ≠ [])
    (finite : ∀ x ∈ fields, x.isFinite = true) (fits : (ofNumbers fields).bounded.Fits) :
    let f := (ofNumbers fields).bounded
    (s.fieldsTime args).Returns m (timeValue (if f.Supported then some f.utc else none)) m := by
  have year : (s.numberOf (args.headD .undefined) : Routine Thrown Double).Returns m (fields[0]?.getD (.ofNat 0)) m := by
    cases args with
    | nil => exact absurd (List.map_eq_nil_iff.1 numbers.symm) nonempty
    | cons v rest =>
      obtain ⟨x, first, gives⟩ := numberOf_field (s := s) (m := m) numbers (i := 0) (List.getElem?_cons_zero ..)
      rw [first]
      exact gives
  have part (i default : Nat) (small : default < 2 ^ 53) := int64_part (i := i) finite small
  obtain ⟨finiteYear, cutYear⟩ := part 0 0 (by decide)
  obtain ⟨finiteMonth, cutMonth⟩ := part 1 0 (by decide)
  obtain ⟨finiteDay, cutDay⟩ := part 2 1 (by decide)
  obtain ⟨finiteHour, cutHour⟩ := part 3 0 (by decide)
  obtain ⟨finiteMinute, cutMinute⟩ := part 4 0 (by decide)
  obtain ⟨finiteSecond, cutSecond⟩ := part 5 0 (by decide)
  obtain ⟨finiteMillis, cutMillis⟩ := part 6 0 (by decide)
  intro f
  rw [← millisOfFields?_eq fits]
  unfold fieldsTime
  refine year.bind ((fieldOr_returns numbers 0).bind ((fieldOr_returns numbers 1).bind ((fieldOr_returns numbers 0).bind
    ((fieldOr_returns numbers 0).bind ((fieldOr_returns numbers 0).bind ((fieldOr_returns numbers 0).bind ?_))))))
  simp only [List.all_cons, List.all_nil, finiteYear, finiteMonth, finiteDay, finiteHour, finiteMinute, finiteSecond,
    finiteMillis, Bool.and_true, Bool.not_true, Bool.false_eq_true, if_false, List.map_cons, List.map_nil, cutYear, cutMonth,
    cutDay, cutHour, cutMinute, cutSecond, cutMillis]
  exact .pure

/-- Two arguments or more are fields. -/
theorem dateTime_of_several (several : 2 ≤ args.length) : s.dateTime args = s.fieldsTime args := by
  match args, several with
  | v :: w :: rest, _ => cases v <;> rfl

/-- Two fields or more, each a number or another primitive that stands for one, make a date. Where nothing overflows, it
is that of the instant that they name, with every unit carried into the larger ones and the month cut to a century from
January on; it is invalid if the calendar has no such year, or if the instant is out of the range of dates. -/
theorem makes_dates {i : Invocation} (numbers : i.args.map Value.primitiveNumber? = fields.map some)
    (several : 2 ≤ fields.length) (finite : ∀ x ∈ fields, x.isFinite = true) (fits : (ofNumbers fields).bounded.Fits) :
    let date : Object := ⟨.date (ofNumbers fields).bounded.time 0, [], some (m.scopeContext s).intrinsics.date⟩
    ((Callable.builtin .date).routine s i).Returns m (.ok (.object (m.allocate date).1)) (m.allocate date).2 := by
  have nonempty : fields ≠ [] := List.ne_nil_of_length_pos (by omega)
  have time := fieldsTime_returns (s := s) (m := m) numbers nonempty finite fits
  have length := congrArg List.length numbers
  rw [List.length_map, List.length_map] at length
  rw [← dateTime_of_several (length ▸ several)] at time
  refine .attempt (time.bind ?_)
  unfold DateFields.time
  by_cases supported : (ofNumbers fields).bounded.Supported
  · simp only [supported, true_and, if_true]
    exact newDate_returns _
  · simp only [supported, false_and, if_false]
    exact newDate_nan

/-- What is below the year is carried: the 25th month after January 2019 is February 2021, and 30 hours after the fifth
last day before its first are in the morning of 27 January. -/
theorem makes_dates_carried :
    let i : Invocation := ⟨.undefined, default, [.number (.ofNat 2019), .text "25", .number (.ofInt (-5)), .number (.ofNat 30)],
      true⟩
    let date : Object := ⟨.date (.ofNat 1611727200000) 0, [], some default⟩
    ((Callable.builtin .date).routine ⟨0⟩ i).Returns {} (.ok (.object (Machine.allocate {} date).1))
      (Machine.allocate {} date).2 := by
  let fields : List Double := [.ofNat 2019, .ofNat 25, .ofInt (-5), .ofNat 30]
  have numbers : [Value.number (.ofNat 2019), .text "25", .number (.ofInt (-5)), .number (.ofNat 30)].map
      Value.primitiveNumber? = fields.map some := by decide +kernel
  have finite : ∀ x ∈ fields, x.isFinite = true := by decide +kernel
  have fits : (ofNumbers fields).bounded.Fits := by decide +kernel
  have time : (ofNumbers fields).bounded.time = .ofNat 1611727200000 := by decide +kernel
  intro i date
  have made := makes_dates (s := ⟨0⟩) (m := {}) (i := i) numbers (by decide) finite fits
  rw [time] at made
  exact made

/-- A month before January is not carried: the month before January 2020 is January 2020 and not December 2019. -/
theorem month_cut :
    let i : Invocation := ⟨.undefined, default, [.number (.ofNat 2020), .number (.ofInt (-1))], true⟩
    let date : Object := ⟨.date (.ofNat 1577836800000) 0, [], some default⟩
    ((Callable.builtin .date).routine ⟨0⟩ i).Returns {} (.ok (.object (Machine.allocate {} date).1))
        (Machine.allocate {} date).2 ∧
      (ofNumbers [.ofNat 2020, .ofInt (-1)]).time = .ofNat 1575158400000 := by
  refine ⟨fun job => ?_, by decide +kernel⟩
  rfl

end Scope

end ScriptBridge
