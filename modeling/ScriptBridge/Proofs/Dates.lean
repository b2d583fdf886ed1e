import ScriptBridge.Bridge.Argument
import ScriptBridge.Proofs.Exact

/-!
# Dates in a script

Scripts see the milliseconds of a date, rounded down, also before the epoch; its object keeps the
nanoseconds below them. The two give the date back.

* `Instant.millis_le`: the supported years lie in the range of time values.
* `Instant.ofMillis?_millis`, `Instant.nativeDate_ofInt`: the date of the milliseconds and the rest.

Proof-only: not reachable from `ScriptBridge.Session.Run`.
-/

namespace ScriptBridge

namespace Instant

variable {t : Instant}

/-- An instant of the supported years, apart from leap seconds. -/
structure Proper (t : Instant) : Prop where
  nanos : t.nanos < 1000000000
  supported : Calendar.isSupported (t.seconds / 86400) = true

theorem supported_bounds {day : Int} (supported : Calendar.isSupported day = true) :
    -96465292 ≤ day ∧ day ≤ 95026236 := by
  have first : Calendar.dayNumber Calendar.firstYear 1 1 = -96465292 := by decide
  have last : Calendar.dayNumber Calendar.lastYear 12 31 = 95026236 := by decide
  unfold Calendar.isSupported at supported
  rw [first, last] at supported
  simpa using supported

/-- Every supported date is a time value. -/
theorem millis_le (proper : t.Proper) : t.millis.natAbs ≤ 8640000000000000 := by
  have bounds := supported_bounds proper.supported
  have nanos := proper.nanos
  unfold millis
  omega

/-- Rounding down leaves the second, and the nanoseconds from the milliseconds on. -/
theorem ofMillis?_millis (proper : t.Proper) :
    ofMillis? t.millis = some ⟨t.seconds, t.nanos / 1000000 * 1000000⟩ := by
  have nanos := proper.nanos
  have seconds : t.millis / 1000 = t.seconds := by
    unfold millis
    omega
  have rest : (t.millis % 1000).toNat = t.nanos / 1000000 := by
    unfold millis
    omega
  unfold ofMillis?
  rw [seconds, rest, if_pos proper.supported]

theorem addNanos_subMillis (proper : t.Proper) :
    (⟨t.seconds, t.nanos / 1000000 * 1000000⟩ : Instant).addNanos t.subMillis = t := by
  have nanos := proper.nanos
  have whole : t.nanos / 1000000 * 1000000 + t.subMillis = t.nanos := by
    unfold subMillis
    omega
  unfold addNanos
  rw [if_pos (by rw [whole]; exact nanos), whole]

/-- The milliseconds and the nanoseconds below them are the date. -/
theorem nativeDate_ofInt (proper : t.Proper) : nativeDate (.ofInt t.millis) t.subMillis = .date t := by
  have small : t.millis.natAbs < 2 ^ 53 := Nat.lt_of_le_of_lt (millis_le proper) (by decide)
  unfold nativeDate instantOf?
  rw [if_pos (Double.isFinite_ofInt small), Double.int64_ofInt small, ofMillis?_millis proper]
  simp only [addNanos_subMillis proper]

end Instant

end ScriptBridge
