import Mathlib.Algebra.Group.Int.Defs
import ScriptBridge.Bridge.Argument
import ScriptBridge.Proofs.Exact
import ScriptBridge.Proofs.Exec
import ScriptBridge.Session.Run

/-!
# Integer arguments

An argument that is declared as an integer reaches native code as an integer, whatever script value it was. The types
of up to 32 bits take the integer part modulo `2 ^ 32`: it is in the range of a type of 32 bits, signed or unsigned.
Those of 64 bits take the integer part as it is, and the unsigned one refuses what is below zero.

* `Encoding.Fits`: the integers of a type. `Encoding.integer?`: what a type makes of a number.
* `Encoding.Takes`: how that number relates to the one of the value, and its range.
* `Scope.takes_integers`: every argument of an integer type.
* `Scope.uchar_takes_word`: a type of 8 bits gets what does not fit it.

Proof-only: not reachable from `ScriptBridge.Session.Run`.
-/

namespace ScriptBridge

open Routine

namespace Encoding

/-- An integer of the type: so many bits, and two's complement where the type is signed. -/
def Fits (declared : Encoding) (i : Int) : Prop :=
  match declared.width? with
  | some (bits, true) => 0 ≤ i ∧ i < 2 ^ bits
  | some (bits, false) => -2 ^ (bits - 1) ≤ i ∧ i < 2 ^ (bits - 1)
  | none => False

/-- The type in whose range an argument arrives: types below 32 bits are read as those of 32. -/
def arrival : Encoding → Encoding
  | char | short => int
  | uchar | ushort => uint
  | declared => declared

/-- The integer part of a number as a number; zero where there is none. -/
def integerPart (n : Double) : Double := if n.isFinite then n.whole else .zero

/-- What an integer type makes of a number, unless it refuses it. -/
def integer? (declared : Encoding) (n : Double) : Option Double :=
  match declared with
  | char | short | int | long => some (.ofInt n.int32)
  | uchar | ushort | uint | ulong => some (.ofInt n.uint32)
  | longLong => some (integerPart n)
  | ulongLong => if (integerPart n).isBelowZero then none else some (integerPart n)
  | _ => none

/-- What a number becomes as an argument of an integer type. -/
structure Takes (declared : Encoding) (n taken : Double) : Prop where
  integral : taken.isIntegral = true
  /-- Up to 32 bits, the integer part is taken modulo `2 ^ 32`. -/
  narrow : declared ≠ longLong → declared ≠ ulongLong →
    declared.arrival.Fits taken.truncate ∧ (2 : Int) ^ 32 ∣ taken.truncate - n.truncate
  /-- So the types of 32 bits get what fits them. -/
  fits : declared ∈ [int, uint, long, ulong] → declared.Fits taken.truncate
  wide : declared ∈ [longLong, ulongLong] → taken.truncate = n.truncate
  above : declared = ulongLong → 0 ≤ taken.truncate

variable {declared : Encoding} {n taken : Double}

theorem isIntegral_integerPart : (integerPart n).isIntegral = true := by
  unfold integerPart
  split
  · exact Double.isIntegral_whole ‹_›
  · decide

theorem truncate_integerPart : (integerPart n).truncate = n.truncate := by
  unfold integerPart
  split
  · exact Double.truncate_whole ‹_›
  · rename_i infinite
    unfold Double.truncate
    rw [if_neg infinite]
    decide

theorem isBelowZero_integerPart : (integerPart n).isBelowZero = true ↔ n.truncate < 0 := by
  rw [Double.isBelowZero_iff isIntegral_integerPart, truncate_integerPart]

/-- A signed word is in the range of 32 bits, and differs from the integer part by a multiple of `2 ^ 32`. -/
theorem int32_bounds (n : Double) : -2 ^ 31 ≤ n.int32 ∧ n.int32 < 2 ^ 31 ∧ (2 : Int) ^ 32 ∣ n.int32 - n.truncate :=
  ⟨Int.le_bmod (by decide), Int.bmod_lt (by decide), Int.dvd_bmod_sub_self⟩

theorem uint32_bounds (n : Double) : 0 ≤ n.uint32 ∧ n.uint32 < 2 ^ 32 ∧ (2 : Int) ^ 32 ∣ n.uint32 - n.truncate := by
  unfold Double.uint32
  omega

theorem arrival_of_word (word : declared ∈ [int, uint, long, ulong]) : declared.arrival = declared := by
  simp only [List.mem_cons, List.not_mem_nil, or_false] at word
  rcases word with rfl | rfl | rfl | rfl <;> rfl

/-- A type of up to 32 bits takes a number in the range of 32 bits. -/
theorem Takes.of_word {i : Int} (small : i.natAbs < 2 ^ 53) (short : declared ∉ [longLong, ulongLong])
    (fits : declared.arrival.Fits i) (differs : (2 : Int) ^ 32 ∣ i - n.truncate) : declared.Takes n (.ofInt i) := by
  have whole := Double.truncate_ofInt small
  refine ⟨Double.isIntegral_ofInt small, fun _ _ => ?_, fun word => ?_, fun wide => absurd wide short, ?_⟩
  · rw [whole]
    exact ⟨fits, differs⟩
  · rw [whole, ← arrival_of_word word]
    exact fits
  · rintro rfl
    exact absurd (by simp) short

/-- A type of 64 bits takes the integer part. -/
theorem Takes.of_integerPart (wide : declared ∈ [longLong, ulongLong]) (above : declared = ulongLong → 0 ≤ n.truncate) :
    declared.Takes n (integerPart n) := by
  have whole : (integerPart n).truncate = n.truncate := truncate_integerPart
  refine ⟨isIntegral_integerPart, fun long ulong => ?_, fun word => ?_, fun _ => whole, fun is => whole ▸ above is⟩
  · simp [long, ulong] at wide
  · simp only [List.mem_cons, List.not_mem_nil, or_false] at word wide
    rcases wide with rfl | rfl <;> simp at word

/-- What a type accepts is an integer in its range, as far as the range is checked. -/
theorem takes_of_integer? (accepted : declared.integer? n = some taken) : declared.Takes n taken := by
  have signed := int32_bounds n
  have unsigned := uint32_bounds n
  cases declared
  case char | short | int | long =>
    obtain rfl := Option.some.inj accepted
    exact .of_word (by omega) (by simp) ⟨signed.1, signed.2.1⟩ signed.2.2
  case uchar | ushort | uint | ulong =>
    obtain rfl := Option.some.inj accepted
    exact .of_word (by omega) (by simp) ⟨unsigned.1, unsigned.2.1⟩ unsigned.2.2
  case longLong =>
    obtain rfl := Option.some.inj accepted
    exact .of_integerPart (by simp) nofun
  case ulongLong =>
    change (if (integerPart n).isBelowZero then none else some (integerPart n)) = some taken at accepted
    split at accepted
    · nomatch accepted
    · rename_i above
      obtain rfl := Option.some.inj accepted
      exact .of_integerPart (by simp) fun _ => Int.not_lt.1 (mt isBelowZero_integerPart.2 above)
  all_goals nomatch accepted

/-- Only the unsigned type of 64 bits refuses numbers: those whose integer part is below zero. -/
theorem integer?_eq_none (integer : declared.isInteger = true) (refused : declared.integer? n = none) :
    declared = ulongLong ∧ n.truncate < 0 := by
  cases declared
  case ulongLong =>
    change (if (integerPart n).isBelowZero then none else some (integerPart n)) = none at refused
    split at refused
    · exact ⟨rfl, isBelowZero_integerPart.1 ‹_›⟩
    · nomatch refused
  case char | short | int | long | uchar | ushort | uint | ulong | longLong => nomatch refused
  all_goals nomatch integer

end Encoding

namespace Scope

variable {s : Scope} {objects : ObjectReading} {declared : Encoding} {v : Value} {job : Runner} {m m' : Machine}

/-- An argument of an integer type is read as a number first, and then taken as an integer or refused. -/
theorem argumentOf_integer (integer : declared.isInteger = true) :
    s.argumentOf objects declared v = s.numberOf v >>= fun n =>
      match declared.integer? n with
      | some taken => pure (.number taken)
      | none => mismatch declared.text v := by
  cases declared
  case char | short | int | long | uchar | ushort | uint | ulong | longLong => rfl
  case ulongLong =>
    refine congrArg (s.numberOf v >>= ·) (funext fun n => ?_)
    change (if true && (Encoding.integerPart n).isBelowZero then _ else _) =
      match if (Encoding.integerPart n).isBelowZero then none else some (Encoding.integerPart n) with
      | some taken => pure (NativeValue.number taken)
      | none => _
    cases (Encoding.integerPart n).isBelowZero <;> rfl
  all_goals nomatch integer

/-- Every argument of an integer type that is converted is an integer as the type takes it. It is converted if the
value has a number, unless the type is unsigned with 64 bits and the number is below zero. -/
theorem takes_integers (integer : declared.isInteger = true) :
    (∀ a, (s.argumentOf objects declared v).exec job m = (.done a, m') →
      ∃ n taken, (s.numberOf v : Routine Fault Double).exec job m = (.done n, m') ∧ a = .number taken ∧
        declared.Takes n taken) ∧
    ∀ n, (s.numberOf v : Routine Fault Double).exec job m = (.done n, m') →
      (∃ taken, (s.argumentOf objects declared v).exec job m = (.done (.number taken), m')) ∨
      declared = .ulongLong ∧ n.truncate < 0 ∧ (s.argumentOf objects declared v).exec job m =
        (.thrown (.conversion (.mismatch declared.text (m'.describe v))), m') := by
  rw [argumentOf_integer integer]
  constructor
  · intro a given
    obtain ⟨n, m₁, number, rest⟩ := done_of_bind given
    cases accepted : declared.integer? n with
    | none =>
      rw [accepted] at rest
      nomatch rest
    | some taken =>
      rw [accepted] at rest
      cases rest
      exact ⟨n, taken, number, rfl, Encoding.takes_of_integer? accepted⟩
  · intro n number
    cases accepted : declared.integer? n with
    | some taken => exact .inl ⟨taken, exec_bind_of_done number (by rw [accepted]; rfl)⟩
    | none =>
      obtain ⟨wide, below⟩ := Encoding.integer?_eq_none integer accepted
      exact .inr ⟨wide, below, exec_bind_of_done number (by rw [accepted]; rfl)⟩

/-- The number of a number is accepted as it is, if the type makes it of itself. -/
theorem argumentOf_number {n taken : Double} (integer : declared.isInteger = true)
    (accepted : declared.integer? n = some taken) :
    (s.argumentOf objects declared (.number n)).Returns m (.number taken) m := by
  intro job
  rw [argumentOf_integer integer]
  exact exec_bind_of_done rfl (by rw [accepted]; rfl)

/-- For a type of 8 bits a number above its range is taken as one of 32 bits. -/
theorem takes_integers_uchar : ∃ n taken, (Scope.numberOf ⟨0⟩ (.number (.ofNat 300)) : Routine Fault Double).exec
      (Job.exec Job.routine 0) {} = (.done n, {}) ∧
    (Scope.argumentOf ⟨0⟩ .primitive .uchar (.number (.ofNat 300))).exec (Job.exec Job.routine 0) {} =
      (.done (.number taken), {}) ∧ Encoding.Takes .uchar n taken := by
  have given : (Scope.argumentOf ⟨0⟩ .primitive .uchar (.number (.ofNat 300))).Returns {} (.number (.ofNat 300)) {} :=
    argumentOf_number rfl (by decide +kernel)
  obtain ⟨n, taken, number, is, takes⟩ := (takes_integers rfl).1 _ (given (Job.exec Job.routine 0))
  exact ⟨n, taken, number, is ▸ given _, takes⟩

/-- So it does not fit the type, and neither does a large number the types of 64 bits. -/
theorem uchar_takes_word :
    (Scope.argumentOf ⟨0⟩ .primitive .uchar (.number (.ofNat 300))).Returns {} (.number (.ofNat 300)) {} ∧
      ¬Encoding.Fits .uchar (Double.ofNat 300).truncate ∧
    (Scope.argumentOf ⟨0⟩ .primitive .longLong (.number (.ofInt (10 ^ 30)))).Returns {} (.number (.ofInt (10 ^ 30))) {} ∧
      ¬Encoding.Fits .longLong (Double.ofInt (10 ^ 30)).truncate := by
  have byte : (Double.ofNat 300).truncate = 300 := by decide +kernel
  have long : 2 ^ 63 ≤ (Double.ofInt (10 ^ 30)).truncate := by decide +kernel
  refine ⟨argumentOf_number rfl (by decide +kernel), ?_, argumentOf_number rfl (by decide +kernel), ?_⟩
  · rw [byte]
    exact fun fits => absurd fits.2 (by decide)
  · exact fun fits => absurd fits.2 (Int.not_lt.2 long)

end Scope

end ScriptBridge
