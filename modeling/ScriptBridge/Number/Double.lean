/-!
# Doubles

A `Double` is the 64 bits of an IEEE-754 binary64 number. Every operation is exact integer
arithmetic on the decoded parts, followed by one rounding, so all of them can be evaluated and
reasoned about.

* `significand`/`scale`: a finite `x` has magnitude `x.significand * 2 ^ x.scale`.
* `roundScaled`: the double nearest to `± m * 2 ^ e`, ties to the even significand.
* `roundRatio`: the double nearest to `± num / den`.
* `order`: the position of a double on the line of doubles; both zeros are at `0`.
* `truncate`, `clampTo`, `int64`, `uint32`, `int32`: integers read from a double.
-/

namespace ScriptBridge

/-- An IEEE-754 binary64 number, kept as its bits. Equality of `Double`s is equality of bits;
the numeric comparison is `Double.equals`. -/
structure Double where
  bits : UInt64
  deriving DecidableEq, Inhabited

/-- A power of two. -/
def twoPow (k : Nat) : Nat := 1 <<< k

namespace Double

/-- The weight of the sign bit, the topmost of the 64. -/
def signBit : Nat := 0x8000000000000000

/-- The weight of the lowest bit of the exponent field, above the 52 bits of the fraction. -/
def hiddenBit : Nat := 0x10000000000000

/-- The bits of an infinity below its sign: the largest exponent field over an empty fraction. -/
def infiniteMagnitude : Nat := 0x7ff0000000000000

def negative (x : Double) : Bool := decide (signBit ≤ x.bits.toNat)

/-- All bits but the sign. -/
def magnitude (x : Double) : Nat := x.bits.toNat % signBit

/-- The eleven bits of the exponent. -/
def exponentField (x : Double) : Nat := x.magnitude / hiddenBit

/-- The bits below the hidden one. -/
def fraction (x : Double) : Nat := x.magnitude % hiddenBit

def isNaN (x : Double) : Bool := decide (infiniteMagnitude < x.magnitude)

def isInfinite (x : Double) : Bool := decide (x.magnitude = infiniteMagnitude)

def isFinite (x : Double) : Bool := decide (x.magnitude < infiniteMagnitude)

/-- Either zero. -/
def isZero (x : Double) : Bool := decide (x.magnitude = 0)

/-- The integer significand of a finite double, with its hidden bit. -/
def significand (x : Double) : Nat :=
  if x.exponentField = 0 then x.fraction else x.fraction + hiddenBit

/-- The power of two that the significand counts. -/
def scale (x : Double) : Int := (max 1 x.exponentField : Nat) - 1075

/-! ## Building doubles -/

/-- The double with a sign and the bits below it. -/
def ofMagnitude (negative : Bool) (magnitude : Nat) : Double :=
  ⟨((if negative then signBit else 0) + magnitude).toUInt64⟩

def zero : Double := ⟨0⟩

def nan : Double := ⟨0x7ff8000000000000⟩

def infinity : Double := ⟨0x7ff0000000000000⟩

def negInfinity : Double := ⟨0xfff0000000000000⟩

/-- `n / d` rounded to the nearest integer, ties to the even one. -/
def divEven (n d : Nat) : Nat :=
  let q := n / d
  let r := n % d
  if d < 2 * r || (2 * r == d && q % 2 == 1) then q + 1 else q

/-- The double nearest to `m * 2 ^ e` with the given sign: ties go to the even significand, and a
magnitude past the largest finite double gives an infinity. The chosen scale leaves 53 bits, or
fewer at the bottom of the range; a carry out of the significand moves into the exponent field by
itself, because the fields are adjacent. -/
def roundScaled (negative : Bool) (m : Nat) (e : Int) : Double :=
  if m = 0 then ofMagnitude negative 0
  else
    let q := max (e + (m.log2 : Int) - 52) (-1074)
    let r := if q ≤ e then m * twoPow (e - q).toNat else divEven m (twoPow (q - e).toNat)
    ofMagnitude negative (min ((q + 1074).toNat * hiddenBit + r) infiniteMagnitude)

/-- The double nearest to `num / den` with the given sign. The quotient is taken with at least 57
bits and its remainder is kept as one sticky bit below them, so the final rounding sees on which
side of a tie the ratio lies. -/
def roundRatio (negative : Bool) (num den : Nat) : Double :=
  let s := 58 + den.log2 - num.log2
  let scaled := num * twoPow s
  let sticky := if scaled % den = 0 then 0 else 1
  roundScaled negative (2 * (scaled / den) + sticky) (-(s : Int) - 1)

/-- The nearest double, ties to even. -/
def ofInt (i : Int) : Double := roundScaled (decide (i < 0)) i.natAbs 0

def ofNat (n : Nat) : Double := roundScaled false n 0

/-- `1` or `0`. -/
def ofBool (b : Bool) : Double := if b then ofNat 1 else zero

/-! ## Comparison -/

/-- The signed position on the line of doubles: neighbours differ by one, and both zeros are `0`. -/
def order (x : Double) : Int := if x.negative then -(x.magnitude : Int) else x.magnitude

/-- Numeric equality: a NaN equals nothing, the zeros equal each other. -/
def equals (x y : Double) : Bool := !x.isNaN && !y.isNaN && x.order == y.order

/-- Less than, which no comparison with NaN is. -/
def lt (x y : Double) : Bool := !x.isNaN && !y.isNaN && decide (x.order < y.order)

def le (x y : Double) : Bool := !x.isNaN && !y.isNaN && decide (x.order ≤ y.order)

/-- Below zero; neither zero is. -/
def isBelowZero (x : Double) : Bool := lt x zero

/-! ## Arithmetic -/

def neg (x : Double) : Double := ofMagnitude (!x.negative) x.magnitude

def abs (x : Double) : Double := ofMagnitude false x.magnitude

/-- The significand with the sign. -/
def signedSignificand (x : Double) : Int :=
  if x.negative then -(x.significand : Int) else x.significand

/-- The rounded sum. A sum of two negative zeros is the negative zero; any other zero sum is the
positive one. -/
def add (x y : Double) : Double :=
  if x.isNaN || y.isNaN then nan
  else if x.isInfinite then
    if y.isInfinite && x.negative != y.negative then nan else x
  else if y.isInfinite then y
  else
    let e := min x.scale y.scale
    let sum := x.signedSignificand * twoPow (x.scale - e).toNat
      + y.signedSignificand * twoPow (y.scale - e).toNat
    if sum = 0 then ofMagnitude (x.negative && y.negative) 0
    else roundScaled (decide (sum < 0)) sum.natAbs e

/-- The rounded product. -/
def mul (x y : Double) : Double :=
  let sign := x.negative != y.negative
  if x.isNaN || y.isNaN then nan
  else if x.isInfinite || y.isInfinite then
    if x.isZero || y.isZero then nan else ofMagnitude sign infinity.magnitude
  else roundScaled sign (x.significand * y.significand) (x.scale + y.scale)

/-! ## Integers in a double -/

/-- No fractional part; false for NaN and the infinities. -/
def isIntegral (x : Double) : Bool :=
  x.isFinite && (decide (0 ≤ x.scale) || x.significand % twoPow (-x.scale).toNat == 0)

/-- The integer part of a finite double, toward zero; `0` for NaN and the infinities. -/
def truncate (x : Double) : Int :=
  if x.isFinite then
    let a := if 0 ≤ x.scale then x.significand * twoPow x.scale.toNat
      else x.significand / twoPow (-x.scale).toNat
    if x.negative then -(a : Int) else a
  else 0

/-- The double without its fractional part; the sign stays, also on a zero. -/
def whole (x : Double) : Double :=
  if x.isFinite then roundScaled x.negative x.truncate.natAbs 0 else x

/-- The integer part, cut to the range from `lo` to `hi`; NaN gives `0`. -/
def clampTo (lo hi : Int) (x : Double) : Int :=
  if x.isNaN then 0
  else if x.isInfinite then (if x.negative then lo else hi)
  else max lo (min hi x.truncate)

/-- The integer part, cut to 64 bits; NaN gives `0`. -/
def int64 (x : Double) : Int := x.clampTo (-0x8000000000000000) 0x7fffffffffffffff

/-- The integer part modulo `2 ^ 32`, from `0` up; `0` for NaN and the infinities. -/
def uint32 (x : Double) : Int := x.truncate % 0x100000000

/-- The integer part modulo `2 ^ 32`, from `-2 ^ 31` up. -/
def int32 (x : Double) : Int := x.truncate.bmod 0x100000000

end Double

end ScriptBridge
