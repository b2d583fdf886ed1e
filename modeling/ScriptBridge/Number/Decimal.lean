import ScriptBridge.Number.Double

/-!
# Decimal numbers

A `Decimal` is a natural number of units of a power of ten.

* `Double.shortest`: the shortest decimal that reads back as a given double. The grids of powers of
  ten are tried from coarse to fine; the first grid with a point inside the interval of reals that
  round to the double wins, of two points the nearer, and of two equally near the larger.
* `Decimal.positional`, `Decimal.scientific`: its two layouts.
* `Decimal.toDouble`: the nearest double.
-/

namespace ScriptBridge

/-- A power of ten. -/
def tenPow (k : Nat) : Nat := Nat.pow 10 k

/-- `digits * 10 ^ exponent`. -/
structure Decimal where
  digits : Nat
  exponent : Int
  deriving DecidableEq, Inhabited

namespace Decimal

/-- Divides out factors of ten, at most `fuel` of them. -/
def stripZeros : Nat → Decimal → Decimal
  | 0, d => d
  | fuel + 1, d =>
    if d.digits ≠ 0 ∧ d.digits % 10 = 0 then stripZeros fuel ⟨d.digits / 10, d.exponent + 1⟩ else d

/-- All digits written out, with a point where the exponent puts it. -/
def positional (d : Decimal) : String :=
  let text := toString d.digits
  if 0 ≤ d.exponent then text ++ "".pushn '0' d.exponent.toNat
  else
    let places := (-d.exponent).toNat
    let padded := "".pushn '0' (places + 1 - text.length) ++ text
    let chars := padded.toList
    String.ofList (chars.take (chars.length - places)) ++ "."
      ++ String.ofList (chars.drop (chars.length - places))

/-- The power of ten of the first digit. -/
def leadingExponent (d : Decimal) : Int := d.exponent + ((toString d.digits).length : Int) - 1

/-- One digit, a point if more follow, and the power of ten of the first digit after `mark`. -/
def scientific (mark : String) (d : Decimal) : String :=
  let chars := (toString d.digits).toList
  let rest := chars.drop 1
  String.ofList (chars.take 1) ++ (if rest.isEmpty then "" else "." ++ String.ofList rest)
    ++ mark ++ toString d.leadingExponent

/-- The nearest double, with the given sign. Decimals far outside the range of doubles are settled
by their leading exponent alone. -/
def toDouble (negative : Bool) (d : Decimal) : Double :=
  if d.digits = 0 then Double.ofMagnitude negative 0
  else if 400 < d.leadingExponent then
    Double.ofMagnitude negative Double.infinity.magnitude
  else if d.leadingExponent < -400 then Double.ofMagnitude negative 0
  else if 0 ≤ d.exponent then
    Double.roundScaled negative (d.digits * tenPow d.exponent.toNat) 0
  else Double.roundRatio negative d.digits (tenPow (-d.exponent).toNat)

end Decimal

namespace Double

/-- The point of the grid `10 ^ j` that represents `x`, if one lies in the interval of reals that
round to `x`. The interval reaches half a unit to each side, only a quarter below a power of two,
and includes its ends exactly when the significand is even. -/
def gridPoint? (x : Double) (j : Int) : Option Nat :=
  let m := x.significand
  let below := if x.fraction = 0 && 1 < x.exponentField then 1 else 2
  let q := x.scale - 2
  let up := twoPow q.toNat * tenPow (-j).toNat
  let down := twoPow (-q).toNat * tenPow j.toNat
  let value := 4 * m * up
  let low := (4 * m - below) * up
  let high := (4 * m + 2) * up
  let inside (c : Nat) : Bool :=
    if m % 2 = 0 then low ≤ c * down && c * down ≤ high else low < c * down && c * down < high
  let c := value / down
  let twice := 2 * (value % down)
  match inside c, inside (c + 1) with
  | true, true => some (if twice < down then c else c + 1)
  | true, false => some c
  | false, true => some (c + 1)
  | false, false => none

/-- The first of the grids `10 ^ j`, `10 ^ (j - 1)`, … that represents `x`. -/
def coarsest (x : Double) : Nat → Int → Decimal
  | 0, j => ⟨0, j⟩
  | fuel + 1, j =>
    match x.gridPoint? j with
    | some c => ⟨c, j⟩
    | none => coarsest x fuel (j - 1)

/-- The shortest decimal that reads back as the magnitude of a finite double. The search starts
above the leading digit (a power of two is about `0.301` powers of ten), and seventeen digits always
suffice. -/
def shortest (x : Double) : Decimal :=
  if x.isZero then ⟨0, 0⟩
  else
    let top := ((x.scale + x.significand.log2) * 1233).fdiv 4096 + 2
    (x.coarsest 24 top).stripZeros 24

end Double

end ScriptBridge
