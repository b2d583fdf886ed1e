import ScriptBridge.Number.Decimal
import ScriptBridge.Text.Blank

/-!
# The text of a number

* `Double.text`: how scripts print a number. Integers below `10 ^ 21` in full; other numbers with
  the fewest digits that read back, positionally from `10 ^ -6` up to `10 ^ 21` and with an exponent
  outside.
* `Double.plainText`: how native values print a number: the fewest digits, always positional.
* `Double.ofText`: the number that a script reads from a text; NaN when it is none.
-/

namespace ScriptBridge

namespace Double

def withSign (x : Double) (text : String) : String := if x.negative then "-" ++ text else text

/-- The text that scripts see. -/
def text (x : Double) : String :=
  if x.isNaN then "NaN"
  else if x.isInfinite then x.withSign "Infinity"
  else if x.isZero then "0"
  else
    let d := x.shortest
    let big := le (ofNat (tenPow 21)) x.abs
    if x.isIntegral && !big then toString x.truncate
    else if big then x.withSign (d.scientific "e+")
    else if lt x.abs (roundRatio false 1 (tenPow 6)) then x.withSign (d.scientific "e")
    else x.withSign d.positional

/-- Every digit positionally; the negative zero keeps its sign. -/
def plainText (x : Double) : String :=
  if x.isNaN then "NaN"
  else if x.isInfinite then x.withSign "inf"
  else x.withSign x.shortest.positional

end Double

/-! ## Reading -/

/-- The value of a digit in a radix up to 16. -/
def digitValue? (radix : Nat) (c : Char) : Option Nat :=
  let n := c.val.toNat
  let v :=
    if 48 ≤ n && n ≤ 57 then n - 48
    else if 97 ≤ n && n ≤ 102 then n - 87
    else if 65 ≤ n && n ≤ 70 then n - 55
    else radix
  if v < radix then some v else none

def isDigit (c : Char) : Bool := '0' ≤ c && c ≤ '9'

/-- The natural number that a list of decimal digits spells. -/
def natOfDigits (ds : List Char) : Nat := ds.foldl (fun n c => 10 * n + (c.val.toNat - 48)) 0

/-- Splits off a sign; `true` stands for minus. -/
def splitSign : List Char → Bool × List Char
  | '-' :: r => (true, r)
  | '+' :: r => (false, r)
  | r => (false, r)

/-- An exponent part: nothing, or `e` with an optional sign and at least one digit. -/
def exponentOf? : List Char → Option Int
  | [] => some 0
  | c :: r =>
    if c = 'e' ∨ c = 'E' then
      let (negative, ds) := splitSign r
      if ds.isEmpty || !ds.all isDigit then none
      else if negative then some (-(natOfDigits ds : Int)) else some (natOfDigits ds)
    else none

/-- A decimal: an optional sign, digits with at most one point and at least one digit, and an
optional exponent. -/
def decimalOf? (cs : List Char) : Option (Bool × Decimal) :=
  let (negative, body) := splitSign cs
  let whole := body.takeWhile isDigit
  let afterWhole := body.dropWhile isDigit
  let (places, rest) :=
    match afterWhole with
    | '.' :: r => (r.takeWhile isDigit, r.dropWhile isDigit)
    | r => ([], r)
  if whole.isEmpty && places.isEmpty then none
  else
    (exponentOf? rest).map fun e =>
      (negative, ⟨natOfDigits (whole ++ places), e - places.length⟩)

/-- Digits of a radix, accumulated in double arithmetic from the left. -/
def radixNumber? (radix : Nat) (ds : List Char) : Option Double :=
  if ds.isEmpty then none
  else
    ds.foldl
      (fun acc c => do
        let a ← acc
        let d ← digitValue? radix c
        some ((a.mul (.ofNat radix)).add (.ofNat d)))
      (some Double.zero)

/-- The number in a text, blanks and byte order marks at both ends aside: nothing is zero, `0x`,
`0o` and `0b` name a radix, and whatever else is no decimal is NaN. -/
def Double.ofText (s : String) : Double :=
  let cs := Text.trimWhere Text.isBlankOrMark s.toList
  match cs with
  | [] => Double.zero
  | '0' :: 'x' :: r | '0' :: 'X' :: r => (radixNumber? 16 r).getD .nan
  | '0' :: 'o' :: r | '0' :: 'O' :: r => (radixNumber? 8 r).getD .nan
  | '0' :: 'b' :: r | '0' :: 'B' :: r => (radixNumber? 2 r).getD .nan
  | _ =>
    let t := String.ofList cs
    if t = "Infinity" ∨ t = "+Infinity" then .infinity
    else if t = "-Infinity" then .negInfinity
    else
      match decimalOf? cs with
      | some (negative, d) => d.toDouble negative
      | none => .nan

end ScriptBridge
