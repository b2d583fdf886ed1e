import ScriptBridge.Calendar.Instant
import ScriptBridge.Scope.Call

/-!
# Coercions

`Scope.textOf` and `Scope.numberOf` read any value as a text or a number; both may run getters.
`Scope.looselyEqual` compares two values after coercion.
-/

namespace ScriptBridge

/-- The text of a date. -/
def dateTextOf (millis : Double) : String :=
  if millis.isFinite then Calendar.dateText millis.int64
  else "Invalid Date"

namespace Value

/-- Equality of primitives after coercion; a truth value counts as a number. -/
def looselyEqualPrimitives (a b : Value) : Bool :=
  let a := match a with | bool x => number (.ofBool x) | a => a
  let b := match b with | bool x => number (.ofBool x) | b => b
  match a, b with
  | number x, text s | text s, number x => x.equals (.ofText s)
  | a, b => a.strictEquals b

end Value

namespace Scope

open Routine

variable {ε : Type}

/-- The primitive text of a property of an error; empty where reading fails or gives an object. -/
def errorField (s : Scope) (r : Ref) (key : String) : Routine ε String := do
  match ← (s.getOrdinary r (.object r) key).attempt with
  | .ok v => return v.primitiveText?.getD ""
  | .error _ => return ""

/-- A name and a message, joined by a colon where there are both; without a message only the name. -/
def errorText (name message : String) : String :=
  if message = "" then name else if name = "" then message else name ++ ": " ++ message

/-- How deep arrays inside arrays show. -/
def maxTextDepth : Nat := 32

/-- The text of a value; arrays below a depth are empty. -/
def textAt (s : Scope) (room : Nat) (v : Value) : Routine ε String :=
  match v with
  | .object r => do
    match ← read (·.payload? (.object r)) with
    | none => return "undefined"
    | some .ordinary => return "[object Object]"
    | some (.array items) =>
      match room with
      | 0 => return ""
      | n + 1 =>
        let texts ← items.toList.mapM fun item =>
          if item.isNullish then pure "" else s.textAt n item
        return ",".intercalate texts
    | some (.function f) => return "function " ++ f.name ++ "() \x7b [native code] \x7d"
    | some (.error ..) =>
      let name ← s.errorField r "name"
      let message ← s.errorField r "message"
      return errorText name message
    | some (.date millis _) => return dateTextOf millis
    | some (.regexp pattern flags) => return "/" ++ pattern ++ "/" ++ flags
    | some (.buffer _) => return "[object ArrayBuffer]"
    | some (.wrapper w) => return "[object " ++ w.className ++ "]"
  | v => return v.primitiveText?.getD ""

/-- A value as text. Arrays show their items. -/
def textOf (s : Scope) (v : Value) : Routine ε String := s.textAt maxTextDepth v

/-- The number of a value; a date gives its time value. -/
def numberOf (s : Scope) (v : Value) : Routine ε Double := do
  match v.primitiveNumber? with
  | some x => return x
  | none =>
    match ← read (·.dateMillis? v) with
    | some millis => return millis
    | none => return .ofText (← s.textOf v)

/-- The primitive that stands for an object in a comparison: a date's number, another's text. -/
def primitiveOf (s : Scope) (v : Value) : Routine ε Value := do
  if ← read (·.isDate v) then return .number (← s.numberOf v)
  else return .text (← s.textOf v)

/-- Equality after coercion. Undefined and null equal each other only, and two objects are equal only
if they are the same. -/
def looselyEqual (s : Scope) (a b : Value) : Routine ε Bool := do
  if a.isNullish || b.isNullish then return a.isNullish && b.isNullish
  else
    match a, b with
    | .object x, .object y => return x == y
    | .object _, b => return (← s.primitiveOf a).looselyEqualPrimitives b
    | a, .object _ => return (← s.primitiveOf b).looselyEqualPrimitives a
    | a, b => return a.looselyEqualPrimitives b

end Scope

end ScriptBridge
