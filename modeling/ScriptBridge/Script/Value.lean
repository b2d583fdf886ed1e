import ScriptBridge.Number.Text

/-!
# Script values

A `Value` is a primitive or a reference to an object on the heap. A `Ref` names a slot and the
generation of its occupant, so a reference to a freed object resolves to nothing, also after the
slot is used again.

The readings of a primitive (`truth`, `primitiveText?`, `primitiveNumber?`, `primitiveType?`) need
no heap; the last three give nothing for an object.
-/

namespace ScriptBridge

/-- A slot of the heap, and which of its occupants is meant. -/
structure Ref where
  index : Nat
  generation : UInt32
  deriving DecidableEq, Inhabited

/-- A value of a script. -/
inductive Value where
  | undefined
  | null
  | bool (b : Bool)
  | number (x : Double)
  | text (s : String)
  | object (r : Ref)
  deriving DecidableEq, Inhabited

namespace Value

def isUndefined : Value → Bool
  | undefined => true
  | _ => false

/-- Undefined or null. -/
def isNullish : Value → Bool
  | undefined | null => true
  | _ => false

def isObject : Value → Bool
  | object _ => true
  | _ => false

def ref? : Value → Option Ref
  | object r => some r
  | _ => none

/-- Whether a condition holds: not for the empty text, zeros, NaN, null and undefined. -/
def truth : Value → Bool
  | undefined | null => false
  | bool b => b
  | number x => !(x.isZero || x.isNaN)
  | text s => s != ""
  | object _ => true

/-- The text of a primitive value. -/
def primitiveText? : Value → Option String
  | undefined => some "undefined"
  | null => some "null"
  | bool b => some (if b then "true" else "false")
  | number x => some x.text
  | text s => some s
  | object _ => none

/-- The number of a primitive value. -/
def primitiveNumber? : Value → Option Double
  | undefined => some .nan
  | null => some .zero
  | bool b => some (.ofBool b)
  | number x => some x
  | text s => some (.ofText s)
  | object _ => none

/-- The `typeof` word of a primitive. -/
def primitiveType? : Value → Option String
  | undefined => some "undefined"
  | null => some "object"
  | bool _ => some "boolean"
  | number _ => some "number"
  | text _ => some "string"
  | object _ => none

/-- Equality without coercion: numbers by numeric equality, objects by identity. -/
def strictEquals : Value → Value → Bool
  | undefined, undefined | null, null => true
  | bool a, bool b => a == b
  | number a, number b => a.equals b
  | text a, text b => a == b
  | object a, object b => a == b
  | _, _ => false

end Value

end ScriptBridge
