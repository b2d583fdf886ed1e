import ScriptBridge.Scope.Coerce

/-!
# Writing properties

`Scope.writeOwn` stores into an object itself: arrays take their elements and their length, all else
goes to the properties. `Scope.setOrdinary` first asks the chain, which may hold a setter or a
property that cannot be written; such a write changes nothing.

`Scope.call` and `Scope.construct` call any value.
-/

namespace ScriptBridge

namespace Scope

open Routine

/-- The array length that a number gives: whole, not below zero, at most `maxArrayLength`. -/
def arrayLength? (x : Double) : Option Nat :=
  if x.isIntegral && !x.isBelowZero && x.truncate ≤ maxArrayLength then some x.truncate.toNat
  else none

/-- Writes a property of the object itself. The length of an array cuts or extends it. -/
def writeOwn (s : Scope) (holder : Ref) (key : String) (v : Value) : Routine Thrown Unit := do
  if ← read (·.isArray (.object holder)) then
    if key = "length" then
      match arrayLength? (← s.numberOf v) with
      | some length => edit holder (.resize length)
      | none => s.throwRange "Invalid array length"
    else
      match arrayIndex? key with
      | some i =>
        if maxArrayLength ≤ i then s.throwRange "Invalid array length"
        else edit holder (.storeItem i v)
      | none => edit holder (.store key v)
  else edit holder (.store key v)

/-- Writes a property of an object as its chain says, on behalf of a receiver. -/
def setOrdinary (s : Scope) (holder : Ref) (receiver : Value) (key : String) (v : Value) :
    Routine Thrown Unit := do
  match ← read fun m => m.heap.writeTarget holder key with
  | .own => s.writeOwn holder key v
  | .setter (some f) =>
    let _ ← s.callAccessor f receiver [v]
    return
  | .setter none | .readonly => return

/-- The function behind a value; throws when it is none. -/
def functionOf (s : Scope) (f : Value) : Routine Thrown (Ref × FunctionData) := do
  match ← read (·.function? f) with
  | some found => return found
  | none => s.throwType ((← s.textOf f) ++ " is not a function")

/-- Calls a value, which has to be a function. -/
def call (s : Scope) (f this : Value) (args : List Value) : Routine Thrown Value := do
  let (callee, data) ← s.functionOf f
  s.invoke callee data this args false

/-- Calls a constructor on a new object. The object is the result unless the call gives another. -/
def construct (s : Scope) (f : Value) (args : List Value) : Routine Thrown Value := do
  let (callee, data) ← s.functionOf f
  if !data.callable.isConstructor then s.throwType (data.name ++ " is not a constructor")
  else
    let prototype ←
      match ← s.getOrdinary callee f "prototype" with
      | .object p => pure p
      | _ => pure (← s.intrinsics).object
    let this ← allocate ⟨.ordinary, [], some prototype⟩
    let result ← s.invoke callee data this args true
    return if result.isObject then result else this

/-- Whether an object has the `prototype` of a function on its chain. -/
def instanceOf (s : Scope) (v ctor : Value) : Routine Thrown Bool := do
  match ← read (·.function? ctor) with
  | none => s.throwType "Right-hand side of 'instanceof' is not callable"
  | some (callee, _) =>
    match ← s.getOrdinary callee ctor "prototype" with
    | .object target =>
      match v with
      | .object r => read fun m => m.heap.inherits r target
      | _ => return false
    | _ => s.throwType "Function has non-object prototype in instanceof check"

end Scope

end ScriptBridge
