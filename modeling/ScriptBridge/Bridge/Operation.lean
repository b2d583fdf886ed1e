import ScriptBridge.Bridge.Callback
import ScriptBridge.Scope.Evaluate

/-!
# What native code can do with script values

Operations that take native values, convert them on the way in, and settle what scripts throw on the
way out (`Scope.settle`): an operation fails with a `BridgeError`, or gives an empty value where
exceptions are reported.

The operations on a whole context run in a region of their own.
-/

namespace ScriptBridge

open Routine
open Program (UnwrapShape)

namespace Scope

variable {ε : Type}

/-! ## Conversion -/

/-- A native value as a script value. -/
def wrap (s : Scope) (v : NativeValue) : Routine BridgeError Value :=
  s.settle .undefined (s.toScript v)

/-- A script value as a native value of the wanted shape. -/
def unwrap (s : Scope) (v : Value) (shape : UnwrapShape) : Routine BridgeError NativeValue :=
  s.settle .nil (holding [] (s.toNativeAs shape v))

/-- The object behind a wrapper if it is of a class, nil otherwise. -/
def toObjectOfClass (v : Value) (cls : Class) : Routine ε NativeValue := do
  match ← read (·.nativeBehind? v) with
  | some h => return if h.cls.isSubclassOf cls then .object h else .nil
  | none => return .nil

/-- Truth values stay; everything else becomes a number. -/
def toNumber (s : Scope) (v : Value) : Routine ε NativeValue := do
  match v with
  | .bool b => return .bool b
  | v => return .number (← s.numberOf v)

/-- A date, or a number of milliseconds, as a native date; nil for everything else. -/
def toDate (v : Value) : Routine ε NativeValue := do
  match v, ← read (·.payload? v) with
  | .number x, _ => return nativeDate x 0
  | _, some (.date millis nanos) => return nativeDate millis nanos
  | _, _ => return .nil

/-! ## Properties -/

/-- Reads a property. -/
def property (s : Scope) (target : Value) (key : String) : Routine BridgeError Value :=
  s.settle .undefined (s.get target key)

/-- Converts a native value and assigns it to a property. -/
def setProperty (s : Scope) (target : Value) (key : String) (v : NativeValue) :
    Routine BridgeError Unit :=
  s.settle () do s.set target key (← s.toScript v)

/-- Deletes a property, and says whether it is gone. -/
def deleteProperty (s : Scope) (target : Value) (key : String) : Routine BridgeError Bool :=
  s.settle false (s.delete target key)

/-- Whether a property is there, on the object or along its chain. -/
def hasProperty (s : Scope) (target : Value) (key : String) : Routine BridgeError Bool :=
  s.settle false (s.has target key)

/-- Reads an element. -/
def valueAt (s : Scope) (target : Value) (index : Nat) : Routine BridgeError Value :=
  s.settle .undefined (s.getIndex target index)

/-- Converts a native value and assigns it to an element. -/
def setValueAt (s : Scope) (target : Value) (index : Nat) (v : NativeValue) :
    Routine BridgeError Unit :=
  s.settle () do s.setIndex target index (← s.toScript v)

/-- A flag of a descriptor; missing ones are off. -/
def descriptorFlag (d : NativeValue) (name : String) : Bool :=
  ((d.get? name).bind (·.bool?)).getD false

/-- An entry of a descriptor as a script value. -/
def descriptorEntry (s : Scope) (d : NativeValue) (name : String) :
    Routine Fault (Option Value) := do
  match d.get? name with
  | some v => some <$> s.toScript v
  | none => return none

/-- Defines a property from a dictionary with the entries `value`, `writable`, `get`, `set`,
`enumerable` and `configurable`. -/
def defineWith (s : Scope) (target : Value) (key : String) (d : NativeValue) :
    Routine BridgeError Unit :=
  s.settle () do
    let descriptor ←
      if (d.get? "get").isSome || (d.get? "set").isSome then do
        let getter ← s.descriptorEntry d "get"
        let setter ← s.descriptorEntry d "set"
        pure (Descriptor.accessor getter setter)
      else do
        let v ← s.descriptorEntry d "value"
        pure (Descriptor.data (v.getD .undefined) (descriptorFlag d "writable"))
    s.define target key descriptor (descriptorFlag d "enumerable") (descriptorFlag d "configurable")

/-! ## Calls -/

/-- Native arguments as script values, in order; the first that does not convert fails. -/
def toScripts (s : Scope) (vs : List NativeValue) : Routine Fault (List Value) := vs.mapM s.toScript

/-- Calls a function with native arguments and without a receiver. -/
def callWith (s : Scope) (f : Value) (args : List NativeValue) : Routine BridgeError Value :=
  s.settle .undefined do s.call f .undefined (← s.toScripts args)

/-- Constructs with native arguments. -/
def constructWith (s : Scope) (f : Value) (args : List NativeValue) : Routine BridgeError Value :=
  s.settle .undefined do s.construct f (← s.toScripts args)

/-- Calls a method of a value. The arguments are converted before the method is looked up. -/
def invokeMethod (s : Scope) (target : Value) (name : String) (args : List NativeValue) :
    Routine BridgeError Value :=
  s.settle .undefined do
    let args ← s.toScripts args
    let f ← s.get target name
    s.call f target args

/-- Evaluates a source text. Without an evaluator this fails even where exceptions are reported. -/
def evaluateScript (s : Scope) (source resource : String) : Routine BridgeError Value := do
  if (← read (·.evaluator)).isNone then .throw (.config .noEvaluator)
  else s.settle .undefined (s.evaluate source resource)

/-- Whether a value is an instance of a constructor. A native object is one of a bridged class by its
own class. -/
def isInstanceOf (s : Scope) (v ctor : Value) : Routine BridgeError Bool := do
  match ← read (·.classOfConstructor? s ctor), ← read (·.nativeBehind? v) with
  | some cls, some h => return h.cls.isSubclassOf cls
  | _, _ => s.settle false (s.instanceOf v ctor)

end Scope

/-! ## Contexts -/

namespace Scope

variable {ε : Type}

/-- Runs an operation in a new region, and keeps its result held while the region closes. -/
def unwrapInRegion (context : Nat) (r : Scope → Routine BridgeError Value) :
    Routine BridgeError NativeValue :=
  holding [] <| inRegion context do
    let s : Scope := ⟨context⟩
    let v ← s.unwrap (← r s) .any
    hold v
    return v

/-- A property of the global object of a context. -/
def contextGet (context : Nat) (key : String) : Routine BridgeError NativeValue :=
  unwrapInRegion context fun s => do s.property (← s.global) key

/-- Assigns to a property of the global object of a context. -/
def contextSet (context : Nat) (key : String) (v : NativeValue) : Routine BridgeError Unit :=
  inRegion context do
    let s : Scope := ⟨context⟩
    s.setProperty (← s.global) key v

/-- Evaluates a source text in a context. -/
def contextEvaluate (context : Nat) (source resource : String) : Routine BridgeError NativeValue :=
  unwrapInRegion context fun s => s.evaluateScript source resource

/-- The global object of a context, as a managed value. -/
def globalObject (context : Nat) : Routine ε Nat :=
  inRegion context do
    let s : Scope := ⟨context⟩
    perform (.addManaged (some (← s.global)))

/-- Makes the constructor of a class a hidden property of the global object. -/
def setClass (context : Nat) (name : String) (cls : Class) : Routine BridgeError Unit :=
  inRegion context do
    let s : Scope := ⟨context⟩
    s.settle () do
      let t ← s.templateFor cls
      let global ← read fun m => (m.scopeContext s).global
      edit global (.define name (.hidden (.object t.constructor)))

end Scope

end ScriptBridge
