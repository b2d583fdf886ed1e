import ScriptBridge.Bridge.Wrapper
import ScriptBridge.Scope.Write

/-!
# Native values become script values

`Scope.toScript` converts a native value: collections into new arrays and objects, objects, closures
and classes into their wrappers, functions and constructors. Entries of a dictionary are assigned, so
a setter on the way sees them, and entries whose key is no text are dropped.

`Scope.resultOf` converts what a native method returned, as its signature declares it.
-/

namespace ScriptBridge

namespace Scope

open Routine

/-- The value of a managed value, while it lives. -/
def managedValue {ε : Type} (id : Nat) : Routine ε (Option Value) := do
  match ← read (·.managedValue? id) with
  | some v =>
    track v
    return some v
  | none => return none

mutual

/-- Converts a value that lies `depth` levels inside the one to convert. -/
def toScriptAt (s : Scope) (depth : Nat) (v : NativeValue) : Routine Fault Value := do
  let options ← read (·.options)
  if options.maxConversionDepth < depth then
    .throw (.conversion (.depthExceeded options.maxConversionDepth))
  else
    match v with
    | .nil => return .undefined
    | .null => return .null
    | .bool b => return .bool b
    | .number x => return .number x
    | .text t => return .text t
    | .array items => do s.newArray (← s.itemsToScript depth #[] items)
    | .dictionary entries => do
      match ← s.newObject with
      | .object r =>
        s.entriesToScript depth r entries
        return .object r
      | v => return v
    | .date t => s.newDate (.ofInt t.millis) t.subMillis
    | .data bytes =>
      if options.typedArrays then s.newBuffer bytes else .throw (.conversion .buffersDisabled)
    | .closure c => s.functionFor c
    | .object h => s.wrapperFor h
    | .classRef c => do
      let constructor := Value.object (← s.templateFor c).constructor
      track constructor
      return constructor
    | .selector sel => return .text sel.name
    | .script (.managed id) => return (← managedValue id).getD .undefined
    | .script (.foreign _) => .throw (.conversion .foreignToken)

/-- Converts items after those that are done. -/
def itemsToScript (s : Scope) (depth : Nat) (done : Array Value) (items : List NativeValue) :
    Routine Fault (Array Value) := do
  match items with
  | [] => return done
  | item :: rest =>
    let v ← s.toScriptAt (depth + 1) item
    s.itemsToScript depth (done.push v) rest

/-- Assigns the entries of a dictionary with text keys to the object `r`. -/
def entriesToScript (s : Scope) (depth : Nat) (r : Ref)
    (entries : List (NativeValue × NativeValue)) : Routine Fault Unit := do
  match entries with
  | [] => return
  | (.text key, item) :: rest =>
    let v ← s.toScriptAt (depth + 1) item
    s.setOrdinary r (.object r) key v
    s.entriesToScript depth r rest
  | _ :: rest => s.entriesToScript depth r rest

end

/-- A native value as a script value. -/
def toScript (s : Scope) (v : NativeValue) : Routine Fault Value := s.toScriptAt 0 v

/-- The script value of a result that was declared with a type. Truth values and numbers turn into
each other. -/
def resultOf (s : Scope) (declared : Encoding) (v : NativeValue) : Routine Fault Value :=
  match declared, v with
  | .void, _ => return .undefined
  | .bool, .number x => return .bool (Value.number x).truth
  | e, .bool b => if e.isNumeric then return .number (.ofBool b) else s.toScript (.bool b)
  | _, v => s.toScript v

end Scope

end ScriptBridge
