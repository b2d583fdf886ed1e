import ScriptBridge.Machine.Routine

/-!
# Scopes

A `Scope` is access to a context from inside a region. Everything it makes or hands out is recorded in
the innermost region.

This module has the factories of objects and of errors; what changes no object is in `Machine`.
-/

namespace ScriptBridge

/-- The context that script values are made in. -/
structure Scope where
  context : Nat
  deriving DecidableEq, Inhabited

namespace Machine

/-- The context of a scope. -/
def scopeContext (m : Machine) (s : Scope) : Context := (m.context? s.context).getD default

/-- The payload behind a value. -/
def payload? (m : Machine) (v : Value) : Option Payload := (m.objectOf? v).map (·.payload)

def isArray (m : Machine) (v : Value) : Bool := (m.objectOf? v).any (·.isArray)

/-- The function behind a value, with its reference. -/
def function? (m : Machine) (v : Value) : Option (Ref × FunctionData) := do
  let r ← v.ref?
  let o ← m.object? r
  let f ← o.function?
  return (r, f)

def isFunction (m : Machine) (v : Value) : Bool := (m.function? v).isSome

/-- The time value of a date. -/
def dateMillis? (m : Machine) (v : Value) : Option Double :=
  match m.payload? v with
  | some (.date millis _) => some millis
  | _ => none

def isDate (m : Machine) (v : Value) : Bool := (m.dateMillis? v).isSome

/-- The bytes of a byte buffer. -/
def bytes? (m : Machine) (v : Value) : Option ByteArray :=
  match m.payload? v with
  | some (.buffer bytes) => some bytes
  | _ => none

/-- The wrapper data behind a value. -/
def wrapper? (m : Machine) (v : Value) : Option WrapperData := (m.objectOf? v).bind (·.wrapper?)

/-- The `typeof` word of a value. -/
def typeOf (m : Machine) (v : Value) : String :=
  v.primitiveType?.getD (if m.isFunction v then "function" else "object")

/-- The word for a value in the texts of conversion failures. -/
def describe (m : Machine) (v : Value) : String :=
  match v with
  | .object r => ((m.object? r).map fun o => o.payload.kindName).getD "collected object"
  | v => m.typeOf v

end Machine

namespace Scope

open Routine

variable {ε : Type}

/-- The intrinsic objects of the context of the scope. -/
def intrinsics (s : Scope) : Routine ε Intrinsics := read fun m => (m.scopeContext s).intrinsics

/-- Keeps a value reachable until the innermost region closes. -/
def track (v : Value) : Routine ε Unit := perform (.track v)

/-- Stores a new object and gives its reference. -/
def allocate (o : Object) : Routine ε Value := do
  return .object (← perform (.allocate o))

/-- Changes an object. -/
def edit (r : Ref) (e : Edit) : Routine ε Unit := perform (.edit r e)

/-- The global object. -/
def global (s : Scope) : Routine ε Value := do
  let v := Value.object (← read fun m => (m.scopeContext s).global)
  track v
  return v

/-! ## Factories -/

/-- An object without properties. -/
def newObject (s : Scope) : Routine ε Value := do
  allocate ⟨.ordinary, [], some (← s.intrinsics).object⟩

def newArray (s : Scope) (items : Array Value) : Routine ε Value := do
  allocate ⟨.array items, [], some (← s.intrinsics).array⟩

/-- An error with the current frames. -/
def newError (s : Scope) (kind : Program.ErrorKind) (message : String) : Routine ε Value := do
  let frames ← read (·.frames.items)
  allocate ⟨.error frames none, [("message", .hidden (.text message))],
    some ((← s.intrinsics).ofError kind)⟩

/-- An error that a native exception raises: it has the exception's name and reason, and remembers
where it comes from. -/
def newNativeError (s : Scope) (e : NativeException) : Routine ε Value := do
  let frames ← read (·.frames.items)
  allocate ⟨.error frames (some e),
    [("message", .hidden (.text e.reason)), ("name", .hidden (.text e.name))], some (← s.intrinsics).error⟩

/-- The largest time value, in milliseconds. -/
def maxTime : Double := .ofNat 8640000000000000

/-- A date with whole milliseconds, and nanoseconds below them. A time value out of range is none. -/
def newDate (s : Scope) (millis : Double) (nanos : Nat) : Routine ε Value := do
  let payload : Payload :=
    if millis.isFinite && millis.abs.le maxTime then .date millis.whole (nanos % 1000000)
    else .date .nan 0
  allocate ⟨payload, [], some (← s.intrinsics).date⟩

def newRegexp (s : Scope) (pattern flags : String) : Routine ε Value := do
  allocate ⟨.regexp pattern flags, [], some (← s.intrinsics).regexp⟩

def newBuffer (s : Scope) (bytes : ByteArray) : Routine ε Value := do
  allocate ⟨.buffer bytes, [], some (← s.intrinsics).buffer⟩

/-- A function object below another one: its name, and its `prototype` if it has one. -/
def functionObject (above : Ref) (f : FunctionData) (prototype : Option Ref) : Object :=
  let nameProperty : Property := ⟨.data (.text f.name) false, false, true⟩
  let own : Properties :=
    match prototype with
    | some p => [("name", nameProperty), ("prototype", .fixed (.object p))]
    | none => [("name", nameProperty)]
  ⟨.function f, own, some above⟩

/-- A function, below the prototype of functions unless it gets another object above it; with a prototype the two are
linked through `prototype` and `constructor`. -/
def newFunctionWith (s : Scope) (name : String) (f : Callable) (prototype above : Option Ref) :
    Routine ε Ref := do
  let above := above.getD (← s.intrinsics).function
  let r ← perform (.allocate (functionObject above ⟨name, f, s.context⟩ prototype))
  if let some p := prototype then
    edit p (.define "constructor" (.hidden (.object r)))
  return r

/-- A function. A constructor gets a prototype of its own, which is made first. -/
def newFunction (s : Scope) (name : String) (f : Callable) : Routine ε Value := do
  if f.isConstructor then
    let p ← perform (.allocate ⟨.ordinary, [], some (← s.intrinsics).object⟩)
    return .object (← s.newFunctionWith name f (some p) none)
  else
    return .object (← s.newFunctionWith name f none none)

/-! ## Throwing -/

/-- Throws a new error. -/
def throwNew {α : Type} (s : Scope) (kind : Program.ErrorKind) (message : String) :
    Routine Thrown α := do
  let error ← s.newError kind message
  .throw ⟨error⟩

/-- Throws a new `TypeError`. -/
def throwType {α : Type} (s : Scope) (message : String) : Routine Thrown α :=
  s.throwNew .typeError message

/-- Throws a new `RangeError`. -/
def throwRange {α : Type} (s : Scope) (message : String) : Routine Thrown α :=
  s.throwNew .rangeError message

/-- Throws a value. -/
def throwValue {α : Type} (v : Value) : Routine Thrown α := do
  track v
  .throw ⟨v⟩

end Scope

end ScriptBridge
