import ScriptBridge.Bridge.Wrapper

/-!
# Arguments

`Scope.nativeAs` reads a script value in a requested shape, and `Scope.argumentOf` as a declared type.
How objects convert by themselves is a parameter (`ObjectReading`), because that reads properties,
which may call native code again.
-/

namespace ScriptBridge

open Program (UnwrapShape)

/-- How script objects become native values. -/
structure ObjectReading where
  /-- Whatever the object naturally is. -/
  natural : Ref → Routine Fault NativeValue
  /-- An ordered collection, read through `length` and indices. -/
  array : Ref → Routine Fault NativeValue
  /-- The listed properties. -/
  dictionary : Ref → Routine Fault NativeValue

/-- The reading of values that are no objects. -/
def ObjectReading.primitive : ObjectReading where
  natural _ := return .nil
  array _ := return .nil
  dictionary _ := return .nil

/-- The instant of a time value in milliseconds, if there is one. -/
def instantOf? (millis : Double) : Option Instant :=
  if millis.isFinite then Instant.ofMillis? millis.int64 else none

/-- The native date of a time value and the nanoseconds below it. -/
def nativeDate (millis : Double) (nanos : Nat) : NativeValue :=
  match instantOf? millis with
  | some t => .date (t.addNanos nanos)
  | none => .nil

/-- The names of shapes in the texts of failures. -/
def shapeName : UnwrapShape → String
  | .any => "any"
  | .bool => "boolean"
  | .number | .double => "number"
  | .int32 => "int32"
  | .uint32 => "uint32"
  | .string => "string"
  | .date => "date"
  | .array => "array"
  | .dictionary => "dictionary"
  | .data => "data"
  | .object => "object"
  | .closure => "closure"

namespace Machine

/-- The closure behind a function made from one. -/
def closureBehind? (m : Machine) (v : Value) : Option Closure :=
  match m.function? v with
  | some (_, ⟨_, .closure c, _⟩) => some c
  | _ => none

/-- The class behind a constructor of a bridged class. -/
def classBehind? (m : Machine) (v : Value) : Option Class :=
  match m.function? v with
  | some (_, ⟨_, .constructor cls _, _⟩) => some cls
  | _ => none

end Machine

namespace Scope

open Routine

variable {α : Type}

/-- Fails because an argument is not of the declared type. -/
def mismatch (expected : String) (v : Value) : Routine Fault α := do
  let found ← read (·.describe v)
  .throw (.conversion (.mismatch expected found))

/-- Fails because a value is no object that could become `target`. -/
def notAnObject (target : String) (v : Value) : Routine Fault α := do
  let found ← read (·.describe v)
  .throw (.conversion (.notAnObject target found))

/-- What a value naturally is. -/
def naturally (objects : ObjectReading) : Value → Routine Fault NativeValue
  | .undefined => return .nil
  | .null => return .null
  | .bool b => return .bool b
  | .number x => return .number x
  | .text t => return .text t
  | .object r => objects.natural r

/-- The value in a shape. Numbers, texts and truth values coerce; null and undefined are nil in the
other shapes, and whatever does not have the shape is a failure. -/
def nativeAs (s : Scope) (objects : ObjectReading) (shape : UnwrapShape) (v : Value) :
    Routine Fault NativeValue := do
  match shape with
  | .any | .object => naturally objects v
  | .bool => return .bool v.truth
  | .number | .double => return .number (← s.numberOf v)
  | .int32 => return .number (.ofInt (← s.numberOf v).int32)
  | .uint32 => return .number (.ofInt (← s.numberOf v).uint32)
  | .string => if v.isNullish then return .nil else return .text (← s.textOf v)
  | .date =>
    match v, ← read (·.payload? v) with
    | .undefined, _ | .null, _ => return .nil
    | .number x, _ => return nativeDate x 0
    | _, some (.date millis nanos) => return nativeDate millis nanos
    | v, _ => mismatch (shapeName shape) v
  | .array =>
    match v with
    | .undefined | .null => return .nil
    | .object r => objects.array r
    | v => notAnObject (shapeName shape) v
  | .dictionary =>
    match v with
    | .undefined | .null => return .nil
    | .object r => objects.dictionary r
    | v => notAnObject (shapeName shape) v
  | .data =>
    match v, ← read (·.bytes? v) with
    | .undefined, _ | .null, _ => return .nil
    | _, some bytes =>
      if ← read (·.options.typedArrays) then return .data bytes
      else .throw (.conversion .buffersDisabled)
    | v, none => mismatch (shapeName shape) v
  | .closure =>
    match v, ← read (·.closureBehind? v) with
    | .undefined, _ | .null, _ => return .nil
    | _, some c => return .closure c
    | v, none => mismatch (shapeName shape) v

/-- The shapes that some class names stand for. -/
def shapeOfClassName? : String → Option UnwrapShape
  | "String" => some .string
  | "Number" => some .number
  | "Array" => some .array
  | "Dictionary" => some .dictionary
  | "Date" => some .date
  | "Data" => some .data
  | _ => none

/-- An argument declared with a class name. An object of another class is refused. -/
def objectArgument (s : Scope) (objects : ObjectReading) (className : String) (v : Value) :
    Routine Fault NativeValue := do
  match shapeOfClassName? className with
  | some shape => s.nativeAs objects shape v
  | none =>
    match ← naturally objects v with
    | .object h =>
      if h.cls.isKindOf className then return .object h else mismatch className v
    | converted => return converted

/-- The native value of an argument declared with a type. -/
def argumentOf (s : Scope) (objects : ObjectReading) (declared : Encoding) (v : Value) :
    Routine Fault NativeValue := do
  match declared with
  | .void => return .nil
  | .bool => return .bool v.truth
  | .float | .double => return .number (← s.numberOf v)
  | .longLong | .ulongLong =>
    let x := (← s.numberOf v)
    let x := if x.isFinite then x.whole else .zero
    if declared.isUnsigned && x.isBelowZero then mismatch declared.text v
    else return .number x
  | .uchar | .ushort | .uint | .ulong => s.nativeAs objects .uint32 v
  | .char | .short | .int | .long => s.nativeAs objects .int32 v
  | .cstring => s.nativeAs objects .string v
  | .object none => naturally objects v
  | .object (some className) => s.objectArgument objects className v
  | .closure => s.nativeAs objects .closure v
  | .classRef =>
    match ← read (·.classBehind? v) with
    | some cls => return .classRef cls
    | none => if v.isNullish then return .nil else mismatch "class" v
  | .selector =>
    if v.isNullish then return .nil else return .selector ⟨← s.textOf v⟩
  | .scriptValue => return .script (.managed (← perform (.addManaged (some v))))
  | .pointer _ | .struct _ | .carray _ | .unknown =>
    .throw (.dispatch (.unsupportedSignature "argument" declared.text))

/-- The arguments of a call, each as its declared type. Each stays held once it is converted. -/
def arguments (s : Scope) (objects : ObjectReading) (declared : List Encoding) (vs : List Value) :
    Routine Fault (List NativeValue) :=
  (declared.zip vs).mapM fun (e, v) => do
    let converted ← s.argumentOf objects e v
    hold converted
    return converted

end Scope

end ScriptBridge
