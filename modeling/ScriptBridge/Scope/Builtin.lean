import ScriptBridge.Calendar.Reader
import ScriptBridge.Scope.Write

/-!
# Built-in constructors

`Scope.construction` is what each built-in constructor makes of its arguments, with or without `new`.
`newContext` makes a context: the prototypes, the global object and the constructors on it.
-/

namespace ScriptBridge

open Routine

namespace Scope

/-- The time value of an optional count of milliseconds. -/
def timeValue (millis : Option Int) : Double := millis.elim .nan .ofInt

/-- The number in a field, or a default when the field is left out. -/
def fieldOr (s : Scope) (fields : List Value) (i default : Nat) : Routine Thrown Double :=
  match fields[i]? with
  | some v => s.numberOf v
  | none => return .ofNat default

/-- The time value of date fields: year, month and, where there are more, day, hours, minutes, seconds
and milliseconds. Every field is read, and one that is not finite makes the date invalid. -/
def fieldsTime (s : Scope) (fields : List Value) : Routine Thrown Double := do
  let year ← s.numberOf (fields.headD .undefined)
  let month ← s.fieldOr fields 1 0
  let day ← s.fieldOr fields 2 1
  let hour ← s.fieldOr fields 3 0
  let minute ← s.fieldOr fields 4 0
  let second ← s.fieldOr fields 5 0
  let millis ← s.fieldOr fields 6 0
  let parts := [year, month, day, hour, minute, second, millis]
  if !parts.all Double.isFinite then return .nan
  else
    match parts.map Double.int64 with
    | [year, month, day, hour, minute, second, millis] =>
      return timeValue (Calendar.millisOfFields? year month day hour minute second millis)
    | _ => return .nan

/-- The time value of the arguments of `Date`: now, a text, a number, or fields. -/
def dateTime (s : Scope) (args : List Value) : Routine Thrown Double := do
  match args with
  | [] => return .ofInt (← read (·.now))
  | [.text t] => return timeValue (Calendar.millisOf? t)
  | [v] => s.numberOf v
  | fields => s.fieldsTime fields

/-- The text of an argument, or a default when it is undefined. -/
def textOr (s : Scope) (default : String) (v : Value) : Routine Thrown String := do
  if v.isUndefined then return default else s.textOf v

/-- The length of a byte buffer: the whole part of a number that is not below zero. -/
def bufferLength? (x : Double) : Option Nat :=
  if x.isNaN then some 0
  else if x.isBelowZero then none
  else
    let length := (x.clampTo 0 0xffffffffffffffff).toNat
    if length ≤ maxArrayLength then some length else none

/-- What a built-in constructor makes of its arguments. -/
def construction (s : Scope) (b : Builtin) (i : Invocation) : Routine Thrown Value := do
  match b with
  | .object => if (i.arg 0).isObject then return i.arg 0 else s.newObject
  | .array =>
    match i.args with
    | [.number x] =>
      match arrayLength? x with
      | some length => s.newArray (Array.replicate length .undefined)
      | none => s.throwRange "Invalid array length"
    | items => s.newArray items.toArray
  | .error kind => s.newError kind (← s.textOr "" (i.arg 0))
  | .date => s.newDate (← s.dateTime i.args) 0
  | .regexp =>
    let pattern ← s.textOr "(?:)" (i.arg 0)
    let flags ← s.textOr "" (i.arg 1)
    s.newRegexp pattern flags
  | .buffer =>
    match bufferLength? (← s.numberOf (i.arg 0)) with
    | some length => s.newBuffer ⟨Array.replicate length 0⟩
    | none => s.throwRange "Array buffer allocation failed"

end Scope

variable {ε : Type}

/-- A new object without properties. -/
def newOrdinary (prototype : Option Ref) : Routine ε Ref :=
  perform (.allocate ⟨.ordinary, [], prototype⟩)

/-- The built-in constructors with their prototypes. -/
def builtins (i : Intrinsics) : List (Builtin × Ref) :=
  [(.object, i.object), (.array, i.array), (.error .error, i.error),
    (.error .typeError, i.typeError), (.error .rangeError, i.rangeError), (.date, i.date),
    (.regexp, i.regexp), (.buffer, i.buffer)]

/-- Makes a constructor, known to its prototype and on the global object. -/
def installBuiltin (context : Nat) (i : Intrinsics) (global : Ref) (b : Builtin) (prototype : Ref) :
    Routine ε Unit := do
  let ctor ← perform (.allocate ⟨.function ⟨b.name, .builtin b, context⟩,
    [("prototype", .fixed (.object prototype))], some i.function⟩)
  perform (.edit prototype (.define "constructor" (.hidden (.object ctor))))
  perform (.edit global (.define b.name (.hidden (.object ctor))))

/-- Makes a context and gives its number. -/
def newContext : Routine ε Nat := do
  let context ← read (·.contexts.size)
  let object ← newOrdinary none
  let function ← newOrdinary (some object)
  let array ← newOrdinary (some object)
  let error ← newOrdinary (some object)
  let typeError ← newOrdinary (some error)
  let rangeError ← newOrdinary (some error)
  let date ← newOrdinary (some object)
  let regexp ← newOrdinary (some object)
  let buffer ← newOrdinary (some object)
  let global ← newOrdinary (some object)
  let intrinsics : Intrinsics :=
    { object, function, array, error, typeError, rangeError, date, regexp, buffer }
  [Program.ErrorKind.error, .typeError, .rangeError].forM fun kind => do
    let prototype := intrinsics.ofError kind
    perform (.edit prototype (.define "name" (.hidden (.text kind.name))))
    perform (.edit prototype (.define "message" (.hidden (.text ""))))
  (builtins intrinsics).forM fun (b, prototype) => installBuiltin context intrinsics global b prototype
  perform (.edit global (.define "globalThis" (.hidden (.object global))))
  perform (.addContext { global, intrinsics })

end ScriptBridge
