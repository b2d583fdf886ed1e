import ScriptBridge.Bridge.ToNative

/-!
# Script calls into native code

What the functions of the bridge do when scripts call them. An exported method checks, in this order,
the number of arguments, its signature, its receiver and that it is implemented; then it converts the
arguments, runs the native body and converts the result. Whatever fails is thrown into the script.
-/

namespace ScriptBridge

namespace Scope

open Routine

/-- Bridged functions take exactly their declared number of arguments. -/
def checkArity (name : String) (expected got : Nat) : Routine Fault Unit :=
  if expected = got then return else .throw (.dispatch (.arityMismatch name expected got))

/-- The object that an instance method of a class is called on; none when it was released. -/
def instanceReceiver (m : ExportedMethod) (cls : Class) (this : Value) :
    Routine Fault (Option Handle) := do
  match ← read (·.wrapperState this) with
  | .released _ => return none
  | .live h =>
    if h.cls.isSubclassOf cls then return some h else .throw (.dispatch (.invalidReceiver m.selector))
  | .notWrapper => .throw (.dispatch (.invalidReceiver m.selector))

/-- The class that a class method of a class is called on: a subclass if `this` is its constructor. -/
def classReceiver (s : Scope) (cls : Class) (this : Value) : Routine Fault Class := do
  match ← read (·.classOfConstructor? s this) with
  | some c => return if c.isSubclassOf cls then c else cls
  | none => return cls

/-- Fails unless there is a body. -/
def implemented (cls : Class) (selector : Selector) :
    Option Program.Body → Routine Fault Program.Body
  | some body => return body
  | none => .throw (.dispatch (.missingImplementation cls.name selector))

/-- Converts the arguments of a call, runs a native body and converts its result. -/
def dispatch (s : Scope) (signature : Signature) (body : Program.Body) (receiver : Receiver)
    (args : List Value) : Routine Fault Value := do
  let converted ← s.arguments s.objectReading signature.args args
  let result ← runNative body receiver converted
  hold result
  s.resultOf signature.result result

/-- A call of an exported instance method. Arity and types are checked before the receiver. -/
def methodCall (s : Scope) (m : ExportedMethod) (cls : Class) (i : Invocation) :
    Routine Fault Value := do
  checkArity m.name m.signature.arity i.args.length
  checkSignature m
  match ← instanceReceiver m cls i.this with
  | none => return .undefined
  | some h =>
    let body ← implemented h.cls m.selector (h.cls.instanceMethod? m.selector)
    holding [.object h] (s.dispatch m.signature body (.object h) i.args)

/-- A call of an exported class method, on the class that `this` stands for. -/
def classMethodCall (s : Scope) (m : ExportedMethod) (cls : Class) (i : Invocation) :
    Routine Fault Value := do
  checkArity m.name m.signature.arity i.args.length
  checkSignature m
  let receiver ← s.classReceiver cls i.this
  let body ← implemented receiver m.selector (receiver.classMethod? m.selector)
  holding [] (s.dispatch m.signature body (.classRef receiver) i.args)

/-- A call of the function that stands for a native closure. -/
def closureCall (s : Scope) (c : Closure) (i : Invocation) : Routine Fault Value := do
  checkArity "closure" c.signature.arity i.args.length
  holding [] (s.dispatch c.signature c.body .nothing i.args)

/-- An object that the class makes by itself, if it can. A panic of its factory goes on. -/
def instantiate (cls : Class) : Routine Fault (Option Handle) := do
  match cls.factory with
  | some body => return some (← job (.make body cls))
  | none => return none

/-- The object that a class made by itself, for so many arguments, if it made one. -/
def selfMade (cls : Class) (arity : Nat) (made : Option Handle) : Routine Fault NativeValue :=
  match made with
  | some h => return .object h
  | none => .throw (.dispatch (.noInitializer cls.name arity))

/-- What a constructor makes of its arguments: the initializer for their number decides, or the class
itself where there are neither arguments nor such an initializer. -/
def newInstance (s : Scope) (cls : Class) (table : ExportTable) (args : List Value) :
    Routine Fault NativeValue := do
  match table.initializer? args.length with
  | some m =>
    checkSignature m
    let body ← implemented cls m.selector (cls.classMethod? m.selector)
    let converted ← s.arguments s.objectReading m.signature.args args
    runNative body (.classRef cls) converted
  | none => selfMade cls args.length (← if args.isEmpty then instantiate cls else pure none)

/-- A call of the constructor of a bridged class, which applies only with `new`. -/
def constructorCall (s : Scope) (cls : Class) (table : ExportTable) (i : Invocation) :
    Routine Fault Value := do
  if !i.construct then .throw (.dispatch (.constructorWithoutNew cls.name))
  else
    match ← holding [] (s.newInstance cls table i.args) with
    | .object h => s.wrapperFor h
    | _ =>
      let selector := (table.initializer? i.args.length).elim "new" (·.selector.name)
      .throw (.dispatch (.initializerFailed cls.name selector))

end Scope

end ScriptBridge
