import ScriptBridge.Bridge.ToScript

/-!
# Calling native code

`runNative` runs a native body: what it raises, and what it panics with, is a native exception.
`send` finds the body of a selector in the class of an object first. While a body runs, its receiver
and its arguments are held.
-/

namespace ScriptBridge

namespace Scope

open Routine

/-- Runs a native body. -/
def runNative (body : Program.Body) (receiver : Receiver) (args : List NativeValue) :
    Routine Fault NativeValue :=
  enter (.perform body receiver args) fun
    | .ok (.ok v) => .pure v
    | .ok (.error e) => .throw (.error (.native e))
    | .error p => .throw (.error (.native (.ofPanic p.payload)))

/-- Runs the method of a selector on an object. -/
def send (h : Handle) (selector : Selector) (args : List NativeValue) : Routine Fault NativeValue :=
  match h.cls.instanceMethod? selector with
  | none => .throw (.dispatch (.missingImplementation h.cls.name selector))
  | some body => holding (.object h :: args) (runNative body (.object h) args)

/-- Fails unless the types of a method can cross the bridge. -/
def checkSignature (m : ExportedMethod) : Routine Fault Unit :=
  if m.signature.isMarshalable then return
  else .throw (.dispatch (.unsupportedSignature m.name m.signature.text))

/-- Fails unless the type of a property can cross the bridge. -/
def checkEncoding (p : PropertyDeclaration) : Routine Fault Unit :=
  if p.encoding.isMarshalable then return
  else .throw (.dispatch (.unsupportedSignature p.name p.encoding.text))

end Scope

end ScriptBridge
