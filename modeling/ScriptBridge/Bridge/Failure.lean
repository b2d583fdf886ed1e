import ScriptBridge.Declare.Export
import ScriptBridge.Native.Exception
import ScriptBridge.Options.Basic
import ScriptBridge.Script.Frame

/-!
# Failures of the bridge

What can go wrong between scripts and native code, by cause, with the texts that callers see. A
`BridgeException` is a script exception as native code sees it.
-/

namespace ScriptBridge

/-- Why a value cannot cross the bridge. -/
inductive ConversionError where
  | notAnObject (target found : String)
  | depthExceeded (limit : Nat)
  | lengthExceeded (length limit : Nat)
  | buffersDisabled
  | foreignToken
  | mismatch (expected found : String)

namespace ConversionError

def message : ConversionError → String
  | notAnObject target found => "Cannot convert " ++ found ++ " to " ++ target
  | depthExceeded limit => "Maximum conversion depth of " ++ toString limit ++ " exceeded"
  | lengthExceeded length limit =>
    "Array length " ++ toString length ++ " exceeds the maximum of " ++ toString limit
  | buffersDisabled => "Byte buffer conversion is disabled"
  | foreignToken => "Script token does not hold a script value"
  | mismatch expected found => "Expected " ++ expected ++ ", got " ++ found

def kind : ConversionError → String
  | notAnObject .. => "NotAnObject"
  | depthExceeded _ => "DepthExceeded"
  | lengthExceeded .. => "LengthExceeded"
  | buffersDisabled => "TypedArraysDisabled"
  | foreignToken => "ForeignToken"
  | mismatch .. => "Mismatch"

end ConversionError

/-- Why a call does not reach native code. -/
inductive DispatchError where
  | arityMismatch (name : String) (expected got : Nat)
  | missingImplementation (className : String) (selector : Selector)
  | noInitializer (className : String) (arity : Nat)
  | initializerFailed (className selector : String)
  | unsupportedSignature (name signature : String)
  | ambiguousRename (clash : NameClash)
  | invalidReceiver (selector : Selector)
  | constructorWithoutNew (className : String)

namespace DispatchError

def message : DispatchError → String
  | arityMismatch name expected got =>
    name ++ " expects " ++ toString expected ++ " arguments but got " ++ toString got
  | missingImplementation className selector =>
    className ++ " does not implement " ++ selector.name
  | noInitializer className arity =>
    className ++ " has no initializer taking " ++ toString arity ++ " arguments"
  | initializerFailed className selector =>
    "Initializer " ++ selector ++ " of " ++ className ++ " returned no object"
  | unsupportedSignature name signature => name ++ " has an unsupported signature " ++ signature
  | ambiguousRename clash => clash.message
  | invalidReceiver selector => selector.name ++ " called on an incompatible receiver"
  | constructorWithoutNew className =>
    "Class constructor " ++ className ++ " cannot be invoked without 'new'"

def kind : DispatchError → String
  | arityMismatch .. => "ArityMismatch"
  | missingImplementation .. => "MissingImplementation"
  | noInitializer .. => "NoInitializer"
  | initializerFailed .. => "InitializerFailed"
  | unsupportedSignature .. => "UnsupportedSignature"
  | ambiguousRename _ => "AmbiguousRename"
  | invalidReceiver _ => "InvalidReceiver"
  | constructorWithoutNew _ => "ConstructorWithoutNew"

end DispatchError

/-- A script exception as native code sees it: what was thrown, where, and the native exception it
started as, if any. Line and columns are zero when the place is unknown. -/
structure BridgeException where
  name : String
  message : String
  resource : Option String
  line : Nat
  startColumn : Nat
  endColumn : Nat
  sourceLine : Option String
  native : Option NativeException
  frames : Trace
  deriving Inhabited

namespace BridgeException

/-- Place, name and message, as far as they are known. -/
def text (e : BridgeException) : String :=
  let place :=
    match e.resource with
    | some resource =>
      resource ++ ":" ++ toString e.line ++ ":" ++ toString e.startColumn ++ ": "
    | none => ""
  place ++
    (if e.name = "" then e.message
    else if e.message = "" then e.name
    else e.name ++ ": " ++ e.message)

end BridgeException

/-- Any failure of an operation that native code calls. -/
inductive BridgeError where
  | conversion (e : ConversionError)
  | dispatch (e : DispatchError)
  | script (e : BridgeException)
  | native (e : NativeException)
  | alreadyRunning
  | config (e : ConfigError)

namespace BridgeError

def message : BridgeError → String
  | conversion e => e.message
  | dispatch e => e.message
  | script e => e.text
  | native e => e.text
  | alreadyRunning => "A virtual machine is already running on this thread"
  | config e => e.message

end BridgeError

/-- A failure that reaches native code as an exception. A script exception that started as a native
one ends as that one. -/
def NativeException.ofError : BridgeError → NativeException
  | .native e => e
  | .script e =>
    match e.native with
    | some cause => cause
    | none => if e.name = "" then ⟨"ScriptException", e.message⟩ else ⟨e.name, e.message⟩
  | e => ⟨"BridgeError", e.message⟩

end ScriptBridge
