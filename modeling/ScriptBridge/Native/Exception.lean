/-!
# Native exceptions

What native code raises: a name and a reason.
-/

namespace ScriptBridge

/-- An exception that native code raises. -/
structure NativeException where
  name : String
  reason : String
  deriving DecidableEq, Inhabited

namespace NativeException

def text (e : NativeException) : String := e.name ++ ": " ++ e.reason

/-- An argument of the wrong shape. -/
def invalidArgument (reason : String) : NativeException := ⟨"InvalidArgumentException", reason⟩

/-- What a panic of native code becomes. A payload that is no text has a reason of its own. -/
def ofPanic (payload : Option String) : NativeException :=
  ⟨"Panic", payload.getD "native code panicked"⟩

end NativeException

end ScriptBridge
