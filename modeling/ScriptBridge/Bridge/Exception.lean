import ScriptBridge.Bridge.Failure
import ScriptBridge.Scope.Coerce
import ScriptBridge.Text.Lines

/-!
# Exceptions across the bridge

A bridge operation ends in a `Fault`: something thrown, or a failure of the bridge itself.

* `Scope.capture` describes what was thrown as a `BridgeException`.
* `Scope.raise` turns a fault into something thrown, on the way into a script.
* `Scope.settle` turns it into an error of the caller, on the way out to native code, or reports it
  and goes on with an empty value, as the options say.
-/

namespace ScriptBridge

/-- How a bridge operation fails before its failure is settled. -/
inductive Fault where
  | thrown (t : Thrown)
  | error (e : BridgeError)

namespace Fault

def conversion (e : ConversionError) : Fault := error (.conversion e)

def dispatch (e : DispatchError) : Fault := error (.dispatch e)

end Fault

/-- What scripts throw, a bridge operation throws on. -/
instance : MonadLift (Routine Thrown) (Routine Fault) where
  monadLift r := r.mapError .thrown

namespace Scope

open Routine

variable {ε : Type}

/-- The text of a property of an error; empty when it is undefined or cannot be read. -/
def exceptionField (s : Scope) (r : Ref) (key : String) : Routine ε String := do
  match ← (s.getOrdinary r (.object r) key).attempt with
  | .ok .undefined | .error _ => return ""
  | .ok v => s.textOf v

/-- The exception with a name and a message that was thrown with some frames. The innermost frame
of a script tells the place. -/
def exceptionAt (m : Machine) (name message : String) (frames : Trace)
    (native : Option NativeException) : BridgeException :=
  let place := Trace.scriptFrame? frames
  let resource := place.bind (·.script)
  let line := (place.map (·.line)).getD 0
  let column := (place.map (·.column)).getD 0
  { name, message, resource, line, native, frames
    startColumn := column
    endColumn := if line = 0 then 0 else (column + 1) % 0x100000000
    sourceLine := do
      let source ← m.sources.get? (← resource)
      if line = 0 then none else (Text.lines source)[line - 1]? }

/-- What was thrown, as native code sees it. An error shows its own name, message and frames;
another value shows its text and the current frames. -/
def capture (s : Scope) (t : Thrown) : Routine ε BridgeException := do
  match t.value, ← read (·.payload? t.value) with
  | .object r, some (.error frames native) =>
    let name ← s.exceptionField r "name"
    let message ← s.exceptionField r "message"
    read fun m => exceptionAt m name message frames native
  | v, _ =>
    let message ← s.textOf v
    read fun m => exceptionAt m "" message m.frames.items none

/-- The kind of error that a name stands for. -/
def kindOfName : String → Program.ErrorKind
  | "TypeError" => .typeError
  | "RangeError" => .rangeError
  | _ => .error

/-- What a fault throws into a script. A native exception becomes an error that remembers it. -/
def raise (s : Scope) : Fault → Routine ε Thrown
  | .thrown t => return t
  | .error (.native e) => return ⟨← s.newNativeError e⟩
  | .error (.script e) =>
    match e.native with
    | some cause => return ⟨← s.newNativeError cause⟩
    | none => return ⟨← s.newError (kindOfName e.name) e.message⟩
  | .error e => return ⟨← s.newError .typeError e.message⟩

/-- Runs a bridge operation for a script. -/
def raising {α : Type} (s : Scope) (r : Routine Fault α) : Routine Thrown α := do
  match ← r.attempt with
  | .ok a => return a
  | .error fault => .throw (← s.raise fault)

/-- Takes note of an exception. -/
def report (e : BridgeException) : Routine ε Unit :=
  perform (.tables fun t =>
    ((), { t with reports := t.reports + 1, reportTexts := e.text :: t.reportTexts }))

/-- Runs a bridge operation for native code. What scripts throw becomes an error, or is reported with
an empty value in place of the result. -/
def settle {α : Type} (s : Scope) (empty : α) (r : Routine Fault α) : Routine BridgeError α := do
  match ← r.attempt with
  | .ok a => return a
  | .error (.error e) => .throw e
  | .error (.thrown t) =>
    let e ← s.capture t
    match ← read (·.options.strategy) with
    | .rethrow => .throw (.script e)
    | .report =>
      report e
      return empty

end Scope

end ScriptBridge
