import ScriptBridge.Script.Chain
import ScriptBridge.Scope.Basic

/-!
# Calls

`Scope.invoke` is how every function runs: as an active call, in a region of the function's own context
while that lives, and never deeper than the options allow. Whatever the function gives or throws is
handed to the caller's region.

`Scope.getOrdinary` reads a property along the chain, calling a getter that it finds.
-/

namespace ScriptBridge

/-- The value of a call's end. -/
def endValue : Except Thrown Value → Value
  | .ok v => v
  | .error t => t.value

namespace Scope

open Routine

/-- Runs a function in a frame of its own, unless too many calls are open already. -/
def invoke (s : Scope) (callee : Ref) (f : FunctionData) (this : Value) (args : List Value)
    (construct : Bool) : Routine Thrown Value := do
  if ← read fun m => decide (m.options.maxCallDepth ≤ m.calls.height) then
    s.throwRange "Maximum call stack size exceeded"
  else
    let context := if ← read (·.contextAlive f.context) then f.context else s.context
    inCall ⟨this, callee, args⟩ (.ofFunction f.name construct) do
      let result ← inRegion context
        (job (.call f.callable context ⟨this, callee, args, construct⟩))
      track (endValue result)
      ofExcept result

/-- `this` of the innermost active call. -/
def currentThis {ε : Type} : Routine ε Value := do
  let this := ((← read (·.calls.top?)).map CallRecord.this).getD .undefined
  track this
  return this

/-- The function of the innermost active call. -/
def currentCallee {ε : Type} : Routine ε (Option Value) := do
  match ← read (·.calls.top?) with
  | some c =>
    track (.object c.callee)
    return some (.object c.callee)
  | none => return none

/-- The arguments of the innermost active call. -/
def currentArguments {ε : Type} : Routine ε (List Value) := do
  let args := ((← read (·.calls.top?)).map CallRecord.args).getD []
  args.forM track
  return args

/-- Calls an accessor function. One that was freed is undefined, and no function any more. -/
def callAccessor (s : Scope) (r : Ref) (this : Value) (args : List Value) : Routine Thrown Value := do
  match ← read (·.function? (.object r)) with
  | some (callee, f) => s.invoke callee f this args false
  | none => s.throwType "undefined is not a function"

/-- Reads a property of an object along its chain, on behalf of a receiver. -/
def getOrdinary (s : Scope) (holder : Ref) (receiver : Value) (key : String) :
    Routine Thrown Value := do
  match ← read fun m => m.heap.lookup holder key with
  | .value v =>
    track v
    return v
  | .getter (some f) => s.callAccessor f receiver []
  | .getter none | .nothing => return .undefined

end Scope

end ScriptBridge
