import ScriptBridge.Scope.Assign

/-!
# Evaluating source text

Source text means what the installed evaluator knows under it: a body, or nothing, which gives
undefined. Each evaluation has a frame of its own, and its source stays known under its resource.
-/

namespace ScriptBridge

namespace Scope

open Routine

/-- Runs the program that the evaluator has for a source text. -/
def evaluate (s : Scope) (source resource : String) : Routine Thrown Value := do
  match ← read (·.evaluator) with
  | none => s.throwNew .error "No script evaluator installed"
  | some programs =>
    if ← read fun m => decide (m.options.maxCallDepth ≤ m.frames.height) then
      s.throwRange "Maximum call stack size exceeded"
    else
      perform (.addSource resource source)
      inFrame (.ofResource resource) do
        let result ←
          match programs.get? source with
          | some body => job (.evaluate body s.context)
          | none => pure (.ok .undefined)
        track (endValue result)
        ofExcept result

end Scope

end ScriptBridge
