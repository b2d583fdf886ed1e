/-!
# Stack frames

A `Frame` describes an active call or an evaluation of source text; a trace is a list of frames,
innermost first.
-/

namespace ScriptBridge

/-- Lines and columns count from one; zero means unknown. -/
structure Frame where
  line : Nat := 0
  column : Nat := 0
  script : Option String := none
  url : Option String := none
  function : String := ""
  construct : Bool := false
  evaluated : Bool := false
  deriving DecidableEq, Inhabited

namespace Frame

/-- The frame of source text that is evaluated under a resource name. -/
def ofResource (resource : String) : Frame where
  line := 1
  column := 1
  script := some resource
  url := some resource
  evaluated := true

/-- The frame of a call; `construct` says that it is made by `new`. -/
def ofFunction (name : String) (construct : Bool) : Frame where
  function := name
  construct := construct

/-- The name of the function and the place in the script, or `native` where there is none. -/
def text (f : Frame) : String :=
  let name := if f.function = "" then "<anonymous>" else f.function
  let place :=
    match f.script with
    | some script => script ++ ":" ++ toString f.line ++ ":" ++ toString f.column
    | none => "native"
  (if f.construct then "new " else "") ++ name ++ " (" ++ place ++ ")"

end Frame

/-- Frames, innermost first. -/
abbrev Trace := List Frame

namespace Trace

/-- One line per frame. -/
def text (t : Trace) : String := String.join (t.map fun f => "    at " ++ f.text ++ "\n")

/-- The innermost frame that belongs to a script. -/
def scriptFrame? (t : Trace) : Option Frame := t.find? (·.script.isSome)

end Trace

end ScriptBridge
