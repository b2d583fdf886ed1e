import ScriptBridge.Session.MachineStep

/-!
# Running steps, bodies and sessions

* `Session.runSteps` runs steps until one fails, `Session.recordSteps` runs all of them and shows what
  each gives.
* `Job.routine` says what every job does: what each kind of function, each native body and each
  evaluated source means.
* `Session.run` runs a whole session on a new machine.
-/

namespace ScriptBridge

open Routine
open Program

namespace Session

/-- The answer to a step that does not fit its place. -/
def misplacedAnswer : Answer := .record [("error", .text "BadRequest")]

/-- Shows what was thrown, for which there has to be a scope. -/
def showCaught (env : Env) (t : Thrown) : Routine Stop Answer :=
  match env.scope with
  | some s => showThrown s t
  | none => return misplacedAnswer

/-- Shows why a step stopped. -/
def showStop (env : Env) : Stop → Routine Stop Answer
  | .thrown t => showCaught env t
  | .error e => return .ofError e
  | .raised e => return .record [("raised", .ofNativeException e)]
  | .returned _ | .returnedNative _ | .misplaced => return misplacedAnswer

/-- Whether a step may fail without its steps around it learning of it: in the bodies of functions an
error is logged, and the body goes on. -/
def Env.logsErrors (env : Env) : Bool :=
  match env.role with
  | .host .. => true
  | _ => false

/-- Lets out what stops a step, except that errors are logged where `Env.logsErrors` says so. A native
exception stops the steps in either case. -/
def loggingErrors (env : Env) (r : Routine Stop Answer) : Routine Stop Answer := do
  if env.logsErrors then
    match ← r.attempt with
    | .ok a => return a
    | .error (.error e) =>
      pushLog (.ofError e)
      return .null
    | .error stop => .throw stop
  else r

/-- Runs a routine a number of times. -/
def times (r : Routine Stop Unit) : Nat → Routine Stop Unit
  | 0 => return
  | n + 1 => do
    r
    times r n

/-- Shows a result with what was logged meanwhile, if anything was. -/
def takeLog (a : Answer) : Routine Stop Answer := do
  match ← perform (.tables fun t => (t.log, { t with log := [] })) with
  | [] => return a
  | log => return .record [("result", a), ("log", .list log.reverse)]

mutual

/-- Runs a step. Steps inside an execution or a condition are recorded one by one if the step is; a
condition does not show them. -/
def runStep (env : Env) (record : Bool) (step : Step) : Routine Stop Answer :=
  loggingErrors env <|
    match step with
    | .value op dest => do
      let s ← env.inScope
      holding [] (valueStep env s op dest)
    | .script op dest => do
      let s ← env.inScope
      holding [] (scriptStep env s op dest)
    | .bridge op dest => do
      let s ← env.inScope
      holding [] (bridgeStep env s op dest)
    | .native op dest => holding [] (nativeStep env op dest)
    | .machine op dest => holding [] (machineStep env op dest)
    | .returnScript value => .throw (.returned value)
    | .returnNative value => .throw (.returnedNative value)
    | .execute ctx steps => do
      let id ← contextNamed ctx
      let inside : Env := { env with scope := some ⟨id⟩ }
      inRegion id (if record then .list <$> recordSteps inside steps [] else
        (do runSteps inside steps; return .ok))
    | .repeated n steps => do
      times (runSteps env steps) n
      return .record [("repeated", .count n)]
    | .attempt steps dest => do
      match ← (runSteps env steps).attempt with
      | .ok () => return .ok
      | .error (.thrown t) =>
        if let some name := dest then
          changeTables fun tables => { tables with scripts := tables.scripts.insert name t.value }
        return .record [("caught", ← showCaught env t)]
      | .error (.error e) => return .record [("caught", .ofError e)]
      | .error stop => .throw stop
    | .when value steps => do
      let s ← env.inScope
      if (← evaluate env s value).truth then
        if record then discard (recordSteps env steps []) else runSteps env steps
        return .ok
      else return .record [("skipped", .bool true)]
    | .function name body constructs dest => do
      let s ← env.inScope
      keepScript dest (← s.newFunction name (.host body constructs))
    | .setEvaluator programs => do
      perform (.setEvaluator programs)
      return .record [("installed", .bool true)]
    | .declareClass key name super protocols instanceMethods classMethods factory =>
      declareClass key name super protocols instanceMethods classMethods factory
    | .declareClosure key types body => declareClosure key types body

/-- Runs steps until one fails. -/
def runSteps (env : Env) (steps : List Step) : Routine Stop Unit := do
  match steps with
  | [] => return
  | step :: rest =>
    let _ ← runStep env false step
    runSteps env rest

/-- Runs every step and shows what it gives, after what earlier ones gave. -/
def recordSteps (env : Env) (steps : List Step) (shown : List Answer) :
    Routine Stop (List Answer) := do
  match steps with
  | [] => return shown.reverse
  | step :: rest =>
    let a ←
      match ← (runStep env true step).attempt with
      | .ok a => pure a
      | .error stop => showStop env stop
    let a ← takeLog a
    recordSteps env rest (a :: shown)

end

/-! ## Bodies -/

/-- The value that a body returns, or undefined. -/
def hostValue (body : Body) (env : Env) (s : Scope) : Routine Stop Value := do
  match ← (runSteps env body).attempt with
  | .ok () => return .undefined
  | .error (.returned e) => evaluate env s e
  | .error stop => .throw stop

/-- Runs the body of a function or of a source: its value is what it returns, or undefined, also where
a native exception ends it. -/
def hostBody (body : Body) (env : Env) (s : Scope) : Routine Empty (Except Thrown Value) := do
  match ← (hostValue body env s).attempt with
  | .ok v => return .ok v
  | .error (.thrown t) => return .error t
  | .error _ => return .ok .undefined

/-- What a native body that stopped raises. -/
def exceptionOf (env : Env) : Stop → Routine Empty NativeException
  | .thrown t => do
    match env.scope with
    | some s => return .ofError (.script (← s.capture t))
    | none => return .invalidArgument "misplaced step"
  | .error e => return .ofError e
  | .raised e => return e
  | .returned _ | .returnedNative _ | .misplaced => return .invalidArgument "misplaced step"

/-- The native value that a body returns, or nil. -/
def stepsValue (body : Body) (env : Env) : Routine Stop NativeValue := do
  match ← (runSteps env body).attempt with
  | .ok () => return .nil
  | .error (.returnedNative e) => evaluateNative env e
  | .error stop => .throw stop

/-- Runs a native body in an environment: its value is what it returns, or nil. -/
def nativeSteps (body : Body) (env : Env) : Routine Empty (Except NativeException NativeValue) := do
  match ← (stepsValue body env).attempt with
  | .ok v => return .ok v
  | .error stop => return .error (← exceptionOf env stop)

/-- Runs a native body in a new region of the current context, if there is one. -/
def nativeBody (body : Body) (receiver : Receiver) (args : List NativeValue) :
    Routine Empty (Except NativeException NativeValue) := do
  let role := Role.native receiver args
  match ← read (·.current?) with
  | some context => inRegion context (nativeSteps body ⟨role, some ⟨context⟩⟩)
  | none => nativeSteps body ⟨role, none⟩

/-- Runs the factory of a class: it makes the object that its body returns, or else a new one without
cells. -/
def factoryBody (body : Body) (cls : Class) : Routine Empty Handle := do
  match ← nativeBody body (.classRef cls) [] with
  | .ok (.object h) => return h
  | _ => return ⟨← perform (.addNative ⟨cls, []⟩), cls⟩

end Session

/-- What a function does. -/
def Callable.routine (f : Callable) (s : Scope) (i : Invocation) :
    Routine Empty (Except Thrown Value) :=
  match f with
  | .builtin b => (s.construction b i).attempt
  | .host body _ =>
    Session.hostBody body ⟨.host i.this (.object i.callee) i.args i.construct, some s⟩ s
  | .method m cls => (s.raising (s.methodCall m cls i)).attempt
  | .classMethod m cls => (s.raising (s.classMethodCall m cls i)).attempt
  | .constructor cls table => (s.raising (s.constructorCall cls table i)).attempt
  | .closure c => (s.raising (s.closureCall c i)).attempt

/-- What a job does. -/
def Job.routine : {β : Type} → Job β → Routine Empty β
  | _, .call f context i => f.routine ⟨context⟩ i
  | _, .perform body receiver args => Session.nativeBody body receiver args
  | _, .make body cls => Session.factoryBody body cls
  | _, .evaluate body context =>
    Session.hostBody body ⟨.host .undefined .undefined [] false, some ⟨context⟩⟩ ⟨context⟩

namespace Session

/-- How deep jobs may nest. Calls and evaluations are bounded by the options long before; what is left
are native bodies that call each other without end. -/
def maxDepth : Nat := 1000000

/-- Runs a session and shows what each step gives. Options that are refused are the whole answer. -/
def run (changes : OptionChanges) (steps : List Step) : Answer :=
  match (({} : Options).change changes).validate with
  | .error e => .ofConfigError e
  | .ok options =>
    match (recordSteps {} steps []).exec (Job.exec Job.routine maxDepth) { options } with
    | (.done answers, _) => .list answers
    | (.panicked _, _) | (.exhausted, _) => .record [("error", .text "Crash")]
    | (.thrown _, _) => misplacedAnswer

end Session

end ScriptBridge
