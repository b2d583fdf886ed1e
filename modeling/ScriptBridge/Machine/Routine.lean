import ScriptBridge.Machine.Action

/-!
# Routines

A `Routine ε α` is a program over the actions of the machine that gives an `α` or throws an `ε`.
Bodies of functions, methods and closures run as a `Job` of their own, which a routine enters and
whose end it sees; what a job does is said elsewhere (`Job.routine`), so a routine is a finite tree.

A panic is not thrown: it passes every handler, up to the end of the job, and undoes what `ensuring`
brackets.

* `Routine.bind`, `attempt`, `mapError`, `ensuring`: how routines combine.
* `Routine.exec`: runs a routine, given how to run the jobs it enters.
* `Job.exec`: runs a job with a bound on how deep jobs may nest.
-/

namespace ScriptBridge

/-- A thrown script value. -/
structure Thrown where
  value : Value
  deriving Inhabited

/-- A panic of native code. -/
structure Panic where
  /-- The text of the payload, if it is a text. -/
  payload : Option String
  deriving Inhabited

/-- One call of a function. -/
structure Invocation where
  this : Value
  callee : Ref
  args : List Value
  construct : Bool
  deriving Inhabited

/-- The argument at an index; missing ones are undefined. -/
def Invocation.arg (i : Invocation) (index : Nat) : Value := i.args.getD index .undefined

/-- What a routine can enter. -/
inductive Job : Type → Type where
  /-- The behaviour of a function, in a context. -/
  | call (f : Callable) (context : Nat) (i : Invocation) : Job (Except Thrown Value)
  /-- A native body. -/
  | perform (body : Program.Body) (receiver : Receiver) (args : List NativeValue) :
    Job (Except NativeException NativeValue)
  /-- The factory of a class. It cannot raise anything: it makes an object or panics. -/
  | make (body : Program.Body) (cls : Class) : Job Handle
  /-- The body of a source, in a context. -/
  | evaluate (body : Program.Body) (context : Nat) : Job (Except Thrown Value)

/-- A computation as a tree of actions that ends in a result, a failure or a panic. -/
inductive Routine (ε α : Type) : Type 1 where
  | protected pure (a : α)
  | protected throw (e : ε)
  | protected panic (payload : Option String)
  | act {β : Type} (a : Action β) (next : β → Routine ε α)
  | enter {β : Type} (j : Job β) (next : Except Panic β → Routine ε α)

namespace Routine

variable {ε ε' α β : Type}

protected def bind : Routine ε α → (α → Routine ε β) → Routine ε β
  | .pure a, f => f a
  | .throw e, _ => .throw e
  | .panic payload, _ => .panic payload
  | act a next, f => act a fun b => (next b).bind f
  | enter j next, f => enter j fun r => (next r).bind f

instance : Monad (Routine ε) where
  pure := .pure
  bind := Routine.bind

/-- Changes what is thrown. -/
def mapError (f : ε → ε') : Routine ε α → Routine ε' α
  | .pure a => .pure a
  | .throw e => .throw (f e)
  | .panic payload => .panic payload
  | act a next => act a fun b => (next b).mapError f
  | enter j next => enter j fun r => (next r).mapError f

/-- Gives what is thrown as a value. -/
def attempt : Routine ε α → Routine ε' (Except ε α)
  | .pure a => .pure (.ok a)
  | .throw e => .pure (.error e)
  | .panic payload => .panic payload
  | act a next => act a fun b => (next b).attempt
  | enter j next => enter j fun r => (next r).attempt

/-- Runs an action at the end, however the routine ends; the action learns whether by a panic. -/
def ensuring (cleanup : Bool → Action Unit) : Routine ε α → Routine ε α
  | .pure a => act (cleanup false) fun _ => .pure a
  | .throw e => act (cleanup false) fun _ => .throw e
  | .panic payload => act (cleanup true) fun _ => .panic payload
  | act a next => act a fun b => (next b).ensuring cleanup
  | enter j next => enter j fun r => (next r).ensuring cleanup

/-- Performs an action. -/
def perform (a : Action β) : Routine ε β := act a .pure

/-- Looks at the machine. -/
def read (f : Machine → β) : Routine ε β := perform (.read f)

/-- Holds a native value in the innermost group. -/
def hold (v : NativeValue) : Routine ε Unit := perform (.hold v)

/-- Enters a job; a panic goes on. -/
def job (j : Job β) : Routine ε β :=
  enter j fun
    | .ok b => .pure b
    | .error p => .panic p.payload

/-- Gives a value, or throws. -/
def ofExcept : Except ε α → Routine ε α
  | .ok a => .pure a
  | .error e => .throw e

/-! ## Brackets -/

/-- Runs a routine in a new region of a context. -/
def inRegion (context : Nat) (r : Routine ε α) : Routine ε α :=
  act (.openRegion context) fun _ => r.ensuring .closeRegion

/-- Runs a routine as an active call. -/
def inCall (c : CallRecord) (f : Frame) (r : Routine ε α) : Routine ε α :=
  act (.beginCall c f) fun _ => r.ensuring fun _ => .endCall

/-- Runs a routine under a frame of its own. -/
def inFrame (f : Frame) (r : Routine ε α) : Routine ε α :=
  act (.pushFrame f) fun _ => r.ensuring fun _ => .popFrame

/-- Runs a routine with a group of native values to hold while it runs. -/
def holding (vs : List NativeValue) (r : Routine ε α) : Routine ε α :=
  act .openHold fun _ =>
    (vs.foldr (fun v rest => act (.hold v) fun _ => rest) r).ensuring fun _ => .closeHold

/-- Runs a routine while a context is kept. -/
def holdingContext (context : Nat) (r : Routine ε α) : Routine ε α :=
  act (.holdContext context) fun _ => r.ensuring fun _ => .releaseContext

end Routine

/-! ## Running -/

/-- How a run ends. Running out of depth is none of the ends of the routine itself. -/
inductive Outcome (ε α : Type) where
  | done (a : α)
  | thrown (e : ε)
  | panicked (p : Panic)
  | exhausted

/-- Runs a routine on a machine, given how to run jobs. -/
def Routine.exec {ε α : Type} (job : {β : Type} → Job β → Machine → Outcome Empty β × Machine) :
    Routine ε α → Machine → Outcome ε α × Machine
  | .pure a, m => (.done a, m)
  | .throw e, m => (.thrown e, m)
  | .panic payload, m => (.panicked ⟨payload⟩, m)
  | act a next, m =>
    let (b, m) := a.run m
    (next b).exec job m
  | enter j next, m =>
    match job j m with
    | (.done b, m) => (next (.ok b)).exec job m
    | (.panicked p, m) => (next (.error p)).exec job m
    | (.thrown e, _) => nomatch e
    | (.exhausted, m) => (.exhausted, m)

/-- Runs a job on a machine, given the routine of each job; jobs nest at most `depth` deep. -/
def Job.exec (routine : {β : Type} → Job β → Routine Empty β) :
    (depth : Nat) → {β : Type} → Job β → Machine → Outcome Empty β × Machine
  | 0, _, _, m => (.exhausted, m)
  | depth + 1, _, j, m => (routine j).exec (Job.exec routine depth) m

end ScriptBridge
