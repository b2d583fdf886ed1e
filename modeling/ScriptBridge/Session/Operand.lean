import ScriptBridge.Session.Show

/-!
# Operands

What the operands of steps denote. Script operands allocate in the scope of the step; native operands
that are made for a step are held while the step runs.
-/

namespace ScriptBridge

open Routine
open Program

namespace Session

/-- Whose steps run: the session's own, those of a function that scripts call, or those of a native
body. -/
inductive Role where
  | session
  | host (this callee : Value) (args : List Value) (construct : Bool)
  | native (receiver : Receiver) (args : List NativeValue)
  deriving Inhabited

/-- Where steps run. Outside every region there is no scope. -/
structure Env where
  role : Role := .session
  scope : Option Scope := none
  deriving Inhabited

/-- Why steps stop: a failure, or a body that ends with an operand. -/
inductive Stop where
  | thrown (t : Thrown)
  | error (e : BridgeError)
  | raised (e : NativeException)
  | returned (v : Operand)
  | returnedNative (v : NativeOperand)
  /-- A step that does not fit its place: it needs a scope, or names what is not there. -/
  | misplaced

instance : MonadLift (Routine Thrown) (Routine Stop) where
  monadLift r := r.mapError .thrown

instance : MonadLift (Routine BridgeError) (Routine Stop) where
  monadLift r := r.mapError .error

/-- The scope of a step; steps without one are misplaced. -/
def Env.inScope (env : Env) : Routine Stop Scope :=
  match env.scope with
  | some s => return s
  | none => .throw .misplaced

/-- Something that a step names. -/
def found {α : Type} : Option α → Routine Stop α
  | some a => return a
  | none => .throw .misplaced

/-- Looks at the tables of the session. -/
def readTable {ε α : Type} (f : Tables → α) : Routine ε α := read fun m => f m.tables

/-- Changes the tables of the session. -/
def changeTables {ε : Type} (f : Tables → Tables) : Routine ε Unit :=
  perform (.tables fun t => ((), f t))

/-- Ends the step with the exception, if there is one. -/
def raiseStop {α : Type} : Except NativeException α → Routine Stop α
  | .ok a => return a
  | .error e => .throw (.raised e)

/-! ## Script operands -/

mutual

/-- The script value of an operand. -/
def evaluate (env : Env) (s : Scope) (e : Operand) : Routine Stop Value := do
  match e with
  | .undefined => return .undefined
  | .null => return .null
  | .bool b => return .bool b
  | .number x => return .number x
  | .text t => return .text t
  | .array items => s.newArray (← evaluateItems env s items #[])
  | .object entries =>
    let v ← s.newObject
    evaluateEntries env s v entries
    return v
  | .register name => return (← readTable (·.scripts.get? name)).getD .undefined
  | .global => s.global
  | .this =>
    match env.role with
    | .host this _ _ _ => return this
    | _ => return .undefined
  | .arg i =>
    match env.role with
    | .host _ _ args _ => return args.getD i .undefined
    | _ => return .undefined
  | .callee =>
    match env.role with
    | .host _ callee _ _ => return callee
    | _ => return .undefined
  | .isNew =>
    match env.role with
    | .host _ _ _ construct => return .bool construct
    | _ => return .undefined

def evaluateItems (env : Env) (s : Scope) (es : List Operand) (done : Array Value) :
    Routine Stop (Array Value) := do
  match es with
  | [] => return done
  | e :: rest =>
    let v ← evaluate env s e
    evaluateItems env s rest (done.push v)

/-- Assigns the entries of a new object, each after its value. -/
def evaluateEntries (env : Env) (s : Scope) (target : Value) (entries : List (String × Operand)) :
    Routine Stop Unit := do
  match entries with
  | [] => return
  | (key, e) :: rest =>
    let v ← evaluate env s e
    s.set target key v
    evaluateEntries env s target rest

end

/-! ## Native operands -/

/-- The class that an operand names. -/
def classNamed (env : Env) : ClassName → Routine Stop Class
  | .key name => do found (← readTable (·.classes.get? name))
  | .ofReceiver =>
    match env.role with
    | .native receiver _ => found receiver.class?
    | _ => .throw .misplaced

/-- The arguments of a native body. -/
def Env.nativeArgs (env : Env) : List NativeValue :=
  match env.role with
  | .native _ args => args
  | _ => []

/-- The object that a native body is called on. -/
def Env.receiver? (env : Env) : Option Handle :=
  match env.role with
  | .native (.object h) _ => some h
  | _ => none

/-- The value of a cell, nil when it is not set. -/
def cellValue (m : Machine) (serial : Nat) (cell : String) : NativeValue :=
  ((m.native? serial).bind fun o => Named.get? o.cells cell).getD .nil

/-- A new native object, held from now on. -/
def create (cls : Class) (cells : List (String × NativeValue)) : Routine Stop NativeValue := do
  let h : Handle := ⟨← perform (.addNative ⟨cls, cells⟩), cls⟩
  hold (.object h)
  return .object h

mutual

/-- The native value of an operand. -/
def evaluateNative (env : Env) (e : NativeOperand) : Routine Stop NativeValue := do
  match e with
  | .nil => return .nil
  | .null => return .null
  | .bool b => return .bool b
  | .number x => return .number x
  | .text t => return .text t
  | .array items => return .array (← evaluateNatives env items [])
  | .dictionary entries => return .dictionary (← evaluatePairs env entries [])
  | .date seconds nanos => return .date ⟨seconds, nanos⟩
  | .data bytes => return .data bytes
  | .closure key => return .closure (← found (← readTable (·.closures.get? key)))
  | .classRef name => return .classRef (← classNamed env name)
  | .selector name => return .selector ⟨name⟩
  | .create name cells =>
    let cls ← classNamed env name
    create cls (← evaluateCells env cells [])
  | .instantiate key =>
    let cls ← classNamed env (.key key)
    match cls.factory with
    | some body =>
      let h ← job (.make body cls)
      hold (.object h)
      return .object h
    | none => return .nil
  | .token value =>
    let s ← env.inScope
    let v ← evaluate env s value
    let token := NativeValue.script (.managed (← perform (.addManaged (some v))))
    hold token
    return token
  | .foreign => return .script (.foreign (← perform (.addManaged none)))
  | .register name => return (← readTable (·.natives.get? name)).getD .nil
  | .arg i => return env.nativeArgs.getD i .nil
  | .argCount => return .number (.ofNat env.nativeArgs.length)
  | .extract i shape => raiseStop (NativeValue.argument env.nativeArgs i shape)
  | .receiver => return env.receiver?.elim .nil .object
  | .cell name =>
    match env.receiver? with
    | some h => read (cellValue · h.serial name)
    | none => return .nil
  | .add a b =>
    let x ← evaluateNative env a
    let y ← evaluateNative env b
    return .number (x.numberOrZero.add y.numberOrZero)
  | .mul a b =>
    let x ← evaluateNative env a
    let y ← evaluateNative env b
    return .number (x.numberOrZero.mul y.numberOrZero)

def evaluateNatives (env : Env) (es : List NativeOperand) (done : List NativeValue) :
    Routine Stop (List NativeValue) := do
  match es with
  | [] => return done.reverse
  | e :: rest =>
    let v ← evaluateNative env e
    evaluateNatives env rest (v :: done)

def evaluatePairs (env : Env) (es : List (NativeOperand × NativeOperand))
    (done : List (NativeValue × NativeValue)) : Routine Stop (List (NativeValue × NativeValue)) := do
  match es with
  | [] => return done.reverse
  | (k, e) :: rest =>
    let key ← evaluateNative env k
    let v ← evaluateNative env e
    evaluatePairs env rest ((key, v) :: done)

/-- The cells of a new object; of two with one name the later counts. -/
def evaluateCells (env : Env) (es : List (String × NativeOperand))
    (done : List (String × NativeValue)) : Routine Stop (List (String × NativeValue)) := do
  match es with
  | [] => return done
  | (name, e) :: rest =>
    let v ← evaluateNative env e
    evaluateCells env rest (Named.insert done name v)

end

/-- A native operand of a step, held while the step runs. -/
def operand (env : Env) (e : NativeOperand) : Routine Stop NativeValue := do
  let v ← evaluateNative env e
  hold v
  return v

/-- Several native operands of a step. -/
def operands (env : Env) (es : List NativeOperand) : Routine Stop (List NativeValue) :=
  es.mapM (operand env)

end Session

end ScriptBridge
