import ScriptBridge.Number.Double

/-!
# Programs

The bodies of functions, methods and closures are data: lists of steps over operands. Script
functions and evaluated sources have host bodies, native methods and closures have native bodies,
and a session is itself a list of steps.

* `Operand` denotes a script value, `NativeOperand` a native value.
* `ValueStep`, `ScriptStep` and `BridgeStep` are operations on script values inside a scope,
  `NativeStep` is one on native values, `MachineStep` one on the machine, its contexts and its
  declarations.
* `Step` adds what contains other steps.
-/

namespace ScriptBridge.Program

/-- What a typed extraction asks for. -/
inductive ArgShape where
  | value
  | f64
  | i32
  | i64
  | u32
  | usize
  | bool
  | string
  | object
  | closure
  | date
  | optional (shape : ArgShape)
  | list (shape : ArgShape)
  deriving DecidableEq, Inhabited

/-- An expression for a script value. -/
inductive Operand where
  | undefined
  | null
  | bool (b : Bool)
  | number (x : Double)
  | text (s : String)
  | array (items : List Operand)
  | object (entries : List (String × Operand))
  | register (name : String)
  | global
  | this
  | arg (i : Nat)
  | callee
  | isNew
  deriving Inhabited

/-- A class by its key, or the class of the receiver. -/
inductive ClassName where
  | key (name : String)
  | ofReceiver
  deriving DecidableEq, Inhabited

/-- An expression for a native value. -/
inductive NativeOperand where
  | nil
  | null
  | bool (b : Bool)
  | number (x : Double)
  | text (s : String)
  | array (items : List NativeOperand)
  | dictionary (entries : List (NativeOperand × NativeOperand))
  | date (seconds : Int) (nanos : Nat)
  | data (bytes : ByteArray)
  | closure (key : String)
  | classRef (name : ClassName)
  | selector (name : String)
  | create (name : ClassName) (cells : List (String × NativeOperand))
  | instantiate (key : String)
  | token (value : Operand)
  | foreign
  | register (name : String)
  | arg (i : Nat)
  | argCount
  | extract (i : Nat) (shape : ArgShape)
  | receiver
  | cell (name : String)
  | add (a b : NativeOperand)
  | mul (a b : NativeOperand)
  deriving Inhabited

/-- The three built-in kinds of error. -/
inductive ErrorKind where
  | error
  | typeError
  | rangeError
  deriving DecidableEq, Inhabited

def ErrorKind.name : ErrorKind → String
  | .error => "Error"
  | .typeError => "TypeError"
  | .rangeError => "RangeError"

/-- The contents of a new byte buffer. -/
inductive BufferSource where
  | bytes (data : ByteArray)
  | zeros (length : Nat)

/-- The descriptor of a property definition, over operands. -/
inductive PropertyTerm where
  | data (value : Operand) (writable : Bool)
  | accessor (getter setter : Option Operand)

/-- What a native value is read as. -/
inductive UnwrapShape where
  | any
  | bool
  | number
  | int32
  | uint32
  | double
  | string
  | date
  | array
  | dictionary
  | data
  | object
  | closure
  deriving DecidableEq, Inhabited

/-- Making script values, and looking at them. -/
inductive ValueStep where
  | bind (value : Operand)
  | newError (kind : ErrorKind) (message : String)
  | newDate (millis : Double)
  | newRegexp (pattern flags : String)
  | newBuffer (source : BufferSource)
  | inspect (value : Operand)
  | toText (value : Operand)
  | equality (a b : Operand)
  | dump (value : Operand) (depth : Nat)
  | source (resource : String)
  | position (line column : Nat)
  | stack (logged : Bool)
  | throwValue (value : Operand)
  | throwNew (kind : ErrorKind) (message : String)
  | log (value : Operand)

/-- An operation of scripts. What fails is thrown. -/
inductive ScriptStep where
  | instanceOf (value ctor : Operand)
  | get (target : Operand) (key : String)
  | set (target : Operand) (key : String) (value : Operand)
  | has (target : Operand) (key : String)
  | delete (target : Operand) (key : String)
  | getIndex (target : Operand) (index : Nat)
  | setIndex (target : Operand) (index : Nat) (value : Operand)
  | hasIndex (target : Operand) (index : Nat)
  | define (target : Operand) (key : String) (term : PropertyTerm)
      (enumerable configurable : Bool)
  | keys (target : Operand)
  | prototype (target : Operand)
  | setPrototype (target proto : Operand)
  | call (f receiver : Operand) (args : List Operand)
  | construct (f : Operand) (args : List Operand)
  | evaluate (source resource : String)

/-- An operation that native code calls on script values. What fails is an error. -/
inductive BridgeStep where
  | isInstanceOf (value ctor : Operand)
  | wrap (value : NativeOperand)
  | unwrap (value : Operand) (shape : UnwrapShape)
  | toObjectOfClass (value : Operand) (key : String)
  | property (target : Operand) (key : String)
  | setProperty (target : Operand) (key : String) (value : NativeOperand)
  | deleteProperty (target : Operand) (key : String)
  | hasProperty (target : Operand) (key : String)
  | valueAt (target : Operand) (index : Nat)
  | setValueAt (target : Operand) (index : Nat) (value : NativeOperand)
  | defineWith (target : Operand) (key : String) (descriptor : NativeOperand)
  | callWith (f : Operand) (args : List NativeOperand)
  | constructWith (f : Operand) (args : List NativeOperand)
  | invokeMethod (target : Operand) (name : String) (args : List NativeOperand)
  | evaluateScript (source resource : String)
  | exception (value : Operand)

/-- An operation on native values and on managed values. -/
inductive NativeStep where
  | bind (value : NativeOperand)
  | drop (name : String)
  | alive (serial : Nat)
  | cellSet (cell : String) (value : NativeOperand)
  | cellGet (object : NativeOperand) (cell : String)
  | equal (a b : NativeOperand)
  | same (a b : NativeOperand)
  | info (value : NativeOperand) (debug : Bool) (key : Option String)
  | extract (args : List NativeOperand) (index : Nat) (shape : ArgShape)
  | log (value : NativeOperand)
  | raise (name reason : String)
  | panic (message : String)
  | invokeClosure (key : String) (args : List NativeOperand)
  | managed (name : String) (value : Operand) (owner : Option NativeOperand)
  | managedInfo (name : String)
  | managedValue (name : String)
  | managedAdd (name : String) (owner : NativeOperand)
  | managedRemove (name : String) (owner : NativeOperand)
  | managedDrop (name : String)
  | tokenOwn (value : NativeOperand) (owner : Option NativeOperand)

/-- A declaration inside a protocol. -/
inductive DeclareItem where
  | method (selector types : String)
  | classMethod (selector types : String)
  | initializer (selector types : String)
  | property (name encoding : String)
  | readonly (name encoding : String)
  | accessors (name encoding getter : String) (setter : Option String)
  | exportAs (name selector : String)
  | exportNullaryAs (name selector : String)

/-- Any subset of the options of a machine. -/
structure OptionChanges where
  gcThreshold : Option Nat
  reports : Option Bool
  typedArrays : Option Bool
  maxConversionDepth : Option Nat
  maxCallDepth : Option Nat
  deriving Inhabited

/-- An operation on the machine, its contexts and its declarations. -/
inductive MachineStep where
  | newContext (name : String)
  | dropContext (name : String)
  | collect
  | collectorStats
  | heapStats
  | setThreshold (n : Nat)
  | setStrategy (report : Bool)
  | showOptions
  | secondMachine (changes : OptionChanges)
  | reported
  | hasEvaluator
  | contextGet (ctx key : String)
  | contextSet (ctx key : String) (value : NativeOperand)
  | contextEvaluate (ctx source resource : String)
  | contextGlobal (ctx dest : String)
  | setClass (ctx name cls : String)
  | currentContext
  | scopeContext
  | sameMachine (ctx : String)
  | protocol (key name : String) (parents : List String) (exported : Bool) (decls : List DeclareItem)
  | protocolInfo (key : String) (find conforms : List String)
  | classInfo (key : String) (responds classResponds conforms subclassOf : List String)

/-- One step. Where a step yields a value, `dest` names the register that keeps it. -/
inductive Step where
  | value (op : ValueStep) (dest : Option String)
  | script (op : ScriptStep) (dest : Option String)
  | bridge (op : BridgeStep) (dest : Option String)
  | native (op : NativeStep) (dest : Option String)
  | machine (op : MachineStep) (dest : Option String)
  | returnScript (value : Operand)
  | returnNative (value : NativeOperand)
  | execute (ctx : String) (steps : List Step)
  | repeated (n : Nat) (steps : List Step)
  | attempt (steps : List Step) (dest : Option String)
  | when (value : Operand) (steps : List Step)
  | function (name : String) (body : List Step) (constructor : Bool) (dest : Option String)
  | setEvaluator (programs : List (String × List Step))
  | declareClass (key name : String) (super : Option String) (protocols : List String)
      (instanceMethods classMethods : List (String × List Step)) (factory : Bool)
  | declareClosure (key types : String) (body : List Step)
  deriving Inhabited

/-- The steps of a body. -/
abbrev Body := List Step

end ScriptBridge.Program
