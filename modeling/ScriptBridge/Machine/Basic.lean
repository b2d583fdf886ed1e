import ScriptBridge.Machine.Stack
import ScriptBridge.Native.Value
import ScriptBridge.Options.Basic
import ScriptBridge.Script.Heap
import ScriptBridge.Answer

/-!
# The machine

A `Machine` is the whole state: the heap, the open regions with their handles, the active calls and
frames, the contexts with their bridge tables, the native objects, and the tables that name values
from outside.

* A `Region` is an open execution in a context. Its handles stay reachable until it closes.
  `Machine.current` and `Machine.regionDepth` are the thread's own stack of contexts and the counter that
  go along with the regions.
* A `Context` is one global environment, with its wrappers and class templates.
* `Machine.holds` lists the native values that running operations keep, one group per operation.
  `Machine.contextHolds` lists the contexts that they keep.
* `Tables` names what a session names: registers, contexts, managed values and declarations.
-/

namespace ScriptBridge

/-- An open execution; the handles are the objects that it handed out. -/
structure Region where
  context : Nat
  handles : List Ref := []
  deriving Inhabited

/-- An active call. -/
structure CallRecord where
  this : Value
  callee : Ref
  args : List Value
  deriving Inhabited

/-- The prototypes of a context. -/
structure Intrinsics where
  object : Ref
  function : Ref
  array : Ref
  error : Ref
  typeError : Ref
  rangeError : Ref
  date : Ref
  regexp : Ref
  buffer : Ref
  deriving Inhabited

namespace Intrinsics

/-- The prototype of a kind of error. -/
def ofError (i : Intrinsics) : Program.ErrorKind → Ref
  | .error => i.error
  | .typeError => i.typeError
  | .rangeError => i.rangeError

/-- Every intrinsic object; all are roots. -/
def all (i : Intrinsics) : List Ref :=
  [i.object, i.function, i.array, i.error, i.typeError, i.rangeError, i.date, i.regexp, i.buffer]

end Intrinsics

/-- What a wrapper stands for: a native object by its serial number, or a closure. -/
inductive NativeKey where
  | object (serial : Nat)
  | closure (id : Nat)
  deriving DecidableEq, Inhabited

/-- A class bridged into a context. -/
structure Template where
  cls : Class
  table : ExportTable
  constructor : Ref
  prototype : Ref
  deriving Inhabited

/-- One global environment: its global object and prototypes, and what is bridged into it. -/
structure Context where
  global : Ref
  intrinsics : Intrinsics
  /-- The wrapper of each bridged object and closure. The entry of an object holds it. -/
  wrappers : List (NativeKey × Ref) := []
  templates : List Template := []
  deriving Inhabited

/-- A native object: its class and its named cells. -/
structure NativeObject where
  cls : Class
  cells : List (String × NativeValue) := []
  deriving Inhabited

/-- A script value kept for native owners. It is a root while one of them, and the managed value
itself, is alive. -/
structure PersistentEntry where
  id : Nat
  target : Ref
  owners : List Nat
  deriving Inhabited

/-- Asks for the entry of a key to be removed when its wrapper is freed. -/
structure WeakEntry where
  target : Ref
  context : Nat
  key : NativeKey
  deriving Inhabited

/-- What the collector counts. -/
structure Collector where
  /-- Allocations since the last collection. -/
  allocations : Nat := 0
  collections : Nat := 0
  freed : Nat := 0
  finalizers : Nat := 0
  lastMarked : Nat := 0
  lastFreed : Nat := 0
  live : Nat := 0
  deriving DecidableEq, Inhabited

/-- What one collection did. -/
structure Cycle where
  marked : Nat
  freed : Nat
  finalized : Nat
  deriving DecidableEq, Inhabited

/-! ## Named entries -/

/-- Entries by name, each name once. -/
abbrev Named (α : Type) := List (String × α)

namespace Named

/-- The entry under a name. -/
def get? {α : Type} (t : Named α) (name : String) : Option α :=
  match t with
  | [] => none
  | (n, v) :: rest => if n = name then some v else get? rest name

/-- Sets the entry of a name. -/
def insert {α : Type} (t : Named α) (name : String) (v : α) : Named α :=
  match t with
  | [] => [(name, v)]
  | (n, w) :: rest => if n = name then (n, v) :: rest else (n, w) :: insert rest name v

/-- Drops the entry of a name. -/
def erase {α : Type} (t : Named α) (name : String) : Named α := t.filter (·.1 != name)

end Named

/-- What a session names, and what it has shown so far. -/
structure Tables where
  scripts : Named Value := []
  natives : Named NativeValue := []
  contexts : Named Nat := []
  managed : Named Nat := []
  protocols : Named Protocol := []
  classes : Named Class := []
  closures : Named Closure := []
  /-- Identities given to protocols, classes and closures. -/
  declared : Nat := 0
  /-- Objects in the order in which they were first shown. -/
  shown : Array Ref := #[]
  /-- What was logged, newest first. -/
  log : List Answer := []
  /-- Exceptions reported so far, and the texts of those not yet read, newest first. -/
  reports : Nat := 0
  reportTexts : List String := []
  deriving Inhabited

/-- The whole state of a session. -/
structure Machine where
  options : Options := {}
  /-- The time, in milliseconds since the epoch, that a new date without arguments gets. -/
  now : Int := 0
  heap : Heap := {}
  /-- Open regions, innermost first. -/
  regions : List Region := []
  /-- The contexts that were entered and not left yet, innermost first. -/
  current : List Nat := []
  /-- How many regions were entered and not left yet. -/
  regionDepth : Nat := 0
  /-- Active calls, innermost first. -/
  calls : Stack CallRecord := .empty
  /-- Frames of active calls and evaluations, innermost first. -/
  frames : Stack Frame := .empty
  contexts : Array Context := #[]
  sources : Named String := []
  /-- The bodies of known sources, once an evaluator is installed. -/
  evaluator : Option (Named Program.Body) := none
  persistent : List PersistentEntry := []
  /-- In the order of registration, newest first. -/
  weak : List WeakEntry := []
  collector : Collector := {}
  natives : Array NativeObject := #[]
  /-- What running operations hold, innermost first. -/
  holds : List (List NativeValue) := []
  /-- The contexts that running operations keep, innermost first. -/
  contextHolds : List Nat := []
  /-- The value of each managed value; nothing for a foreign token. -/
  managed : Array (Option Value) := #[]
  tables : Tables := {}
  deriving Inhabited

namespace Machine

/-- The object that a reference leads to, unless it was collected. -/
def object? (m : Machine) (r : Ref) : Option Object := m.heap.get? r

/-- The object behind a value, if it is one and was not freed. -/
def objectOf? (m : Machine) (v : Value) : Option Object := v.ref?.bind m.object?

/-- Primitives are always live. -/
def isLive (m : Machine) (v : Value) : Bool := v.ref?.all m.heap.isLive

def context? (m : Machine) (id : Nat) : Option Context := m.contexts[id]?

/-- A context lives while it has a name or an open region, or an operation keeps it. -/
def contextAlive (m : Machine) (id : Nat) : Bool :=
  m.tables.contexts.any (·.2 == id) || m.regions.any (·.context == id) || m.contextHolds.contains id

/-- The context that was entered last, while it lives. -/
def current? (m : Machine) : Option Nat := m.current.head?.filter m.contextAlive

/-- The contexts that live. -/
def liveContexts (m : Machine) : List Context :=
  (List.range m.contexts.size).filterMap fun id =>
    if m.contextAlive id then m.context? id else none

/-- The native object of a serial number. Serial numbers start at one. -/
def native? (m : Machine) (serial : Nat) : Option NativeObject :=
  if serial = 0 then none else m.natives[serial - 1]?

/-- Records a reference in the innermost region. -/
def record (m : Machine) (r : Ref) : Machine :=
  match m.regions with
  | [] => m
  | region :: rest => { m with regions := { region with handles := r :: region.handles } :: rest }

end Machine

end ScriptBridge
