import ScriptBridge.Declare.Export
import ScriptBridge.Native.Value
import ScriptBridge.Script.Frame
import ScriptBridge.Script.Value

/-!
# Objects

An `Object` has a payload for its kind, own properties in the order of their insertion, and perhaps a
prototype.

* `Properties`: the property map, with `get?`, `insert` and `erase`.
* `Edit`, `Object.edit`: every change that an object can undergo.
* `Object.references`: the objects that an object keeps alive.
* `arrayIndex?`: the array index that a key spells.
-/

namespace ScriptBridge

/-- The longest array and the longest byte buffer. -/
def maxArrayLength : Nat := 0x1000000

/-! ## Properties -/

/-- A stored value, or a pair of functions that reading and writing call. -/
inductive PropertySlot where
  | data (value : Value) (writable : Bool)
  | accessor (getter setter : Option Ref)
  deriving DecidableEq, Inhabited

/-- A property of an object, with the rules for its listing and its removal. -/
structure Property where
  slot : PropertySlot
  /-- Listed among the keys. -/
  enumerable : Bool
  /-- May be deleted or defined again. -/
  configurable : Bool
  deriving DecidableEq, Inhabited

namespace Property

/-- What an assignment makes. -/
def plain (v : Value) : Property := ⟨.data v true, true, true⟩

/-- A plain property that is not listed. -/
def hidden (v : Value) : Property := ⟨.data v true, false, true⟩

/-- Neither listed nor to be changed. -/
def fixed (v : Value) : Property := ⟨.data v false, false, false⟩

end Property

/-- Own properties in insertion order, each key once. -/
abbrev Properties := List (String × Property)

namespace Properties

/-- The property under a key. -/
def get? (ps : Properties) (key : String) : Option Property :=
  match ps with
  | [] => none
  | (k, p) :: rest => if k = key then some p else get? rest key

/-- Sets a property: in its place if the key is there, at the end otherwise. -/
def insert (ps : Properties) (key : String) (p : Property) : Properties :=
  match ps with
  | [] => [(key, p)]
  | (k, q) :: rest => if k = key then (k, p) :: rest else (k, q) :: insert rest key p

/-- Removes a property; the others keep their order. -/
def erase (ps : Properties) (key : String) : Properties :=
  match ps with
  | [] => []
  | (k, q) :: rest => if k = key then rest else (k, q) :: erase rest key

end Properties

/-! ## Callables -/

/-- The built-in constructors. -/
inductive Builtin where
  | object
  | array
  | error (kind : Program.ErrorKind)
  | date
  | regexp
  | buffer
  deriving DecidableEq, Inhabited

def Builtin.name : Builtin → String
  | object => "Object"
  | array => "Array"
  | error kind => kind.name
  | date => "Date"
  | regexp => "RegExp"
  | buffer => "ArrayBuffer"

/-- What a function does when it is called. -/
inductive Callable where
  | builtin (b : Builtin)
  /-- A host body; `constructs` says whether `new` applies. -/
  | host (body : Program.Body) (constructs : Bool)
  /-- An exported instance method of a class. -/
  | method (m : ExportedMethod) (cls : Class)
  /-- An exported class method. -/
  | classMethod (m : ExportedMethod) (cls : Class)
  /-- The constructor of a bridged class. -/
  | constructor (cls : Class) (table : ExportTable)
  /-- A native closure. -/
  | closure (c : Closure)
  deriving Inhabited

/-- Whether `new` applies. -/
def Callable.isConstructor : Callable → Bool
  | builtin _ => true
  | host _ constructs => constructs
  | constructor .. => true
  | _ => false

/-- A function: its name, what it does, and the context it was made in. -/
structure FunctionData where
  name : String
  callable : Callable
  context : Nat
  deriving Inhabited

/-! ## Objects -/

/-- The script side of a native object, which it does not keep alive, and the context it was made in.
The class name outlives the object. -/
structure WrapperData where
  native : Handle
  className : String
  table : ExportTable
  context : Nat
  deriving Inhabited

/-- What distinguishes the kinds of objects. -/
inductive Payload where
  | ordinary
  | array (items : Array Value)
  | function (f : FunctionData)
  /-- The frames at its creation, and the native exception it was raised from. -/
  | error (frames : Trace) (native : Option NativeException)
  /-- Milliseconds since the epoch, and the nanoseconds below them that scripts do not see. -/
  | date (millis : Double) (nanos : Nat)
  | regexp (pattern flags : String)
  | buffer (bytes : ByteArray)
  | wrapper (w : WrapperData)
  deriving Inhabited

/-- The word for a kind of object in diagnostics. -/
def Payload.kindName : Payload → String
  | ordinary => "object"
  | array _ => "array"
  | function _ => "function"
  | error .. => "error"
  | date .. => "date"
  | regexp .. => "regexp"
  | buffer _ => "arraybuffer"
  | wrapper _ => "wrapper"

/-- A payload, own properties, and perhaps a prototype. -/
structure Object where
  payload : Payload
  properties : Properties := []
  prototype : Option Ref := none
  deriving Inhabited

/-- The array index that a key spells: decimal digits without leading zeros, below `2 ^ 32 - 1`. -/
def arrayIndex? (key : String) : Option Nat :=
  match key.toList with
  | [] => none
  | c :: rest =>
    if c = '0' && !rest.isEmpty then none
    else if !(c :: rest).all isDigit then none
    else
      let n := natOfDigits (c :: rest)
      if n < 0xffffffff then some n else none

/-- The objects that a slot keeps alive. -/
def PropertySlot.references : PropertySlot → List Ref
  | data v _ => v.ref?.toList
  | accessor getter setter => getter.toList ++ setter.toList

namespace Object

/-- The items of an array. -/
def items? (o : Object) : Option (Array Value) :=
  match o.payload with
  | .array items => some items
  | _ => none

/-- The objects that an object keeps alive: its prototype, its properties and its items. -/
def references (o : Object) : List Ref :=
  o.prototype.toList ++ o.properties.flatMap (fun p => p.2.slot.references)
    ++ (o.items?.getD #[]).toList.filterMap Value.ref?

def isArray (o : Object) : Bool := o.items?.isSome

/-- What a function object does. -/
def function? (o : Object) : Option FunctionData :=
  match o.payload with
  | .function f => some f
  | _ => none

/-- The wrapped native object. -/
def wrapper? (o : Object) : Option WrapperData :=
  match o.payload with
  | .wrapper w => some w
  | _ => none

/-- The keys that scripts list: the indices of an array, then enumerable properties in order. -/
def keys (o : Object) : List String :=
  let indices := (List.range ((o.items?.map Array.size).getD 0)).map toString
  indices ++ (o.properties.filter (·.2.enumerable)).map (·.1)

end Object

/-! ## Edits -/

/-- A change of one object. -/
inductive Edit where
  /-- Defines a property. -/
  | define (key : String) (p : Property)
  /-- Stores a value: into the data slot of the key if there is one, as a plain property otherwise. -/
  | store (key : String) (v : Value)
  | remove (key : String)
  /-- Stores an item; an array grows up to it. -/
  | storeItem (i : Nat) (v : Value)
  /-- Empties an item, if there is one. -/
  | clearItem (i : Nat)
  /-- Cuts or extends an array. -/
  | resize (length : Nat)
  | setPrototype (p : Option Ref)

/-- Cut to a length, or extended with undefined items. -/
def resizeItems (items : Array Value) (length : Nat) : Array Value :=
  if length ≤ items.size then items.take length
  else items ++ Array.replicate (length - items.size) .undefined

/-- A change of the items; other objects stay as they are. -/
def Object.editItems (o : Object) (f : Array Value → Array Value) : Object :=
  match o with
  | ⟨.array items, properties, prototype⟩ => ⟨.array (f items), properties, prototype⟩
  | o => o

/-- The property after a value is stored under its key. -/
def Property.store : Option Property → Value → Property
  | some ⟨.data _ writable, enumerable, configurable⟩, v => ⟨.data v writable, enumerable, configurable⟩
  | _, v => .plain v

/-- The object after a change. -/
def Object.edit (o : Object) : Edit → Object
  | .define key p => { o with properties := o.properties.insert key p }
  | .store key v =>
    { o with properties := o.properties.insert key (.store (o.properties.get? key) v) }
  | .remove key => { o with properties := o.properties.erase key }
  | .storeItem i v =>
    o.editItems fun items =>
      (if i < items.size then items else resizeItems items (i + 1)).setIfInBounds i v
  | .clearItem i => o.editItems fun items => items.setIfInBounds i .undefined
  | .resize length => o.editItems (resizeItems · length)
  | .setPrototype p => { o with prototype := p }

end ScriptBridge
