import ScriptBridge.Calendar.Instant
import ScriptBridge.Declare.Class
import ScriptBridge.Native.Exception
import ScriptBridge.Number.Text

/-!
# Native values

A `NativeValue` is what native methods and closures receive and return. Data compares by structure
(`NativeValue.equals`); objects, classes, closures and script tokens compare by identity.

* `NativeValue.objects`, `NativeValue.tokens`: what a value holds, at any depth.
* `NativeValue.extract`: the typed reading of a value, and `argument` that of one of several.
-/

namespace ScriptBridge

/-- A native object, known by its serial number, and its class. -/
structure Handle where
  serial : Nat
  cls : Class
  deriving Inhabited

/-- A script value that passes through native code unread. A foreign token carries something else. -/
inductive ScriptToken where
  | managed (id : Nat)
  | foreign (id : Nat)
  deriving DecidableEq, Inhabited

/-- A value of native code. -/
inductive NativeValue where
  | nil
  | null
  | bool (b : Bool)
  | number (x : Double)
  | text (s : String)
  | array (items : List NativeValue)
  | dictionary (entries : List (NativeValue × NativeValue))
  | date (t : Instant)
  | data (bytes : ByteArray)
  | closure (c : Closure)
  | object (h : Handle)
  | classRef (c : Class)
  | selector (s : Selector)
  | script (t : ScriptToken)
  deriving Inhabited

namespace NativeValue

/-- The word for a kind of value in diagnostics. -/
def kindName : NativeValue → String
  | nil => "nil"
  | null => "null"
  | bool _ => "boolean"
  | number _ => "number"
  | text _ => "string"
  | array _ => "array"
  | dictionary _ => "dictionary"
  | date _ => "date"
  | data _ => "data"
  | closure _ => "closure"
  | object _ => "object"
  | classRef _ => "class"
  | selector _ => "selector"
  | script _ => "script value"

def isNil : NativeValue → Bool
  | nil => true
  | _ => false

def isNilOrNull : NativeValue → Bool
  | nil | null => true
  | _ => false

def number? : NativeValue → Option Double
  | number x => some x
  | _ => none

def bool? : NativeValue → Option Bool
  | bool b => some b
  | _ => none

def text? : NativeValue → Option String
  | text s => some s
  | _ => none

def array? : NativeValue → Option (List NativeValue)
  | array items => some items
  | _ => none

def object? : NativeValue → Option Handle
  | object h => some h
  | _ => none

def closure? : NativeValue → Option Closure
  | closure c => some c
  | _ => none

/-- The first entry of a dictionary under a text. -/
def get? (v : NativeValue) (key : String) : Option NativeValue :=
  match v with
  | dictionary entries => (entries.find? fun e => e.1.text? == some key).map (·.2)
  | _ => none

mutual

/-- Equality of data by structure, numbers by numeric equality, and of the rest by identity. -/
def equals : NativeValue → NativeValue → Bool
  | nil, nil | null, null => true
  | bool a, bool b => a == b
  | number a, number b => a.equals b
  | text a, text b => a == b
  | array a, array b => equalItems a b
  | dictionary a, dictionary b => equalEntries a b
  | date a, date b => a == b
  | data a, data b => a.data == b.data
  | closure a, closure b => a.id == b.id
  | object a, object b => a.serial == b.serial
  | classRef a, classRef b => a.id == b.id
  | selector a, selector b => a == b
  | script a, script b => a == b
  | _, _ => false

def equalItems : List NativeValue → List NativeValue → Bool
  | [], [] => true
  | a :: as, b :: bs => equals a b && equalItems as bs
  | _, _ => false

def equalEntries : List (NativeValue × NativeValue) → List (NativeValue × NativeValue) → Bool
  | [], [] => true
  | (k, a) :: as, (l, b) :: bs => equals k l && equals a b && equalEntries as bs
  | _, _ => false

end

mutual

/-- The text that diagnostics show. Objects and closures show without an address. -/
def debugText : NativeValue → String
  | nil => "nil"
  | null => "null"
  | bool b => toString b
  | number x => x.plainText
  | text s => Text.quoted s
  | array items => "[" ++ debugItems items ++ "]"
  | dictionary entries => "\x7b" ++ debugEntries entries ++ "\x7d"
  | date t => t.isoText
  | data bytes => "<" ++ toString bytes.size ++ " bytes>"
  | closure c => "<closure " ++ c.signature.text ++ ">"
  | object h => "<" ++ h.cls.name ++ ">"
  | classRef c => c.name
  | selector s => s.debugText
  | script _ => "<script value>"

def debugItems : List NativeValue → String
  | [] => ""
  | [v] => debugText v
  | v :: rest => debugText v ++ ", " ++ debugItems rest

def debugEntries : List (NativeValue × NativeValue) → String
  | [] => ""
  | [(k, v)] => debugText k ++ ": " ++ debugText v
  | (k, v) :: rest => debugText k ++ ": " ++ debugText v ++ ", " ++ debugEntries rest

end

mutual

/-- The serial numbers of the objects that a value holds. -/
def objects : NativeValue → List Nat
  | object h => [h.serial]
  | array items => objectsOfItems items
  | dictionary entries => objectsOfEntries entries
  | _ => []

def objectsOfItems : List NativeValue → List Nat
  | [] => []
  | v :: rest => objects v ++ objectsOfItems rest

def objectsOfEntries : List (NativeValue × NativeValue) → List Nat
  | [] => []
  | (k, v) :: rest => objects k ++ objects v ++ objectsOfEntries rest

end

mutual

/-- The managed values whose tokens a value holds. -/
def tokens : NativeValue → List Nat
  | script (.managed id) => [id]
  | array items => tokensOfItems items
  | dictionary entries => tokensOfEntries entries
  | _ => []

def tokensOfItems : List NativeValue → List Nat
  | [] => []
  | v :: rest => tokens v ++ tokensOfItems rest

def tokensOfEntries : List (NativeValue × NativeValue) → List Nat
  | [] => []
  | (k, v) :: rest => tokens k ++ tokens v ++ tokensOfEntries rest

end

/-! ## Typed readings -/

open Program (ArgShape)

/-- A reading that expects another kind of value. -/
def mismatch {α : Type} (expected : String) (v : NativeValue) : Except String α :=
  .error ("expected " ++ expected ++ ", found " ++ v.kindName)

/-- A number cut to the integers from `lo` to `hi`. -/
def extractInteger (lo hi : Int) (v : NativeValue) : Except String NativeValue :=
  match v with
  | number x => .ok (number (.ofInt (x.clampTo lo hi)))
  | v => mismatch "number" v

/-- Applies a reading to each item; the first fault counts. -/
def extractItems (read : NativeValue → Except String NativeValue) :
    List NativeValue → Except String (List NativeValue)
  | [] => .ok []
  | v :: rest => do
    let first ← read v
    return first :: (← extractItems read rest)

/-- The value read with a shape, or why it has another. -/
def extract : ArgShape → NativeValue → Except String NativeValue
  | .value, v => .ok v
  | .f64, v =>
    match v with
    | number x => .ok (number x)
    | v => mismatch "number" v
  | .i32, v => extractInteger (-0x80000000) 0x7fffffff v
  | .i64, v => extractInteger (-0x8000000000000000) 0x7fffffffffffffff v
  | .u32, v => extractInteger 0 0xffffffff v
  | .usize, v => extractInteger 0 0xffffffffffffffff v
  | .bool, v =>
    match v with
    | bool b => .ok (bool b)
    | v => mismatch "boolean" v
  | .string, v =>
    match v with
    | text s => .ok (text s)
    | v => mismatch "string" v
  | .object, v =>
    match v with
    | object h => .ok (object h)
    | v => mismatch "object" v
  | .closure, v =>
    match v with
    | closure c => .ok (closure c)
    | v => mismatch "closure" v
  | .date, v =>
    match v with
    | date t => .ok (date t)
    | v => mismatch "date" v
  | .optional shape, v => if v.isNilOrNull then .ok nil else extract shape v
  | .list shape, v =>
    match v with
    | array items => (extractItems (extract shape) items).map array
    | v => mismatch "array" v

/-- The argument at an index, read with a shape. -/
def argument (args : List NativeValue) (index : Nat) (shape : ArgShape) :
    Except NativeException NativeValue :=
  match args[index]? with
  | none => .error (.invalidArgument ("missing argument " ++ toString index))
  | some v =>
    match extract shape v with
    | .ok read => .ok read
    | .error reason =>
      .error (.invalidArgument ("argument " ++ toString index ++ ": " ++ reason))

/-- A number, or zero for anything else. -/
def numberOrZero (v : NativeValue) : Double := v.number?.getD .zero

end NativeValue

/-- What a native method is called on. A closure has no receiver. -/
inductive Receiver where
  | object (h : Handle)
  | classRef (c : Class)
  | nothing
  deriving Inhabited

/-- The class of the receiver. -/
def Receiver.class? : Receiver → Option Class
  | object h => some h.cls
  | classRef c => some c
  | nothing => none

end ScriptBridge
