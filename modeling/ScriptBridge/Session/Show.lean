import ScriptBridge.Bridge.Operation

/-!
# Showing values

How a session shows values, frames and failures. Objects show by number, in the order in which the
session first shows them, and by kind.

What is read from the machine alone is a plain function; showing a value changes the numbering.
-/

namespace ScriptBridge

open Routine

namespace Answer

/-- A frame of a trace. -/
def ofFrame (f : Frame) : Answer :=
  record [("line", count f.line), ("column", count f.column), ("script", ofText? f.script),
    ("url", ofText? f.url), ("function", text f.function), ("constructor", bool f.construct),
    ("eval", bool f.evaluated)]

def ofNativeException (e : NativeException) : Answer := list [text e.name, text e.reason]

/-- A script exception, with its backtrace as text. -/
def ofException (e : BridgeException) : Answer :=
  record [("name", text e.name), ("message", text e.message), ("resource", ofText? e.resource),
    ("line", count e.line), ("columns", list [count e.startColumn, count e.endColumn]),
    ("source_line", ofText? e.sourceLine),
    ("origin", text (if e.native.isSome then "native" else "script")),
    ("native", e.native.elim null ofNativeException), ("backtrace", text (Trace.text e.frames))]

def ofConfigError : ConfigError → Answer
  | .malformed => record [("error", text "Config.Parse")]
  | e => failure "Config.Validation" e.message

def ofDeclarationError (e : DeclarationError) : Answer :=
  let kind :=
    match e with
    | .invalidRename .. => "InvalidRename"
    | .invalidEncoding .. => "InvalidEncoding"
    | .arityMismatch .. => "DeclArityMismatch"
  failure kind e.message

/-- A failure of the bridge: its kind and its message. -/
def ofError : BridgeError → Answer
  | .conversion e => failure ("Conversion." ++ e.kind) e.message
  | .dispatch e => failure ("Dispatch." ++ e.kind) e.message
  | .script e =>
    record [("error", text "Script"), ("message", text e.text), ("exception", ofException e)]
  | .native e => failure "Native" e.text
  | .alreadyRunning => failure "VmAlreadyRunning" BridgeError.alreadyRunning.message
  | .config e => ofConfigError e

def ofOptions (o : Options) : Answer :=
  record [("gc_threshold", count o.gcThreshold), ("exception_strategy", text o.strategy.name),
    ("typed_arrays", bool o.typedArrays), ("max_conversion_depth", count o.maxConversionDepth),
    ("max_call_depth", count o.maxCallDepth)]

def ofCycle (c : Cycle) : Answer :=
  record [("marked", count c.marked), ("freed", count c.freed), ("finalized", count c.finalized)]

def ofCollector (c : Collector) : Answer :=
  record [("collections", count c.collections), ("freed", count c.freed),
    ("finalizers", count c.finalizers), ("last_marked", count c.lastMarked),
    ("last_freed", count c.lastFreed), ("live", count c.live), ("has_pause", bool true)]

def ofHeap (h : Heap) : Answer :=
  record [("live", count h.live), ("capacity", count h.slots.size), ("free", count h.free.length)]

/-- Two hexadecimal digits per byte. -/
def hexText (bytes : ByteArray) : String := String.join (bytes.data.toList.map Text.hexByte)

end Answer

namespace Session

variable {ε : Type}

/-- The number under which an object shows, given out on first use. -/
def numberOf (r : Ref) : Routine ε Nat :=
  perform (.tables fun t =>
    match t.shown.findIdx? (· == r) with
    | some n => (n, t)
    | none => (t.shown.size, { t with shown := t.shown.push r }))

def objectKind (m : Machine) (r : Ref) : String :=
  ((m.object? r).map fun o => o.payload.kindName).getD "collected"

/-- A script value. Objects show as their number in order of appearance, and their kind. -/
def showValue (v : Value) : Routine ε Answer := do
  match v with
  | .undefined => return .record [("undef", .bool true)]
  | .null => return .null
  | .bool b => return .bool b
  | .number x => return .number x
  | .text t => return .text t
  | .object r =>
    let kind ← read (objectKind · r)
    return .record [("ref", .count (← numberOf r)), ("kind", .text kind)]

/-- A token shows its value inside a region. -/
def showToken (inside : Bool) : ScriptToken → Routine ε Answer
  | .foreign _ => return .record [("script", .text "foreign")]
  | .managed id => do
    if !inside then return .record [("script", .text "unread")]
    else
      match ← Scope.managedValue id with
      | some v => return .record [("script", .list [← showValue v])]
      | none => return .record [("script", .text "collected")]

mutual

/-- A native value. Its objects are numbered apart from those of scripts. -/
def showNative (inside : Bool) (v : NativeValue) : Routine ε Answer := do
  match v with
  | .nil => return .record [("nil", .bool true)]
  | .null => return .null
  | .bool b => return .bool b
  | .number x => return .number x
  | .text t => return .text t
  | .array items => return .list (← showItems inside items [])
  | .dictionary entries => return .record [("dict", .list (← showEntries inside entries []))]
  | .date t =>
    return .record [("date", .list [.number (.ofInt t.seconds), .count t.nanos])]
  | .data bytes => return .record [("data", .text (Answer.hexText bytes))]
  | .closure c => return .record [("closure", .text c.key)]
  | .object h => return .record [("object", .count h.serial), ("class", .text h.cls.key)]
  | .classRef c => return .record [("class", .text c.key)]
  | .selector s => return .record [("selector", .text s.name)]
  | .script t => showToken inside t

def showItems (inside : Bool) (items : List NativeValue) (done : List Answer) :
    Routine ε (List Answer) := do
  match items with
  | [] => return done.reverse
  | v :: rest =>
    let shown ← showNative inside v
    showItems inside rest (shown :: done)

def showEntries (inside : Bool) (entries : List (NativeValue × NativeValue)) (done : List Answer) :
    Routine ε (List Answer) := do
  match entries with
  | [] => return done.reverse
  | (k, v) :: rest =>
    let key ← showNative inside k
    let shown ← showNative inside v
    showEntries inside rest (.list [key, shown] :: done)

end

/-- What was thrown, and its text. -/
def showThrown (s : Scope) (t : Thrown) : Routine ε Answer := do
  let shown ← showValue t.value
  let text ← s.textOf t.value
  return .record [("threw", shown), ("text", .text text)]

/-! ## Inspecting -/

/-- One digit per question about a value: undefined, null, either, truth value, number, text, object,
array, date, function, error, regular expression, byte buffer, wrapper. -/
def kindDigits (m : Machine) (v : Value) : String :=
  let payload := m.payload? v
  let isKind (kind : String) : Bool := payload.any fun p => p.kindName == kind
  let digits : List Bool :=
    [v.isUndefined, v.isNullish && !v.isUndefined, v.isNullish,
      (match v with | .bool _ => true | _ => false),
      (match v with | .number _ => true | _ => false),
      (match v with | .text _ => true | _ => false),
      v.isObject, isKind "array", isKind "date", isKind "function", isKind "error",
      isKind "regexp", isKind "arraybuffer", isKind "wrapper"]
  String.ofList (digits.map fun b => if b then '1' else '0')

/-- All that a value coerces to. -/
def inspect (s : Scope) (v : Value) : Routine ε Answer := do
  let typeOf ← read (·.typeOf v)
  let number ← s.numberOf v
  let int32 := (← s.numberOf v).int32
  let uint32 := (← s.numberOf v).uint32
  let text ← s.textOf v
  let live ← read (·.isLive v)
  let digits ← read (kindDigits · v)
  let toNumber ← showNative true (← s.toNumber v)
  let date ← Scope.toDate v
  let toDate ← if date.isNil then pure .null else showNative true date
  let bytes ← read (·.bytes? v)
  let closure ← read (·.closureBehind? v)
  return .record [("typeof", .text typeOf), ("bool", .bool v.truth), ("number", .number number),
    ("int32", .number (.ofInt int32)), ("uint32", .number (.ofInt uint32)), ("string", .text text),
    ("live", .bool live), ("is", .text digits), ("to_number", toNumber), ("to_date", toDate),
    ("to_array_buffer", .ofText? (bytes.map Answer.hexText)),
    ("to_closure", closure.elim .null fun c => .record [("closure", .text c.key)])]

/-- The fields of a shown object. -/
def fieldsOf : Answer → List (String × Answer)
  | .record fields => fields
  | _ => []

/-- Shows what reading the keys of an object gives, after the keys that are done. -/
def dumpKeys (s : Scope) (dump : Value → List Ref → Routine ε (Answer × List Ref)) (v : Value) :
    List String → List Ref → List Answer → Routine ε (List Answer × List Ref)
  | [], seen, done => return (done.reverse, seen)
  | key :: rest, seen, done => do
    match ← (s.get v key).attempt with
    | .ok item =>
      let (shown, seen) ← dump item seen
      dumpKeys s dump v rest seen (.list [.text key, shown] :: done)
    | .error t =>
      let shown ← showThrown s t
      dumpKeys s dump v rest seen (.list [.text key, shown] :: done)

/-- Shows a value with the text and the contents of an object, down to a depth. An object shows its
contents once. -/
def dump (s : Scope) : Nat → Value → List Ref → Routine ε (Answer × List Ref)
  | 0, v, seen => return (← showValue v, seen)
  | n + 1, v, seen => do
    let shown ← showValue v
    match v with
    | .object r =>
      if !(← read (·.isLive v)) || seen.contains r then return (shown, seen)
      else
        let text ← s.textOf v
        let keys ← Scope.ownKeys v
        let (entries, seen) ← dumpKeys s (dump s n) v keys (r :: seen) []
        let bytes ← read (·.bytes? v)
        let extra :=
          match bytes with
          | some b => [("bytes", Answer.text (Answer.hexText b))]
          | none => []
        return (.record (fieldsOf shown ++ [("text", .text text), ("keys", .list entries)] ++ extra),
          seen)
    | _ => return (shown, seen)

end Session

end ScriptBridge
