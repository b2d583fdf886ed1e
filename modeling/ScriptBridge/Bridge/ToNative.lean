import ScriptBridge.Scope.Read

/-!
# Script values become native values

`Scope.toNative` reads any script value as the native value that it naturally is: arrays as ordered
collections, dates and byte buffers as such, wrappers and functions made from native things as those
things, and every other object as a dictionary of its listed properties.

An object that is reached again gives the value that it gave before, and nil while it is still being
converted, so conversions of cyclic values end. Nesting is limited by the options.
-/

namespace ScriptBridge

/-- The collections of a conversion: done, or still being converted. -/
abbrev Visited := List (Ref × Option NativeValue)

/-- A converted value, and the collections that are known after it. -/
abbrev Conversion := Routine Fault (NativeValue × Visited)

namespace Scope

open Routine

/-- Converts a collection unless it is known. -/
def visiting (r : Ref) (seen : Visited) (convert : Visited → Conversion) : Conversion :=
  match seen.find? (·.1 == r) with
  | some (_, some v) => return (v, seen)
  | some (_, none) => return (.nil, seen)
  | none => do
    let (v, seen) ← convert ((r, none) :: seen)
    return (v, (r, some v) :: seen.filter (·.1 != r))

/-- Reads the items of an ordered collection from an index on, after those that are done. -/
def arrayItems (s : Scope) (item : Value → Visited → Conversion) (source : Value) :
    (count index : Nat) → Visited → List NativeValue → Routine Fault (List NativeValue × Visited)
  | 0, _, seen, done => return (done.reverse, seen)
  | n + 1, index, seen, done => do
    let v ← s.getIndex source index
    let (converted, seen) ← item v seen
    s.arrayItems item source n (index + 1) seen (converted :: done)

/-- An ordered collection, read through `length` and indices. -/
def arrayWith (s : Scope) (item : Value → Visited → Conversion) (r : Ref) (seen : Visited) :
    Conversion :=
  visiting r seen fun seen => do
    let length := (← s.numberOf (← s.get (.object r) "length")).uint32.toNat
    if maxArrayLength < length then
      .throw (.conversion (.lengthExceeded length maxArrayLength))
    else
      let (items, seen) ← s.arrayItems item (.object r) length 0 seen []
      return (.array items, seen)

/-- Reads the properties of some keys, after those that are done. -/
def dictionaryEntries (s : Scope) (item : Value → Visited → Conversion) (source : Value) :
    List String → Visited → List (NativeValue × NativeValue) →
      Routine Fault (List (NativeValue × NativeValue) × Visited)
  | [], seen, done => return (done.reverse, seen)
  | key :: rest, seen, done => do
    let v ← s.get source key
    let (converted, seen) ← item v seen
    s.dictionaryEntries item source rest seen ((.text key, converted) :: done)

/-- A dictionary of the listed properties. -/
def dictionaryWith (s : Scope) (item : Value → Visited → Conversion) (r : Ref) (seen : Visited) :
    Conversion :=
  visiting r seen fun seen => do
    let keys ← read fun m => ((m.object? r).map Object.keys).getD []
    let (entries, seen) ← s.dictionaryEntries item (.object r) keys seen []
    return (.dictionary entries, seen)

/-- The object behind a wrapper, held from now on; nil when it is gone. -/
def unwrapped (v : Value) : Routine Fault NativeValue := do
  match ← read (·.nativeBehind? v) with
  | some h =>
    hold (.object h)
    return .object h
  | none => return .nil

/-- The natural conversion of a value with so many levels left. -/
def naturalAt (s : Scope) (room : Nat) (v : Value) (seen : Visited) : Conversion :=
  match room with
  | 0 => do
    let limit ← read (·.options.maxConversionDepth)
    .throw (.conversion (.depthExceeded limit))
  | n + 1 =>
    match v with
    | .undefined => return (.nil, seen)
    | .null => return (.null, seen)
    | .bool b => return (.bool b, seen)
    | .number x => return (.number x, seen)
    | .text t => return (.text t, seen)
    | .object r => do
      match ← read (·.payload? v) with
      | none => return (.nil, seen)
      | some (.array _) => s.arrayWith (s.naturalAt n) r seen
      | some (.date millis nanos) => return (nativeDate millis nanos, seen)
      | some (.buffer bytes) =>
        if ← read (·.options.typedArrays) then return (.data bytes, seen)
        else .throw (.conversion .buffersDisabled)
      | some (.function f) =>
        match f.callable with
        | .closure c => return (.closure c, seen)
        | .constructor cls _ => return (.classRef cls, seen)
        | _ => s.dictionaryWith (s.naturalAt n) r seen
      | some (.wrapper _) => return (← unwrapped v, seen)
      | some .ordinary | some (.error ..) | some (.regexp ..) =>
        s.dictionaryWith (s.naturalAt n) r seen

/-- Converts with all the levels that the options allow below the value. -/
def converted (f : (Value → Visited → Conversion) → Conversion) (s : Scope) :
    Routine Fault NativeValue := do
  let room ← read (·.options.maxConversionDepth)
  return (← f (s.naturalAt room)).1

/-- How objects become native values in a scope. -/
def objectReading (s : Scope) : ObjectReading where
  natural r := do
    let room ← read (·.options.maxConversionDepth)
    return (← s.naturalAt (room + 1) (.object r) []).1
  array r := s.converted fun item => s.arrayWith item r []
  dictionary r := s.converted fun item => s.dictionaryWith item r []

/-- The native value that a script value naturally is. -/
def toNative (s : Scope) (v : Value) : Routine Fault NativeValue := naturally s.objectReading v

/-- The native value that a script value is in a shape. -/
def toNativeAs (s : Scope) (shape : Program.UnwrapShape) (v : Value) : Routine Fault NativeValue :=
  s.nativeAs s.objectReading shape v

end Scope

end ScriptBridge
