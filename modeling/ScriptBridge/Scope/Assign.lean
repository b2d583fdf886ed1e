import ScriptBridge.Bridge.ToNative

/-!
# Changing properties

`Scope.set`, `delete`, `define` and their kin on any value. A wrapper first offers the change to its
native object: an exported property calls its setter, is always there and cannot be deleted; writes to
a readonly one are ignored.
-/

namespace ScriptBridge

/-- What `define` makes of a property. -/
inductive Descriptor where
  | data (value : Value) (writable : Bool)
  /-- Missing and undefined functions leave that side of the accessor out. -/
  | accessor (getter setter : Option Value)
  deriving Inhabited

namespace Scope

open Routine

variable {ε : Type}

/-- Writes an exported property; a released object ignores the write. -/
def exportedSet (s : Scope) (holder : Ref) (p : PropertyDeclaration) (setter : Selector) (v : Value) :
    Routine Fault Unit := do
  checkEncoding p
  match ← read (·.nativeBehind? (.object holder)) with
  | none => return
  | some h => holding [.object h] do
    let arg ← s.argumentOf s.objectReading p.encoding v
    let _ ← send h setter [arg]
    return

/-- Assigns to a property. Primitives ignore the write; undefined and null refuse it. -/
def set (s : Scope) (target : Value) (key : String) (v : Value) : Routine Thrown Unit := do
  match target with
  | .object r =>
    match (← read (·.wrapper? target)).bind (·.table.property? key) with
    | some p =>
      match p.setter with
      | none => return
      | some setter => s.raising (s.exportedSet r p setter v)
    | none => s.setOrdinary r target key v
  | .undefined | .null =>
    s.throwType ("Cannot set properties of " ++ nullishText target ++ " (setting '" ++ key ++ "')")
  | _ => return

/-- Assigns to an element: by the subscript method of a wrapper, if it exports one. -/
def setIndex (s : Scope) (target : Value) (index : Nat) (v : Value) : Routine Thrown Unit := do
  match (← read (·.wrapper? target)).bind (·.table.indexSetter), target with
  | some m, .object r =>
    let _ ← s.raising (s.exportedSubscript s.objectReading r m (some v) index)
    return
  | _, _ => s.set target (toString index) v

/-- Whether a property is there, on the object or along its chain. -/
def has (s : Scope) (target : Value) (key : String) : Routine Thrown Bool := do
  match target with
  | .object r =>
    if (← read (·.wrapper? target)).any fun w => (w.table.property? key).isSome then return true
    else read fun m => m.heap.hasKey r key
  | _ =>
    s.throwType ("Cannot use 'in' operator to search for '" ++ key ++ "' in " ++ (← s.textOf target))

/-- Whether an element is there. Subscript methods play no part in this. -/
def hasIndex (s : Scope) (target : Value) (index : Nat) : Routine Thrown Bool :=
  s.has target (toString index)

/-- What deleting a key of an object does, and whether the key is gone then. The items of an array are
emptied, its length stays, and so do properties that are not configurable. -/
def deletion (o : Object) (key : String) : Option Edit × Bool :=
  if o.isArray && key == "length" then (none, false)
  else
    match if o.isArray then arrayIndex? key else none with
    | some i => (some (.clearItem i), true)
    | none =>
      match o.properties.get? key with
      | none => (none, true)
      | some p => if p.configurable then (some (.remove key), true) else (none, false)

/-- Deletes a property, and says whether it is gone. -/
def delete (s : Scope) (target : Value) (key : String) : Routine Thrown Bool := do
  match target with
  | .object r =>
    if (← read (·.wrapper? target)).any fun w => (w.table.property? key).isSome then return false
    else
      match ← read fun m => (m.object? r).map (deletion · key) with
      | none => return true
      | some (change, gone) =>
        if let some e := change then edit r e
        return gone
  | .undefined | .null => s.throwType ("Cannot convert " ++ nullishText target ++ " to object")
  | _ => return true

/-- The function of one side of an accessor. -/
def accessorFunction (s : Scope) (side : String) (f : Option Value) :
    Routine Thrown (Option Ref) := do
  match f with
  | none | some .undefined => return none
  | some f =>
    match ← read (·.function? f) with
    | some (r, _) => return some r
    | none => s.throwType (side ++ " must be a function: " ++ (← s.textOf f))

/-- Puts a property in place, unless there is one that is not configurable. -/
def redefine (s : Scope) (r : Ref) (key : String) (p : Property) : Routine Thrown Unit := do
  let fixed ← read fun m =>
    ((m.object? r).bind fun o => o.properties.get? key).any fun p => !p.configurable
  if fixed then s.throwType ("Cannot redefine property: " ++ key)
  else edit r (.define key p)

/-- Defines a property. Data for an element or the length of an array is assigned. -/
def define (s : Scope) (target : Value) (key : String) (d : Descriptor)
    (enumerable configurable : Bool) : Routine Thrown Unit := do
  match target with
  | .object r =>
    match d with
    | .data v writable =>
      if (← read (·.isArray target)) && isElementKey key then s.writeOwn r key v
      else s.redefine r key ⟨.data v writable, enumerable, configurable⟩
    | .accessor getter setter =>
      let getter ← s.accessorFunction "Getter" getter
      let setter ← s.accessorFunction "Setter" setter
      s.redefine r key ⟨.accessor getter setter, enumerable, configurable⟩
  | _ => s.throwType "Object.defineProperty called on non-object"

/-- The listed keys of a value. -/
def ownKeys (v : Value) : Routine ε (List String) :=
  read fun m => ((m.objectOf? v).map Object.keys).getD []

/-- The prototype of an object; null at the end of a chain and for primitives. -/
def prototypeOf (v : Value) : Routine ε Value := do
  match (← read (·.objectOf? v)).bind (·.prototype) with
  | some p =>
    track (.object p)
    return .object p
  | none => return .null

/-- Changes the prototype of an object, unless that would close a circle. -/
def setPrototypeOf (s : Scope) (target prototype : Value) : Routine Thrown Unit := do
  match target with
  | .object r =>
    match prototype with
    | .object p =>
      if ← read fun m => m.heap.onChain r maxChain (some p) then
        s.throwType "Cyclic __proto__ value"
      else edit r (.setPrototype (some p))
    | .null => edit r (.setPrototype none)
    | _ => s.throwType "Object prototype may only be an Object or null"
  | _ => s.throwType "Object.setPrototypeOf called on non-object"

end Scope

end ScriptBridge
