import ScriptBridge.Script.Heap

/-!
# Prototype chains

Reading, writing and testing a property walk from an object along its prototypes. A walk ends after
`maxChain` steps, so a chain that is too long reads as if it ended there.

* `Heap.lookup`: what reading a key finds.
* `Heap.writeTarget`: what writing a key has to do.
* `Heap.hasKey`: whether a key is there.
* `Heap.inherits`: whether an object lies on the chain of another.
-/

namespace ScriptBridge

/-- The longest chain that a walk follows. -/
def maxChain : Nat := 10000

/-- What reading a key finds. -/
inductive Found where
  | value (v : Value)
  | getter (f : Option Ref)
  | nothing
  deriving DecidableEq, Inhabited

/-- What writing a key has to do. -/
inductive WriteTarget where
  /-- Store into the object itself. -/
  | own
  | setter (f : Option Ref)
  | readonly
  deriving DecidableEq, Inhabited

/-- What an object itself holds under a key. The items and the length of an array come before its
properties. -/
def Object.own? (o : Object) (key : String) : Option PropertySlot :=
  let item : Option Value := do
    let items ← o.items?
    if key = "length" then some (.number (.ofNat items.size)) else items[← arrayIndex? key]?
  match item with
  | some v => some (.data v true)
  | none => (o.properties.get? key).map (·.slot)

/-- Whether a key names an element of an array, or its length. -/
def isElementKey (key : String) : Bool := key == "length" || (arrayIndex? key).isSome

namespace Heap

/-- Looks a key up along at most `n` objects of a chain. -/
def lookupFrom (h : Heap) (key : String) : Nat → Option Ref → Found
  | 0, _ => .nothing
  | _ + 1, none => .nothing
  | n + 1, some r =>
    match h.get? r with
    | none => .nothing
    | some o =>
      match o.own? key with
      | some (.data v _) => .value v
      | some (.accessor getter _) => .getter getter
      | none => h.lookupFrom key n o.prototype

/-- What reading a key of an object finds along its chain. -/
def lookup (h : Heap) (r : Ref) (key : String) : Found := h.lookupFrom key (maxChain + 1) (some r)

/-- Finds what an assignment meets along at most `n` objects of a chain. -/
def writeTargetFrom (h : Heap) (key : String) : Nat → Option Ref → WriteTarget
  | 0, _ => .own
  | _ + 1, none => .own
  | n + 1, some r =>
    match h.get? r with
    | none => .own
    | some o =>
      match (o.properties.get? key).map Property.slot with
      | some (.data _ writable) => if writable then .own else .readonly
      | some (.accessor _ setter) => .setter setter
      | none => h.writeTargetFrom key n o.prototype

/-- What writing a key of an object has to do. An array takes its elements and its length itself; for
all else the first property along the chain decides. -/
def writeTarget (h : Heap) (r : Ref) (key : String) : WriteTarget :=
  match h.get? r with
  | some o =>
    if o.isArray && isElementKey key then .own else h.writeTargetFrom key (maxChain + 1) (some r)
  | none => .own

/-- Whether one of at most `n` objects of a chain has the key. -/
def hasKeyFrom (h : Heap) (key : String) : Nat → Option Ref → Bool
  | 0, _ => false
  | _ + 1, none => false
  | n + 1, some r =>
    match h.get? r with
    | none => false
    | some o => (o.own? key).isSome || h.hasKeyFrom key n o.prototype

/-- Whether a key is there, in an object or along its chain. -/
def hasKey (h : Heap) (r : Ref) (key : String) : Bool := h.hasKeyFrom key (maxChain + 1) (some r)

/-- The prototype of an object. -/
def prototype? (h : Heap) (r : Ref) : Option Ref := (h.get? r).bind (·.prototype)

/-- Whether a target is among the next `n` objects of a chain. -/
def onChain (h : Heap) (target : Ref) : Nat → Option Ref → Bool
  | 0, _ => false
  | _ + 1, none => false
  | n + 1, some r => r == target || h.onChain target n (h.prototype? r)

/-- Whether a target is among the prototypes of an object. -/
def inherits (h : Heap) (r target : Ref) : Bool := h.onChain target maxChain (h.prototype? r)

end Heap

end ScriptBridge
