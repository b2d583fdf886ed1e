import ScriptBridge.Declare.Protocol
import ScriptBridge.Text.Quoted

/-!
# Classes

A `Class` has a name, perhaps a superclass, adopted protocols, and tables of method bodies.

* `Class.ancestors`: the class and its superclasses, nearest first.
* `Class.allProtocols`: every protocol adopted along the ancestors, with everything above it, each
  once.
* `Class.instanceMethod?`, `Class.classMethod?`: the nearest body of a selector.
-/

namespace ScriptBridge

open Program (Body)

/-- Method bodies by selector, each selector once. -/
abbrev MethodTable := List (Selector × Body)

namespace MethodTable

/-- Sets the body of a selector. -/
def insert (t : MethodTable) (s : Selector) (b : Body) : MethodTable :=
  t.filter (·.1 != s) ++ [(s, b)]

/-- The body of a selector. -/
def get? (t : MethodTable) (s : Selector) : Option Body := (t.find? (·.1 == s)).map (·.2)

/-- Where a selector is listed twice the last body counts. -/
def ofList (entries : List (Selector × Body)) : MethodTable :=
  entries.foldl (fun t e => t.insert e.1 e.2) []

end MethodTable

/-- Classes are told apart by `id`; `key` is the name they were declared under. -/
structure Class where
  id : Nat
  key : String
  name : String
  superclass : Option Class
  protocols : List Protocol
  instanceMethods : MethodTable
  classMethods : MethodTable
  /-- The body that runs when the class makes an object without arguments by itself, if it can. -/
  factory : Option Body
  deriving Inhabited

namespace Class

/-- The class and its superclasses, nearest first. -/
def ancestors : Class → List Class
  | c@⟨_, _, _, none, _, _, _, _⟩ => [c]
  | c@⟨_, _, _, some s, _, _, _, _⟩ => c :: s.ancestors

/-- Protocols along the ancestors and above, nearest class first, a protocol before its parents. -/
def allProtocols (c : Class) : List Protocol :=
  c.ancestors.foldl (fun out a => Protocol.collectAll out a.protocols) []

/-- The body that an instance runs for a selector: that of the nearest ancestor with one. -/
def instanceMethod? (c : Class) (s : Selector) : Option Body :=
  c.ancestors.findSome? (·.instanceMethods.get? s)

/-- The body that the class itself runs for a selector. -/
def classMethod? (c : Class) (s : Selector) : Option Body :=
  c.ancestors.findSome? (·.classMethods.get? s)

/-- Whether instances have a body for a selector. -/
def respondsTo (c : Class) (s : Selector) : Bool := (c.instanceMethod? s).isSome

/-- `other` is the class or one of its superclasses. -/
def isSubclassOf (c other : Class) : Bool := c.ancestors.any (·.id == other.id)

/-- An ancestor has the name. -/
def isKindOf (c : Class) (name : String) : Bool := c.ancestors.any (·.name == name)

/-- Whether a protocol is adopted by an ancestor, or stands above one that is. -/
def conformsTo (c : Class) (protocol : String) : Bool := c.allProtocols.any (·.name == protocol)

/-- How diagnostics show a class. -/
def debugText (c : Class) : String :=
  let super :=
    match c.superclass with
    | none => "None"
    | some s => "Some(" ++ Text.quoted s.name ++ ")"
  "ClassDescriptor \x7b name: " ++ Text.quoted c.name ++ ", superclass: " ++ super
    ++ ", protocols: [" ++ ", ".intercalate (c.protocols.map fun p => Text.quoted p.name) ++ "] \x7d"

end Class

/-! ## Closures -/

/-- A native closure; closures are told apart by `id`. -/
structure Closure where
  id : Nat
  key : String
  signature : Signature
  body : Body
  deriving Inhabited

end ScriptBridge
