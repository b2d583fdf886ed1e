import ScriptBridge.Declare.Encoding
import ScriptBridge.Declare.Selector
import ScriptBridge.Program.Syntax

/-!
# Protocols

A `Protocol` lists operations, properties and renames, and may have parents. Scripts see what
exported protocols list; a protocol is exported if it, or a protocol above it, carries the mark.

* `Protocol.declare` builds a protocol from declarations, or gives the first error.
* `Protocol.method?` finds a declaration in a protocol or above it.
* `Protocol.collect` lists a protocol and everything above it, each once.
-/

namespace ScriptBridge

/-- Why a rename cannot be declared. -/
inductive RenameFault where
  | takesArguments
  | takesNone
  | undeclared
  deriving DecidableEq

def RenameFault.message : RenameFault → String
  | .takesArguments => "nullary renames need a selector without arguments"
  | .takesNone => "selector takes no arguments, use a nullary rename"
  | .undeclared => "selector is not declared by the protocol"

/-- Why a declaration is refused. -/
inductive DeclarationError where
  | invalidRename (property : String) (selector : Selector) (fault : RenameFault)
  | invalidEncoding (encoding : String) (fault : EncodingFault)
  | arityMismatch (selector : Selector) (encoded : Nat)

def DeclarationError.message : DeclarationError → String
  | .invalidRename property selector fault =>
    "Invalid rename '" ++ property ++ "' for selector '" ++ selector.name ++ "': " ++ fault.message
  | .invalidEncoding encoding fault =>
    "Invalid type encoding '" ++ encoding ++ "': " ++ fault.message
  | .arityMismatch selector encoded =>
    "Selector '" ++ selector.name ++ "' takes " ++ toString selector.arity
      ++ " arguments but its encoding lists " ++ toString encoded

/-- How a declared operation is reached: on an instance, on the class, or by `new`. -/
inductive MethodKind where
  | onInstance
  | onClass
  | initializer
  deriving DecidableEq, Inhabited

/-- A method as a protocol declares it. -/
structure MethodDeclaration where
  selector : Selector
  signature : Signature
  kind : MethodKind
  deriving Inhabited

/-- A property as a protocol declares it, with the selectors that read and write it. -/
structure PropertyDeclaration where
  name : String
  encoding : Encoding
  getter : Selector
  /-- Absent for a readonly property. -/
  setter : Option Selector
  deriving Inhabited

/-- Scripts see `selector` as `name`. -/
structure Rename where
  name : String
  selector : Selector
  deriving DecidableEq, Inhabited

/-- Protocols are told apart by `id`, not by name. -/
structure Protocol where
  id : Nat
  name : String
  parents : List Protocol
  marked : Bool
  methods : List MethodDeclaration
  properties : List PropertyDeclaration
  renames : List Rename
  deriving Inhabited

namespace Protocol

mutual

/-- The protocol or one above it carries the export mark. -/
def isExported : Protocol → Bool
  | ⟨_, _, parents, marked, _, _, _⟩ => marked || anyExported parents

def anyExported : List Protocol → Bool
  | [] => false
  | p :: ps => isExported p || anyExported ps

end

mutual

/-- The declaration of a selector: the protocol's own first, then the first found above it. -/
def method? (selector : Selector) : Protocol → Option MethodDeclaration
  | ⟨_, _, parents, _, methods, _, _⟩ =>
    match methods.find? (·.selector == selector) with
    | some m => some m
    | none => methodAbove? selector parents

def methodAbove? (selector : Selector) : List Protocol → Option MethodDeclaration
  | [] => none
  | p :: ps =>
    match method? selector p with
    | some m => some m
    | none => methodAbove? selector ps

end

mutual

/-- The protocol or one above it has the name. -/
def conformsTo (wanted : String) : Protocol → Bool
  | ⟨_, name, parents, _, _, _, _⟩ => name == wanted || anyConforms wanted parents

def anyConforms (wanted : String) : List Protocol → Bool
  | [] => false
  | p :: ps => conformsTo wanted p || anyConforms wanted ps

end

mutual

/-- Appends a protocol and everything above it to a list, depth first, unless it is listed. -/
def collect (out : List Protocol) : Protocol → List Protocol
  | p@⟨id, _, parents, _, _, _, _⟩ =>
    if out.any (·.id == id) then out else collectAll (out ++ [p]) parents

def collectAll (out : List Protocol) : List Protocol → List Protocol
  | [] => out
  | p :: ps => collectAll (collect out p) ps

end

/-! ## Declaring -/

open Program (DeclareItem)

/-- A protocol under construction: what it declares so far, and the renames still to be checked,
each with whether it was declared for a selector without arguments. -/
structure Draft where
  methods : List MethodDeclaration
  properties : List PropertyDeclaration
  renames : List (Rename × Bool)

/-- Declares a method, unless its types cannot be read or do not fit its selector. -/
def Draft.addMethod (d : Draft) (kind : MethodKind) (selector types : String) :
    Except DeclarationError Draft :=
  match Signature.readMethod types with
  | .error fault => .error (.invalidEncoding types fault)
  | .ok signature =>
    let s : Selector := ⟨selector⟩
    if signature.arity ≠ s.arity then .error (.arityMismatch s signature.arity)
    else .ok { d with methods := d.methods ++ [⟨s, signature, kind⟩] }

/-- Declares a property, unless its type cannot be read. -/
def Draft.addProperty (d : Draft) (name encoding : String) (getter : Selector)
    (setter : Option Selector) : Except DeclarationError Draft :=
  match Encoding.read encoding with
  | .error fault => .error (.invalidEncoding encoding fault)
  | .ok e => .ok { d with properties := d.properties ++ [⟨name, e, getter, setter⟩] }

/-- Adds one item of a declaration. -/
def Draft.add (d : Draft) : DeclareItem → Except DeclarationError Draft
  | .method selector types => d.addMethod .onInstance selector types
  | .classMethod selector types => d.addMethod .onClass selector types
  | .initializer selector types => d.addMethod .initializer selector types
  | .property name encoding => d.addProperty name encoding ⟨name⟩ (some (.setterFor name))
  | .readonly name encoding => d.addProperty name encoding ⟨name⟩ none
  | .accessors name encoding getter setter =>
    d.addProperty name encoding ⟨getter⟩ (setter.map Selector.mk)
  | .exportAs name selector =>
    .ok { d with renames := d.renames ++ [(⟨name, ⟨selector⟩⟩, false)] }
  | .exportNullaryAs name selector =>
    .ok { d with renames := d.renames ++ [(⟨name, ⟨selector⟩⟩, true)] }

/-- Why a rename does not fit its selector. -/
def renameFault? (p : Protocol) (r : Rename) (nullary : Bool) : Option RenameFault :=
  if nullary && r.selector.arity != 0 then some .takesArguments
  else if !nullary && r.selector.arity == 0 then some .takesNone
  else if (p.method? r.selector).isNone then some .undeclared
  else none

/-- Adds the renames in order; the first one that does not fit is the error. -/
def addRenames (p : Protocol) : List (Rename × Bool) → Except DeclarationError Protocol
  | [] => .ok p
  | (r, nullary) :: rest =>
    match p.renameFault? r nullary with
    | some fault => .error (.invalidRename r.name r.selector fault)
    | none => addRenames { p with renames := p.renames ++ [r] } rest

/-- The protocol that a list of declarations makes. Errors of operations and properties come before
errors of renames. -/
def declare (id : Nat) (name : String) (parents : List Protocol) (marked : Bool)
    (items : List DeclareItem) : Except DeclarationError Protocol := do
  let d ← items.foldlM Draft.add ⟨[], [], []⟩
  addRenames ⟨id, name, parents, marked, d.methods, d.properties, []⟩ d.renames

end Protocol

end ScriptBridge
