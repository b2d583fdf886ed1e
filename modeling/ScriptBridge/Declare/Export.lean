import ScriptBridge.Declare.Class

/-!
# Exports

An `ExportTable` lists what scripts see of a class: the methods, properties and initializers of the
exported protocols along its ancestors, under their script names. A rename of a selector counts for
every exported protocol, and the last one wins. `ExportTable.build` fails when two selectors claim
one name.
-/

namespace ScriptBridge

/-- A method under the name that scripts see. -/
structure ExportedMethod where
  name : String
  selector : Selector
  signature : Signature
  deriving Inhabited

/-- Two selectors that claim one name. -/
structure NameClash where
  className : String
  name : String
  first : Selector
  second : Selector

def NameClash.message (c : NameClash) : String :=
  c.className ++ ": '" ++ c.name ++ "' is claimed by both " ++ c.first.name ++ " and "
    ++ c.second.name

/-- What a class exports to scripts, under the names scripts see. -/
structure ExportTable where
  className : String
  instanceMethods : List ExportedMethod := []
  classMethods : List ExportedMethod := []
  properties : List PropertyDeclaration := []
  initializers : List ExportedMethod := []
  indexGetter : Option ExportedMethod := none
  indexSetter : Option ExportedMethod := none
  deriving Inhabited

/-- The exported protocols of a class, in the order of `Class.allProtocols`. -/
def Class.exportedProtocols (c : Class) : List Protocol := c.allProtocols.filter (·.isExported)

namespace ExportTable

/-- The method that reads a subscript. -/
def indexGetterSelector : Selector := ⟨"objectAtIndexedSubscript:"⟩

/-- The method that writes a subscript. -/
def indexSetterSelector : Selector := ⟨"setObject:atIndexedSubscript:"⟩

/-- The name that scripts see for a selector: the last rename, or the selector's own name. -/
def exportedName (renames : List Rename) (s : Selector) : String :=
  match renames.reverse.find? (·.selector == s) with
  | some r => r.name
  | none => s.scriptName

/-- Lists a method under its name; a name belongs to one selector, and its first method stays. -/
def insertUnique (className : String) (methods : List ExportedMethod) (m : ExportedMethod) :
    Except NameClash (List ExportedMethod) :=
  match methods.find? (·.name == m.name) with
  | none => .ok (methods ++ [m])
  | some existing =>
    if existing.selector = m.selector then .ok methods
    else .error ⟨className, m.name, existing.selector, m.selector⟩

/-- Exports a declared method, unless another selector has taken its name. The last method that reads or
writes subscripts counts. -/
def addMethod (renames : List Rename) (t : ExportTable) (d : MethodDeclaration) :
    Except NameClash ExportTable :=
  let m : ExportedMethod := ⟨exportedName renames d.selector, d.selector, d.signature⟩
  match d.kind with
  | .initializer =>
    if t.initializers.any (·.selector == d.selector) then .ok t
    else .ok { t with initializers := t.initializers ++ [m] }
  | .onInstance => do
    let methods ← insertUnique t.className t.instanceMethods m
    return { t with
      instanceMethods := methods
      indexGetter := if d.selector = indexGetterSelector then some m else t.indexGetter
      indexSetter := if d.selector = indexSetterSelector then some m else t.indexSetter }
  | .onClass => do
    return { t with classMethods := ← insertUnique t.className t.classMethods m }

/-- Lists a property unless its name is taken. -/
def addProperty (t : ExportTable) (d : PropertyDeclaration) : ExportTable :=
  if t.properties.any (·.name == d.name) then t
  else { t with properties := t.properties ++ [d] }

/-- Exports the methods of a protocol, then its properties. -/
def addProtocol (renames : List Rename) (t : ExportTable) (p : Protocol) :
    Except NameClash ExportTable := do
  let t ← p.methods.foldlM (addMethod renames) t
  return p.properties.foldl addProperty t

/-- What scripts see of a class. -/
def build (c : Class) : Except NameClash ExportTable :=
  let protocols := c.exportedProtocols
  let renames := protocols.flatMap (·.renames)
  protocols.foldlM (addProtocol renames) { className := c.name }

/-- The property of a name. -/
def property? (t : ExportTable) (name : String) : Option PropertyDeclaration :=
  t.properties.find? (·.name == name)

/-- The first initializer that takes a number of arguments. -/
def initializer? (t : ExportTable) (arity : Nat) : Option ExportedMethod :=
  t.initializers.find? (·.signature.arity == arity)

end ExportTable

end ScriptBridge
