import ScriptBridge.Scope.Builtin
import ScriptBridge.Session.NativeStep

/-!
# Steps on the machine

Contexts, collections, options and declarations as steps.
-/

namespace ScriptBridge

open Routine
open Program

namespace Session

/-- The context of a name. -/
def contextNamed (name : String) : Routine Stop Nat := do
  found (← readTable (·.contexts.get? name))

/-- The name of a context. -/
def contextName (t : Tables) (id : Nat) : Option String := (t.contexts.find? (·.2 == id)).map (·.1)

/-- An identity for a protocol, a class or a closure. -/
def declareId : Routine Stop Nat := perform (.tables fun t =>
  (t.declared, { t with declared := t.declared + 1 }))

/-- The words for how operations are reached. -/
def methodKindName : MethodKind → String
  | .onInstance => "Instance"
  | .onClass => "Class"
  | .initializer => "Initializer"

/-- A declared operation: how it is reached, its selector and its signature. -/
def showMethod (d : MethodDeclaration) : Answer :=
  .list [.text (methodKindName d.kind), .text d.selector.name, .text d.signature.text]

/-- A declared property: its name, type, whether it is readonly, and its accessors. -/
def showProperty (d : PropertyDeclaration) : Answer :=
  .list [.text d.name, .text d.encoding.text, .bool d.setter.isNone, .text d.getter.name,
    .ofText? (d.setter.map Selector.name)]

/-- A protocol, with what it says about some selectors and some names. -/
def showProtocol (p : Protocol) (find conforms : List String) : Answer :=
  .record [("name", .text p.name), ("exported", .bool p.isExported),
    ("parents", .ofTexts (p.parents.map Protocol.name)),
    ("methods", .list (p.methods.map showMethod)),
    ("properties", .list (p.properties.map showProperty)),
    ("renames", .list (p.renames.map fun r => .list [.text r.name, .text r.selector.name])),
    ("find", .list (find.map fun s => (p.method? ⟨s⟩).elim .null showMethod)),
    ("conforms", .ofBools (conforms.map fun name => p.conformsTo name))]

/-- A class, with what it says about some selectors, some protocols and some other classes. -/
def showClass (c : Class) (responds classResponds conforms : List String) (others : List Class) :
    Answer :=
  .record [("name", .text c.name), ("super", .ofText? (c.superclass.map Class.name)),
    ("protocols", .ofTexts (c.protocols.map Protocol.name)),
    ("all_protocols", .ofTexts (c.allProtocols.map Protocol.name)),
    ("ancestors", .ofTexts (c.ancestors.map Class.name)),
    ("responds", .ofBools (responds.map fun s => c.respondsTo ⟨s⟩)),
    ("class_responds", .ofBools (classResponds.map fun s => (c.classMethod? ⟨s⟩).isSome)),
    ("conforms", .ofBools (conforms.map fun name => c.conformsTo name)),
    ("subclass_of", .ofBools (others.map fun o => c.isSubclassOf o)),
    ("factory", .bool c.factory.isSome), ("debug", .text c.debugText), ("receiver", .text c.name)]

/-- Declares a protocol. A declaration that is refused changes nothing. -/
def declareProtocol (key name : String) (parents : List String) (exported : Bool)
    (decls : List DeclareItem) : Routine Stop Answer := do
  let parents ← parents.mapM fun p => do found (← readTable (·.protocols.get? p))
  let id ← declareId
  match Protocol.declare id name parents exported decls with
  | .error e => return .ofDeclarationError e
  | .ok p => done (changeTables fun t => { t with protocols := t.protocols.insert key p })

/-- Declares a class. -/
def declareClass (key name : String) (super : Option String) (protocols : List String)
    (instanceMethods classMethods : List (String × Body)) (factory : Bool) :
    Routine Stop Answer := do
  let superclass ←
    match super with
    | some k => some <$> (do found (← readTable (·.classes.get? k)))
    | none => pure none
  let protocols ← protocols.mapM fun p => do found (← readTable (·.protocols.get? p))
  let id ← declareId
  let table (ms : List (String × Body)) : MethodTable :=
    .ofList (ms.map fun m => (⟨m.1⟩, m.2))
  let cls : Class :=
    { id, key, name, superclass, protocols
      instanceMethods := table instanceMethods
      classMethods := table classMethods
      factory := if factory then some [] else none }
  done (changeTables fun t => { t with classes := t.classes.insert key cls })

/-- Declares a closure. -/
def declareClosure (key types : String) (body : Body) : Routine Stop Answer := do
  match Signature.readClosure types with
  | .error fault => return .ofDeclarationError (.invalidEncoding types fault)
  | .ok signature =>
    let id ← declareId
    changeTables fun t => { t with closures := t.closures.insert key ⟨id, key, signature, body⟩ }
    return .record [("signature", .text signature.text)]

/-- What making another machine fails with. -/
def secondMachine (changes : OptionChanges) : BridgeError :=
  match (({} : Options).change changes).validate with
  | .error e => .config e
  | .ok _ => .alreadyRunning

/-- The operations on the machine, its contexts and its declarations. -/
def machineStep (env : Env) (op : MachineStep) (dest : Option String) : Routine Stop Answer := do
  match op with
  | .newContext name =>
    let id ← newContext
    done (changeTables fun t => { t with contexts := t.contexts.insert name id })
  | .dropContext name =>
    let dropped ← readTable fun t => (t.contexts.get? name).isSome
    changeTables fun t => { t with contexts := t.contexts.erase name }
    return .record [("dropped", .bool dropped)]
  | .collect => return .ofCycle (← perform .collect)
  | .collectorStats => return .ofCollector (← read (·.collector))
  | .heapStats => return .ofHeap (← read (·.heap))
  | .setThreshold n => done (perform (.setOptions fun o => { o with gcThreshold := n }))
  | .setStrategy report =>
    done (perform (.setOptions fun o =>
      { o with strategy := if report then .report else .rethrow }))
  | .showOptions => return .ofOptions (← read (·.options))
  | .secondMachine changes => .throw (.error (secondMachine changes))
  | .reported =>
    let (count, texts) ← perform (.tables fun t =>
      ((t.reports, t.reportTexts.reverse), { t with reportTexts := [] }))
    return .record [("count", .count count), ("texts", .ofTexts texts)]
  | .hasEvaluator => answerBool (read fun m => m.evaluator.isSome)
  | .contextGet ctx key => keepNative env dest (← Scope.contextGet (← contextNamed ctx) key)
  | .contextSet ctx key value =>
    let id ← contextNamed ctx
    holdingContext id do
      let v ← operand env value
      done (Scope.contextSet id key v)
  | .contextEvaluate ctx source resource =>
    keepNative env dest (← Scope.contextEvaluate (← contextNamed ctx) source resource)
  | .contextGlobal ctx dest =>
    let id ← Scope.globalObject (← contextNamed ctx)
    done (changeTables fun t => { t with managed := t.managed.insert dest id })
  | .setClass ctx name cls =>
    let id ← contextNamed ctx
    let cls ← found (← readTable (·.classes.get? cls))
    done (Scope.setClass id name cls)
  | .currentContext =>
    let current ← read fun m => m.current?.bind (contextName m.tables)
    return .ofText? current
  | .scopeContext =>
    let s ← env.inScope
    return .ofText? (← readTable fun t => contextName t s.context)
  | .sameMachine ctx =>
    let _ ← contextNamed ctx
    return .bool true
  | .protocol key name parents exported decls => declareProtocol key name parents exported decls
  | .protocolInfo key find conforms =>
    return showProtocol (← found (← readTable (·.protocols.get? key))) find conforms
  | .classInfo key responds classResponds conforms subclassOf =>
    let c ← found (← readTable (·.classes.get? key))
    let others ← subclassOf.mapM fun k => do found (← readTable (·.classes.get? k))
    return showClass c responds classResponds conforms others

end Session

end ScriptBridge
