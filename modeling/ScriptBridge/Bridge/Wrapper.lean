import ScriptBridge.Bridge.Exception

/-!
# Wrappers and templates

Each native object and closure has one wrapper per context, and each class one template: a
constructor, a prototype and the table of its exports.

* `Scope.templateFor` builds the template of a class, superclasses first, so that prototypes chain
  (`Scope.buildTemplate`).
* `Scope.wrapperFor`, `Scope.functionFor`: the wrapper of an object, the function of a closure.
* `Machine.wrapperState`: the object behind a wrapper.
-/

namespace ScriptBridge

/-- What a value stands for on the native side. -/
inductive WrapperState where
  | notWrapper
  /-- The object is gone. -/
  | released (className : String)
  | live (h : Handle)

namespace Machine

/-- Classifies a value as a wrapper. -/
def wrapperState (m : Machine) (v : Value) : WrapperState :=
  match m.wrapper? v with
  | none => .notWrapper
  | some w => if m.nativeAlive w.native.serial then .live w.native else .released w.className

/-- The object behind a wrapper, while it lives. -/
def nativeBehind? (m : Machine) (v : Value) : Option Handle :=
  match m.wrapperState v with
  | .live h => some h
  | _ => none

/-- The class whose constructor in the scope's context a value is. -/
def classOfConstructor? (m : Machine) (s : Scope) (v : Value) : Option Class := do
  let r ← v.ref?
  let t ← (m.scopeContext s).templates.find? (·.constructor == r)
  return t.cls

/-- The wrapper entered for a key, if it was not freed. -/
def registered? (m : Machine) (s : Scope) (key : NativeKey) : Option Ref := do
  let entry ← (m.scopeContext s).wrappers.find? (·.1 == key)
  if m.heap.isLive entry.2 then some entry.2 else none

end Machine

namespace Scope

open Routine

/-- Defines hidden functions for methods on an object. -/
def defineMethods (s : Scope) (on : Ref) (methods : List ExportedMethod)
    (callable : ExportedMethod → Callable) : Routine Fault Unit :=
  methods.forM fun m => do
    let f ← s.newFunction m.name (callable m)
    edit on (.define m.name (.hidden f))

/-- Builds the template of a class over that of its superclass, if it has one. -/
def buildTemplate (s : Scope) (cls : Class) (table : ExportTable) (parent : Option Template) :
    Routine Fault Template := do
  let above := (parent.map (·.prototype)).getD (← s.intrinsics).object
  let prototype ← perform (.allocate ⟨.ordinary, [], some above⟩)
  s.defineMethods prototype table.instanceMethods fun m => .method m cls
  let constructor ← s.newFunctionWith cls.name (.constructor cls table) (some prototype)
    (parent.map (·.constructor))
  s.defineMethods constructor table.classMethods fun m => .classMethod m cls
  let template : Template := ⟨cls, table, constructor, prototype⟩
  perform (.addTemplate s.context template)
  return template

/-- Builds the template of a class unless its exports clash. -/
def exportTemplate (s : Scope) (cls : Class) (parent : Option Template) : Routine Fault Template :=
  match ExportTable.build cls with
  | .error clash => .throw (.dispatch (.ambiguousRename clash))
  | .ok table => s.buildTemplate cls table parent

/-- The template of a class, built on first use. A class whose exports clash has none. -/
def templateFor (s : Scope) (cls : Class) : Routine Fault Template := do
  match ← read fun m => (m.scopeContext s).templates.find? (·.cls.id == cls.id) with
  | some t => return t
  | none =>
    match cls with
    | ⟨_, _, _, some superclass, _, _, _, _⟩ => do
      let parent ← s.templateFor superclass
      s.exportTemplate cls (some parent)
    | ⟨_, _, _, none, _, _, _, _⟩ => s.exportTemplate cls none
termination_by structural cls

/-- The wrapper of an object in the scope's context, made on first use. -/
def wrapperFor (s : Scope) (h : Handle) : Routine Fault Value := do
  match ← read (·.registered? s (.object h.serial)) with
  | some r =>
    track (.object r)
    return .object r
  | none =>
    let t ← s.templateFor h.cls
    return .object (← perform (.addWrapper s.context (.object h.serial)
      ⟨.wrapper ⟨h, h.cls.name, t.table, s.context⟩, [], some t.prototype⟩))

/-- The function of a closure in the scope's context, made on first use. -/
def functionFor (s : Scope) (c : Closure) : Routine Fault Value := do
  match ← read (·.registered? s (.closure c.id)) with
  | some r =>
    track (.object r)
    return .object r
  | none =>
    if !c.signature.isMarshalable then
      .throw (.dispatch (.unsupportedSignature "closure" c.signature.text))
    else
      return .object (← perform (.addWrapper s.context (.closure c.id)
        (functionObject (← s.intrinsics).function ⟨"", .closure c, s.context⟩ none)))

end Scope

end ScriptBridge
