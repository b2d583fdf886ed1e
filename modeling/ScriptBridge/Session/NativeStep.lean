import ScriptBridge.Session.ScopeStep

/-!
# Steps on native values and managed values

What each operation on native values does as a step, and what it shows.
-/

namespace ScriptBridge

open Routine
open Program

namespace Session

/-- What there is to know about a native value. -/
def infoFields (v : NativeValue) : List (String × Answer) :=
  [("kind", .text v.kindName), ("nil", .bool v.isNil), ("nil_or_null", .bool v.isNilOrNull),
    ("f64", v.number?.elim .null .number), ("bool", v.bool?.elim .null .bool),
    ("str", .ofText? v.text?), ("array", v.array?.elim .null fun items => .count items.length),
    ("object", v.object?.elim .null fun h => .count h.serial),
    ("closure", .ofText? (v.closure?.map fun c => c.signature.text)),
    ("equals_itself", .bool (v.equals v))]

/-- Adds an owner to a managed value. -/
def addOwner {ε : Type} (id : Nat) (owner : Handle) : Routine ε Bool := perform (.addOwner id owner.serial)

/-- How many owners a managed value has, and whether its value can still be read. -/
def showManaged {ε : Type} (id : Nat) : Routine ε Answer := do
  let owners ← read fun m => (m.liveOwners id).length
  let alive ← read fun m => (m.managedValue? id).isSome
  return .record [("owners", .count owners), ("alive", .bool alive)]

/-- Names a managed value, adds its first owner if there is one, and shows it. -/
def nameManaged (name : String) (id : Nat) (owner : Option Handle) : Routine Stop Answer := do
  if let some h := owner then
    let _ ← addOwner id h
  changeTables fun t => { t with managed := t.managed.insert name id }
  showManaged id

/-- The managed value of a name. -/
def managedNamed (name : String) : Routine Stop Nat := do
  found (← readTable (·.managed.get? name))

/-- An owner among the operands; it is an object. -/
def ownerOperand (env : Env) (e : NativeOperand) : Routine Stop Handle := do
  found (← operand env e).object?

/-- Adds an owner to the managed value that a value stands for, if it does stand for one. -/
def ownToken (token : NativeValue) (owner : Handle) : Routine Stop Answer :=
  match token with
  | .script (.managed id) => answerBool (addOwner id owner)
  | _ => return .bool false

/-- Runs a closure from native code. -/
def invokeClosure (c : Closure) (args : List NativeValue) : Routine Stop NativeValue := do
  raiseStop (← job (.perform c.body .nothing args))

/-- The operations on native values and on managed values. -/
def nativeStep (env : Env) (op : NativeStep) (dest : Option String) : Routine Stop Answer := do
  match op with
  | .bind value => keepNative env dest (← operand env value)
  | .drop name =>
    let dropped ← readTable fun t => (t.natives.get? name).isSome
    changeTables fun t => { t with natives := t.natives.erase name }
    return .record [("dropped", .bool dropped)]
  | .alive serial =>
    if ← read fun m => (m.native? serial).isSome then
      answerBool (read (·.nativeAlive serial))
    else return .null
  | .cellSet cell value =>
    let v ← operand env value
    match env.receiver? with
    | some h => done (perform (.setCell h.serial cell v))
    | none => .throw (.raised (.invalidArgument "receiver has no state"))
  | .cellGet object cell =>
    match (← operand env object).object? with
    | some h => keepNative env dest (← read (cellValue · h.serial cell))
    | none => keepNative env dest .nil
  | .equal a b =>
    let x ← operand env a
    let y ← operand env b
    return .bool (x.equals y)
  | .same a b =>
    let x ← operand env a
    let y ← operand env b
    match x.object?, y.object? with
    | some h, some k => return .bool (h.serial == k.serial)
    | _, _ => return .bool false
  | .info value debug key =>
    let v ← operand env value
    let debugField := if debug then [("debug", Answer.text v.debugText)] else []
    let keyField ←
      match key with
      | some k =>
        match v.get? k with
        | some item => pure [("get", ← showNative env.scope.isSome item)]
        | none => pure [("get", Answer.null)]
      | none => pure []
    return .record (infoFields v ++ debugField ++ keyField)
  | .extract args index shape =>
    let args ← operands env args
    keepNative env dest (← raiseStop (NativeValue.argument args index shape))
  | .log value =>
    let shown ← showNative env.scope.isSome (← operand env value)
    done (pushLog shown)
  | .raise name reason => .throw (.raised ⟨name, reason⟩)
  | .panic message => .panic (some message)
  | .invokeClosure key args =>
    let c ← found (← readTable (·.closures.get? key))
    let args ← operands env args
    keepNative env dest (← invokeClosure c args)
  | .managed name value owner =>
    let s ← env.inScope
    let v ← evaluate env s value
    let owner ←
      match owner with
      | some e => some <$> ownerOperand env e
      | none => pure none
    nameManaged name (← perform (.addManaged (some v))) owner
  | .managedInfo name => showManaged (← managedNamed name)
  | .managedValue name =>
    match ← Scope.managedValue (← managedNamed name) with
    | some v => keepScript dest v
    | none => return .record [("none", .bool true)]
  | .managedAdd name owner =>
    let id ← managedNamed name
    answerBool (addOwner id (← ownerOperand env owner))
  | .managedRemove name owner =>
    let id ← managedNamed name
    let h ← ownerOperand env owner
    answerBool (perform (.removeOwner id h.serial))
  | .managedDrop name =>
    let dropped ← readTable fun t => (t.managed.get? name).isSome
    changeTables fun t => { t with managed := t.managed.erase name }
    return .record [("dropped", .bool dropped)]
  | .tokenOwn value owner =>
    let v ← operand env value
    let owner ←
      match owner with
      | some e => ownerOperand env e
      | none => found env.receiver?
    ownToken v owner

end Session

end ScriptBridge
