import ScriptBridge.Machine.Collection

/-!
# Actions

An `Action` is one elementary operation on the machine; `Action.run` says what it does. Programs
change the machine by actions only, so what every action keeps, every program keeps.
-/

namespace ScriptBridge

/-- The primitive steps of a routine, each with the type of what it gives back. -/
inductive Action : Type → Type 1 where
  /-- Looks at the machine. -/
  | read {β : Type} (f : Machine → β) : Action β
  /-- Stores a new object and hands it out. -/
  | allocate (o : Object) : Action Ref
  /-- Hands out a value: an object stays reachable until the innermost region closes. -/
  | track (v : Value) : Action Unit
  | edit (r : Ref) (e : Edit) : Action Unit
  | openRegion (context : Nat) : Action Unit
  /-- Closes the innermost region. When none is left, enough allocations make it collect, unless a panic
  is under way. -/
  | closeRegion (panicking : Bool) : Action Unit
  | beginCall (c : CallRecord) (f : Frame) : Action Unit
  | endCall : Action Unit
  | pushFrame (f : Frame) : Action Unit
  | popFrame : Action Unit
  /-- Sets the position of the innermost frame. -/
  | position (line column : Nat) : Action Unit
  | addSource (resource source : String) : Action Unit
  /-- Opens a group of native values that an operation holds. -/
  | openHold : Action Unit
  | closeHold : Action Unit
  | hold (v : NativeValue) : Action Unit
  /-- Keeps a context. -/
  | holdContext (context : Nat) : Action Unit
  /-- Lets go of the context that was kept last. -/
  | releaseContext : Action Unit
  | addContext (c : Context) : Action Nat
  /-- Enters the template of a class into a context. -/
  | addTemplate (context : Nat) (t : Template) : Action Unit
  /-- Stores a new object and enters it as the wrapper of a key into the table of a context, until the
  object is freed. -/
  | addWrapper (context : Nat) (key : NativeKey) (o : Object) : Action Ref
  | addNative (o : NativeObject) : Action Nat
  | setCell (serial : Nat) (cell : String) (v : NativeValue) : Action Unit
  /-- Makes a managed value, or the identity of a foreign token. -/
  | addManaged (v : Option Value) : Action Nat
  /-- Adds an owner of a managed value; false if it is one already, or if the value is no live object. -/
  | addOwner (id owner : Nat) : Action Bool
  /-- Removes an owner of a managed value; false if it is none. -/
  | removeOwner (id owner : Nat) : Action Bool
  | collect : Action Cycle
  | setOptions (f : Options → Options) : Action Unit
  | setEvaluator (programs : Named Program.Body) : Action Unit
  | tables {β : Type} (f : Tables → β × Tables) : Action β

namespace Machine

/-- Stores a new object, and records it in the innermost region. -/
def allocate (m : Machine) (o : Object) : Ref × Machine :=
  let (r, heap) := m.heap.allocate o
  let collector := { m.collector with allocations := m.collector.allocations + 1 }
  (r, { m with heap, collector }.record r)

/-- Enters a wrapper into the table of a context, with a callback for its end. -/
def register (m : Machine) (context : Nat) (key : NativeKey) (wrapper : Ref) : Machine :=
  { m with
    contexts := m.contexts.modify context fun c =>
      { c with wrappers := (key, wrapper) :: c.wrappers.filter (·.1 != key) }
    weak := ⟨wrapper, context, key⟩ :: m.weak }

def holdContext (m : Machine) (context : Nat) : Machine :=
  { m with contextHolds := context :: m.contextHolds }

def releaseContext (m : Machine) : Machine := { m with contextHolds := m.contextHolds.tail }

/-- Opens a region of a context. -/
def enterRegion (m : Machine) (context : Nat) : Machine :=
  { m with
    regions := ⟨context, []⟩ :: m.regions
    current := context :: m.current
    regionDepth := m.regionDepth + 1 }

/-- Drops the handles of the innermost region, and its context from those entered. -/
def leaveRegion (m : Machine) : Machine :=
  { m with
    regions := m.regions.tail
    current := m.current.tail
    regionDepth := m.regionDepth - 1 }

/-- Whether the end of the last region makes a collection due. -/
def collectionDue (m : Machine) (panicking : Bool) : Bool :=
  !panicking && m.options.gcThreshold ≤ m.collector.allocations

/-- Closes the innermost region. Its context is kept until the collection that this may call for is
done. -/
def closeRegion (m : Machine) (panicking : Bool) : Machine :=
  match m.regions with
  | [] => m.leaveRegion
  | region :: _ =>
    if m.leaveRegion.regionDepth = 0 && m.collectionDue panicking then
      (m.leaveRegion.holdContext region.context).collect.2.releaseContext
    else m.leaveRegion

/-- The entry of a target with a further owner, and whether it is new. Owners that died are forgotten. -/
def own (m : Machine) (id : Nat) (target : Ref) (owner : Nat) : Bool × Machine :=
  match m.persistent.find? (·.id == id) with
  | none => (true, { m with persistent := m.persistent ++ [⟨id, target, [owner]⟩] })
  | some e =>
    let owners := e.owners.filter m.nativeAlive
    let isNew := !owners.contains owner
    let owners := if isNew then owners ++ [owner] else owners
    let persistent := m.persistent.map fun p => if p.id == id then { p with owners } else p
    (isNew, { m with persistent })

/-- Adds an owner to a managed value. A value that is no live object cannot be owned. -/
def addOwner (m : Machine) (id owner : Nat) : Bool × Machine :=
  match m.managedValue? id with
  | some (.object target) => m.own id target owner
  | _ => (false, m)

/-- The entries without an owner of a managed value, and whether it was one. An entry leaves with
its last owner. -/
def removeOwner (m : Machine) (id owner : Nat) : Bool × Machine :=
  match m.persistent.find? (·.id == id) with
  | none => (false, m)
  | some e =>
    let owners := e.owners.filter (· != owner)
    let rest :=
      if owners.isEmpty then m.persistent.filter (·.id != id)
      else m.persistent.map fun p => if p.id == id then { p with owners } else p
    (owners.length != e.owners.length, { m with persistent := rest })

end Machine

/-- What an action gives, and the machine after it. -/
def Action.run {β : Type} : Action β → Machine → β × Machine
  | .read f, m => (f m, m)
  | .allocate o, m => m.allocate o
  | .track v, m =>
    match v with
    | .object r => ((), m.record r)
    | _ => ((), m)
  | .edit r e, m => ((), { m with heap := m.heap.edit r e })
  | .openRegion context, m => ((), m.enterRegion context)
  | .closeRegion panicking, m => ((), m.closeRegion panicking)
  | .beginCall c f, m => ((), { m with calls := m.calls.push c, frames := m.frames.push f })
  | .endCall, m => ((), { m with calls := m.calls.pop, frames := m.frames.pop })
  | .pushFrame f, m => ((), { m with frames := m.frames.push f })
  | .popFrame, m => ((), { m with frames := m.frames.pop })
  | .position line column, m =>
    ((), { m with frames := m.frames.mapTop fun f => { f with line, column } })
  | .addSource resource source, m =>
    ((), { m with sources := m.sources.insert resource source })
  | .openHold, m => ((), { m with holds := [] :: m.holds })
  | .closeHold, m => ((), { m with holds := m.holds.tail })
  | .hold v, m =>
    match m.holds with
    | [] => ((), m)
    | group :: rest => ((), { m with holds := (v :: group) :: rest })
  | .holdContext context, m => ((), m.holdContext context)
  | .releaseContext, m => ((), m.releaseContext)
  | .addContext c, m => (m.contexts.size, { m with contexts := m.contexts.push c })
  | .addTemplate context t, m =>
    ((), { m with contexts := m.contexts.modify context fun c =>
        { c with templates := t :: c.templates.filter (·.cls.id != t.cls.id) } })
  | .addWrapper context key o, m =>
    let (r, m) := m.allocate o
    (r, m.register context key r)
  | .addNative o, m =>
    let natives := m.natives.push o
    (natives.size, { m with natives })
  | .setCell serial cell v, m =>
    if serial = 0 then ((), m)
    else
      ((), { m with natives := m.natives.modify (serial - 1) fun o =>
          { o with cells := Named.insert o.cells cell v } })
  | .addManaged v, m => (m.managed.size, { m with managed := m.managed.push v })
  | .addOwner id owner, m => m.addOwner id owner
  | .removeOwner id owner, m => m.removeOwner id owner
  | .collect, m => m.collect
  | .setOptions f, m => ((), { m with options := f m.options })
  | .setEvaluator programs, m => ((), { m with evaluator := some programs })
  | .tables f, m =>
    let (b, t) := f m.tables
    (b, { m with tables := t })

end ScriptBridge
