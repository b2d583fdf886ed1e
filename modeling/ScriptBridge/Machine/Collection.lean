import ScriptBridge.Machine.Liveness

/-!
# Collections

A collection marks what the roots reach and frees the rest. The roots are the handles of open regions,
active calls, values kept for living owners, and for each living context its global object, its
prototypes, its class templates, and the wrappers that carry properties of their own while their
native object is held outside the wrapper tables.

After the sweep the entries of freed wrappers leave the wrapper tables, one callback at a time, which
may end the lives of native objects.

* `Machine.roots`: where a collection starts.
* `Machine.sweep`, `Machine.dropWrapper`, `Machine.finish`: its phases, which `Machine.collect` runs.
-/

namespace ScriptBridge

namespace Machine

/-- The references of an active call. -/
def callRoots (c : CallRecord) : List Ref :=
  c.this.ref?.toList ++ [c.callee] ++ c.args.filterMap Value.ref?

/-- The targets kept for living owners. -/
def persistentRoots (m : Machine) (living : Array Bool) : List Ref :=
  if m.persistent.isEmpty then []
  else
    let managed := m.managedSurvivors living
    m.persistent.filterMap fun e =>
      if managed.contains e.id && e.owners.any (flagged living) then some e.target else none

/-- The objects held by registers, running operations and the cells of living objects. -/
def outsideHolds (m : Machine) (living : Array Bool) : List Nat :=
  m.heldValues.flatMap NativeValue.objects ++ (m.livingCells living).flatMap NativeValue.objects

/-- The wrappers of a context that carry properties while their object is held elsewhere. -/
def wrapperRoots (m : Machine) (outside : Array Bool) (c : Context) : List Ref :=
  c.wrappers.filterMap fun (key, wrapper) =>
    match key with
    | .object serial =>
      if flagged outside serial && (m.object? wrapper).any (!·.properties.isEmpty) then some wrapper
      else none
    | .closure _ => none

/-- The roots of a living context. -/
def contextRoots (m : Machine) (outside : Array Bool) (c : Context) : List Ref :=
  c.global :: c.intrinsics.all
    ++ c.templates.flatMap (fun t => [t.constructor, t.prototype])
    ++ m.wrapperRoots outside c

/-- Everything that a collection starts from. -/
def roots (m : Machine) : List Ref :=
  let living := m.survivors
  let outside := setFlags (Array.replicate m.natives.size false) (m.outsideHolds living)
  m.regions.flatMap (·.handles)
    ++ m.calls.items.flatMap callRoots
    ++ m.persistentRoots living
    ++ m.liveContexts.flatMap (m.contextRoots outside)

/-! ## Phases -/

/-- What a sweep freed, and the callbacks that it leaves to run: those of freed wrappers, in the order
of their registration. -/
structure Sweep where
  cycle : Cycle
  callbacks : List WeakEntry

/-- Frees what the roots do not reach. -/
def sweep (m : Machine) : Sweep × Machine :=
  let (heap, marked) := m.heap.mark m.roots
  let (freed, heap) := heap.sweep
  let (live, dead) := m.weak.partition fun e => heap.isLive e.target
  (⟨⟨marked, freed, dead.length⟩, dead.reverse⟩, { m with heap, weak := live })

/-- Drops the entry of a key if it still belongs to the wrapper. -/
def dropWrapper (m : Machine) (e : WeakEntry) : Machine :=
  { m with
    contexts := m.contexts.modify e.context fun c =>
      { c with wrappers := c.wrappers.filter fun w => !(w.1 == e.key && w.2 == e.target) } }

/-- Counts a collection once its callbacks have run. -/
def finish (m : Machine) (cycle : Cycle) : Machine :=
  let c := m.collector
  { m with
    collector :=
      { allocations := 0
        collections := c.collections + 1
        freed := c.freed + cycle.freed
        finalizers := c.finalizers + cycle.finalized
        lastMarked := cycle.marked
        lastFreed := cycle.freed
        live := m.heap.live } }

/-- Frees what the roots do not reach, and drops the entries of freed wrappers. -/
def collect (m : Machine) : Cycle × Machine :=
  let (swept, m) := m.sweep
  (swept.cycle, (swept.callbacks.foldl dropWrapper m).finish swept.cycle)

end Machine

end ScriptBridge
