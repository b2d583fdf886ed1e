import ScriptBridge.Machine.Basic

/-!
# Which native objects live

A native object lives as long as something holds it: a register, a running operation, the wrapper
table of a living context, or a cell of a living object. Objects that hold each other in a circle
keep each other alive, so the living ones are the greatest set with that property.

* `Machine.survivors`: for each object, whether it lives.
* `Machine.nativeAlive`, `Machine.managedAlive`: whether an object, or a managed value, lives.
-/

namespace ScriptBridge

namespace Machine

/-- The native values held by registers and by running operations. -/
def heldValues (m : Machine) : List NativeValue := m.tables.natives.map (·.2) ++ m.holds.flatten

/-- The objects that the wrapper tables of living contexts hold. -/
def registryHolds (m : Machine) : List Nat :=
  m.liveContexts.flatMap fun c =>
    c.wrappers.filterMap fun w =>
      match w.1 with
      | .object serial => some serial
      | .closure _ => none

/-- The objects that the cells of an object hold. -/
def cellHolds (o : NativeObject) : List Nat := o.cells.flatMap fun c => c.2.objects

/-- Sets the flags of some serial numbers. -/
def setFlags (flags : Array Bool) (serials : List Nat) : Array Bool :=
  serials.foldl (fun flags serial => if serial = 0 then flags else flags.setIfInBounds (serial - 1) true)
    flags

/-- Flags the objects that living objects hold in their cells. -/
def heldByCells (m : Machine) (living flags : Array Bool) : Array Bool :=
  (List.range m.natives.size).foldl
    (fun flags i =>
      if living.getD i false then
        match m.natives[i]? with
        | some o => setFlags flags (cellHolds o)
        | none => flags
      else flags)
    flags

/-- Leaves the objects that are held from outside or by one that was left before, over and over
until nothing changes. -/
def shrink (m : Machine) (direct : Array Bool) : Nat → Array Bool → Array Bool
  | 0, living => living
  | n + 1, living =>
    let next := m.heldByCells living direct
    if next == living then living else shrink m direct n next

/-- The objects held from outside the cells. -/
def directHolds (m : Machine) : List Nat :=
  m.heldValues.flatMap NativeValue.objects ++ m.registryHolds

/-- For each object, in the order of serial numbers, whether it lives. -/
def survivors (m : Machine) : Array Bool :=
  let direct := setFlags (Array.replicate m.natives.size false) m.directHolds
  m.shrink direct m.natives.size (Array.replicate m.natives.size true)

/-- Reads the flag of a serial number. -/
def flagged (flags : Array Bool) (serial : Nat) : Bool := serial != 0 && flags.getD (serial - 1) false

/-- Whether a native object lives. What an open region wraps and what is held directly lives without a
look at the cells. -/
def nativeAlive (m : Machine) (serial : Nat) : Bool :=
  m.regions.any (fun region =>
    (m.context? region.context).any fun c => c.wrappers.any (·.1 == .object serial))
  || m.directHolds.contains serial || flagged m.survivors serial

/-- The values in the cells of living objects. -/
def livingCells (m : Machine) (living : Array Bool) : List NativeValue :=
  (List.range m.natives.size).flatMap fun i =>
    if living.getD i false then
      match m.natives[i]? with
      | some o => o.cells.map (·.2)
      | none => []
    else []

/-- The managed values that live: named ones, and those behind a token that something holds. -/
def managedSurvivors (m : Machine) (living : Array Bool) : List Nat :=
  m.tables.managed.map (·.2)
    ++ m.heldValues.flatMap NativeValue.tokens
    ++ (m.livingCells living).flatMap NativeValue.tokens

/-- The script value of a managed value, unless it was collected. -/
def managedValue? (m : Machine) (id : Nat) : Option Value := (m.managed.getD id none).filter m.isLive

/-- The owners of a managed value that live. -/
def liveOwners (m : Machine) (id : Nat) : List Nat :=
  match m.persistent.find? (·.id == id) with
  | some e => e.owners.filter m.nativeAlive
  | none => []

end Machine

end ScriptBridge
