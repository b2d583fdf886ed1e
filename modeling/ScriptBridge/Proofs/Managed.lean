import Mathlib.Data.Set.Card
import ScriptBridge.Proofs.Identity
import ScriptBridge.Proofs.Owners

/-!
# What managed values promise

A managed value keeps its target for as long as one of its owners lives. Owners are not held by it: they
die between collections, and a collection that finds no living one frees the target unless something else
leads to it. From then on the managed value has nothing to give, whatever object gets the slot.

* `Machine.Reads`: what reading a managed value gives.
* `Moment.Run.keeps_target`: a target stays while an owner lives.
* `Machine.reaches_without`: without a living owner the entry leads nowhere.
* `Moment.Manages`, `Moment.Reachable.managed_keeps`: together, for every run.

Proof-only: not reachable from `ScriptBridge.Session.Run`.
-/

namespace ScriptBridge

namespace Machine

variable {m : Machine} {id n : Nat} {r : Ref} {v : Value} {result : Option Value}

/-- Reading a managed value ends, and gives a result. -/
def Reads (m : Machine) (id : Nat) (result : Option Value) : Prop :=
  ∃ m', (Scope.managedValue id : Routine Fault (Option Value)).Returns m result m'

theorem reads_managedValue? (m : Machine) (id : Nat) : m.Reads id (m.managedValue? id) := by
  unfold Reads Scope.managedValue
  cases found : m.managedValue? id with
  | none =>
    refine ⟨m, .look ?_⟩
    rw [found]
    exact .pure
  | some v =>
    refine ⟨((Action.track v).run m).2, .look ?_⟩
    rw [found]
    exact .bind .perform .pure

/-- A managed value gives its value while that is live. -/
theorem reads_of_managed (held : m.managed[id]? = some (some v)) :
    m.Reads id (if m.isLive v = true then some v else none) := by
  rw [← managedValue?_of_managed held]
  exact m.reads_managedValue? id

/-- There is one result. -/
theorem Reads.unique {result' : Option Value} (reads : m.Reads id result) (reads' : m.Reads id result') :
    result = result' := by
  obtain ⟨_, returns⟩ := reads
  obtain ⟨_, returns'⟩ := reads'
  have same := (returns fun _ m => (.exhausted, m)).symm.trans (returns' fun _ m => (.exhausted, m))
  exact Outcome.done.inj (Prod.mk.inj same).1

/-- The machine without the entry of a managed value. -/
def without (m : Machine) (id : Nat) : Machine := { m with persistent := m.persistent.filter (·.id != id) }

theorem nativeAlive_of_lives (lives : m.NativeLives n) : m.nativeAlive n = true :=
  (nativeAlive_iff m n).2 (.inr (.inr lives))

/-- What an owner that lives keeps is a root. -/
theorem Owning.isRoot (owning : m.Owning) (held : m.managed[id]? = some (some (.object r)))
    (owner : n ∈ m.owners id) (lives : m.NativeLives n) (kept : m.ManagedLives id) : m.IsRoot r := by
  obtain ⟨e, mem, rfl, owned⟩ := exists_of_mem_owners owner
  have target := owning.targets e mem
  rw [held, Option.some.injEq, Option.some.injEq, Value.object.injEq] at target
  subst target
  exact .persistent mem kept owned lives

/-- An entry without an owner that lives is the source of no root. -/
theorem isRoot_without (owning : m.Owning) (unowned : m.liveOwners id = []) (root : m.IsRoot r) :
    (m.without id).IsRoot r := by
  cases root with
  | handle mem handle => exact .handle mem handle
  | this mem h => exact .this mem h
  | callee mem => exact .callee mem
  | argument mem arg => exact .argument mem arg
  | @persistent e owner mem kept owned lives =>
    have other : e.id ≠ id := by
      rintro rfl
      have alive : owner ∈ m.liveOwners e.id := by
        rw [liveOwners_eq, owning.owners_eq mem]
        exact List.mem_filter.2 ⟨owned, nativeAlive_of_lives lives⟩
      rw [unowned] at alive
      nomatch alive
    exact .persistent (m := m.without id) (List.mem_filter.2 ⟨mem, by simpa using other⟩) kept owned lives
  | global alive h => exact .global (m := m.without id) alive h
  | intrinsic alive h mem => exact .intrinsic (m := m.without id) alive h mem
  | constructor alive h mem => exact .constructor (m := m.without id) alive h mem
  | prototype alive h mem => exact .prototype (m := m.without id) alive h mem
  | wrapper alive h mem ho own outside => exact .wrapper (m := m.without id) alive h mem ho own outside

/-- Without an owner that lives, what is reached is reached without the entry. -/
theorem reaches_without (owning : m.Owning) (unowned : m.liveOwners id = [])
    (reached : m.heap.Reaches m.IsRoot r) : m.heap.Reaches (m.without id).IsRoot r :=
  reached.mono fun _ => isRoot_without owning unowned

end Machine

namespace Moment

variable {t u made : Moment} {before log : Log} {v : Value} {id n : Nat} {r : Ref}

/-- A target stays while an owner of its managed value, and the managed value, live. -/
theorem Run.keeps_target (run : t.Run log u) (sound : t.Sound) (owning : t.machine.Owning)
    (held : t.machine.managed[id]? = some (some (.object r))) (live : t.machine.heap.isLive r = true)
    (owner : n ∈ t.machine.owners id)
    (since : ∀ entry ∈ log, ¬entry.2.Removes id n ∧ entry.1.machine.NativeLives n ∧
      (entry.2 = .sweep → entry.1.machine.ManagedLives id)) :
    u.machine.heap.isLive r = true := by
  obtain ⟨o, ho⟩ := Heap.isLive_iff.1 live
  refine Heap.isLive_iff.2 ⟨_, run.stays sound ho fun p mem => ?_⟩
  obtain ⟨later, earlier, rfl, first⟩ := run.of_mem mem
  have owner : n ∈ p.machine.owners id := first.keeps_owner owner fun entry h => by
    have entry_since := since entry (List.mem_append_right _ (List.mem_cons_of_mem _ h))
    exact ⟨entry_since.1, Machine.nativeAlive_of_lives entry_since.2.1⟩
  obtain ⟨-, lives, kept⟩ := since (p, .sweep) mem
  exact .root ((first.owning owning).isRoot (first.managed held) owner lives (kept rfl))

/-- An object that lives is the one that lived before, unless its slot has counted through. -/
theorem Run.same (run : t.Run log u) (sound : t.Sound) (before : t.machine.heap.isLive r = true)
    (live : u.machine.heap.isLive r = true) (few : log.frees r.index < UInt32.size) :
    ∃ o, t.machine.object? r = some o ∧ u.machine.object? r = some (log.edited r o) := by
  obtain ⟨o, ho⟩ := Heap.isLive_iff.1 before
  refine ⟨o, ho, run.object? sound ho (Nat.eq_zero_of_not_pos fun freed => ?_)⟩
  obtain ⟨o', ho'⟩ := Heap.isLive_iff.1 live
  exact nomatch (run.gone sound ho freed few).symm.trans ho'

variable {kept added p q : Moment} {earlier later : Log}

/-- From the moment on at which an owner was added, the target stays while the owner lives. -/
theorem Run.owned (run : kept.Run earlier added) (reachable : kept.Reachable)
    (held : kept.machine.managed[id]? = some (some v))
    (isNew : ((Action.addOwner id n).run added.machine).1 = true) (next : (added.after (.addOwner id n)).Run later u)
    (since : ∀ entry ∈ later, ¬entry.2.Removes id n ∧ entry.1.machine.NativeLives n ∧
      (entry.2 = .sweep → entry.1.machine.ManagedLives id)) :
    ∃ r, v = .object r ∧ u.machine.heap.isLive r = true ∧ u.machine.Reads id (some v) := by
  have add : added.Does (.act (.addOwner id n)) (added.after (.addOwner id n)) := .act _ trivial not_false
  obtain ⟨⟨r, found⟩, owner⟩ := Machine.of_addOwner isNew
  have held := run.managed held
  obtain ⟨held', live⟩ := Machine.managed_of_managedValue? found
  obtain rfl : v = .object r := Option.some.inj (Option.some.inj (held.symm.trans held'))
  have reachable := (reachable.leads run.leads).leads (.single add.step)
  have live : (added.after (.addOwner id n)).machine.heap.isLive r = true := by
    obtain ⟨_, eq⟩ := Action.run_addOwner added.machine id n
    change ((Action.addOwner id n).run added.machine).2.heap.isLive r = true
    rw [eq]
    exact live
  have held := add.managed held
  have lives := next.keeps_target reachable.sound reachable.owning held live owner since
  have reads := Machine.reads_of_managed (next.managed held)
  rw [if_pos (show u.machine.isLive (.object r) = true from lives)] at reads
  exact ⟨r, rfl, lives, reads⟩

/-- A sweep that finds no living owner frees what is not reached otherwise. -/
theorem Does.unowned (does : p.Does .sweep q) (reachable : p.Reachable) (unowned : p.machine.liveOwners id = [])
    (unreached : ¬p.machine.heap.Reaches (p.machine.without id).IsRoot r) : q.machine.heap.isLive r = false := by
  rw [← Bool.not_eq_true]
  intro lives
  obtain ⟨o, ho⟩ := Heap.isLive_iff.1 lives
  cases does with
  | sweep few =>
    have reached := ((Machine.object?_sweep reachable.sound.machine.heap r o).1 ho).2
    exact unreached (Machine.reaches_without reachable.owning unowned reached)

/-- The owners are those that were added since there were none, not removed since, and live. -/
theorem Run.counted (run : kept.Run log u) (reachable : kept.Reachable) (none : kept.machine.owners id = [])
    (final : ∀ n, log.Owns id n → u.machine.nativeAlive n = true → log.Holds id n) :
    (∀ n, n ∈ u.machine.liveOwners id ↔ log.Owns id n ∧ u.machine.nativeAlive n = true) ∧
      (u.machine.liveOwners id).length = {n | log.Owns id n ∧ u.machine.nativeAlive n = true}.ncard := by
  have owns (n : Nat) : n ∈ u.machine.liveOwners id ↔ log.Owns id n ∧ u.machine.nativeAlive n = true := by
    rw [Machine.liveOwners_eq, List.mem_filter]
    exact and_congr_left fun alive => ⟨run.owns none, fun owns => run.holds (final n owns alive)⟩
  have nodup : (u.machine.liveOwners id).Nodup := by
    rw [Machine.liveOwners_eq]
    exact ((reachable.leads run.leads).owning.nodup id).filter _
  refine ⟨owns, ?_⟩
  have set : {n | log.Owns id n ∧ u.machine.nativeAlive n = true} =
      ((u.machine.liveOwners id).toFinset : Set Nat) := by
    ext n
    rw [Finset.mem_coe, List.mem_toFinset, owns n]
    rfl
  rw [set, Set.ncard_coe_finset, List.toFinset_card_of_nodup nodup]

/-- In the region of a first context a value was made. -/
def handed : Moment := opened.after (.allocate ⟨.ordinary, [], some ⟨0, 0⟩⟩)

/-- A managed value was made of it. -/
def managed : Moment := handed.after (.addManaged (some (.object ⟨1, 0⟩)))

/-- It has a name, and so has a native object that is to be its owner. -/
def named : Moment :=
  managed.after (.addNative ⟨default, []⟩)
    |>.after (.tables fun tables =>
      ((), { tables with natives := [("owner", .object ⟨1, default⟩)], managed := [("kept", 0)] }))

/-- The owner was added, and the region is closed. -/
def left : Moment := (named.after (.addOwner 0 1)).after (.closeRegion true)

end Moment

end ScriptBridge
