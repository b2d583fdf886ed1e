import Mathlib.Logic.Relation
import ScriptBridge.Proofs.Registry

/-!
# What can happen to a machine

A `Moment` is the machine between two events, with the collections that are under way: after a sweep
the callbacks of freed wrappers run one at a time, and what they let go of may act in between, wrap the
same objects again and even start another collection.

* `Action.Legal`: what an action counts on. `Action.Collects` tells the actions that run a collection, and
  `Action.changes` says what the others can change.
* `Moment.Step`: one event. An action, a sweep, a callback, or the end of a collection.
* `Moment.Reachable`: what a start leads to. All machines that sessions pass are among them: see
  `Session.reachable_points`.
* `Moment.Sound`: the invariant, with the books of the callbacks. `Moment.Reachable.sound`: it holds.
* `Moment.becomes_run`: a legal action as a whole, with the collection that it may run, is a run of events.

Proof-only: not reachable from `ScriptBridge.Session.Run`.
-/

namespace ScriptBridge

/-! ## Actions -/

/-- What leaves the regions alone adds no handles. -/
theorem Machine.regions_of_eq {m m' : Machine} (regions : m'.regions = m.regions) :
    ∃ more, m'.regions = m.regions.modifyHead (Region.keep more) := by
  refine ⟨[], ?_⟩
  rw [regions]
  cases m.regions <;> rfl

namespace Action

variable {β : Type}

/-- What an action counts on. A call and a frame need room, end in the order in which they began, and no
call is open when the last region closes. -/
def Legal : Action β → Machine → Prop
  | .allocate o, _ => o.twin? = none
  | .openRegion id, m => m.contextAlive id = true
  | .closeRegion _, m => m.regions.length = 1 → m.calls.items = []
  | .beginCall _ f, m => f.evaluated = false ∧ m.calls.height < m.options.maxCallDepth
  | .endCall, m => ∃ f ∈ m.frames.items.head?, f.evaluated = false
  | .pushFrame f, m => f.evaluated = true ∧ m.frames.height < m.options.maxCallDepth
  | .popFrame, m => ∃ f ∈ m.frames.items.head?, f.evaluated = true
  | .setOptions f, m => (f m.options).maxCallDepth = m.options.maxCallDepth
  | .holdContext id, m => m.contextAlive id = true
  | .addContext c, _ => c.wrappers = [] ∧ c.templates = []
  | .addTemplate id t, m => m.Constructs id t ∧ m.heap.isLive t.prototype = true
  | .addWrapper id key o, m =>
    m.contextAlive id = true ∧ o.twin? = some (id, key) ∧ m.registered? ⟨id⟩ key = none
  | .tables f, m =>
    ∀ entry ∈ (f m.tables).2.contexts, m.contextAlive entry.2 = true ∨ m.Rooted entry.2
  | _, _ => True

/-- Whether an action runs a collection. -/
def Collects : Action β → Machine → Prop
  | .collect, _ => True
  | .closeRegion panicking, m =>
    m.regions ≠ [] ∧ m.leaveRegion.regionDepth = 0 ∧ m.collectionDue panicking = true
  | _, _ => False

/-- The callbacks that an action registers. -/
def registers : Action β → Machine → List WeakEntry
  | .addWrapper id key o, m => [⟨(m.allocate o).1, id, key⟩]
  | _, _ => []

/-- The object that an action changes, and how. -/
def edit? : Action β → Option (Ref × Edit)
  | .edit r e => some (r, e)
  | _ => none

/-- Whether an action is on what native code keeps: the values it holds, the cells of its objects, and owners. -/
def nativeSide : Action β → Bool
  | .hold _ | .setCell .. | .addOwner .. | .removeOwner .. => true
  | _ => false

variable {a : Action β} {m : Machine} {waiting : List WeakEntry}

/-- Closing a region without a collection only leaves it. -/
theorem closeRegion_eq {panicking : Bool} (quiet : ¬(Action.closeRegion panicking).Collects m) :
    m.closeRegion panicking = m.leaveRegion := by
  unfold Machine.closeRegion
  split
  · rfl
  · rename_i region rest h
    refine if_neg fun due => quiet ?_
    obtain ⟨last, due⟩ := Bool.and_eq_true_iff.1 due
    exact ⟨by rw [h]; exact List.cons_ne_nil region rest, of_decide_eq_true last, due⟩

/-- Closing a region with a collection: its context is kept meanwhile. -/
theorem closeRegion_eq_collect {panicking : Bool} {region : Region} {rest : List Region}
    (regions : m.regions = region :: rest) (collects : (Action.closeRegion panicking).Collects m) :
    m.closeRegion panicking = (m.leaveRegion.holdContext region.context).collect.2.releaseContext := by
  obtain ⟨-, last, due⟩ := collects
  unfold Machine.closeRegion
  rw [regions]
  exact if_pos (Bool.and_eq_true_iff.2 ⟨decide_eq_true last, due⟩)

/-! What the actions with several ways to run change of the machine. -/

theorem run_hold (m : Machine) (v : NativeValue) : ∃ holds, ((hold v).run m).2 = { m with holds } := by
  simp only [Action.run]
  split
  · exact ⟨m.holds, rfl⟩
  · exact ⟨_, rfl⟩

theorem run_setCell (m : Machine) (serial : Nat) (cell : String) (v : NativeValue) :
    ∃ natives, ((setCell serial cell v).run m).2 = { m with natives } := by
  simp only [Action.run]
  split
  · exact ⟨m.natives, rfl⟩
  · exact ⟨_, rfl⟩

theorem run_addOwner (m : Machine) (id owner : Nat) :
    ∃ persistent, ((addOwner id owner).run m).2 = { m with persistent } := by
  change ∃ persistent, (m.addOwner id owner).2 = _
  unfold Machine.addOwner Machine.own
  split
  · split
    · exact ⟨_, rfl⟩
    · exact ⟨_, rfl⟩
  · exact ⟨m.persistent, rfl⟩

theorem run_removeOwner (m : Machine) (id owner : Nat) :
    ∃ persistent, ((removeOwner id owner).run m).2 = { m with persistent } := by
  change ∃ persistent, (m.removeOwner id owner).2 = _
  unfold Machine.removeOwner
  split
  · exact ⟨m.persistent, rfl⟩
  · exact ⟨_, rfl⟩

/-- Such an action leaves all the rest of the machine alone. -/
theorem run_nativeSide (a : Action β) (m : Machine) (side : a.nativeSide = true) :
    ∃ holds natives persistent, (a.run m).2 = { m with holds, natives, persistent } := by
  cases a with
  | hold v =>
    obtain ⟨holds, eq⟩ := run_hold m v
    exact ⟨holds, m.natives, m.persistent, eq⟩
  | setCell serial cell v =>
    obtain ⟨natives, eq⟩ := run_setCell m serial cell v
    exact ⟨m.holds, natives, m.persistent, eq⟩
  | addOwner id owner =>
    obtain ⟨persistent, eq⟩ := run_addOwner m id owner
    exact ⟨m.holds, m.natives, persistent, eq⟩
  | removeOwner id owner =>
    obtain ⟨persistent, eq⟩ := run_removeOwner m id owner
    exact ⟨m.holds, m.natives, persistent, eq⟩
  | _ => exact absurd side Bool.false_ne_true

theorem run_track (m : Machine) (v : Value) : ∃ regions, ((track v).run m).2 = { m with regions } ∧
    ∃ handles, regions = m.regions.modifyHead (Region.keep handles) := by
  cases v with
  | object r => exact ⟨_, m.record_eq r, [r], rfl⟩
  | undefined | null | bool | number | text => exact ⟨m.regions, rfl, Machine.regions_of_eq rfl⟩

/-- What a legal action keeps that runs no collection. -/
theorem sound_run (legal : a.Legal m) (quiet : ¬a.Collects m) (sound : m.Sound waiting) :
    (a.run m).2.Sound waiting := by
  have side := a.run_nativeSide m
  cases a with
  | read | beginCall | endCall | pushFrame | popFrame | position | addSource | openHold | closeHold
  | addNative | addManaged | setOptions | setEvaluator =>
    exact sound.of_same rfl rfl rfl sound.rooted sound.counted
  | allocate o => exact sound.allocate legal
  | track v =>
    cases v with
    | object r => exact sound.record r
    | undefined | null | bool | number | text => exact sound
  | edit r e => exact sound.edit r e
  | openRegion id =>
    have counted : (m.enterRegion id).Counted :=
      ⟨congrArg (· + 1) sound.counted.1, congrArg (id :: ·) sound.counted.2⟩
    refine sound.of_same rfl rfl rfl (fun i alive => sound.rooted i ?_) counted
    rcases Machine.contextAlive_iff.1 alive with named | ⟨region, mem, rfl⟩ | held
    · exact Machine.contextAlive_iff.2 (.inl named)
    · rcases List.mem_cons.1 mem with rfl | mem
      · exact legal
      · exact Machine.contextAlive_region mem
    · exact Machine.contextAlive_hold held
  | closeRegion panicking =>
    change (m.closeRegion panicking).Sound waiting
    rw [closeRegion_eq quiet]
    refine sound.leave (fun region mem => Machine.contextAlive_region (List.mem_of_mem_tail mem))
      (fun id mem => Machine.contextAlive_hold mem) ⟨?_, ?_⟩
    · rw [sound.counted.1, List.length_tail]
    · rw [sound.counted.2, List.map_tail]
  | hold | setCell | addOwner | removeOwner =>
    obtain ⟨_, _, _, eq⟩ := side rfl
    rw [eq]
    exact sound.of_same rfl rfl rfl sound.rooted sound.counted
  | holdContext id =>
    refine sound.leave (fun region mem => Machine.contextAlive_region mem) (fun i mem => ?_)
      sound.counted
    rcases List.mem_cons.1 mem with rfl | mem
    · exact legal
    · exact Machine.contextAlive_hold mem
  | releaseContext =>
    exact sound.leave (fun region mem => Machine.contextAlive_region mem)
      (fun id mem => Machine.contextAlive_hold (List.mem_of_mem_tail mem))
      sound.counted
  | addContext c => exact sound.addContext legal.1 legal.2
  | addTemplate id t => exact sound.addTemplate legal.1 legal.2
  | addWrapper id key o => exact sound.addWrapper legal.1 legal.2.1 legal.2.2
  | collect => exact absurd trivial quiet
  | tables f => exact sound.rename legal

/-- What an action that runs no collection can change of objects, callbacks, regions and calls. -/
structure Changes (a : Action β) (m : Machine) : Prop where
  /-- It leaves all objects alone, stores one, or changes one. -/
  heap : (a.edit? = none ∧ (a.run m).2.heap = m.heap) ∨
    (a.edit? = none ∧ ∃ o, (a.run m).2.heap = (m.heap.allocate o).2) ∨
    ∃ r e, a.edit? = some (r, e) ∧ (a.run m).2.heap = m.heap.edit r e
  weak : (a.run m).2.weak = a.registers m ++ m.weak
  /-- It adds handles to the innermost region, closes that, or opens a region. -/
  regions : (∃ handles, (a.run m).2.regions = m.regions.modifyHead (Region.keep handles)) ∨
    (a.run m).2.regions = m.regions.tail ∨ ∃ region, (a.run m).2.regions = region :: m.regions
  /-- It leaves the calls alone, ends the innermost one, or begins a call. -/
  calls : (a.run m).2.calls.items = m.calls.items ∨ (a.run m).2.calls.items = m.calls.items.tail ∨
    ∃ c, (a.run m).2.calls.items = c :: m.calls.items

theorem Changes.none (edit : a.edit? = .none) (heap : (a.run m).2.heap = m.heap)
    (weak : (a.run m).2.weak = a.registers m ++ m.weak) (regions : (a.run m).2.regions = m.regions)
    (calls : (a.run m).2.calls = m.calls) : a.Changes m :=
  ⟨.inl ⟨edit, heap⟩, weak, .inl (Machine.regions_of_eq regions), .inl (by rw [calls])⟩

theorem changes (a : Action β) (quiet : ¬a.Collects m) : a.Changes m := by
  have side := a.run_nativeSide m
  cases a with
  | read | pushFrame | popFrame | position | addSource | openHold | closeHold | holdContext | releaseContext
  | addContext | addTemplate | addNative | addManaged | setOptions | setEvaluator | tables =>
    exact .none rfl rfl rfl rfl rfl
  | allocate o =>
    refine ⟨.inr (.inl ⟨rfl, o, ?_⟩), ?_, .inl ⟨[(m.heap.allocate o).1], ?_⟩, .inl ?_⟩ <;>
      simp only [Action.run, Machine.allocate_eq, registers, List.nil_append]
  | addWrapper id key o =>
    refine ⟨.inr (.inl ⟨rfl, o, ?_⟩), ?_, .inl ⟨[(m.heap.allocate o).1], ?_⟩, .inl ?_⟩ <;>
      simp only [Action.run, Machine.register, Machine.allocate_eq, registers, List.singleton_append]
  | edit r e => exact ⟨.inr (.inr ⟨r, e, rfl, rfl⟩), rfl, .inl (Machine.regions_of_eq rfl), .inl rfl⟩
  | track v =>
    obtain ⟨_, eq, handles, kept⟩ := run_track m v
    refine ⟨.inl ⟨rfl, ?_⟩, ?_, .inl ⟨handles, ?_⟩, .inl ?_⟩
    · rw [eq]
    · rw [eq]
      rfl
    · rw [eq, kept]
    · rw [eq]
  | openRegion id => exact ⟨.inl ⟨rfl, rfl⟩, rfl, .inr (.inr ⟨_, rfl⟩), .inl rfl⟩
  | closeRegion panicking =>
    have eq : ((closeRegion panicking).run m).2 = m.leaveRegion := closeRegion_eq quiet
    refine ⟨.inl ⟨rfl, ?_⟩, ?_, .inr (.inl ?_), .inl ?_⟩ <;> rw [eq] <;> rfl
  | beginCall c f => exact ⟨.inl ⟨rfl, rfl⟩, rfl, .inl (Machine.regions_of_eq rfl), .inr (.inr ⟨c, rfl⟩)⟩
  | endCall => exact ⟨.inl ⟨rfl, rfl⟩, rfl, .inl (Machine.regions_of_eq rfl), .inr (.inl (Stack.items_pop _))⟩
  | hold | setCell | addOwner | removeOwner =>
    obtain ⟨_, _, _, eq⟩ := side rfl
    exact .none rfl (by rw [eq]) (by rw [eq]; rfl) (by rw [eq]) (by rw [eq])
  | collect => exact absurd trivial quiet

/-- Without a collection slots keep their generation. -/
theorem generation_run (a : Action β) (quiet : ¬a.Collects m) (heap : m.heap.Sound) {i : Nat} {s : Slot}
    (hs : m.heap.slots[i]? = some s) :
    ∃ t, (a.run m).2.heap.slots[i]? = some t ∧ t.generation = s.generation := by
  rcases (a.changes quiet).heap with ⟨-, same⟩ | ⟨-, o, stored⟩ | ⟨r, e, -, edited⟩
  · exact ⟨s, by rw [same]; exact hs, rfl⟩
  · rw [stored]
    exact Heap.generation_allocate heap.counted hs
  · rw [edited]
    exact Heap.generation_edit r e hs

end Action

/-! ## References to freed objects -/

/-- The object of a reference was freed, and its slot perhaps again, up to a number of times. -/
def Heap.Past (h : Heap) (r : Ref) (n : Nat) : Prop :=
  ∃ s k, h.slots[r.index]? = some s ∧ k ≤ n ∧
    s.generation.toNat = (r.generation.toNat + 1 + k) % UInt32.size

namespace Heap

variable {h : Heap} {r : Ref} {n : Nat}

/-- Before its slot has run through all generations, a reference to a freed object is lost. -/
theorem Past.lost (past : h.Past r n) (few : n + 1 < UInt32.size) : h.Lost r := by
  obtain ⟨s, k, hs, hk, generation⟩ := past
  refine ⟨s, hs, fun same => ?_⟩
  rw [same] at generation
  have := r.generation.toNat_lt
  unfold UInt32.size at few generation
  omega

theorem Past.of_generation {h' : Heap} (past : h.Past r n) (same : ∀ (i : Nat) (s : Slot), h.slots[i]? = some s →
    ∃ t, h'.slots[i]? = some t ∧ t.generation = s.generation) : h'.Past r n := by
  obtain ⟨s, k, hs, hk, generation⟩ := past
  obtain ⟨t, ht, eq⟩ := same r.index s hs
  exact ⟨t, k, ht, hk, by rw [eq]; exact generation⟩

/-- A collection frees the object of a slot at most once. -/
theorem Past.reclaim (sound : h.Sound) (past : h.Past r n) (roots : List Ref) :
    (h.reclaim roots).2.Past r (n + 1) := by
  obtain ⟨s, k, hs, hk, generation⟩ := past
  by_cases kept : s.occupant = none ∨ h.Reaches (· ∈ roots) ⟨r.index, s.generation⟩
  · exact ⟨s, k, slot_reclaim_of_kept sound hs kept, by omega, generation⟩
  · obtain ⟨occupied, unreached⟩ := not_or.1 kept
    refine ⟨_, k + 1, slot_reclaim_of_freed sound hs (Option.isSome_iff_ne_none.2 occupied) unreached,
      by omega, ?_⟩
    rw [UInt32.toNat_add, generation]
    simp only [UInt32.toNat_one]
    unfold UInt32.size
    omega

/-- What a collection frees is past. -/
theorem past_of_freed (sound : h.Sound) {roots : List Ref} (live : h.isLive r = true)
    (unreached : ¬h.Reaches (· ∈ roots) r) : (h.reclaim roots).2.Past r 0 := by
  obtain ⟨o, ho⟩ := isLive_iff.1 live
  obtain ⟨s, hs, generation, occupied⟩ := get?_eq_some.1 ho
  have isOccupied : s.isOccupied = true := by rw [Slot.isOccupied, occupied]; rfl
  have unreached : ¬h.Reaches (· ∈ roots) ⟨r.index, s.generation⟩ := by rw [generation]; exact unreached
  have freed := slot_reclaim_of_freed sound hs isOccupied unreached
  refine ⟨_, 0, freed, Nat.le_refl 0, ?_⟩
  rw [UInt32.toNat_add, generation]
  rfl

end Heap

/-! ## Moments -/

/-- A collection between its sweep and its end. -/
structure Finishing where
  cycle : Cycle
  /-- The callbacks that ran, and those that did not yet. -/
  ran : List WeakEntry
  callbacks : List WeakEntry
  /-- How many other sweeps there were since. -/
  later : Nat

/-- The machine between two events. -/
structure Moment where
  machine : Machine
  /-- The collections under way, innermost first. -/
  finishing : List Finishing := []
  /-- Every callback that was registered so far, newest first. -/
  registered : List WeakEntry := []
  /-- The callbacks of each collection that has ended. -/
  ended : List (List WeakEntry) := []

namespace Moment

/-- A new machine. -/
def start (options : Options) (now : Int) : Moment where
  machine := { options, now }

/-- The callbacks of freed wrappers that did not run yet. -/
def waiting (t : Moment) : List WeakEntry := t.finishing.flatMap Finishing.callbacks

/-- The callbacks that each collection took so far. -/
def taken (t : Moment) : List (List WeakEntry) := t.finishing.map (fun f => f.ran ++ f.callbacks) ++ t.ended

end Moment

/-- A collection when another one sweeps. -/
def Finishing.age (f : Finishing) : Finishing := { f with later := f.later + 1 }

/-- One event. Generations of slots are numbers of 32 bits, so no more sweeps than that may fall into one
collection. -/
inductive Moment.Step : Moment → Moment → Prop
  | act {β : Type} {m : Machine} {finishing : List Finishing} {registered : List WeakEntry}
    {ended : List (List WeakEntry)} (a : Action β) (legal : a.Legal m) (quiet : ¬a.Collects m) :
    Step ⟨m, finishing, registered, ended⟩ ⟨(a.run m).2, finishing, a.registers m ++ registered, ended⟩
  | sweep {m : Machine} {finishing : List Finishing} {registered : List WeakEntry}
    {ended : List (List WeakEntry)} (few : ∀ f ∈ finishing, f.later + 2 < UInt32.size) :
    Step ⟨m, finishing, registered, ended⟩
      ⟨m.sweep.2, ⟨m.sweep.1.cycle, [], m.sweep.1.callbacks, 0⟩ :: finishing.map Finishing.age, registered, ended⟩
  | callback {m : Machine} {cycle : Cycle} {e : WeakEntry} {done rest : List WeakEntry} {later : Nat}
    {finishing : List Finishing} {registered : List WeakEntry} {ended : List (List WeakEntry)} :
    Step ⟨m, ⟨cycle, done, e :: rest, later⟩ :: finishing, registered, ended⟩
      ⟨m.dropWrapper e, ⟨cycle, done ++ [e], rest, later⟩ :: finishing, registered, ended⟩
  | finish {m : Machine} {cycle : Cycle} {done : List WeakEntry} {later : Nat} {finishing : List Finishing}
    {registered : List WeakEntry} {ended : List (List WeakEntry)} :
    Step ⟨m, ⟨cycle, done, [], later⟩ :: finishing, registered, ended⟩
      ⟨m.finish cycle, finishing, registered, done :: ended⟩

namespace Moment

/-- One moment leads to another by events. -/
abbrev Leads : Moment → Moment → Prop := Relation.ReflTransGen Step

/-- A moment that a new machine leads to. -/
def Reachable (t : Moment) : Prop := ∃ options now, (start options now).Leads t

/-- The invariant of moments: callbacks wait only for freed objects, and every callback is still
registered, or one collection took it. -/
structure Sound (t : Moment) : Prop where
  machine : t.machine.Sound t.waiting
  few : ∀ f ∈ t.finishing, f.later + 1 < UInt32.size
  past : ∀ f ∈ t.finishing, ∀ e ∈ f.callbacks, t.machine.heap.Past e.target f.later
  books : t.registered.Perm (t.machine.weak ++ t.taken.flatten)

variable {t u : Moment}

/-- The target of a callback that waits is gone. -/
theorem Sound.lost (sound : t.Sound) {e : WeakEntry} (waits : e ∈ t.waiting) : t.machine.heap.Lost e.target := by
  obtain ⟨f, hf, mem⟩ := List.mem_flatMap.1 waits
  exact (sound.past f hf e mem).lost (sound.few f hf)

theorem Sound.freed (sound : t.Sound) {e : WeakEntry} (waits : e ∈ t.waiting) :
    t.machine.object? e.target = none := (sound.lost waits).get?_eq_none

theorem Sound.start (options : Options) (now : Int) : (start options now).Sound where
  machine := .start options now
  few _ hf := nomatch hf
  past _ hf := nomatch hf
  books := .refl []

theorem waiting_age (finishing : List Finishing) :
    (finishing.map Finishing.age).flatMap Finishing.callbacks = finishing.flatMap Finishing.callbacks := by
  rw [List.flatMap_map]
  rfl

/-- What a sweep does to what collections took. -/
theorem taken_sweep (m : Machine) (finishing : List Finishing) (registered : List WeakEntry)
    (ended : List (List WeakEntry)) :
    (⟨m.sweep.2, ⟨m.sweep.1.cycle, [], m.sweep.1.callbacks, 0⟩ :: finishing.map Finishing.age, registered,
      ended⟩ : Moment).taken = m.sweep.1.callbacks :: (⟨m, finishing, registered, ended⟩ : Moment).taken := by
  unfold taken
  rw [List.map_cons, List.map_map]
  rfl

/-- A sweep moves the callbacks of freed wrappers from those registered to those that wait. -/
theorem perm_sweep (m : Machine) : m.weak.Perm (m.sweep.2.weak ++ m.sweep.1.callbacks) := by
  rw [Machine.sweep_eq]
  have parts := List.filter_append_perm (fun e : WeakEntry => (m.heap.reclaim m.roots).2.isLive e.target) m.weak
  exact parts.symm.trans (List.Perm.append_left _ (List.reverse_perm _).symm)

theorem Sound.step (sound : t.Sound) (step : t.Step u) : u.Sound := by
  obtain ⟨machine, few, past, books⟩ := sound
  cases step with
  | act a legal quiet =>
    refine ⟨a.sound_run legal quiet machine, few, fun f hf e he => ?_, ?_⟩
    · exact (past f hf e he).of_generation fun i s => a.generation_run quiet machine.heap
    · simp only [(a.changes quiet).weak, List.append_assoc]
      exact books.append_left _
  | @sweep m finishing registered ended later =>
    refine ⟨?_, fun f hf => ?_, fun f hf e he => ?_, ?_⟩
    · have swept := machine.sweep
      simp only [waiting, List.flatMap_cons, waiting_age]
      exact swept
    · rcases List.mem_cons.1 hf with rfl | hf
      · show 0 + 1 < UInt32.size
        decide
      · obtain ⟨g, hg, rfl⟩ := List.mem_map.1 hf
        exact later g hg
    · have heap : m.sweep.2.heap = (m.heap.reclaim m.roots).2 := by rw [Machine.sweep_eq]
      change m.sweep.2.heap.Past e.target f.later
      rw [heap]
      rcases List.mem_cons.1 hf with rfl | hf
      · obtain ⟨stands, unreached⟩ := (machine.mem_callbacks e).1 he
        refine Heap.past_of_freed machine.heap stands.isLive fun reached => unreached ?_
        exact reached.mono fun r => Machine.mem_roots.1
      · obtain ⟨g, hg, rfl⟩ := List.mem_map.1 hf
        exact (past g hg e he).reclaim machine.heap m.roots
    · rw [taken_sweep, List.flatten_cons, ← List.append_assoc]
      exact books.trans ((perm_sweep m).append_right _)
  | @callback m cycle e done rest later finishing registered ended =>
    have dead : m.object? e.target = none :=
      ((past _ List.mem_cons_self e List.mem_cons_self).lost (few _ List.mem_cons_self)).get?_eq_none
    refine ⟨machine.dropWrapper dead, fun f hf => ?_, fun f hf d hd => ?_, ?_⟩
    · rcases List.mem_cons.1 hf with rfl | hf
      · exact few ⟨cycle, done, e :: rest, later⟩ List.mem_cons_self
      · exact few f (List.mem_cons_of_mem _ hf)
    · rcases List.mem_cons.1 hf with rfl | hf
      · exact past _ List.mem_cons_self d (List.mem_cons_of_mem _ hd)
      · exact past f (List.mem_cons_of_mem _ hf) d hd
    · simp only [taken, List.map_cons, List.append_assoc, List.singleton_append] at books ⊢
      exact books
  | @finish m cycle done later finishing registered ended =>
    refine ⟨machine.finish _, fun f hf => few f (List.mem_cons_of_mem _ hf),
      fun f hf => past f (List.mem_cons_of_mem _ hf), books.trans (List.Perm.append_left _ ?_)⟩
    simp only [taken, List.map_cons, List.append_nil]
    exact List.Perm.flatten List.perm_middle.symm

theorem Sound.leads (sound : t.Sound) (leads : t.Leads u) : u.Sound := by
  induction leads with
  | refl => exact sound
  | tail _ step ih => exact ih.step step

/-- The invariant holds whatever happened. -/
theorem Reachable.sound (reachable : t.Reachable) : t.Sound := by
  obtain ⟨options, now, leads⟩ := reachable
  exact (Sound.start options now).leads leads

theorem Reachable.leads (reachable : t.Reachable) (leads : t.Leads u) : u.Reachable := by
  obtain ⟨options, now, before⟩ := reachable
  exact ⟨options, now, before.trans leads⟩

theorem reachable_start (options : Options) (now : Int) : (start options now).Reachable := ⟨options, now, .refl⟩

/-- The moment after an action that runs no collection. -/
def after {β : Type} (t : Moment) (a : Action β) : Moment :=
  ⟨(a.run t.machine).2, t.finishing, a.registers t.machine ++ t.registered, t.ended⟩

theorem Reachable.after {β : Type} {a : Action β} (reachable : t.Reachable) (legal : a.Legal t.machine)
    (quiet : ¬a.Collects t.machine) : (t.after a).Reachable :=
  reachable.leads (.single (.act a legal quiet))

/-- A first context, all of whose objects are one, has a name and an open region. -/
def opened : Moment :=
  (start {} 0).after (.allocate ⟨.ordinary, [], none⟩)
    |>.after (.addContext context)
    |>.after (.tables fun tables => ((), { tables with contexts := [("main", 0)] }))
    |>.after (.openRegion 0)
where
  context : Context :=
    let r : Ref := ⟨0, 0⟩
    { global := r, intrinsics := ⟨r, r, r, r, r, r, r, r, r⟩ }

theorem reachable_opened : opened.Reachable := by
  have first := (reachable_start {} 0).after (a := .allocate ⟨.ordinary, [], none⟩) rfl id
  have second := first.after (a := .addContext opened.context) ⟨rfl, rfl⟩ id
  have third := second.after (a := .tables fun tables => ((), { tables with contexts := [("main", 0)] })) ?_ id
  · exact third.after (a := .openRegion 0) rfl id
  · intro entry mem
    obtain rfl := List.mem_singleton.1 mem
    refine .inr ⟨_, rfl, rfl, fun r hr => ?_, fun t ht => (nomatch ht), fun t ht => nomatch ht⟩
    have hr : r ∈ List.replicate 9 (⟨0, 0⟩ : Ref) := hr
    rw [List.eq_of_mem_replicate hr]
    rfl

/-- Then a native object got its wrapper there. -/
def bridged : Moment :=
  opened.after (.addNative ⟨default, []⟩)
    |>.after (.addWrapper 0 (.object 1) wrapper)
where
  wrapper : Object := ⟨.wrapper ⟨⟨1, default⟩, "", default, 0⟩, [], some ⟨0, 0⟩⟩

theorem reachable_bridged : bridged.Reachable := by
  have native := reachable_opened.after (a := .addNative ⟨default, []⟩) trivial id
  exact native.after (a := .addWrapper 0 (.object 1) bridged.wrapper) ⟨rfl, rfl, rfl⟩ id

theorem stands_bridged : bridged.machine.Stands ⟨1, 0⟩ 0 (.object 1) := ⟨bridged.wrapper, rfl, rfl⟩

end Moment

/-! ## Runs that leave the regions and calls open that were -/

/-- Numbers of regions and of calls. -/
structure Depth where
  regions : Nat
  calls : Nat

/-- No more regions and no more calls. -/
instance : LE Depth := ⟨fun d d' => d.regions ≤ d'.regions ∧ d.calls ≤ d'.calls⟩

theorem Depth.le_refl (d : Depth) : d ≤ d := ⟨Nat.le_refl _, Nat.le_refl _⟩

/-- At least some regions and calls are open. -/
def Machine.Above (m : Machine) (d : Depth) : Prop :=
  d.regions ≤ m.regions.length ∧ d.calls ≤ m.calls.items.length

/-- How many regions and calls are open. -/
def Machine.depth (m : Machine) : Depth := ⟨m.regions.length, m.calls.items.length⟩

theorem Machine.above_depth (m : Machine) : m.Above m.depth := ⟨Nat.le_refl _, Nat.le_refl _⟩

theorem Machine.Above.mono {m : Machine} {d d' : Depth} (above : m.Above d) (le : d' ≤ d) : m.Above d' :=
  ⟨Nat.le_trans le.1 above.1, Nat.le_trans le.2 above.2⟩

theorem Machine.Above.of_depth {m m' : Machine} {d : Depth} (above : m'.Above m.depth) (start : m.Above d) :
    m'.Above d := ⟨Nat.le_trans start.1 above.1, Nat.le_trans start.2 above.2⟩

theorem Machine.foldl_dropWrapper_eq (m : Machine) (es : List WeakEntry) :
    ∃ contexts, es.foldl Machine.dropWrapper m = { m with contexts } := by
  induction es generalizing m with
  | nil => exact ⟨m.contexts, rfl⟩
  | cons e rest ih =>
    obtain ⟨contexts, eq⟩ := ih (m.dropWrapper e)
    exact ⟨contexts, eq⟩

theorem Machine.collect_eq_finish (m : Machine) :
    m.collect.2 = (m.sweep.1.callbacks.foldl Machine.dropWrapper m.sweep.2).finish m.sweep.1.cycle := rfl

/-- A collection leaves everything alone but objects, tables of wrappers, callbacks and counts. -/
theorem Machine.collect_eq (m : Machine) : ∃ heap contexts weak collector,
    m.collect.2 = { m with heap, contexts, weak, collector } := by
  obtain ⟨contexts, eq⟩ := m.sweep.2.foldl_dropWrapper_eq m.sweep.1.callbacks
  refine ⟨m.sweep.2.heap, contexts, m.sweep.2.weak, m.collect.2.collector, ?_⟩
  rw [Machine.collect_eq_finish, eq, Machine.sweep_eq]
  rfl

namespace Moment

variable {t u v : Moment} {d : Depth}

/-- One moment leads to another while at least some regions and calls stay open. -/
abbrev Within (d : Depth) : Moment → Moment → Prop :=
  Relation.ReflTransGen fun t u => t.Step u ∧ u.machine.Above d

theorem Within.leads (within : Within d t u) : t.Leads u := by
  induction within with
  | refl => exact .refl
  | tail _ step ih => exact ih.tail step.1

theorem Within.above (within : Within d t u) (above : t.machine.Above d) : u.machine.Above d := by
  cases within with
  | refl => exact above
  | tail _ step => exact step.2

/-- Between collections one moment leads to a machine, with no collection left under way. -/
def Becomes (d : Depth) (t : Moment) (m : Machine) : Prop :=
  ∃ u, Within d t u ∧ u.machine = m ∧ u.finishing = []

theorem Becomes.of_depth {m : Machine} (becomes : t.Becomes t.machine.depth m) (above : t.machine.Above d) :
    t.Becomes d m := by
  obtain ⟨u, within, machine, settled⟩ := becomes
  refine ⟨u, ?_, machine, settled⟩
  exact Relation.ReflTransGen.mono (fun _ _ step => ⟨step.1, step.2.of_depth above⟩) _ _ within

theorem Becomes.above {m : Machine} (becomes : t.Becomes d m) (above : t.machine.Above d) : m.Above d := by
  obtain ⟨u, within, rfl, -⟩ := becomes
  exact within.above above

theorem Becomes.refl (settled : t.finishing = []) : t.Becomes d t.machine := ⟨t, .refl, rfl, settled⟩

theorem Becomes.of_within {m : Machine} (becomes : u.Becomes d m) (within : Within d t u) : t.Becomes d m := by
  obtain ⟨v, within', machine, settled⟩ := becomes
  exact ⟨v, within.trans within', machine, settled⟩

/-- Callbacks run one after another. -/
theorem within_callbacks {m : Machine} (above : m.Above d) (cycle : Cycle) (done es : List WeakEntry) (later : Nat)
    (finishing : List Finishing) (registered : List WeakEntry) (ended : List (List WeakEntry)) :
    Within d ⟨m, ⟨cycle, done, es, later⟩ :: finishing, registered, ended⟩
      ⟨es.foldl Machine.dropWrapper m, ⟨cycle, done ++ es, [], later⟩ :: finishing, registered, ended⟩ := by
  induction es generalizing m done with
  | nil =>
    rw [List.append_nil]
    exact .refl
  | cons e rest ih =>
    have above' : (m.dropWrapper e).Above d := above
    have within := ih above' (done ++ [e])
    rw [List.append_assoc, List.singleton_append] at within
    exact .head ⟨.callback, above'⟩ within

/-- A collection as a whole is a run of events. -/
theorem becomes_collect (settled : t.finishing = []) (above : t.machine.Above d) :
    t.Becomes d t.machine.collect.2 := by
  obtain ⟨m, finishing, registered, ended⟩ := t
  obtain rfl : finishing = [] := settled
  have swept : m.sweep.2.Above d := by
    rw [Machine.sweep_eq]
    exact above
  have sweep : Step ⟨m, [], registered, ended⟩
      ⟨m.sweep.2, [⟨m.sweep.1.cycle, [], m.sweep.1.callbacks, 0⟩], registered, ended⟩ :=
    .sweep fun f hf => nomatch hf
  have callbacks := within_callbacks swept m.sweep.1.cycle [] m.sweep.1.callbacks 0 [] registered ended
  have folded : (m.sweep.1.callbacks.foldl Machine.dropWrapper m.sweep.2).Above d := by
    obtain ⟨contexts, eq⟩ := m.sweep.2.foldl_dropWrapper_eq m.sweep.1.callbacks
    rw [eq]
    exact swept
  exact ⟨_, .tail (.head ⟨sweep, swept⟩ callbacks) ⟨.finish, folded⟩, rfl, rfl⟩

/-- An action that runs no collection is one event. -/
theorem becomes_quiet {β : Type} {a : Action β} (settled : t.finishing = []) (legal : a.Legal t.machine)
    (quiet : ¬a.Collects t.machine) (above : (a.run t.machine).2.Above d) :
    t.Becomes d (a.run t.machine).2 :=
  ⟨_, .single ⟨.act a legal quiet, above⟩, rfl, settled⟩

theorem Becomes.trans {m m' : Machine} (first : t.Becomes d m)
    (next : ∀ u : Moment, u.machine = m → u.finishing = [] → u.Becomes d m') : t.Becomes d m' := by
  obtain ⟨u, within, machine, settled⟩ := first
  obtain ⟨v, within', machine', settled'⟩ := next u machine settled
  exact ⟨v, within.trans within', machine', settled'⟩

/-- Closing a region when a collection is due: its context is kept meanwhile. -/
theorem becomes_closeRegion {region : Region} {rest : List Region} (settled : t.finishing = [])
    (regions : t.machine.regions = region :: rest) (legal : (Action.closeRegion true).Legal t.machine)
    (before : t.machine.Above d) (after : t.machine.leaveRegion.Above d) :
    t.Becomes d (t.machine.leaveRegion.holdContext region.context).collect.2.releaseContext := by
  have alive : t.machine.contextAlive region.context = true :=
    Machine.contextAlive_region (by rw [regions]; exact List.mem_cons_self)
  have after : (t.machine.leaveRegion.holdContext region.context).Above d := after
  have hold : t.Becomes d (t.machine.holdContext region.context) :=
    becomes_quiet (a := .holdContext region.context) settled alive id before
  refine hold.trans fun u machine settled => ?_
  have close : u.Becomes d (t.machine.leaveRegion.holdContext region.context) := by
    have quiet : ¬(Action.closeRegion true).Collects u.machine := fun due => nomatch due.2.2
    have closed : (Action.closeRegion true).run u.machine =
        ((), t.machine.leaveRegion.holdContext region.context) := by
      simp only [Action.run, Action.closeRegion_eq quiet]
      rw [machine]
      rfl
    have closes := becomes_quiet (d := d) (a := .closeRegion true) settled (by rw [machine]; exact legal) quiet
      (by rw [closed]; exact after)
    rwa [closed] at closes
  refine close.trans fun u machine settled => ?_
  have collect := becomes_collect (d := d) settled (by rw [machine]; exact after)
  rw [machine] at collect
  refine collect.trans fun u machine settled => ?_
  have release := becomes_quiet (d := d) (a := .releaseContext) settled trivial id
  rw [machine] at release
  refine release ?_
  obtain ⟨_, _, _, _, eq⟩ := (t.machine.leaveRegion.holdContext region.context).collect_eq
  simp only [Action.run, eq]
  exact after

/-- A legal action as a whole, with the collection that it may run, is a run of events. -/
theorem becomes_run {β : Type} {a : Action β} (settled : t.finishing = []) (legal : a.Legal t.machine)
    (before : t.machine.Above d) (above : (a.run t.machine).2.Above d) : t.Becomes d (a.run t.machine).2 := by
  by_cases quiet : a.Collects t.machine
  · cases a with
    | collect => exact becomes_collect settled before
    | closeRegion panicking =>
      obtain ⟨region, rest, regions⟩ := List.exists_cons_of_ne_nil quiet.1
      have closed := Action.closeRegion_eq_collect regions quiet
      change (t.machine.closeRegion panicking).Above d at above
      change t.Becomes d (t.machine.closeRegion panicking)
      rw [closed] at above ⊢
      obtain ⟨_, _, _, _, eq⟩ := (t.machine.leaveRegion.holdContext region.context).collect_eq
      rw [eq] at above
      exact becomes_closeRegion settled regions legal before above
    | _ => exact absurd quiet id
  · exact becomes_quiet settled legal quiet above

end Moment

/-- A machine between collections, as a moment. -/
def Machine.moment (m : Machine) : Moment := ⟨m, [], m.weak, []⟩

theorem Moment.Sound.of_settled {m : Machine} (settled : m.Settled) : m.moment.Sound :=
  ⟨settled, fun _ hf => (nomatch hf), fun _ hf => (nomatch hf), by simp [Machine.moment, Moment.taken]⟩

theorem Moment.Sound.settled {t : Moment} (sound : t.Sound) (finished : t.finishing = []) : t.machine.Settled := by
  have machine := sound.machine
  rw [Moment.waiting, finished] at machine
  exact machine

/-- What a legal action keeps between collections, a collection included. -/
theorem Action.settled_run {β : Type} {a : Action β} {m : Machine} (legal : a.Legal m) (settled : m.Settled) :
    (a.run m).2.Settled := by
  have becomes : m.moment.Becomes ⟨0, 0⟩ (a.run m).2 :=
    Moment.becomes_run rfl legal ⟨Nat.zero_le _, Nat.zero_le _⟩ ⟨Nat.zero_le _, Nat.zero_le _⟩
  obtain ⟨u, within, machine, finished⟩ := becomes
  rw [← machine]
  exact ((Moment.Sound.of_settled settled).leads within.leads).settled finished

end ScriptBridge
