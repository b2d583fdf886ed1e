import ScriptBridge.Bridge.Wrapper
import ScriptBridge.Proofs.Roots

/-!
# The wrapper tables

`Machine.Stands` says that a live object is the wrapper of a native object, or the function of a
closure, that some context made. `Machine.Sound` is the invariant that ties these objects to the wrapper
tables: whatever stands for something is entered under its key, an entry either stands for its key or
its callback still waits, and the callbacks that are registered are those of the objects that stand.

* `Machine.Sound.allocate`, `Machine.Sound.edit`, `Machine.Sound.addContext`, `Machine.Sound.addTemplate`,
  `Machine.Sound.addWrapper`: what keeps the invariant, and what it takes.
* `Machine.Sound.sweep`, `Machine.Sound.dropWrapper`: so do the phases of a collection, where the callbacks
  of freed wrappers begin to wait, and stop to when they run.
* `Machine.object?_sweep`: which objects are there after a sweep.

Proof-only: not reachable from `ScriptBridge.Session.Run`.
-/

namespace ScriptBridge

/-! ## Twins -/

/-- What an object stands for on the native side, and the context that made it. -/
def Object.twin? (o : Object) : Option (Nat × NativeKey) :=
  match o.payload with
  | .wrapper w => some (w.context, .object w.native.serial)
  | .function ⟨_, .closure c, context⟩ => some (context, .closure c.id)
  | _ => none

/-- No edit makes an object stand for something else. -/
theorem Object.twin?_edit (o : Object) (e : Edit) : (o.edit e).twin? = o.twin? := by
  cases e with
  | define | store | remove | setPrototype => rfl
  | storeItem | clearItem | resize =>
    obtain ⟨payload, properties, prototype⟩ := o
    cases payload <;> rfl

/-- No edit makes a function do something else. -/
theorem Object.function?_edit (o : Object) (e : Edit) : (o.edit e).function? = o.function? := by
  cases e with
  | define | store | remove | setPrototype => rfl
  | storeItem | clearItem | resize =>
    obtain ⟨payload, properties, prototype⟩ := o
    cases payload <;> rfl

theorem Object.payload_of_function? {o : Object} {f : FunctionData} (function : o.function? = some f) :
    o.payload = .function f := by
  unfold Object.function? at function
  split at function
  · rename_i g payload
    rw [payload, Option.some.inj function]
  · nomatch function

theorem Machine.function?_eq_some {m : Machine} {v : Value} {r : Ref} {f : FunctionData} :
    m.function? v = some (r, f) ↔ v = .object r ∧ ∃ o, m.object? r = some o ∧ o.function? = some f := by
  constructor
  · intro found
    obtain ⟨q, ref, found⟩ := Option.bind_eq_some_iff.1 found
    obtain ⟨o, there, found⟩ := Option.bind_eq_some_iff.1 found
    obtain ⟨d, does, same⟩ := Option.bind_eq_some_iff.1 found
    cases same
    exact ⟨Value.ref?_eq_some.1 ref, o, there, does⟩
  · rintro ⟨rfl, o, there, does⟩
    simp only [Machine.function?, Value.ref?, Option.bind_eq_bind, Option.bind_some, there, does]
    rfl

theorem Object.payload_of_wrapper? {o : Object} {w : WrapperData} (wrapper : o.wrapper? = some w) :
    o.payload = .wrapper w := by
  unfold Object.wrapper? at wrapper
  split at wrapper
  · rename_i v payload
    rw [payload, Option.some.inj wrapper]
  · nomatch wrapper

/-- No edit makes an object wrap something else. -/
theorem Object.wrapper?_edit (o : Object) (e : Edit) : (o.edit e).wrapper? = o.wrapper? := by
  cases e with
  | define | store | remove | setPrototype => rfl
  | storeItem | clearItem | resize =>
    obtain ⟨payload, properties, prototype⟩ := o
    cases payload <;> rfl

/-! ## Named entries -/

namespace Named

variable {α : Type} {t : Named α} {name : String} {v : α}

theorem mem_of_get? (found : t.get? name = some v) : (name, v) ∈ t := by
  induction t with
  | nil => nomatch found
  | cons entry rest ih =>
    obtain ⟨n, w⟩ := entry
    unfold get? at found
    split at found
    · rename_i same
      exact List.mem_cons.2 (.inl (Prod.ext same.symm (Option.some.inj found).symm))
    · exact List.mem_cons_of_mem _ (ih found)

/-- The entry of a name has the value that was set, the others were there before. -/
theorem mem_insert {entry : String × α} (mem : entry ∈ t.insert name v) : entry ∈ t ∨ entry.2 = v := by
  induction t with
  | nil => exact .inr (by obtain rfl := List.mem_singleton.1 mem; rfl)
  | cons first rest ih =>
    obtain ⟨n, w⟩ := first
    unfold Named.insert at mem
    split at mem
    · rcases List.mem_cons.1 mem with rfl | mem
      · exact .inr rfl
      · exact .inl (List.mem_cons_of_mem _ mem)
    · rcases List.mem_cons.1 mem with rfl | mem
      · exact .inl List.mem_cons_self
      · exact (ih mem).imp_left (List.mem_cons_of_mem _)

end Named

/-- A region with further handles. -/
def Region.keep (handles : List Ref) (region : Region) : Region :=
  { region with handles := handles ++ region.handles }

theorem Region.modifyHead_keep (regions : List Region) (first next : List Ref) :
    (regions.modifyHead (Region.keep first)).modifyHead (Region.keep next) =
      regions.modifyHead (Region.keep (next ++ first)) := by
  cases regions with
  | nil => rfl
  | cons region rest => simp [Region.keep]

/-- The handles of a region are still there when the innermost region has more. -/
theorem Region.exists_keep {regions : List Region} {region : Region} {r : Ref} (mem : region ∈ regions)
    (handle : r ∈ region.handles) (more : List Ref) :
    ∃ region' ∈ regions.modifyHead (Region.keep more), r ∈ region'.handles := by
  obtain ⟨first, others, rfl⟩ := List.exists_cons_of_ne_nil (List.ne_nil_of_mem mem)
  rcases List.mem_cons.1 mem with rfl | mem
  · exact ⟨_, List.mem_cons_self, List.mem_append_right more handle⟩
  · exact ⟨region, List.mem_cons_of_mem _ mem, handle⟩

/-! ## The invariant -/

/-- The objects that a context needs are there: its global object, its prototypes, and for each class
bridged into it the prototype and a function that is its constructor. -/
structure Context.Rooted (m : Machine) (id : Nat) (c : Context) : Prop where
  global : m.heap.isLive c.global = true
  intrinsics : ∀ r ∈ c.intrinsics.all, m.heap.isLive r = true
  constructors : ∀ t ∈ c.templates, ∃ o name, m.object? t.constructor = some o ∧
    o.function? = some ⟨name, .constructor t.cls t.table, id⟩
  prototypes : ∀ t ∈ c.templates, m.heap.isLive t.prototype = true

namespace Machine

variable {m m' : Machine} {waiting : List WeakEntry} {r q : Ref} {id : Nat} {key : NativeKey} {o : Object}

/-- A live object that a context made stands for what a key names. -/
def Stands (m : Machine) (r : Ref) (id : Nat) (key : NativeKey) : Prop :=
  ∃ o, m.object? r = some o ∧ o.twin? = some (id, key)

/-- There is a context, and it has the objects that it needs. -/
def Rooted (m : Machine) (id : Nat) : Prop := ∃ c, m.context? id = some c ∧ c.Rooted m id

/-- The stack of contexts and the counter go along with the open regions. -/
def Counted (m : Machine) : Prop :=
  m.regionDepth = m.regions.length ∧ m.current = m.regions.map Region.context

/-- The machine between actions, while the callbacks of some freed wrappers still wait. -/
structure Sound (m : Machine) (waiting : List WeakEntry) : Prop where
  heap : m.heap.Sound
  rooted : ∀ id, m.contextAlive id = true → m.Rooted id
  keys : ∀ id c, m.context? id = some c → (c.wrappers.map (·.1)).Nodup
  classes : ∀ id c, m.context? id = some c → (c.templates.map (·.cls.id)).Nodup
  entries : ∀ id c key r, m.context? id = some c → (key, r) ∈ c.wrappers →
    m.Stands r id key ∨ ⟨r, id, key⟩ ∈ waiting
  registered : ∀ r id key, m.Stands r id key → ∃ c, m.context? id = some c ∧ (key, r) ∈ c.wrappers
  weak : ∀ e, e ∈ m.weak ↔ m.Stands e.target e.context e.key
  weak_nodup : m.weak.Nodup
  counted : m.Counted

/-- Nothing waits: the machine between collections. -/
abbrev Settled (m : Machine) : Prop := m.Sound []

theorem Sound.start (options : Options) (now : Int) : Settled { options, now } where
  heap := .empty
  rooted id alive := by simp [contextAlive] at alive
  keys id c hc := by simp [context?] at hc
  classes id c hc := by simp [context?] at hc
  entries id c key r hc := by simp [context?] at hc
  registered r id key h := by
    obtain ⟨o, ho, -⟩ := h
    simp [object?, Heap.get?] at ho
  weak e := by
    refine iff_of_false List.not_mem_nil ?_
    rintro ⟨o, ho, -⟩
    simp [object?, Heap.get?] at ho
  weak_nodup := List.nodup_nil
  counted := ⟨rfl, rfl⟩

theorem Stands.unique {id' : Nat} {key' : NativeKey} (h : m.Stands r id key) (h' : m.Stands r id' key') :
    id' = id ∧ key' = key := by
  obtain ⟨o, ho, twin⟩ := h
  obtain ⟨o', ho', twin'⟩ := h'
  rw [ho, Option.some.injEq] at ho'
  subst ho'
  rw [twin, Option.some.injEq, Prod.mk.injEq] at twin'
  exact ⟨twin'.1.symm, twin'.2.symm⟩

theorem Stands.isLive (h : m.Stands r id key) : m.heap.isLive r = true := by
  obtain ⟨o, ho, -⟩ := h
  exact Heap.isLive_iff.2 ⟨o, ho⟩

/-- What lived still does, and functions do what they did. -/
def Grows (m m' : Machine) : Prop :=
  ∀ r o, m.object? r = some o → ∃ o', m'.object? r = some o' ∧ o'.function? = o.function?

theorem Grows.refl (m : Machine) : m.Grows m := fun _ o ho => ⟨o, ho, rfl⟩

theorem Grows.of_heap_eq (heap : m'.heap = m.heap) : m.Grows m' := fun r o ho => by
  refine ⟨o, ?_, rfl⟩
  rw [object?, heap]
  exact ho

theorem Grows.trans {m'' : Machine} (h : m.Grows m') (h' : m'.Grows m'') : m.Grows m'' := by
  intro r o ho
  obtain ⟨o', ho', same⟩ := h r o ho
  obtain ⟨o'', ho'', same'⟩ := h' r o' ho'
  exact ⟨o'', ho'', same'.trans same⟩

theorem Grows.isLive (h : m.Grows m') (live : m.heap.isLive r = true) : m'.heap.isLive r = true := by
  obtain ⟨o, ho⟩ := Heap.isLive_iff.1 live
  obtain ⟨o', ho', -⟩ := h r o ho
  exact Heap.isLive_iff.2 ⟨o', ho'⟩

theorem Grows.rooted {c : Context} (h : m.Grows m') (rooted : c.Rooted m id) : c.Rooted m' id where
  global := h.isLive rooted.global
  intrinsics r hr := h.isLive (rooted.intrinsics r hr)
  constructors t ht := by
    obtain ⟨o, name, ho, function⟩ := rooted.constructors t ht
    obtain ⟨o', ho', same⟩ := h _ o ho
    exact ⟨o', name, ho', same.trans function⟩
  prototypes t ht := h.isLive (rooted.prototypes t ht)

theorem Stands.of_heap_eq (heap : m'.heap = m.heap) : m'.Stands r id key ↔ m.Stands r id key := by
  simp only [Stands, object?, heap]

/-- What stands for something among the objects that are kept. -/
theorem Stands.of_kept {P : Prop} (kept : ∀ o, m'.object? r = some o ↔ m.object? r = some o ∧ P) :
    m'.Stands r id key ↔ m.Stands r id key ∧ P := by
  constructor
  · rintro ⟨o, ho, twin⟩
    obtain ⟨before, holds⟩ := (kept o).1 ho
    exact ⟨⟨o, before, twin⟩, holds⟩
  · rintro ⟨⟨o, ho, twin⟩, holds⟩
    exact ⟨o, (kept o).2 ⟨ho, holds⟩, twin⟩

/-- The invariant speaks of the heap, the contexts and the callbacks, of which contexts live, and of the
regions. -/
theorem Sound.of_alike (sound : m.Sound waiting) (heap : m'.heap.Sound) (grows : m.Grows m')
    (stands : ∀ r id key, m'.Stands r id key ↔ m.Stands r id key) (contexts : m'.contexts = m.contexts)
    (weak : m'.weak = m.weak) (alive : ∀ id, m'.contextAlive id = true → m.Rooted id) (counted : m'.Counted) :
    m'.Sound waiting where
  heap := heap
  rooted id h := by
    obtain ⟨c, hc, rooted⟩ := alive id h
    exact ⟨c, by rw [context?, contexts]; exact hc, grows.rooted rooted⟩
  keys id c hc := sound.keys id c (by rwa [context?, contexts] at hc)
  classes id c hc := sound.classes id c (by rwa [context?, contexts] at hc)
  entries id c key r hc mem := by
    rw [stands]
    exact sound.entries id c key r (by rwa [context?, contexts] at hc) mem
  registered r id key h := by
    rw [context?, contexts]
    exact sound.registered r id key ((stands r id key).1 h)
  weak e := by rw [weak, stands]; exact sound.weak e
  weak_nodup := by rw [weak]; exact sound.weak_nodup
  counted := counted

/-- What changes neither objects nor contexts nor callbacks keeps the invariant. -/
theorem Sound.of_same (sound : m.Sound waiting) (heap : m'.heap = m.heap) (contexts : m'.contexts = m.contexts)
    (weak : m'.weak = m.weak) (alive : ∀ id, m'.contextAlive id = true → m.Rooted id) (counted : m'.Counted) :
    m'.Sound waiting :=
  sound.of_alike (heap ▸ sound.heap) (.of_heap_eq heap) (fun _ _ _ => Stands.of_heap_eq heap) contexts weak alive
    counted

/-! ## Recording and storing -/

theorem record_eq (m : Machine) (r : Ref) :
    m.record r = { m with regions := m.regions.modifyHead (Region.keep [r]) } := by
  obtain ⟨_, _, _, regions, _⟩ := m
  cases regions <;> rfl

theorem any_context_keep (regions : List Region) (handles : List Ref) :
    ((regions.modifyHead (Region.keep handles)).any fun region => region.context == id) =
      regions.any fun region => region.context == id := by
  cases regions <;> rfl

theorem contextAlive_record (m : Machine) (r : Ref) (id : Nat) :
    (m.record r).contextAlive id = m.contextAlive id := by
  rw [record_eq]
  simp only [contextAlive]
  rw [any_context_keep]

/-- Handles do not matter to the number of regions and their contexts. -/
theorem Counted.keep (counted : m.Counted) (handles : List Ref) :
    ({ m with regions := m.regions.modifyHead (Region.keep handles) } : Machine).Counted := by
  obtain ⟨depth, current⟩ := counted
  refine ⟨?_, ?_⟩
  · change m.regionDepth = _
    rw [depth, List.length_modifyHead]
  · change m.current = _
    rw [current]
    cases m.regions <;> rfl

theorem Sound.record (sound : m.Sound waiting) (r : Ref) : (m.record r).Sound waiting := by
  refine sound.of_same (by rw [record_eq]) (by rw [record_eq]) (by rw [record_eq]) (fun id alive => ?_) ?_
  · exact sound.rooted id (by rwa [contextAlive_record] at alive)
  · rw [record_eq]
    exact sound.counted.keep [r]

theorem allocate_eq (m : Machine) (o : Object) : m.allocate o = ((m.heap.allocate o).1,
    { m with
      heap := (m.heap.allocate o).2
      collector := { m.collector with allocations := m.collector.allocations + 1 }
      regions := m.regions.modifyHead (Region.keep [(m.heap.allocate o).1]) }) := by
  change (_, Machine.record _ _) = _
  rw [record_eq]
  rfl

theorem Counted.allocate (counted : m.Counted) (o : Object) : (m.allocate o).2.Counted := by
  rw [allocate_eq]
  exact counted.keep [(m.heap.allocate o).1]

theorem object?_allocate (heap : m.heap.Sound) (o : Object) (q : Ref) : (m.allocate o).2.object? q =
    if q = (m.allocate o).1 then some o else m.object? q := by
  rw [allocate_eq]
  exact Heap.get?_allocate heap.counted o q

theorem object?_allocate_self (heap : m.heap.Sound) (o : Object) :
    (m.allocate o).2.object? (m.allocate o).1 = some o := by
  rw [object?_allocate heap, if_pos rfl]

/-- A new object was not there before. -/
theorem object?_new (heap : m.heap.Sound) (o : Object) : m.object? (m.allocate o).1 = none := by
  rw [allocate_eq]
  exact Heap.get?_new heap.counted o

theorem grows_allocate (heap : m.heap.Sound) (o : Object) : m.Grows (m.allocate o).2 := by
  intro r p hp
  refine ⟨p, ?_, rfl⟩
  rw [allocate_eq]
  exact Heap.get?_allocate_of_some heap.counted hp

theorem contextAlive_allocate (m : Machine) (o : Object) (id : Nat) :
    (m.allocate o).2.contextAlive id = m.contextAlive id := by
  rw [allocate_eq]
  simp only [contextAlive]
  rw [any_context_keep]

theorem context?_allocate (m : Machine) (o : Object) (i : Nat) : (m.allocate o).2.context? i = m.context? i := by
  rw [allocate_eq]
  rfl

/-- What stands for something after an object is stored: what did before, and perhaps the object. -/
theorem stands_allocate (heap : m.heap.Sound) (o : Object) (q : Ref) (id : Nat) (key : NativeKey) :
    (m.allocate o).2.Stands q id key ↔
      m.Stands q id key ∨ q = (m.allocate o).1 ∧ o.twin? = some (id, key) := by
  simp only [Stands, object?_allocate heap]
  by_cases new : q = (m.allocate o).1
  · subst new
    simp [object?_new heap]
  · simp [new]

theorem Sound.allocate (sound : m.Sound waiting) (plain : o.twin? = none) : (m.allocate o).2.Sound waiting := by
  refine sound.of_alike ?_ (grows_allocate sound.heap o) ?_ ?_ ?_ ?_ ?_
  · rw [allocate_eq]
    exact sound.heap.allocate o
  · intro r id key
    rw [stands_allocate sound.heap, plain]
    simp
  · rw [allocate_eq]
  · rw [allocate_eq]
  · intro id alive
    rw [contextAlive_allocate] at alive
    exact sound.rooted id alive
  · exact sound.counted.allocate o

theorem grows_edit (m : Machine) (r : Ref) (e : Edit) : m.Grows { m with heap := m.heap.edit r e } := by
  intro q o ho
  simp only [object?, Heap.get?_edit] at ho ⊢
  rw [ho]
  split
  · exact ⟨o.edit e, rfl, o.function?_edit e⟩
  · exact ⟨o, rfl, rfl⟩

theorem stands_edit (m : Machine) (r : Ref) (e : Edit) (q : Ref) (id : Nat) (key : NativeKey) :
    ({ m with heap := m.heap.edit r e } : Machine).Stands q id key ↔ m.Stands q id key := by
  simp only [Stands, object?, Heap.get?_edit]
  split
  · simp [Option.map_eq_some_iff, Object.twin?_edit]
  · rfl

theorem Sound.edit (sound : m.Sound waiting) (r : Ref) (e : Edit) :
    ({ m with heap := m.heap.edit r e } : Machine).Sound waiting :=
  sound.of_alike (sound.heap.edit r e) (grows_edit m r e) (stands_edit m r e) rfl rfl sound.rooted
    sound.counted

/-! ## Contexts and their tables -/

theorem contextAlive_iff : m.contextAlive id = true ↔
    (∃ entry ∈ m.tables.contexts, entry.2 = id) ∨ (∃ region ∈ m.regions, region.context = id) ∨
      id ∈ m.contextHolds := by
  simp only [contextAlive, Bool.or_eq_true, List.any_eq_true, beq_iff_eq, List.contains_iff_mem, or_assoc]

/-- Closing regions and letting go of contexts keeps the invariant. -/
theorem Sound.leave (sound : m.Sound waiting) {regions : List Region} {current holds : List Nat} {depth : Nat}
    (regions_sub : ∀ region ∈ regions, m.contextAlive region.context = true)
    (holds_sub : ∀ id ∈ holds, m.contextAlive id = true)
    (counted : depth = regions.length ∧ current = regions.map Region.context) :
    ({ m with regions, current, regionDepth := depth, contextHolds := holds } : Machine).Sound waiting := by
  refine sound.of_same rfl rfl rfl (fun id alive => sound.rooted id ?_) counted
  rw [contextAlive_iff] at alive
  rcases alive with named | ⟨region, mem, rfl⟩ | held
  · exact contextAlive_iff.2 (.inl named)
  · exact regions_sub region mem
  · exact holds_sub id held

theorem contextAlive_region {region : Region} (mem : region ∈ m.regions) :
    m.contextAlive region.context = true := contextAlive_iff.2 (.inr (.inl ⟨region, mem, rfl⟩))

theorem contextAlive_hold (mem : id ∈ m.contextHolds) : m.contextAlive id = true :=
  contextAlive_iff.2 (.inr (.inr mem))

/-- Regions and holds of contexts that live anyway let no other context live. -/
theorem contextAlive_eq_of (tables : m'.tables = m.tables)
    (regions : ∀ region ∈ m'.regions, m.contextAlive region.context = true)
    (holds : ∀ i ∈ m'.contextHolds, m.contextAlive i = true) (regions_sub : m.regions ⊆ m'.regions)
    (holds_sub : m.contextHolds ⊆ m'.contextHolds) : m'.contextAlive = m.contextAlive := by
  funext j
  refine Bool.eq_iff_iff.2 ⟨fun lives => ?_, fun lives => ?_⟩
  · rcases contextAlive_iff.1 lives with named | ⟨region, mem, rfl⟩ | held
    · exact contextAlive_iff.2 (.inl (tables ▸ named))
    · exact regions region mem
    · exact holds j held
  · rcases contextAlive_iff.1 lives with named | ⟨region, mem, rfl⟩ | held
    · exact contextAlive_iff.2 (.inl (tables ▸ named))
    · exact contextAlive_region (regions_sub mem)
    · exact contextAlive_hold (holds_sub held)

theorem contextAlive_enterRegion (alive : m.contextAlive id = true) :
    (m.enterRegion id).contextAlive = m.contextAlive := by
  refine contextAlive_eq_of rfl (fun region mem => ?_) (fun _ held => contextAlive_hold held)
    (List.subset_cons_self ..) (List.Subset.refl _)
  rcases List.mem_cons.1 mem with rfl | mem
  · exact alive
  · exact contextAlive_region mem

theorem contextAlive_holdContext (alive : m.contextAlive id = true) :
    (m.holdContext id).contextAlive = m.contextAlive := by
  refine contextAlive_eq_of rfl (fun _ mem => contextAlive_region mem) (fun i held => ?_) (List.Subset.refl _)
    (List.subset_cons_self ..)
  rcases List.mem_cons.1 held with rfl | held
  · exact alive
  · exact contextAlive_hold held

/-- A context that was entered last is the current one only while it lives. -/
theorem contextAlive_current? (current : m.current? = some id) : m.contextAlive id = true :=
  (Option.filter_eq_some_iff.1 current).2

/-- New names for contexts keep the invariant if the contexts have what they need. -/
theorem Sound.rename (sound : m.Sound waiting) {tables : Tables}
    (named : ∀ entry ∈ tables.contexts, m.contextAlive entry.2 = true ∨ m.Rooted entry.2) :
    ({ m with tables } : Machine).Sound waiting := by
  refine sound.of_same rfl rfl rfl (fun id alive => ?_) sound.counted
  rw [contextAlive_iff] at alive
  rcases alive with ⟨entry, mem, rfl⟩ | region | held
  · exact (named entry mem).elim (sound.rooted _) id
  · exact sound.rooted id (contextAlive_iff.2 (.inr (.inl region)))
  · exact sound.rooted id (contextAlive_iff.2 (.inr (.inr held)))

theorem Sound.addContext (sound : m.Sound waiting) {c : Context} (wrappers : c.wrappers = [])
    (templates : c.templates = []) : ({ m with contexts := m.contexts.push c } : Machine).Sound waiting := by
  have context (i : Nat) (d : Context) (hd : (m.contexts.push c)[i]? = some d) :
      m.context? i = some d ∨ d = c := by
    rw [Array.getElem?_push] at hd
    split at hd
    · exact .inr (Option.some.inj hd).symm
    · exact .inl hd
  have keep (i : Nat) (d : Context) (hd : m.context? i = some d) : (m.contexts.push c)[i]? = some d := by
    have inside := (Array.getElem?_eq_some_iff.1 hd).1
    rw [Array.getElem?_push, if_neg (by omega)]
    exact hd
  refine ⟨sound.heap, fun id alive => ?_, fun id d hd => ?_, fun id d hd => ?_, fun id d key r hd mem => ?_,
    fun r id key h => ?_, sound.weak, sound.weak_nodup, sound.counted⟩
  · obtain ⟨d, hd, rooted⟩ := sound.rooted id alive
    exact ⟨d, keep id d hd, rooted.global, rooted.intrinsics, rooted.constructors, rooted.prototypes⟩
  · rcases context id d hd with hd | rfl
    · exact sound.keys id d hd
    · simp [wrappers]
  · rcases context id d hd with hd | rfl
    · exact sound.classes id d hd
    · simp [templates]
  · rcases context id d hd with hd | rfl
    · exact sound.entries id d key r hd mem
    · simp [wrappers] at mem
  · obtain ⟨d, hd, mem⟩ := sound.registered r id key h
    exact ⟨d, keep id d hd, mem⟩

/-- The function of a template is the constructor of its class. -/
def Constructs (m : Machine) (id : Nat) (t : Template) : Prop :=
  ∃ o name, m.object? t.constructor = some o ∧ o.function? = some ⟨name, .constructor t.cls t.table, id⟩

/-- The machine after a change of one context. -/
def modifyContext (m : Machine) (id : Nat) (f : Context → Context) : Machine :=
  { m with contexts := m.contexts.modify id f }

theorem context?_modifyContext (m : Machine) (id : Nat) (f : Context → Context) (i : Nat) :
    (m.modifyContext id f).context? i = if id = i then (m.context? i).map f else m.context? i :=
  Array.getElem?_modify ..

/-- What holds of every context still does after a change of one that keeps it. -/
theorem forall_modifyContext {f : Context → Context} {P : Nat → Context → Prop}
    (before : ∀ i c, m.context? i = some c → P i c) (keeps : ∀ c, P id c → P id (f c)) (i : Nat) (c : Context)
    (hc : (m.modifyContext id f).context? i = some c) : P i c := by
  rw [context?_modifyContext] at hc
  split at hc
  · rename_i at_i
    subst at_i
    obtain ⟨d, hd, rfl⟩ := Option.map_eq_some_iff.1 hc
    exact keeps d (before _ d hd)
  · exact before i c hc

/-- A context with a property still has it after a change that keeps it. -/
theorem exists_modifyContext {f : Context → Context} {P : Context → Prop} {i : Nat}
    (before : ∃ c, m.context? i = some c ∧ P c) (keeps : id = i → ∀ c, P c → P (f c)) :
    ∃ c, (m.modifyContext id f).context? i = some c ∧ P c := by
  obtain ⟨c, hc, holds⟩ := before
  rw [context?_modifyContext, hc]
  by_cases at_i : id = i
  · rw [if_pos at_i]
    exact ⟨f c, rfl, keeps at_i c holds⟩
  · rw [if_neg at_i]
    exact ⟨c, rfl, holds⟩

theorem Rooted.modifyContext {f : Context → Context} {i : Nat} (rooted : m.Rooted i)
    (keeps : ∀ c, c.Rooted m id → (f c).Rooted m id) : (m.modifyContext id f).Rooted i := by
  have keeps (at_i : id = i) (c : Context) (rooted : c.Rooted m i) : (f c).Rooted m i := by
    subst at_i
    exact keeps c rooted
  obtain ⟨c, hc, rooted⟩ := exists_modifyContext rooted keeps
  have same : m.Grows (m.modifyContext id f) := .of_heap_eq rfl
  exact ⟨c, hc, same.rooted rooted⟩

/-- An item that is entered in place of those with its key leaves all keys different. -/
theorem nodup_enter {α κ : Type} [BEq κ] [LawfulBEq κ] {f : α → κ} {l : List α} (keys : (l.map f).Nodup) (a : α) :
    ((a :: l.filter fun b => f b != f a).map f).Nodup := by
  refine List.nodup_cons.2 ⟨fun mem => ?_, keys.sublist (List.filter_sublist.map f)⟩
  obtain ⟨b, hb, same⟩ := List.mem_map.1 mem
  have different := (List.mem_filter.1 hb).2
  simp [same] at different

/-- The contexts after a template is entered for its class. -/
def withTemplate (t : Template) (c : Context) : Context :=
  { c with templates := t :: c.templates.filter (·.cls.id != t.cls.id) }

theorem Sound.addTemplate (sound : m.Sound waiting) {t : Template} (constructs : m.Constructs id t)
    (prototype : m.heap.isLive t.prototype = true) :
    (m.modifyContext id (withTemplate t)).Sound waiting := by
  refine ⟨sound.heap, fun i alive => ?_, ?_, ?_, fun i c key r hc => ?_, fun r i key h => ?_, sound.weak,
    sound.weak_nodup, sound.counted⟩
  · refine (sound.rooted i alive).modifyContext fun c rooted => ?_
    refine ⟨rooted.global, rooted.intrinsics, fun u hu => ?_, fun u hu => ?_⟩
    · rcases List.mem_cons.1 hu with rfl | hu
      · exact constructs
      · exact rooted.constructors u (List.mem_filter.1 hu).1
    · rcases List.mem_cons.1 hu with rfl | hu
      · exact prototype
      · exact rooted.prototypes u (List.mem_filter.1 hu).1
  · exact forall_modifyContext sound.keys fun _ keys => keys
  · exact forall_modifyContext sound.classes fun c classes => nodup_enter classes t
  · have entries (i : Nat) (c : Context) := sound.entries i c key r
    exact forall_modifyContext (f := withTemplate t) entries (fun _ h => h) i c hc
  · exact exists_modifyContext (sound.registered r i key h) fun _ _ mem => mem

/-- The tables of a context after a wrapper is entered under its key. -/
def withWrapper (key : NativeKey) (r : Ref) (c : Context) : Context :=
  { c with wrappers := (key, r) :: c.wrappers.filter (·.1 != key) }

theorem register_eq (m : Machine) (id : Nat) (key : NativeKey) (r : Ref) :
    m.register id key r = { m.modifyContext id (withWrapper key r) with weak := ⟨r, id, key⟩ :: m.weak } := rfl

/-- Items with different keys are found by their keys. -/
theorem find?_of_nodup {α κ : Type} [BEq κ] [LawfulBEq κ] {f : α → κ} {l : List α} (keys : (l.map f).Nodup) {a : α}
    (mem : a ∈ l) : l.find? (fun b => f b == f a) = some a := by
  induction l with
  | nil => nomatch mem
  | cons b l ih =>
    obtain ⟨fresh, keys⟩ := List.nodup_cons.1 keys
    by_cases same : f b = f a
    · rcases List.mem_cons.1 mem with rfl | mem
      · rw [List.find?_cons_of_pos (by simp)]
      · rw [same] at fresh
        exact absurd (List.mem_map_of_mem mem) fresh
    · rw [List.find?_cons_of_neg (by simpa using same)]
      refine ih keys ((List.mem_cons.1 mem).resolve_left ?_)
      rintro rfl
      exact same rfl

/-- What stands for a key is found under it. -/
theorem Sound.registered? (sound : m.Sound waiting) (stands : m.Stands r id key) :
    m.registered? ⟨id⟩ key = some r := by
  obtain ⟨c, hc, mem⟩ := sound.registered r id key stands
  have scope : m.scopeContext ⟨id⟩ = c := by simp [scopeContext, hc]
  have found : c.wrappers.find? (·.1 == key) = some (key, r) := find?_of_nodup (sound.keys id c hc) mem
  simp [Machine.registered?, scope, found, stands.isLive]

/-- What stands for something after an object is stored and entered: what did before, and the object. -/
theorem stands_addWrapper (heap : m.heap.Sound) (twin : o.twin? = some (id, key)) {i : Nat} {k : NativeKey} :
    ((m.allocate o).2.register id key (m.allocate o).1).Stands q i k ↔
      m.Stands q i k ∨ q = (m.allocate o).1 ∧ i = id ∧ k = key := by
  refine (stands_allocate heap o q i k).trans ?_
  rw [twin, Option.some.injEq, Prod.mk.injEq, eq_comm (a := id), eq_comm (a := key)]

/-- Entering a new object under a key that nothing stands for keeps the invariant. -/
theorem Sound.addWrapper (sound : m.Sound waiting) (alive : m.contextAlive id = true)
    (twin : o.twin? = some (id, key)) (absent : m.registered? ⟨id⟩ key = none) :
    ((m.allocate o).2.register id key (m.allocate o).1).Sound waiting := by
  have weak : (m.allocate o).2.weak = m.weak := by rw [allocate_eq]
  have before {P : Nat → Context → Prop} (h : ∀ i c, m.context? i = some c → P i c) (i : Nat) (c : Context)
      (hc : (m.allocate o).2.context? i = some c) : P i c := by
    rw [context?_allocate] at hc
    exact h i c hc
  refine ⟨?_, fun i h => ?_, ?_, ?_, fun i c k q hc => ?_, fun q i k h => ?_, fun e => ?_, ?_,
    sound.counted.allocate o⟩
  · change (m.allocate o).2.heap.Sound
    rw [allocate_eq]
    exact sound.heap.allocate o
  · have h : (m.allocate o).2.contextAlive i = true := h
    rw [contextAlive_allocate] at h
    obtain ⟨c, hc, rooted⟩ := sound.rooted i h
    rw [← context?_allocate m o] at hc
    have stored : (m.allocate o).2.Rooted i := ⟨c, hc, (grows_allocate sound.heap o).rooted rooted⟩
    obtain ⟨d, hd, rooted⟩ := stored.modifyContext (f := withWrapper key (m.allocate o).1) fun _ h =>
      ⟨h.global, h.intrinsics, h.constructors, h.prototypes⟩
    exact ⟨d, hd, rooted.global, rooted.intrinsics, rooted.constructors, rooted.prototypes⟩
  · exact forall_modifyContext (before sound.keys) fun _ keys => nodup_enter keys (key, (m.allocate o).1)
  · exact forall_modifyContext (before sound.classes) fun _ classes => classes
  · rw [stands_addWrapper sound.heap twin]
    have entries (i : Nat) (c : Context) (hc : m.context? i = some c) (mem : (k, q) ∈ c.wrappers) :
        (m.Stands q i k ∨ q = (m.allocate o).1 ∧ i = id ∧ k = key) ∨ ⟨q, i, k⟩ ∈ waiting :=
      (sound.entries i c k q hc mem).imp_left .inl
    refine forall_modifyContext (before entries) (fun d entries mem => ?_) i c hc
    rcases List.mem_cons.1 mem with eq | mem
    · obtain ⟨rfl, rfl⟩ := Prod.mk.inj eq
      exact .inl (.inr ⟨rfl, rfl, rfl⟩)
    · exact entries (List.mem_filter.1 mem).1
  · rcases (stands_addWrapper sound.heap twin).1 h with old | ⟨rfl, rfl, rfl⟩
    · have entered := sound.registered q i k old
      rw [← context?_allocate m o] at entered
      refine exists_modifyContext entered fun at_i c mem => ?_
      subst at_i
      have other : k ≠ key := by
        rintro rfl
        rw [sound.registered? old] at absent
        nomatch absent
      exact List.mem_cons_of_mem _ (List.mem_filter.2 ⟨mem, by simpa using other⟩)
    · obtain ⟨c, hc, -⟩ := sound.rooted i alive
      rw [← context?_allocate m o] at hc
      refine ⟨withWrapper k (m.allocate o).1 c, ?_, List.mem_cons_self⟩
      refine (context?_modifyContext ..).trans ?_
      rw [if_pos rfl, hc]
      rfl
  · obtain ⟨q, i, k⟩ := e
    rw [stands_addWrapper sound.heap twin, register_eq]
    simp only [List.mem_cons, weak, sound.weak, WeakEntry.mk.injEq]
    exact or_comm
  · rw [register_eq]
    refine List.nodup_cons.2 ⟨fun mem => ?_, ?_⟩
    · rw [weak, sound.weak] at mem
      obtain ⟨p, hp, -⟩ := mem
      rw [object?_new sound.heap] at hp
      nomatch hp
    · rw [weak]
      exact sound.weak_nodup

/-! ## Phases of a collection -/

/-- The objects are there that the roots reach, and they are what they were. -/
theorem object?_reclaim (heap : m.heap.Sound) (r : Ref) (o : Object) :
    (m.heap.reclaim m.roots).2.get? r = some o ↔ m.object? r = some o ∧ m.heap.Reaches m.IsRoot r := by
  have roots : (· ∈ m.roots) = m.IsRoot := funext fun q => propext mem_roots
  rw [Heap.get?_reclaim heap, roots]
  rfl

theorem sweep_eq (m : Machine) : m.sweep =
    (⟨⟨(m.heap.mark m.roots).2, (m.heap.reclaim m.roots).1,
        (m.weak.filter fun e => !(m.heap.reclaim m.roots).2.isLive e.target).length⟩,
      (m.weak.filter fun e => !(m.heap.reclaim m.roots).2.isLive e.target).reverse⟩,
    { m with
      heap := (m.heap.reclaim m.roots).2
      weak := m.weak.filter fun e => (m.heap.reclaim m.roots).2.isLive e.target }) := by
  simp only [sweep, List.partition_eq_filter_filter]
  rfl

theorem object?_sweep (heap : m.heap.Sound) (r : Ref) (o : Object) :
    m.sweep.2.object? r = some o ↔ m.object? r = some o ∧ m.heap.Reaches m.IsRoot r := by
  rw [sweep_eq]
  exact object?_reclaim heap r o

theorem isLive_sweep (heap : m.heap.Sound) (r : Ref) : (m.heap.reclaim m.roots).2.isLive r = true ↔
    m.heap.isLive r = true ∧ m.heap.Reaches m.IsRoot r := by
  simp only [Heap.isLive_iff, object?_reclaim heap, exists_and_right]
  rfl

theorem stands_sweep (heap : m.heap.Sound) :
    m.sweep.2.Stands r id key ↔ m.Stands r id key ∧ m.heap.Reaches m.IsRoot r :=
  Stands.of_kept (object?_sweep heap r)

/-- What a living context needs survives a collection. -/
theorem rooted_sweep {c : Context} (heap : m.heap.Sound) (alive : m.contextAlive id = true)
    (hc : m.context? id = some c) (rooted : c.Rooted m id) : c.Rooted m.sweep.2 id := by
  have keep {r : Ref} (root : m.IsRoot r) (live : m.heap.isLive r = true) :
      m.sweep.2.heap.isLive r = true := by
    rw [sweep_eq]
    exact (isLive_sweep heap r).2 ⟨live, .root root⟩
  refine ⟨keep (.global alive hc) rooted.global,
    fun r hr => keep (.intrinsic alive hc hr) (rooted.intrinsics r hr), fun t ht => ?_,
    fun t ht => keep (.prototype alive hc ht) (rooted.prototypes t ht)⟩
  obtain ⟨o, name, ho, function⟩ := rooted.constructors t ht
  exact ⟨o, name, (object?_sweep heap _ o).2 ⟨ho, .root (.constructor alive hc ht)⟩, function⟩

/-- The callbacks of a sweep are those of the objects that it frees. -/
theorem Sound.mem_callbacks (sound : m.Sound waiting) (e : WeakEntry) : e ∈ m.sweep.1.callbacks ↔
    m.Stands e.target e.context e.key ∧ ¬m.heap.Reaches m.IsRoot e.target := by
  rw [sweep_eq]
  simp only [List.mem_reverse, List.mem_filter, sound.weak, Bool.not_eq_true', ← Bool.not_eq_true,
    isLive_sweep sound.heap]
  exact and_congr_right fun stands => not_congr (and_iff_right stands.isLive)

/-- A sweep leaves the callbacks of freed wrappers waiting. -/
theorem Sound.sweep (sound : m.Sound waiting) : m.sweep.2.Sound (m.sweep.1.callbacks ++ waiting) := by
  refine ⟨?_, fun id alive => ?_, fun id c hc => ?_, fun id c hc => ?_, fun id c key r hc mem => ?_,
    fun r id key h => ?_, fun e => ?_, ?_, ?_⟩
  · rw [sweep_eq]
    exact sound.heap.reclaim m.roots
  · rw [sweep_eq] at alive
    obtain ⟨c, hc, rooted⟩ := sound.rooted id alive
    refine ⟨c, ?_, rooted_sweep sound.heap alive hc rooted⟩
    rw [sweep_eq]
    exact hc
  · rw [sweep_eq] at hc
    exact sound.keys id c hc
  · rw [sweep_eq] at hc
    exact sound.classes id c hc
  · rw [sweep_eq] at hc
    rcases sound.entries id c key r hc mem with stands | waits
    · by_cases reached : m.heap.Reaches m.IsRoot r
      · exact .inl ((stands_sweep sound.heap).2 ⟨stands, reached⟩)
      · exact .inr (List.mem_append_left _ ((sound.mem_callbacks ⟨r, id, key⟩).2 ⟨stands, reached⟩))
    · exact .inr (List.mem_append_right _ waits)
  · rw [sweep_eq]
    exact sound.registered r id key ((stands_sweep sound.heap).1 h).1
  · rw [stands_sweep sound.heap, ← sound.weak, sweep_eq]
    simp only [List.mem_filter, isLive_sweep sound.heap]
    exact and_congr_right fun mem => and_iff_right ((sound.weak e).1 mem).isLive
  · rw [sweep_eq]
    exact sound.weak_nodup.filter _
  · rw [sweep_eq]
    exact sound.counted

/-- The contexts after a callback has run. -/
def withoutWrapper (e : WeakEntry) (c : Context) : Context :=
  { c with wrappers := c.wrappers.filter fun w => !(w.1 == e.key && w.2 == e.target) }

theorem dropWrapper_eq (m : Machine) (e : WeakEntry) :
    m.dropWrapper e = m.modifyContext e.context (withoutWrapper e) := rfl

/-- A callback whose wrapper is gone takes away no entry of another one. -/
theorem Sound.dropWrapper {e : WeakEntry} (sound : m.Sound (e :: waiting))
    (dead : m.object? e.target = none) : (m.dropWrapper e).Sound waiting := by
  rw [dropWrapper_eq]
  refine ⟨sound.heap, fun id alive => ?_, ?_, ?_, fun id c key r hc mem => ?_, fun r id key h => ?_, sound.weak,
    sound.weak_nodup, sound.counted⟩
  · exact (sound.rooted id alive).modifyContext fun _ h => ⟨h.global, h.intrinsics, h.constructors, h.prototypes⟩
  · exact forall_modifyContext sound.keys fun _ keys => keys.sublist (List.filter_sublist.map _)
  · exact forall_modifyContext sound.classes fun _ classes => classes
  · rw [context?_modifyContext] at hc
    by_cases at_id : e.context = id
    · rw [if_pos at_id] at hc
      obtain ⟨d, hd, rfl⟩ := Option.map_eq_some_iff.1 hc
      obtain ⟨mem, kept⟩ := List.mem_filter.1 mem
      refine (sound.entries id d key r hd mem).imp_right fun waits => ?_
      rcases List.mem_cons.1 waits with eq | waits
      · have target : r = e.target := congrArg WeakEntry.target eq
        have same : key = e.key := congrArg WeakEntry.key eq
        simp [target, same] at kept
      · exact waits
    · rw [if_neg at_id] at hc
      refine (sound.entries id c key r hc mem).imp_right fun waits => ?_
      rcases List.mem_cons.1 waits with eq | waits
      · exact absurd (congrArg WeakEntry.context eq).symm at_id
      · exact waits
  · refine exists_modifyContext (sound.registered r id key h) fun _ c mem => List.mem_filter.2 ⟨mem, ?_⟩
    have alive : r ≠ e.target := by
      rintro rfl
      obtain ⟨o, ho, -⟩ := h
      have ho : m.object? e.target = some o := ho
      rw [dead] at ho
      nomatch ho
    simp [alive]

theorem Sound.finish (sound : m.Sound waiting) (cycle : Cycle) : (m.finish cycle).Sound waiting :=
  sound.of_same rfl rfl rfl sound.rooted sound.counted

end Machine

end ScriptBridge
