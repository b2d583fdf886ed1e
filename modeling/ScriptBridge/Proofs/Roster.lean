import ScriptBridge.Proofs.Collection
import ScriptBridge.Proofs.Edits
import ScriptBridge.Proofs.Exports
import ScriptBridge.Proofs.Normal

/-!
# Known classes

A `Roster` lists the classes that were declared so far, each under its identity, and the native objects that were
made, each with its class. `Machine.Known` says that whatever a machine keeps knows only such classes and objects, and
exports only what the classes offer: the functions and the wrappers on the heap, the templates of contexts, the values
of native code and the tables of the session.

* `Roster.Serves`, `Roster.Knows`: the classes and objects in a native value are on the roster. Reading a value with a
  shape keeps that (`Roster.Knows.argument`).
* `Action.Safe`: what an action stores is known. `Machine.Known.run`: a safe action keeps a machine known.
* `Roster.add`: a new class joins under an identity that was given out and that no class has. `Roster.enlist`: a new
  object joins (`Machine.Known.addNative`).

Proof-only: not reachable from `ScriptBridge.Session.Run`.
-/

namespace ScriptBridge

/-! ## Rosters -/

/-- The declared classes by identity. The ancestors of each are declared too, and its protocols fit. -/
structure Roster where
  class? : Nat → Option Class
  /-- How many identities were given out. -/
  declared : Nat
  /-- The class of each native object, in the order in which they were made. -/
  made : Array Class
  fresh : ∀ id, declared ≤ id → class? id = none
  ancestors : ∀ c, class? c.id = some c → ∀ a ∈ c.ancestors, class? a.id = some a
  fits : ∀ c, class? c.id = some c → c.Fits

namespace Roster

variable {K K' K'' : Roster} {c : Class} {h : Handle}

/-- A class is the one under its identity. -/
def Has (K : Roster) (c : Class) : Prop := K.class? c.id = some c

/-- The class of the native object of a serial number. Serial numbers start at one. -/
def madeOf? (K : Roster) (serial : Nat) : Option Class := if serial = 0 then none else K.made[serial - 1]?

/-- An object is one that was made, of a class that was declared. -/
structure Holds (K : Roster) (h : Handle) : Prop where
  has : K.Has h.cls
  made : K.madeOf? h.serial = some h.cls

/-- No class leaves, and no object. -/
instance : LE Roster := ⟨fun K K' => (∀ c, K.Has c → K'.Has c) ∧ ∀ n c, K.madeOf? n = some c → K'.madeOf? n = some c⟩

theorem le_refl (K : Roster) : K ≤ K := ⟨fun _ h => h, fun _ _ h => h⟩

theorem le_trans (first : K ≤ K') (next : K' ≤ K'') : K ≤ K'' :=
  ⟨fun c h => next.1 c (first.1 c h), fun n c h => next.2 n c (first.2 n c h)⟩

theorem Has.mono (has : K.Has c) (le : K ≤ K') : K'.Has c := le.1 c has

theorem Holds.mono (holds : K.Holds h) (le : K ≤ K') : K'.Holds h := ⟨holds.has.mono le, le.2 _ _ holds.made⟩

/-- Serial numbers tell the classes of objects. -/
theorem Holds.cls_eq {k : Handle} (hh : K.Holds h) (hk : K.Holds k) (same : h.serial = k.serial) : h.cls = k.cls :=
  Option.some.inj (hh.made.symm.trans (same ▸ hk.made))

theorem Has.ancestor (has : K.Has c) {a : Class} (ancestor : a ∈ c.ancestors) : K.Has a := K.ancestors c has a ancestor

/-- Identities tell classes apart. -/
theorem Has.eq_of_id {d : Class} (hc : K.Has c) (hd : K.Has d) (same : c.id = d.id) : c = d := by
  unfold Has at hc hd
  rw [same, hd] at hc
  exact (Option.some.inj hc).symm

/-- What counts as a subclass is one. -/
theorem Has.mem_ancestors {d : Class} (hc : K.Has c) (hd : K.Has d) (sub : c.isSubclassOf d = true) :
    d ∈ c.ancestors := by
  obtain ⟨a, mem, same⟩ := List.any_eq_true.1 sub
  exact (hc.ancestor mem).eq_of_id hd (beq_iff_eq.1 same) ▸ mem

/-- The roster before anything was declared. -/
def empty : Roster := ⟨fun _ => none, 0, #[], fun _ _ => rfl, nofun, nofun⟩

/-- An identity is given out. -/
def reserve (K : Roster) : Roster :=
  { K with declared := K.declared + 1, fresh := fun id le => K.fresh id (Nat.le_of_succ_le le) }

/-- An object of a class is made. -/
def enlist (K : Roster) (c : Class) : Roster := { K with made := K.made.push c }

theorem madeOf?_enlist : (K.enlist c).madeOf? (K.made.size + 1) = some c := by
  simp [madeOf?, enlist]

theorem le_enlist : K ≤ K.enlist c := by
  refine ⟨fun _ has => has, fun n d made => ?_⟩
  unfold madeOf? at made ⊢
  split at made
  · nomatch made
  · rename_i some
    obtain ⟨small, -⟩ := Array.getElem?_eq_some_iff.1 made
    rw [if_neg some, enlist, Array.getElem?_push_lt small]
    rwa [← Array.getElem?_eq_getElem small]

/-- A class joins under an identity that was given out and that no class has. -/
def add (K : Roster) (c : Class) (given : c.id < K.declared) (unused : K.class? c.id = none)
    (ancestors : ∀ s, c.superclass = some s → K.Has s) (fits : c.Fits) : Roster where
  class? id := if id = c.id then some c else K.class? id
  declared := K.declared
  made := K.made
  fresh id le := by
    rw [if_neg (by omega)]
    exact K.fresh id le
  ancestors d hd a mem := by
    have old {b : Class} (has : K.Has b) : (if b.id = c.id then some c else K.class? b.id) = some b := by
      rw [if_neg, has]
      intro same
      unfold Has at has
      rw [same, unused] at has
      nomatch has
    by_cases same : d.id = c.id
    · rw [if_pos same] at hd
      obtain rfl := Option.some.inj hd
      rcases Class.mem_ancestors_iff.1 mem with rfl | ⟨s, super, mem⟩
      · exact if_pos rfl
      · exact old ((ancestors s super).ancestor mem)
    · rw [if_neg same] at hd
      exact old (Has.ancestor hd mem)
  fits d hd := by
    split at hd
    · obtain rfl := Option.some.inj hd
      exact fits
    · exact K.fits d hd

section

variable (given : c.id < K.declared) (unused : K.class? c.id = none) (ancestors : ∀ s, c.superclass = some s → K.Has s)
  (fits : c.Fits)

theorem le_add : K ≤ K.add c given unused ancestors fits := by
  refine ⟨fun d has => ?_, fun _ _ made => made⟩
  have other : d.id ≠ c.id := by
    intro same
    unfold Has at has
    rw [same, unused] at has
    nomatch has
  exact (if_neg other).trans has

theorem has_add : (K.add c given unused ancestors fits).Has c := if_pos rfl

end

end Roster

/-! ## Native values -/

namespace NativeValue

mutual

/-- What a value has that can be called: its objects, and the classes that it refers to. -/
def receivers : NativeValue → List Receiver
  | object h => [.object h]
  | classRef c => [.classRef c]
  | array items => receiversOfItems items
  | dictionary entries => receiversOfEntries entries
  | _ => []

def receiversOfItems : List NativeValue → List Receiver
  | [] => []
  | v :: rest => receivers v ++ receiversOfItems rest

def receiversOfEntries : List (NativeValue × NativeValue) → List Receiver
  | [] => []
  | (k, v) :: rest => receivers k ++ receivers v ++ receiversOfEntries rest

end

theorem mem_receiversOfItems {x : Receiver} {items : List NativeValue} :
    x ∈ receiversOfItems items ↔ ∃ v ∈ items, x ∈ v.receivers := by
  induction items with
  | nil => simp [receiversOfItems]
  | cons v rest ih => simp [receiversOfItems, ih]

theorem mem_receiversOfEntries {x : Receiver} {entries : List (NativeValue × NativeValue)} :
    x ∈ receiversOfEntries entries ↔ ∃ e ∈ entries, x ∈ e.1.receivers ∨ x ∈ e.2.receivers := by
  induction entries with
  | nil => simp [receiversOfEntries]
  | cons e rest ih => simp [receiversOfEntries, ih, or_assoc]

end NativeValue

namespace Roster

variable {K K' : Roster} {v : NativeValue}

/-- What native code is called on is on the roster. -/
def Serves (K : Roster) : Receiver → Prop
  | .object h => K.Holds h
  | .classRef c => K.Has c
  | .nothing => True

theorem Serves.mono {x : Receiver} (serves : K.Serves x) (le : K ≤ K') : K'.Serves x := by
  cases x with
  | object h => exact Holds.mono serves le
  | classRef c => exact Has.mono serves le
  | nothing => trivial

theorem Serves.has {x : Receiver} {c : Class} (serves : K.Serves x) (found : x.class? = some c) : K.Has c := by
  cases x with
  | object h =>
    obtain rfl := Option.some.inj found
    exact Holds.has serves
  | classRef d =>
    obtain rfl := Option.some.inj found
    exact serves
  | nothing => nomatch found

/-- Every class and every object in a value is on the roster. -/
def Knows (K : Roster) (v : NativeValue) : Prop := ∀ x ∈ v.receivers, K.Serves x

theorem Knows.mono (knows : K.Knows v) (le : K ≤ K') : K'.Knows v := fun x mem => (knows x mem).mono le

/-- A value without classes and objects. -/
theorem Knows.plain (plain : v.receivers = []) : K.Knows v := fun x mem => by
  rw [plain] at mem
  nomatch mem

theorem knows_object {h : Handle} : K.Knows (.object h) ↔ K.Holds h := by
  simp [Knows, NativeValue.receivers, Serves]

theorem knows_classRef {c : Class} : K.Knows (.classRef c) ↔ K.Has c := by
  simp [Knows, NativeValue.receivers, Serves]

theorem knows_array {items : List NativeValue} : K.Knows (.array items) ↔ ∀ v ∈ items, K.Knows v := by
  simp only [Knows, NativeValue.receivers, NativeValue.mem_receiversOfItems]
  exact ⟨fun h v mem x hx => h x ⟨v, mem, hx⟩, fun h x ⟨v, mem, hx⟩ => h v mem x hx⟩

theorem knows_dictionary {entries : List (NativeValue × NativeValue)} :
    K.Knows (.dictionary entries) ↔ ∀ e ∈ entries, K.Knows e.1 ∧ K.Knows e.2 := by
  simp only [Knows, NativeValue.receivers, NativeValue.mem_receiversOfEntries]
  exact ⟨fun h e mem => ⟨fun x hx => h x ⟨e, mem, .inl hx⟩, fun x hx => h x ⟨e, mem, .inr hx⟩⟩,
    fun h x ⟨e, mem, hx⟩ => hx.elim ((h e mem).1 x) ((h e mem).2 x)⟩

theorem Knows.get? {key : String} {item : NativeValue} (knows : K.Knows v) (found : v.get? key = some item) :
    K.Knows item := by
  unfold NativeValue.get? at found
  split at found
  · obtain ⟨e, he, rfl⟩ := Option.map_eq_some_iff.1 found
    exact (knows_dictionary.1 knows e (List.mem_of_find?_eq_some he)).2
  · nomatch found

theorem Knows.extractItems {read : NativeValue → Except String NativeValue} {items items' : List NativeValue}
    (each : ∀ v ∈ items, ∀ w, read v = .ok w → K.Knows w) (done : NativeValue.extractItems read items = .ok items') :
    ∀ w ∈ items', K.Knows w := by
  induction items generalizing items' with
  | nil =>
    obtain rfl := Except.ok.inj done
    exact nofun
  | cons v rest ih =>
    obtain ⟨first, readFirst, next⟩ := Except.bind_eq_ok.1 done
    obtain ⟨others, readOthers, result⟩ := Except.bind_eq_ok.1 next
    obtain rfl := Except.ok.inj result
    intro w mem
    rcases List.mem_cons.1 mem with rfl | mem
    · exact each v List.mem_cons_self _ readFirst
    · exact ih (fun v mem => each v (List.mem_cons_of_mem _ mem)) readOthers w mem

theorem Knows.extractInteger {lo hi : Int} {w : NativeValue} (read : NativeValue.extractInteger lo hi v = .ok w) :
    K.Knows w := by
  unfold NativeValue.extractInteger at read
  split at read
  · exact Except.ok.inj read ▸ .plain rfl
  · nomatch read

/-- A reading gives no other classes and objects than the value has. -/
theorem Knows.extract (shape : Program.ArgShape) {w : NativeValue} (knows : K.Knows v)
    (read : NativeValue.extract shape v = .ok w) : K.Knows w := by
  induction shape generalizing v w with
  | value =>
    obtain rfl := Except.ok.inj read
    exact knows
  | f64 | bool | string | object | closure | date =>
    unfold NativeValue.extract at read
    split at read
    · exact Except.ok.inj read ▸ knows
    · nomatch read
  | i32 | i64 | u32 | usize => exact .extractInteger read
  | optional shape ih =>
    unfold NativeValue.extract at read
    split at read
    · exact Except.ok.inj read ▸ .plain rfl
    · exact ih knows read
  | list shape ih =>
    unfold NativeValue.extract at read
    split at read
    · rename_i items
      cases done : NativeValue.extractItems (NativeValue.extract shape) items with
      | error e =>
        rw [done] at read
        nomatch read
      | ok items' =>
        rw [done] at read
        obtain rfl := Except.ok.inj read
        exact knows_array.2 (Knows.extractItems (fun v mem w => ih (knows_array.1 knows v mem)) done)
    · nomatch read

theorem Knows.argument {args : List NativeValue} {index : Nat} {shape : Program.ArgShape} {w : NativeValue}
    (knows : ∀ v ∈ args, K.Knows v) (read : NativeValue.argument args index shape = .ok w) : K.Knows w := by
  unfold NativeValue.argument at read
  split at read
  · nomatch read
  · rename_i v at_index
    split at read
    · rename_i extracted
      exact Except.ok.inj read ▸ (knows v (List.mem_of_getElem? at_index)).extract shape extracted
    · nomatch read

end Roster

/-! ## Machines -/

/-- What a function does is known: an exported operation of a known class, or one without a class. -/
def Callable.Known (K : Roster) : Callable → Prop
  | .method m cls => K.Has cls ∧ cls.Offers .onInstance m
  | .classMethod m cls => K.Has cls ∧ cls.Offers .onClass m
  | .constructor cls table => K.Has cls ∧ table.Of cls
  | .builtin _ | .host .. | .closure _ => True

/-- The keys of an object are different, and what it does and wraps is known. A wrapper is of a class whose exports
have no clash. -/
structure Object.Known (K : Roster) (o : Object) : Prop where
  keys : (o.properties.map (·.1)).Nodup
  function : ∀ f, o.function? = some f → f.callable.Known K
  wrapper : ∀ w, o.wrapper? = some w → K.Holds w.native ∧ w.table.Of w.native.cls
  exports : ∀ w, o.wrapper? = some w → w.native.cls.Exports

/-- The template of a known class exports what the class offers, and the exports of the class have no clash. -/
structure Template.Known (K : Roster) (t : Template) : Prop where
  has : K.Has t.cls
  table : t.table.Of t.cls
  exports : t.cls.Exports

/-- The registers have known values, and all declarations are known. -/
structure Tables.Known (K : Roster) (t : Tables) : Prop where
  natives : ∀ e ∈ t.natives, K.Knows e.2
  classes : ∀ e ∈ t.classes, K.Has e.2
  protocols : ∀ e ∈ t.protocols, e.2.Fits
  declared : t.declared = K.declared

/-- A machine keeps its heap in order and knows declared classes only. -/
structure Machine.Known (K : Roster) (m : Machine) : Prop where
  heap : m.heap.Sound
  objects : ∀ r o, m.object? r = some o → o.Known K
  templates : ∀ id c, m.context? id = some c → ∀ t ∈ c.templates, t.Known K
  natives : K.made = m.natives.map (·.cls)
  cells : ∀ o ∈ m.natives, ∀ e ∈ o.cells, K.Knows e.2
  tables : m.tables.Known K

section

variable {K K' : Roster}

theorem Callable.Known.mono {f : Callable} (known : f.Known K) (le : K ≤ K') : f.Known K' := by
  cases f with
  | builtin | host | closure => trivial
  | method | classMethod | constructor => exact And.imp_left (·.mono le) known

theorem Object.Known.mono {o : Object} (known : o.Known K) (le : K ≤ K') : o.Known K' where
  keys := known.keys
  function f hf := (known.function f hf).mono le
  wrapper w hw := (known.wrapper w hw).imp_left (·.mono le)
  exports := known.exports

theorem Template.Known.mono {t : Template} (known : t.Known K) (le : K ≤ K') : t.Known K' :=
  ⟨known.has.mono le, known.table, known.exports⟩

/-- An object that is no function and no wrapper is known if its keys are different. -/
theorem Object.Known.plain {o : Object} (keys : (o.properties.map (·.1)).Nodup) (function : o.function? = none)
    (wrapper : o.wrapper? = none) : o.Known K where
  keys := keys
  function f hf := by
    rw [function] at hf
    nomatch hf
  wrapper w hw := by
    rw [wrapper] at hw
    nomatch hw
  exports w hw := by
    rw [wrapper] at hw
    nomatch hw

/-- No edit gives a key twice, or changes what an object does or wraps. -/
theorem Object.Known.edit {o : Object} (known : o.Known K) (e : Edit) : (o.edit e).Known K where
  keys := by
    cases e with
    | define key p => exact Properties.nodup_insert known.keys key p
    | store key v => exact Properties.nodup_insert known.keys key _
    | remove key => exact Properties.nodup_erase known.keys key
    | setPrototype => exact known.keys
    | storeItem | clearItem | resize =>
      rw [Object.edit, Object.properties_editItems]
      exact known.keys
  function f hf := known.function f (by rwa [Object.function?_edit] at hf)
  wrapper w hw := known.wrapper w (by rwa [Object.wrapper?_edit] at hw)
  exports w hw := known.exports w (by rwa [Object.wrapper?_edit] at hw)

theorem Machine.Known.mono_of_tables {m : Machine} (known : m.Known K) (le : K ≤ K') (made : K'.made = K.made)
    (tables : Tables) (known' : tables.Known K') : ({ m with tables } : Machine).Known K' where
  heap := known.heap
  objects r o ho := (known.objects r o ho).mono le
  templates id c hc t ht := (known.templates id c hc t ht).mono le
  natives := made.trans known.natives
  cells o ho e he := (known.cells o ho e he).mono le
  tables := known'

end

/-- What an action stores is known. No action makes a native object: the roster does not list it yet. -/
def Action.Safe {β : Type} (K : Roster) : Action β → Prop
  | .allocate o => o.Known K
  | .addWrapper _ _ o => o.Known K
  | .addTemplate _ t => t.Known K
  | .addContext c => c.templates = []
  | .addNative _ => False
  | .setCell _ _ v => K.Knows v
  | .tables f => ∀ t, t.Known K → (f t).2.Known K
  | _ => True

namespace Machine.Known

variable {K : Roster} {m m' : Machine}

theorem of_same (known : m.Known K) (heap : m'.heap = m.heap) (contexts : m'.contexts = m.contexts)
    (natives : m'.natives = m.natives) (tables : m'.tables = m.tables) : m'.Known K where
  heap := heap ▸ known.heap
  objects r o ho := known.objects r o (by rwa [object?, heap] at ho)
  templates id c hc := known.templates id c (by rwa [context?, contexts] at hc)
  natives := natives ▸ known.natives
  cells o ho := known.cells o (natives ▸ ho)
  tables := tables ▸ known.tables

theorem modifyContext (known : m.Known K) (id : Nat) {f : Context → Context}
    (keeps : ∀ c, (∀ t ∈ c.templates, t.Known K) → ∀ t ∈ (f c).templates, t.Known K) : (m.modifyContext id f).Known K :=
  { known with templates := forall_modifyContext known.templates keeps }

theorem allocate (known : m.Known K) {o : Object} (safe : o.Known K) : (m.allocate o).2.Known K where
  heap := by
    rw [allocate_eq]
    exact known.heap.allocate o
  objects r p hp := by
    rw [object?_allocate known.heap] at hp
    split at hp
    · exact Option.some.inj hp ▸ safe
    · exact known.objects r p hp
  templates id c hc := known.templates id c (by rwa [context?_allocate] at hc)
  natives := by
    rw [allocate_eq]
    exact known.natives
  cells p hp := known.cells p (by rwa [allocate_eq] at hp)
  tables := by
    rw [allocate_eq]
    exact known.tables

theorem edit (known : m.Known K) (r : Ref) (e : Edit) : ({ m with heap := m.heap.edit r e } : Machine).Known K :=
  { known with
    heap := known.heap.edit r e
    objects := fun q o ho => by
      rw [object?, Heap.get?_edit] at ho
      split at ho
      · obtain ⟨p, hp, rfl⟩ := Option.map_eq_some_iff.1 ho
        exact (known.objects q p hp).edit e
      · exact known.objects q o ho }

/-- A collection leaves what is known, and less. -/
theorem collect (known : m.Known K) : m.collect.2.Known K := by
  have dropped (es : List WeakEntry) {m : Machine} (known : m.Known K) : (es.foldl dropWrapper m).Known K :=
    List.foldlRecOn (motive := (·.Known K)) es dropWrapper known fun m known e _ => by
      rw [dropWrapper_eq]
      exact known.modifyContext e.context fun _ templates => templates
  have swept : m.sweep.2.Known K := by
    rw [sweep_eq]
    exact { known with
      heap := known.heap.reclaim m.roots
      objects := fun r o ho => known.objects r o ((object?_reclaim known.heap r o).1 ho).1 }
  rw [collect_eq_finish]
  exact (dropped m.sweep.1.callbacks swept).of_same rfl rfl rfl rfl

theorem setCell (known : m.Known K) (serial : Nat) (cell : String) {v : NativeValue} (safe : K.Knows v) :
    ((Action.setCell serial cell v).run m).2.Known K := by
  simp only [Action.run]
  split
  · exact known
  · refine { known with natives := ?_, cells := fun o ho e he => ?_ }
    · refine known.natives.trans (Array.ext_getElem? fun i => ?_)
      rw [Array.getElem?_map, Array.getElem?_map, Array.getElem?_modify]
      split
      · cases m.natives[i]? <;> rfl
      · rfl
    obtain ⟨i, hi⟩ := Array.mem_iff_getElem?.1 ho
    rw [Array.getElem?_modify] at hi
    split at hi
    · obtain ⟨p, hp, rfl⟩ := Option.map_eq_some_iff.1 hi
      rcases Named.mem_insert he with mem | rfl
      · exact known.cells p (Array.mem_of_getElem? hp) e mem
      · exact safe
    · exact known.cells o (Array.mem_of_getElem? hi) e he

/-- A new native object is known from then on. -/
theorem addNative (known : m.Known K) {o : NativeObject} (safe : ∀ e ∈ o.cells, K.Knows e.2) :
    ((Action.addNative o).run m).2.Known (K.enlist o.cls) where
  heap := known.heap
  objects r p hp := (known.objects r p hp).mono Roster.le_enlist
  templates id c hc t ht := (known.templates id c hc t ht).mono Roster.le_enlist
  natives := by
    change K.made.push o.cls = (m.natives.push o).map (·.cls)
    rw [known.natives, Array.map_push]
  cells p hp e he := by
    rcases Array.mem_push.1 hp with mem | rfl
    · exact (known.cells p mem e he).mono Roster.le_enlist
    · exact (safe e he).mono Roster.le_enlist
  tables := ⟨fun e he => (known.tables.natives e he).mono Roster.le_enlist,
    fun e he => (known.tables.classes e he).mono Roster.le_enlist, known.tables.protocols, known.tables.declared⟩

/-- It gets the serial number under which the roster lists it. -/
theorem holds_addNative (known : m.Known K) {o : NativeObject} (has : K.Has o.cls) :
    (K.enlist o.cls).Holds ⟨((Action.addNative o).run m).1, o.cls⟩ := by
  refine ⟨has.mono Roster.le_enlist, ?_⟩
  have serial : ((Action.addNative o).run m).1 = K.made.size + 1 := by
    rw [known.natives, Array.size_map]
    exact Array.size_push o
  rw [serial]
  exact Roster.madeOf?_enlist

/-- A safe action keeps a machine known. -/
theorem run {β : Type} {a : Action β} (known : m.Known K) (safe : a.Safe K) : (a.run m).2.Known K := by
  have side := a.run_nativeSide m
  cases a with
  | read | openRegion | beginCall | endCall | pushFrame | popFrame | position | addSource | openHold | closeHold
  | holdContext | releaseContext | addManaged | setOptions | setEvaluator => exact known.of_same rfl rfl rfl rfl
  | allocate o => exact known.allocate safe
  | addWrapper id key o =>
    change ((m.allocate o).2.register id key (m.allocate o).1).Known K
    have entered : ((m.allocate o).2.modifyContext id (withWrapper key (m.allocate o).1)).Known K :=
      (known.allocate safe).modifyContext id fun _ templates => templates
    exact entered.of_same rfl rfl rfl rfl
  | track v =>
    obtain ⟨_, eq, -⟩ := Action.run_track m v
    rw [eq]
    exact known.of_same rfl rfl rfl rfl
  | edit r e => exact known.edit r e
  | hold v =>
    obtain ⟨_, eq⟩ := Action.run_hold m v
    rw [eq]
    exact known.of_same rfl rfl rfl rfl
  | addOwner id owner =>
    obtain ⟨_, eq⟩ := Action.run_addOwner m id owner
    rw [eq]
    exact known.of_same rfl rfl rfl rfl
  | removeOwner id owner =>
    obtain ⟨_, eq⟩ := Action.run_removeOwner m id owner
    rw [eq]
    exact known.of_same rfl rfl rfl rfl
  | setCell serial cell v => exact known.setCell serial cell safe
  | addContext c =>
    refine { known with templates := fun id c' hc t ht => ?_ }
    have hc : (m.contexts.push c)[id]? = some c' := hc
    rw [Array.getElem?_push] at hc
    split at hc
    · obtain rfl := Option.some.inj hc
      rw [safe] at ht
      nomatch ht
    · exact known.templates id c' hc t ht
  | addTemplate id t =>
    refine known.modifyContext id (f := withTemplate t) fun c templates u hu => ?_
    rcases List.mem_cons.1 hu with rfl | hu
    · exact safe
    · exact templates u (List.mem_filter.1 hu).1
  | addNative o => exact safe.elim
  | collect => exact known.collect
  | closeRegion panicking =>
    have left : m.leaveRegion.Known K := known.of_same rfl rfl rfl rfl
    change (m.closeRegion panicking).Known K
    unfold closeRegion
    split
    · exact left
    · rename_i region _ _
      split
      · have kept : (m.leaveRegion.holdContext region.context).Known K := left.of_same rfl rfl rfl rfl
        exact kept.collect.of_same rfl rfl rfl rfl
      · exact left
  | tables f => exact { known with tables := safe m.tables known.tables }

end Machine.Known

end ScriptBridge
