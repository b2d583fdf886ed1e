import ScriptBridge.Proofs.Exports
import ScriptBridge.Proofs.Identity
import ScriptBridge.Proofs.Normal

/-!
# What bridging adds

Making script objects for native things adds objects, and entries to the tables of a context. What was
there before stays as it was.

* `Machine.Extends`: a machine that has all that another one had. `Machine.Furnishes`: without new wrappers.
  `Machine.Stocks`: with nothing else that is new but objects, handles and counts.
* `Scope.templateFor_settles`, `Scope.wrapperFor_settles`, `Scope.functionFor_settles`: a class gets its template, an
  object its wrapper and a closure its function, or a clash of exports is told; no script code runs.
* `Scope.templateFor_furnishes`, `Scope.wrapperFor_extends`, `Scope.functionFor_extends`: where no exports clash they
  get them.

Proof-only: not reachable from `ScriptBridge.Session.Run`.
-/

namespace ScriptBridge

open Routine

/-! ## Machines with more in them -/

namespace Machine

variable {m₀ m m' m'' : Machine} {o : Object} {r : Ref} {e : Edit} {id : Nat} {s : Scope}

/-- The invariant holds, also while callbacks of freed wrappers wait. -/
def Steady (m : Machine) : Prop := ∃ waiting, m.Sound waiting ∧ ∀ e ∈ waiting, m.heap.Lost e.target

theorem Steady.heap (steady : m.Steady) : m.heap.Sound := by
  obtain ⟨waiting, sound, -⟩ := steady
  exact sound.heap

theorem Steady.rooted (steady : m.Steady) (alive : m.contextAlive id = true) : m.Rooted id := by
  obtain ⟨waiting, sound, -⟩ := steady
  exact sound.rooted id alive

/-- A machine that has every object of another one, and the same options, contexts and prototypes. -/
structure Extends (m m' : Machine) : Prop where
  steady : m'.Steady
  objects : ∀ r o, m.object? r = some o → m'.object? r = some o
  generations : ∀ (i : Nat) (s : Slot), m.heap.slots[i]? = some s →
    ∃ t, m'.heap.slots[i]? = some t ∧ t.generation = s.generation
  options : m'.options = m.options
  alive : ∀ id, m'.contextAlive id = m.contextAlive id
  intrinsics : ∀ s : Scope, (m'.scopeContext s).intrinsics = (m.scopeContext s).intrinsics

/-- The same, with no further wrappers in the tables. -/
structure Furnishes (m m' : Machine) : Prop extends m.Extends m' where
  wrappers : ∀ s : Scope, (m'.scopeContext s).wrappers = (m.scopeContext s).wrappers

theorem Extends.trans (first : m.Extends m') (next : m'.Extends m'') : m.Extends m'' where
  steady := next.steady
  objects r o ho := next.objects r o (first.objects r o ho)
  generations i s hs := by
    obtain ⟨t, ht, same⟩ := first.generations i s hs
    obtain ⟨u, hu, same'⟩ := next.generations i t ht
    exact ⟨u, hu, same'.trans same⟩
  options := next.options.trans first.options
  alive id := (next.alive id).trans (first.alive id)
  intrinsics s := (next.intrinsics s).trans (first.intrinsics s)

theorem Furnishes.trans (first : m.Furnishes m') (next : m'.Furnishes m'') : m.Furnishes m'' :=
  ⟨first.toExtends.trans next.toExtends, fun s => (next.wrappers s).trans (first.wrappers s)⟩

theorem Furnishes.refl (steady : m.Steady) : m.Furnishes m :=
  ⟨⟨steady, fun _ _ ho => ho, fun _ s hs => ⟨s, hs, rfl⟩, rfl, fun _ => rfl, fun _ => rfl⟩, fun _ => rfl⟩

theorem Extends.grows (h : m.Extends m') : m.Grows m' := fun r o ho => ⟨o, h.objects r o ho, rfl⟩

/-- What is new later was not there before. -/
theorem Extends.absent (h : m.Extends m') (new : m'.object? r = none) : m.object? r = none := by
  cases ho : m.object? r with
  | none => rfl
  | some o =>
    rw [h.objects r o ho] at new
    nomatch new

/-- A step that keeps the invariant, the objects and the generations of slots, and what else matters. -/
theorem Steady.extends_of_sound (steady : m.Steady) (keeps : ∀ waiting, m.Sound waiting → m'.Sound waiting)
    (objects : ∀ r o, m.object? r = some o → m'.object? r = some o)
    (generations : ∀ (i : Nat) (s : Slot), m.heap.slots[i]? = some s →
      ∃ t, m'.heap.slots[i]? = some t ∧ t.generation = s.generation)
    (options : m'.options = m.options) (alive : ∀ id, m'.contextAlive id = m.contextAlive id)
    (intrinsics : ∀ s : Scope, (m'.scopeContext s).intrinsics = (m.scopeContext s).intrinsics) : m.Extends m' := by
  obtain ⟨waiting, sound, lost⟩ := steady
  have steady : m'.Steady := ⟨waiting, keeps waiting sound, fun e he => (lost e he).of_generation generations⟩
  exact ⟨steady, objects, generations, options, alive, intrinsics⟩

/-- What changes neither objects nor contexts keeps all there is. -/
theorem Furnishes.of_same (h : m₀.Furnishes m) (heap : m'.heap = m.heap) (contexts : m'.contexts = m.contexts)
    (weak : m'.weak = m.weak) (options : m'.options = m.options)
    (alive : ∀ id, m'.contextAlive id = m.contextAlive id) (counted : m.Counted → m'.Counted) : m₀.Furnishes m' := by
  have scope (s : Scope) : m'.scopeContext s = m.scopeContext s := by
    unfold scopeContext context?
    rw [contexts]
  have keeps (waiting : List WeakEntry) (sound : m.Sound waiting) : m'.Sound waiting :=
    sound.of_same heap contexts weak (fun id living => sound.rooted id (by rwa [alive] at living)) (counted sound.counted)
  refine h.trans ⟨h.steady.extends_of_sound keeps (fun r o ho => ?_) (fun i s hs => ⟨s, ?_, rfl⟩) options alive
    fun s => ?_, fun s => ?_⟩
  · unfold object? at *
    rw [heap]
    exact ho
  · rw [heap]
    exact hs
  · rw [scope]
  · rw [scope]

theorem Furnishes.record (h : m₀.Furnishes m) (r : Ref) : m₀.Furnishes (m.record r) := by
  have alive (id : Nat) : (m.record r).contextAlive id = m.contextAlive id := contextAlive_record ..
  refine h.of_same (by rw [record_eq]) (by rw [record_eq]) (by rw [record_eq]) (by rw [record_eq]) alive fun counted => ?_
  rw [record_eq]
  exact counted.keep [r]

theorem Furnishes.allocate (h : m₀.Furnishes m) (plain : o.twin? = none) : m₀.Furnishes (m.allocate o).2 := by
  have heap := h.steady.heap
  have scope (s : Scope) : (m.allocate o).2.scopeContext s = m.scopeContext s := by
    unfold scopeContext
    rw [context?_allocate]
  refine h.trans ⟨h.steady.extends_of_sound (fun _ sound => sound.allocate plain) (fun r p hp => ?_)
    (fun i s hs => ?_) ?_ (fun _ => ?_) fun s => ?_, fun s => ?_⟩
  · rw [allocate_eq]
    exact Heap.get?_allocate_of_some heap.counted hp
  · rw [allocate_eq]
    exact Heap.generation_allocate heap.counted hs
  · rw [allocate_eq]
  · exact contextAlive_allocate ..
  · rw [scope]
  · rw [scope]

theorem ne_of_new {q : Ref} (new : m.object? r = none) (hq : m.object? q = some o) : q ≠ r := by
  rintro rfl
  rw [new] at hq
  nomatch hq

/-- An object that was not there at first may change. -/
theorem Extends.edit (h : m₀.Extends m) (new : m₀.object? r = none) (e : Edit) :
    m₀.Extends { m with heap := m.heap.edit r e } := by
  obtain ⟨waiting, sound, lost⟩ := h.steady
  have steady : ({ m with heap := m.heap.edit r e } : Machine).Steady :=
    ⟨waiting, sound.edit r e, fun e he => (lost e he).of_generation fun i s => Heap.generation_edit r _⟩
  refine ⟨steady, fun q o ho => ?_, fun i s hs => ?_, h.options, h.alive, h.intrinsics⟩
  · change (m.heap.edit r e).get? q = some o
    rw [Heap.get?_edit, if_neg (ne_of_new new ho)]
    exact h.objects q o ho
  · obtain ⟨t, ht, same⟩ := h.generations i s hs
    obtain ⟨u, hu, same'⟩ := Heap.generation_edit r e ht
    exact ⟨u, hu, same'.trans same⟩

theorem Furnishes.edit (h : m₀.Furnishes m) (new : m₀.object? r = none) (e : Edit) :
    m₀.Furnishes { m with heap := m.heap.edit r e } := ⟨h.toExtends.edit new e, h.wrappers⟩

/-- What a change of a context leaves alone. -/
theorem scopeContext_modifyContext {α : Type} {f : Context → Context} {part : Context → α}
    (same : ∀ c, part (f c) = part c) : part ((m.modifyContext id f).scopeContext s) = part (m.scopeContext s) := by
  unfold scopeContext
  rw [context?_modifyContext]
  split
  · cases m.context? s.context with
    | none => rfl
    | some c => exact same c
  · rfl

/-- The same, with the same contexts: only objects were added, that are no wrappers. -/
structure Stocks (m m' : Machine) : Prop extends m.Furnishes m' where
  sound : ∀ waiting, m.Sound waiting → m'.Sound waiting
  rest : ∃ heap collector more,
    m' = { m with heap, collector, regions := m.regions.modifyHead (Region.keep more) }

theorem Stocks.refl (steady : m.Steady) : m.Stocks m := by
  obtain ⟨more, regions⟩ := regions_of_eq (m := m) rfl
  refine ⟨.refl steady, fun _ sound => sound, m.heap, m.collector, more, ?_⟩
  rw [← regions]

theorem Stocks.allocate (h : m₀.Stocks m) (plain : o.twin? = none) : m₀.Stocks (m.allocate o).2 := by
  obtain ⟨heap, collector, more, rfl⟩ := h.rest
  refine ⟨h.toFurnishes.allocate plain, fun waiting sound => (h.sound waiting sound).allocate plain, ?_⟩
  rw [allocate_eq, Region.modifyHead_keep]
  exact ⟨_, _, _, rfl⟩

theorem Stocks.edit (h : m₀.Stocks m) (new : m₀.object? r = none) (e : Edit) :
    m₀.Stocks { m with heap := m.heap.edit r e } := by
  obtain ⟨heap, collector, more, rfl⟩ := h.rest
  exact ⟨h.toFurnishes.edit new e, fun waiting sound => (h.sound waiting sound).edit r e, _, collector, more, rfl⟩

theorem Furnishes.addTemplate (h : m₀.Furnishes m) {t : Template} (constructs : m.Constructs id t)
    (prototype : m.heap.isLive t.prototype = true) : m₀.Furnishes (m.modifyContext id (withTemplate t)) := by
  refine h.trans ⟨h.steady.extends_of_sound (fun _ sound => sound.addTemplate constructs prototype) (fun _ _ ho => ho)
    (fun _ s hs => ⟨s, hs, rfl⟩) rfl (fun _ => rfl) fun s => ?_, fun s => ?_⟩
  · exact scopeContext_modifyContext fun _ => rfl
  · exact scopeContext_modifyContext fun _ => rfl

variable {key : NativeKey}

/-- Each entry of a table stands for its key, or its callback waits. -/
theorem Steady.stands_or_lost (steady : m.Steady) (mem : (key, r) ∈ (m.scopeContext s).wrappers) :
    m.Stands r s.context key ∨ m.heap.Lost r := by
  obtain ⟨waiting, sound, lost⟩ := steady
  unfold scopeContext at mem
  cases hc : m.context? s.context with
  | none =>
    rw [hc] at mem
    nomatch mem
  | some c =>
    rw [hc] at mem
    exact (sound.entries _ c _ r hc mem).imp_right (lost _)

/-- What a table gives for a key is the live object of an entry. -/
theorem mem_of_registered (found : m.registered? s key = some r) :
    (key, r) ∈ (m.scopeContext s).wrappers ∧ m.heap.isLive r = true := by
  unfold Machine.registered? at found
  obtain ⟨⟨k, q⟩, entry, live⟩ := Option.bind_eq_some_iff.1 found
  split at live
  · obtain rfl : k = key := by simpa using List.find?_some entry
    obtain rfl := Option.some.inj live
    exact ⟨List.mem_of_find?_eq_some entry, ‹_›⟩
  · nomatch live

theorem Steady.stands_of_registered (steady : m.Steady) (found : m.registered? s key = some r) :
    m.Stands r s.context key := by
  obtain ⟨mem, live⟩ := mem_of_registered found
  refine (steady.stands_or_lost mem).resolve_right fun lost => ?_
  exact Bool.false_ne_true (lost.isLive_eq_false.symm.trans live)

/-- Where no wrappers are added, no more are found. -/
theorem Furnishes.registered?_eq_none (h : m.Furnishes m') (steady : m.Steady) (absent : m.registered? s key = none) :
    m'.registered? s key = none := by
  refine Option.eq_none_iff_forall_ne_some.2 fun r found => ?_
  obtain ⟨mem, live⟩ := mem_of_registered found
  rw [h.wrappers] at mem
  rcases steady.stands_or_lost mem with stands | lost
  · obtain ⟨waiting, sound, -⟩ := steady
    have same : m.registered? s key = some r := sound.registered? stands
    rw [absent] at same
    nomatch same
  · have later := lost.of_generation h.generations
    exact Bool.false_ne_true (later.isLive_eq_false.symm.trans live)

/-- The templates of a living context have the constructors of their classes. -/
theorem Steady.constructs_of_mem (steady : m.Steady) (alive : m.contextAlive s.context = true) {t : Template}
    (mem : t ∈ (m.scopeContext s).templates) : m.Constructs s.context t := by
  obtain ⟨c, hc, rooted⟩ := steady.rooted alive
  unfold scopeContext at mem
  rw [hc] at mem
  exact rooted.constructors t mem

/-- A new wrapper is an object more. -/
theorem Extends.addWrapper (h : m₀.Extends m) (alive : m.contextAlive id = true) (twin : o.twin? = some (id, key))
    (absent : m.registered? ⟨id⟩ key = none) : m₀.Extends ((m.allocate o).2.register id key (m.allocate o).1) := by
  have heap := h.steady.heap
  refine h.trans (h.steady.extends_of_sound (fun _ sound => sound.addWrapper alive twin absent) (fun r p hp => ?_)
    (fun i s hs => ?_) ?_ (fun _ => ?_) fun s => ?_)
  · change (m.allocate o).2.object? r = some p
    rw [allocate_eq]
    exact Heap.get?_allocate_of_some heap.counted hp
  · change ∃ t, (m.allocate o).2.heap.slots[i]? = some t ∧ _
    rw [allocate_eq]
    exact Heap.generation_allocate heap.counted hs
  · change (m.allocate o).2.options = m.options
    rw [allocate_eq]
  · exact contextAlive_allocate ..
  · refine (scopeContext_modifyContext (f := withWrapper key (m.allocate o).1) fun _ => rfl).trans ?_
    unfold scopeContext
    rw [context?_allocate]

end Machine

/-! ## Templates -/

namespace Scope

variable {s : Scope} {m₀ m : Machine} {on : Ref}

/-- A function with no part of its own in `new` is one new object. -/
theorem newFunction_stocks (h : m₀.Stocks m) {f : Callable} (plain : f.isConstructor = false)
    (method : ∀ c, f ≠ .closure c) (name : String) :
    ∃ r m', (s.newFunction name f : Routine Fault Value).Returns m (.object r) m' ∧ m₀.Stocks m' ∧ m.Grows m' := by
  let o := functionObject (m.scopeContext s).intrinsics.function ⟨name, f, s.context⟩ none
  have twin : o.twin? = none := by
    cases f with
    | closure c => exact absurd rfl (method c)
    | _ => rfl
  refine ⟨(m.allocate o).1, (m.allocate o).2, ?_, h.allocate twin, Machine.grows_allocate h.steady.heap o⟩
  unfold newFunction
  rw [plain]
  exact .bind (.look (.bind .perform .pure)) .pure

theorem defineMethods_stocks (callable : ExportedMethod → Callable)
    (plain : ∀ e, (callable e).isConstructor = false) (method : ∀ e c, callable e ≠ .closure c)
    (methods : List ExportedMethod) (h : m₀.Stocks m) (new : m₀.object? on = none) :
    ∃ m', (s.defineMethods on methods callable).Returns m () m' ∧ m₀.Stocks m' ∧ m.Grows m' := by
  unfold defineMethods
  induction methods generalizing m with
  | nil => exact ⟨m, .pure, h, .refl m⟩
  | cons e rest ih =>
    obtain ⟨f, m₁, makes, h₁, grows₁⟩ := newFunction_stocks (s := s) h (plain e) (method e) e.name
    obtain ⟨m₂, defines, h₂, grows₂⟩ := ih (h₁.edit new (.define e.name (.hidden (.object f))))
    refine ⟨m₂, ?_, h₂, grows₁.trans (.trans (Machine.grows_edit m₁ _ _) grows₂)⟩
    exact .bind (.bind makes .perform) defines

/-- A constructor is one new object, known to a prototype that is new as well. -/
theorem newConstructor_stocks (h : m₀.Stocks m) {prototype : Ref} (new : m₀.object? prototype = none)
    (cls : Class) (table : ExportTable) (above : Option Ref) : ∃ r m',
      (s.newFunctionWith cls.name (.constructor cls table) (some prototype) above : Routine Fault Ref).Returns m r m' ∧
      m₀.Stocks m' ∧ m.Grows m' ∧ m₀.object? r = none ∧
      ∃ o, m'.object? r = some o ∧ o.function? = some ⟨cls.name, .constructor cls table, s.context⟩ := by
  let o := functionObject (above.getD (m.scopeContext s).intrinsics.function) ⟨cls.name, .constructor cls table, s.context⟩
    (some prototype)
  have stored : (m.allocate o).2.object? (m.allocate o).1 = some o := Machine.object?_allocate_self h.steady.heap o
  let define := Edit.define "constructor" (.hidden (.object (m.allocate o).1))
  have edited := Machine.grows_edit (m.allocate o).2 prototype define
  refine ⟨(m.allocate o).1, { (m.allocate o).2 with heap := (m.allocate o).2.heap.edit prototype define }, ?_,
    (h.allocate rfl).edit new define, (Machine.grows_allocate h.steady.heap o).trans edited,
    h.absent (Machine.object?_new h.steady.heap o), edited _ o stored⟩
  unfold newFunctionWith
  exact .look (.bind .perform (.bind .perform .pure))

/-- Building a template adds its objects, and then enters it. -/
theorem buildTemplate_stocks (steady : m.Steady) (cls : Class) (table : ExportTable) (parent : Option Template) :
    ∃ t m', (s.buildTemplate cls table parent).Returns m t (m'.modifyContext s.context (Machine.withTemplate t)) ∧
      m.Stocks m' ∧ m'.Constructs s.context t ∧ m'.heap.isLive t.prototype = true ∧ t.cls = cls := by
  let above := (parent.map (·.prototype)).getD (m.scopeContext s).intrinsics.object
  let o : Object := ⟨.ordinary, [], some above⟩
  let prototype := (m.allocate o).1
  have fresh : m.object? prototype = none := Machine.object?_new steady.heap o
  have start : m.Stocks (m.allocate o).2 := (Machine.Stocks.refl steady).allocate rfl
  obtain ⟨m₁, methods, h₁, grows₁⟩ := defineMethods_stocks (s := s) (fun e => .method e cls) (fun _ => rfl)
    (fun _ _ => nofun) table.instanceMethods start fresh
  obtain ⟨constructor, m₂, constructs, h₂, grows₂, new, function⟩ :=
    newConstructor_stocks (s := s) h₁ fresh cls table (parent.map (·.constructor))
  obtain ⟨m₃, classMethods, h₃, grows₃⟩ := defineMethods_stocks (s := s) (fun e => .classMethod e cls)
    (fun _ => rfl) (fun _ _ => nofun) table.classMethods h₂ new
  let t : Template := ⟨cls, table, constructor, prototype⟩
  have whole : m₃.Constructs s.context t := by
    obtain ⟨p, hp, function⟩ := function
    obtain ⟨q, hq, same⟩ := grows₃ _ p hp
    exact ⟨q, cls.name, hq, same.trans function⟩
  have live : m₃.heap.isLive prototype = true := by
    refine (grows₁.trans (grows₂.trans grows₃)).isLive (Heap.isLive_iff.2 ⟨o, ?_⟩)
    exact Machine.object?_allocate_self steady.heap o
  refine ⟨t, m₃, ?_, h₃, whole, live, rfl⟩
  unfold buildTemplate
  refine .look (.bind .perform ?_)
  exact .bind methods (.bind constructs (.bind classMethods (.bind .perform .pure)))

theorem buildTemplate_furnishes (steady : m.Steady) (cls : Class) (table : ExportTable) (parent : Option Template) :
    ∃ t m', (s.buildTemplate cls table parent).Returns m t m' ∧ m.Furnishes m' ∧ m'.Constructs s.context t ∧
      t.cls = cls := by
  obtain ⟨t, m', builds, stocks, whole, live, same⟩ := buildTemplate_stocks (s := s) steady cls table parent
  exact ⟨t, _, builds, stocks.addTemplate whole live, whole, same⟩

/-- A class gets its template, unless its exports clash. -/
theorem exportTemplate_settles (steady : m.Steady) (cls : Class) (parent : Option Template) :
    (∃ t m', (s.exportTemplate cls parent).Returns m t m' ∧ m.Furnishes m' ∧ m'.Constructs s.context t ∧
      t.cls = cls) ∨ (ExportTable.build cls).isOk = false ∧ ∃ e, (s.exportTemplate cls parent).Throws m e m := by
  unfold exportTemplate
  split
  · rename_i clash failed
    rw [failed]
    exact .inr ⟨rfl, _, .throw⟩
  · exact .inl (buildTemplate_furnishes steady cls _ parent)

/-- A class has a template from now on, unless its exports clash, or those of a superclass. -/
theorem templateFor_settles (alive : m₀.contextAlive s.context = true) : ∀ (cls : Class) {m : Machine},
    m₀.Furnishes m → (∃ t m', (s.templateFor cls).Returns m t m' ∧ m₀.Furnishes m' ∧ m'.Constructs s.context t ∧
      t.cls.id = cls.id) ∨ ¬cls.Exports ∧ ∃ e m', (s.templateFor cls).Throws m e m'
  | ⟨id, key, name, superclass, protocols, instanceMethods, classMethods, factory⟩, m, h => by
    let cls : Class := ⟨id, key, name, superclass, protocols, instanceMethods, classMethods, factory⟩
    cases found : (m.scopeContext s).templates.find? (·.cls.id == id) with
    | some t =>
      have constructs := h.steady.constructs_of_mem ((h.alive _).trans alive) (List.mem_of_find?_eq_some found)
      exact .inl ⟨t, m, templateFor_returns found, h, constructs, by simpa using List.find?_some found⟩
    | none =>
      have clashes (failed : (ExportTable.build cls).isOk = false) : ¬cls.Exports := fun exports =>
        Bool.false_ne_true (failed.symm.trans (exports cls cls.mem_ancestors_self))
      unfold templateFor
      cases superclass with
      | none =>
        rcases exportTemplate_settles (s := s) h.steady cls none with
          ⟨t, m', builds, h', constructs, same⟩ | ⟨failed, e, throws⟩
        · refine .inl ⟨t, m', .look ?_, h.trans h', constructs, congrArg Class.id same⟩
          rw [found]
          exact builds
        · refine .inr ⟨clashes failed, e, m, fun job => (exec_look found).trans ?_⟩
          exact throws job
      | some c =>
        rcases templateFor_settles alive c h with ⟨parent, m₁, first, h₁, -⟩ | ⟨clash, e, m₁, throws⟩
        · rcases exportTemplate_settles (s := s) h₁.steady cls (some parent) with
            ⟨t, m', builds, h', constructs, same⟩ | ⟨failed, e, throws⟩
          · refine .inl ⟨t, m', .look ?_, h₁.trans h', constructs, congrArg Class.id same⟩
            rw [found]
            exact .bind first builds
          · refine .inr ⟨clashes failed, e, m₁, fun job => (exec_look found).trans ?_⟩
            exact Throws.after first throws job
        · refine .inr ⟨fun exports => clash fun a ha => exports a (List.mem_cons_of_mem _ ha), e, m₁, fun job => ?_⟩
          exact (exec_look found).trans (throws.bind job)

/-- A class whose exports have no clash, nor those of its superclasses, has a template from now on. -/
theorem templateFor_furnishes (alive : m₀.contextAlive s.context = true) (cls : Class) (h : m₀.Furnishes m)
    (exports : cls.Exports) : ∃ t m', (s.templateFor cls).Returns m t m' ∧ m₀.Furnishes m' ∧
      m'.Constructs s.context t ∧ t.cls.id = cls.id :=
  (templateFor_settles alive cls h).resolve_right fun failed => failed.1 exports

/-! ## Wrappers and functions -/

/-- What is registered is given again. -/
theorem wrapperFor_settles (steady : m.Steady) (alive : m.contextAlive s.context = true) (h : Handle) :
    (∃ r m', (s.wrapperFor h).Returns m (.object r) m' ∧ m.Extends m' ∧ m'.Stands r s.context (.object h.serial)) ∨
      ¬h.cls.Exports ∧ ∃ e m', (s.wrapperFor h).Throws m e m' := by
  have start := Machine.Furnishes.refl steady
  cases found : m.registered? s (.object h.serial) with
  | some r =>
    refine .inl ⟨r, m.record r, wrapperFor_returns found, (start.record r).toExtends, ?_⟩
    rw [Machine.record_eq]
    exact steady.stands_of_registered found
  | none =>
    unfold wrapperFor
    rcases templateFor_settles (s := s) alive h.cls start with ⟨t, m₁, makes, h₁, -, -⟩ | ⟨clash, e, m₁, throws⟩
    · let o : Object := ⟨.wrapper ⟨h, h.cls.name, t.table, s.context⟩, [], some t.prototype⟩
      have absent := h₁.registered?_eq_none steady found
      have alive₁ : m₁.contextAlive s.context = true := (h₁.alive _).trans alive
      refine .inl ⟨(m₁.allocate o).1, (m₁.allocate o).2.register s.context (.object h.serial) (m₁.allocate o).1, ?_,
        h₁.toExtends.addWrapper alive₁ rfl absent, o, Machine.object?_allocate_self h₁.steady.heap o, rfl⟩
      refine .look ?_
      rw [found]
      exact .bind makes (.bind .perform .pure)
    · exact .inr ⟨clash, e, m₁, fun job => (exec_look found).trans (throws.bind job)⟩

/-- An object of such a class has a wrapper from now on. -/
theorem wrapperFor_extends (steady : m.Steady) (alive : m.contextAlive s.context = true) {h : Handle}
    (exports : h.cls.Exports) : ∃ r m', (s.wrapperFor h).Returns m (.object r) m' ∧ m.Extends m' ∧
      m'.Stands r s.context (.object h.serial) :=
  (wrapperFor_settles steady alive h).resolve_right fun failed => failed.1 exports

theorem functionFor_settles (steady : m.Steady) (alive : m.contextAlive s.context = true) (c : Closure) :
    (∃ r m', (s.functionFor c).Returns m (.object r) m' ∧ m.Extends m' ∧ m'.Stands r s.context (.closure c.id)) ∨
      c.signature.isMarshalable = false ∧ ∃ e, (s.functionFor c).Throws m e m := by
  have start := Machine.Furnishes.refl steady
  cases found : m.registered? s (.closure c.id) with
  | some r =>
    refine .inl ⟨r, m.record r, functionFor_returns found, (start.record r).toExtends, ?_⟩
    rw [Machine.record_eq]
    exact steady.stands_of_registered found
  | none =>
    unfold functionFor
    cases marshalable : c.signature.isMarshalable with
    | true =>
      let o := functionObject (m.scopeContext s).intrinsics.function ⟨"", .closure c, s.context⟩ none
      refine .inl ⟨(m.allocate o).1, (m.allocate o).2.register s.context (.closure c.id) (m.allocate o).1, ?_,
        start.toExtends.addWrapper alive rfl found, o, Machine.object?_allocate_self steady.heap o, rfl⟩
      refine .look ?_
      rw [found]
      simp only [Bool.not_true, Bool.false_eq_true, if_false]
      exact .look (.bind .perform .pure)
    | false => exact .inr ⟨rfl, _, fun job => (exec_look found).trans rfl⟩

/-- A closure that can be called has a function from now on. -/
theorem functionFor_extends (steady : m.Steady) (alive : m.contextAlive s.context = true) {c : Closure}
    (marshalable : c.signature.isMarshalable = true) : ∃ r m', (s.functionFor c).Returns m (.object r) m' ∧
      m.Extends m' ∧ m'.Stands r s.context (.closure c.id) :=
  (functionFor_settles steady alive c).resolve_right fun failed => Bool.false_ne_true (failed.1.symm.trans marshalable)

end Scope

end ScriptBridge
