import ScriptBridge.Proofs.Edits
import ScriptBridge.Proofs.Moments

/-!
# What actions take care of

An action counts on something (`Action.Legal`), and it takes care of what it changes (`Action.Careful`): edits leave
fixed properties alone, and what is stored or entered into a context fits what is there.

* `Property.isFixed`, `Machine.Respects`: data properties that are for good, and the edits that leave them alone.
* `Machine.Overrides`: the edits that do not look what they define again, a class that is set on a global object and
  a class method that is exported as `prototype`.
* `Object.isBlank`, `Machine.Fits`: objects are stored without accessors and without listed properties. Elements of
  arrays do not become listed properties, unless they are accessors, accessors are functions, and no circle of prototypes
  is closed that a walk would have shown.
* `Object.FramedIn`: errors are stored with the frames that there are.
* `Context.Above`, `Context.Takes`: the template of a class is entered over that of its superclass, with functions for
  what it exports.
* `Context.Wraps`, `Object.Marshals`: a wrapper hangs below the prototype of its class, and the types of a closure
  with a function can cross the bridge.
* `Object.Gains`, `Machine.Gains`: objects that only gain hidden properties, as those do that templates and contexts
  are built of.

Proof-only: not reachable from `ScriptBridge.Session.Run`.
-/

namespace ScriptBridge

/-! ## Fixed properties -/

/-- Whether a property is data that may neither be written nor defined again nor removed. -/
def Property.isFixed (p : Property) : Bool :=
  match p.slot with
  | .data _ writable => !writable && !p.configurable
  | .accessor .. => false

theorem Property.isFixed_of_configurable {p : Property} (configurable : p.configurable = true) : p.isFixed = false := by
  obtain ⟨slot, enumerable, _⟩ := p
  obtain rfl : _ = true := configurable
  cases slot with
  | data v writable => exact Bool.and_false _
  | accessor getter setter => rfl

/-- Every property of an object may be defined again. -/
def Object.Loose (o : Object) : Prop :=
  ∀ key p, o.properties.get? key = some p → p.configurable = true

/-- An object is a function of a closure only if the types of the closure can cross the bridge. -/
def Object.Marshals (o : Object) : Prop :=
  ∀ f c, o.function? = some f → f.callable = .closure c → c.signature.isMarshalable = true

/-- Functions are no arrays. -/
theorem Object.isArray_of_function? {o : Object} {f : FunctionData} (function : o.function? = some f) :
    o.isArray = false := by
  rw [Object.isArray, Object.items?, Object.payload_of_function? function]
  rfl

namespace Machine

/-- The property that an edit stores or removes is not fixed. -/
def Respects (m : Machine) (r : Ref) (e : Edit) : Prop :=
  ∀ o key p, m.object? r = some o → e.key? = some key → o.properties.get? key = some p → p.isFixed = false

variable {m : Machine} {r : Ref} {o : Object} {e : Edit}

/-- An edit of items or of the prototype. -/
theorem respects_of_key? (plain : e.key? = none) : m.Respects r e := by
  intro _ key _ _ stored
  rw [plain] at stored
  nomatch stored

theorem respects_of_loose (there : m.object? r = some o) (loose : o.Loose) : m.Respects r e := by
  intro o' key p there' _ found
  obtain rfl : o = o' := Option.some.inj (there.symm.trans there')
  exact p.isFixed_of_configurable (loose key p found)

/-- Two edits do not look whether what they define again is fixed. -/
inductive Overrides (m : Machine) : Ref → Edit → Prop
  /-- The constructor of a class becomes a property of a global object. -/
  | setClass {id : Nat} {c : Context} {t : Template} {name : String} (alive : m.contextAlive id = true)
    (context : m.context? id = some c) (template : t ∈ c.templates) :
    Overrides m c.global (.define name (.hidden (.object t.constructor)))
  /-- A class method takes the place of the prototype of a constructor. -/
  | classMethod {r : Ref} {o : Object} {name : String} {cls : Class} {table : ExportTable} {id : Nat}
    {method : ExportedMethod} {v : Value} (there : m.object? r = some o)
    (constructs : o.function? = some ⟨name, .constructor cls table, id⟩) (exported : method ∈ table.classMethods)
    (named : method.name = "prototype") : Overrides m r (.define "prototype" (.hidden v))

/-- The value is a function that does what a callable says. -/
def Does (m : Machine) (v : Value) (f : Callable) : Prop :=
  ∃ r o d, v = .object r ∧ m.object? r = some o ∧ o.function? = some d ∧ d.callable = f

/-- An object that is no array has a function under a key, in a hidden property. -/
def HasFunction (m : Machine) (r : Ref) (key : String) (f : Callable) : Prop :=
  ∃ o v, m.object? r = some o ∧ o.isArray = false ∧ o.properties.get? key = some (.hidden v) ∧ m.Does v f

end Machine

/-! ## What fits an object -/

def Property.isAccessor (p : Property) : Bool :=
  match p.slot with
  | .data .. => false
  | .accessor .. => true

/-- The properties of an object are data, and none of them is listed. -/
def Object.isBlank (o : Object) : Bool := o.properties.all fun e => !e.2.isAccessor && !e.2.enumerable

namespace Machine

/-- The sides of an accessor are functions. -/
def Accesses (m : Machine) (p : Property) : Prop :=
  p.isAccessor = true → ∀ f ∈ p.slot.references, m.isFunction (.object f) = true

/-- An edit stores no element of an array among the properties, unless it is an accessor or not listed. An accessor has
functions. The walk along a new prototype does not meet the object. -/
def Fits (m : Machine) (r : Ref) : Edit → Prop
  | .define key p =>
    (m.isArray (.object r) = true → isElementKey key = true → p.enumerable = true → p.isAccessor = true) ∧ m.Accesses p
  | .store key _ => m.isArray (.object r) = true → isElementKey key = false
  | .setPrototype (some p) => m.heap.onChain r maxChain (some p) = false
  | _ => True

theorem fits_hidden {m : Machine} {r : Ref} {key : String} {v : Value} : m.Fits r (.define key (.hidden v)) :=
  ⟨fun _ _ listed => absurd listed Bool.false_ne_true, fun accessor => absurd accessor Bool.false_ne_true⟩

end Machine

/-! ## What errors remember -/

namespace Object

/-- The frames that an error remembers. -/
def trace? (o : Object) : Option Trace :=
  match o.payload with
  | .error frames _ => some frames
  | _ => none

/-- An error remembers the frames of a machine. -/
def FramedIn (o : Object) (m : Machine) : Prop := ∀ frames, o.trace? = some frames → frames = m.frames.items

end Object

/-! ## What fits into a context -/

namespace Context

/-- What the prototype of a class has above it: the prototype of the superclass, or that of all objects. -/
def Above (c : Context) (cls : Class) (p : Option Ref) : Prop :=
  match cls.superclass with
  | none => p = some c.intrinsics.object
  | some super => ∃ t ∈ c.templates, t.cls.id = super.id ∧ p = some t.prototype

/-- What a context takes for the template of a class. -/
structure Takes (m : Machine) (c : Context) (t : Template) : Prop where
  /-- The constructor leads to the prototype, unless a class method does not let it. -/
  leads : (∀ method ∈ t.table.classMethods, method.name ≠ "prototype") →
    ∃ o, m.object? t.constructor = some o ∧ o.properties.get? "prototype" = some (.fixed (.object t.prototype))
  above : ∃ o, m.object? t.prototype = some o ∧ c.Above t.cls o.prototype
  table : ExportTable.build t.cls = .ok t.table
  /-- The prototype has the instance methods, but the constructor takes the place of one with its name. -/
  methods : ∀ method ∈ t.table.instanceMethods, method.name ≠ "constructor" →
    m.HasFunction t.prototype method.name (.method method t.cls)
  classMethods : ∀ method ∈ t.table.classMethods,
    m.HasFunction t.constructor method.name (.classMethod method t.cls)
  apart : t.prototype ≠ c.intrinsics.object ∧ ∀ u ∈ c.templates, u.prototype ≠ t.prototype
  /-- The class has no template yet, unless it is above itself. -/
  new : (∀ super, t.cls.superclass = some super → ∀ a ∈ super.ancestors, a.id ≠ t.cls.id) →
    ∀ u ∈ c.templates, u.cls.id ≠ t.cls.id

/-- A wrapper has the prototype of its class above it. -/
def Wraps (c : Context) (w : WrapperData) (p : Option Ref) : Prop :=
  ∃ t ∈ c.templates, t.cls.id = w.native.cls.id ∧ p = some t.prototype

end Context

/-- A context as it was made: nothing is bridged into it, its global object is no function, and the prototype of all
objects has none itself. -/
structure Context.Fresh (m : Machine) (c : Context) : Prop where
  wrappers : c.wrappers = []
  templates : c.templates = []
  global : ∃ o, m.object? c.global = some o ∧ o.function? = none
  top : ∃ o, m.object? c.intrinsics.object = some o ∧ o.prototype = none

/-- What an action takes care of. Contexts get a name while they live, or when they are new. -/
def Action.Careful {β : Type} : Action β → Machine → Prop
  | .allocate o, m => o.isBlank = true ∧ o.FramedIn m
  | .edit r e, m => (m.Respects r e ∨ m.Overrides r e) ∧ m.Fits r e
  | .addTemplate id t, m => ∀ c, m.context? id = some c → c.Takes m t
  | .addWrapper id _ o, m =>
    (∀ w, o.payload = .wrapper w → ∃ c, m.context? id = some c ∧ c.Wraps w o.prototype) ∧ o.Marshals ∧ o.isBlank = true
  | .tables f, m => ∀ entry ∈ (f m.tables).2.contexts,
    m.contextAlive entry.2 = true ∨ ∃ c, m.context? entry.2 = some c ∧ c.Fresh m
  | _, _ => True

/-- An action may run: what it counts on is there, and it takes care. -/
structure Action.Proper {β : Type} (a : Action β) (m : Machine) : Prop where
  legal : a.Legal m
  careful : a.Careful m

/-! ## Objects that gain hidden properties -/

/-- What an object becomes when hidden properties of some names are defined. -/
inductive Object.Gains (names : String → Prop) (o : Object) : Object → Prop
  | none : Gains names o o
  | define {o' : Object} {name : String} {v : Value} (gains : Gains names o o') (named : names name) :
    Gains names o (o'.edit (.define name (.hidden v)))

namespace Object.Gains

variable {names names' : String → Prop} {o o' o'' : Object}

theorem mono (gains : o.Gains names o') (weaker : ∀ name, names name → names' name) : o.Gains names' o' := by
  induction gains with
  | none => exact .none
  | define _ named ih => exact ih.define (weaker _ named)

theorem trans (first : o.Gains names o') (next : o'.Gains names o'') : o.Gains names o'' := by
  induction next with
  | none => exact first
  | define _ named ih => exact ih.define named

theorem payload (gains : o.Gains names o') : o'.payload = o.payload := by
  induction gains with
  | none => rfl
  | define _ _ ih => exact ih

theorem prototype (gains : o.Gains names o') : o'.prototype = o.prototype := by
  induction gains with
  | none => rfl
  | define _ _ ih => exact ih

theorem function? (gains : o.Gains names o') : o'.function? = o.function? := by
  unfold Object.function?
  rw [gains.payload]

theorem isArray (gains : o.Gains names o') : o'.isArray = o.isArray := by
  rw [Object.isArray, Object.isArray, Object.items?, Object.items?, gains.payload]

/-- Properties of other names stay. -/
theorem get?_of_not {key : String} (gains : o.Gains names o') (other : ¬names key) :
    o'.properties.get? key = o.properties.get? key := by
  induction gains with
  | none => rfl
  | define gains named ih =>
    refine (get?_edit_of_ne fun same => other ?_).trans ih
    exact Option.some.inj same ▸ named

/-- A property is hidden, or was there before. -/
theorem get?_cases {key : String} {p : Property} (gains : o.Gains names o') (found : o'.properties.get? key = some p) :
    p.configurable = true ∨ o.properties.get? key = some p := by
  induction gains with
  | none => exact .inr found
  | @define o' name v _ _ ih =>
    have found : (o'.properties.insert name (.hidden v)).get? key = some p := found
    rw [Properties.get?_insert] at found
    split at found
    · exact .inl (Option.some.inj found ▸ rfl)
    · exact ih found

theorem loose (gains : o.Gains names o') (loose : o.Loose) : o'.Loose := fun key p found =>
  (gains.get?_cases found).elim id (loose key p)

/-- Without names nothing changes. -/
theorem eq (gains : o.Gains (fun _ => False) o') : o' = o := by
  cases gains with
  | none => rfl
  | define _ named => exact named.elim

end Object.Gains

namespace Machine

variable {m m' m'' : Machine} {names names' : Ref → String → Prop} {r : Ref} {o : Object}

/-- Objects only gain hidden properties of some names, and contexts stay. -/
structure Gains (m : Machine) (names : Ref → String → Prop) (m' : Machine) : Prop where
  contexts : m'.contexts = m.contexts
  objects : ∀ r o, m.object? r = some o → ∃ o', m'.object? r = some o' ∧ o.Gains (names r) o'

namespace Gains

theorem refl (m : Machine) : m.Gains names m := ⟨rfl, fun _ o there => ⟨o, there, .none⟩⟩

theorem mono (gains : m.Gains names m') (weaker : ∀ r name, names r name → names' r name) : m.Gains names' m' :=
  ⟨gains.contexts, fun r o there => by
    obtain ⟨o', there', gains'⟩ := gains.objects r o there
    exact ⟨o', there', gains'.mono (weaker r)⟩⟩

theorem trans (first : m.Gains names m') (next : m'.Gains names m'') : m.Gains names m'' :=
  ⟨next.contexts.trans first.contexts, fun r o there => by
    obtain ⟨o', there', gains⟩ := first.objects r o there
    obtain ⟨o'', there'', gains'⟩ := next.objects r o' there'
    exact ⟨o'', there'', gains.trans gains'⟩⟩

theorem grows (gains : m.Gains names m') : m.Grows m' := fun r o there => by
  obtain ⟨o', there', gains'⟩ := gains.objects r o there
  exact ⟨o', there', gains'.function?⟩

/-- An object that gains nothing stays. -/
theorem object? (gains : m.Gains names m') (there : m.object? r = some o) (none : ∀ name, ¬names r name) :
    m'.object? r = some o := by
  obtain ⟨o', there', gains'⟩ := gains.objects r o there
  exact (gains'.mono none).eq ▸ there'

end Gains

variable {v : Value} {key : String} {f : Callable}

theorem Does.grows (does : m.Does v f) (grows : m.Grows m') : m'.Does v f := by
  obtain ⟨q, o, d, is, there, function, same⟩ := does
  obtain ⟨o', there', function'⟩ := grows q o there
  exact ⟨q, o', d, is, there', function'.trans function, same⟩

/-- A function stays under its key where no property of that name is gained. -/
theorem HasFunction.gains (has : m.HasFunction r key f) (gains : m.Gains names m') (other : ¬names r key) :
    m'.HasFunction r key f := by
  obtain ⟨o, v, there, plain, found, does⟩ := has
  obtain ⟨o', there', gained⟩ := gains.objects r o there
  exact ⟨o', v, there', gained.isArray.trans plain, (gained.get?_of_not other).trans found, does.grows gains.grows⟩

/-- A function stays under its key in an object that stays. -/
theorem HasFunction.of_same (has : m.HasFunction r key f) (grows : m.Grows m') (same : m'.object? r = m.object? r) :
    m'.HasFunction r key f := by
  obtain ⟨o, v, there, plain, found, does⟩ := has
  exact ⟨o, v, same.trans there, plain, found, does.grows grows⟩

/-- Defining a hidden property. -/
theorem gains_define {name : String} (v : Value) (named : names r name) :
    m.Gains names { m with heap := m.heap.edit r (.define name (.hidden v)) } := by
  refine ⟨rfl, fun q o there => ?_⟩
  unfold object? at there ⊢
  rw [Heap.get?_edit]
  split
  · rename_i same
    subst same
    exact ⟨_, congrArg (Option.map _) there, .define .none named⟩
  · exact ⟨o, there, .none⟩

/-- A new object was stored, and nothing else became of objects and contexts. -/
structure Stores (m : Machine) (r : Ref) (o : Object) (m' : Machine) : Prop where
  new : m.object? r = none
  there : m'.object? r = some o
  gains : m.Gains (fun _ _ => False) m'

theorem stores_allocate (heap : m.heap.Sound) (o : Object) : m.Stores (m.allocate o).1 o (m.allocate o).2 := by
  refine ⟨object?_new heap o, object?_allocate_self heap o, ?_, fun q p there => ⟨p, ?_, .none⟩⟩
  · rw [allocate_eq]
  · rw [allocate_eq]
    exact Heap.get?_allocate_of_some heap.counted there

/-- An object that is no function, whose properties may all be defined again, with its prototype. -/
def Bare (m : Machine) (r : Ref) (prototype : Option Ref) : Prop :=
  ∃ o, m.object? r = some o ∧ o.payload = .ordinary ∧ o.Loose ∧ o.prototype = prototype

variable {prototype : Option Ref}

theorem Bare.gains (bare : m.Bare r prototype) (gains : m.Gains names m') : m'.Bare r prototype := by
  obtain ⟨o, there, kind, loose, above⟩ := bare
  obtain ⟨o', there', gains'⟩ := gains.objects r o there
  exact ⟨o', there', gains'.payload.trans kind, gains'.loose loose, gains'.prototype.trans above⟩

theorem Bare.isLive (bare : m.Bare r prototype) : m.heap.isLive r = true := by
  obtain ⟨o, there, -⟩ := bare
  exact Heap.isLive_iff.2 ⟨o, there⟩

theorem Bare.respects {e : Edit} (bare : m.Bare r prototype) : m.Respects r e := by
  obtain ⟨o, there, -, loose, -⟩ := bare
  exact respects_of_loose there loose

/-- A new object without properties. -/
theorem Stores.bare (stores : m.Stores r ⟨.ordinary, [], prototype⟩ m') : m'.Bare r prototype :=
  ⟨_, stores.there, rfl, nofun, rfl⟩

end Machine

end ScriptBridge
