import ScriptBridge.Proofs.Lineage
import ScriptBridge.Proofs.OrderedMap

/-!
# What scripts reach of a bridged class

A class that is bridged into a context has a prototype with functions for its instance methods, and a constructor with
functions for its class methods. Nothing but an edit of the property takes such a function away (`Redefined`).

* `Machine.Equipped`: the invariant of the living contexts. `Machine.Equipped.step`: one step keeps it.
* `Machine.ReadsFunction`: reading a key gives a function. `Callable.SendsTo`, `Callable.SendsToClass`: it runs the body
  of a selector.
* `Machine.Presents`: what the names of a table lead to. `Session.presents`: they do so at every point of a session.
* `Session.constructor_hidden`: an instance method named `constructor` is out of reach.

Proof-only: not reachable from `ScriptBridge.Session.Run`.
-/

namespace ScriptBridge

open Routine

/-! ## Redefined methods -/

/-- The object is the prototype or the constructor of a class that is bridged into a living context. -/
def Machine.Bridged (m : Machine) (r : Ref) : Prop :=
  ∃ id c, m.contextAlive id = true ∧ m.context? id = some c ∧
    ∃ t ∈ c.templates, r = t.prototype ∨ r = t.constructor

/-- A property of the prototype or the constructor of a bridged class was changed on the way, and the object lived
on. -/
def Redefined (points : List Point) (r : Ref) (key : String) : Prop :=
  ∃ l z l', points = l ++ z :: l' ∧ z.machine.Bridged r ∧
    (∃ e, z.next = some ⟨Unit, .edit r e⟩ ∧ e.key? = some key) ∧ ∀ y ∈ z :: l', y.machine.heap.isLive r = true

section

variable {before : List Point} {x y : Point} {r : Ref} {key : String} {f : Callable}

theorem Redefined.later (redefined : Redefined before r key) (lives : x.machine.heap.isLive r = true) :
    Redefined (before ++ [x]) r key := by
  obtain ⟨l, z, l', rfl, bridged, changed, lived⟩ := redefined
  refine ⟨l, z, l' ++ [x], by rw [List.append_assoc, List.cons_append], bridged, changed, fun y mem => ?_⟩
  rcases List.mem_append.1 (List.cons_append ▸ mem) with mem | mem
  · exact lived y mem
  · exact List.mem_singleton.1 mem ▸ lives

/-- A step leaves a function under its key, unless it edits the property. -/
theorem Point.Step.hasFunction (step : x.Step y) (has : x.machine.HasFunction r key f)
    (lives : y.machine.heap.isLive r = true)
    (untouched : ∀ e, x.next = some ⟨Unit, .edit r e⟩ → e.key? ≠ some key) : y.machine.HasFunction r key f := by
  obtain ⟨o, v, there, plain, found, q, p, d, rfl, function, does, same⟩ := has
  obtain ⟨o', after⟩ := Heap.isLive_iff.1 lives
  have stays : o'.isArray = false ∧ o'.properties.get? key = some (.hidden (.object q)) := by
    rcases step.object?_of_lives there after with rfl | ⟨e, next, -, rfl⟩
    · exact ⟨plain, found⟩
    · refine ⟨?_, (Object.get?_edit_of_ne (untouched e next)).trans found⟩
      rw [Object.isArray, Object.items?, Object.payload_edit plain]
      exact plain
  -- The property keeps the function alive.
  have refers : o'.Refers q := .data (Properties.mem_of_get? stays.2) rfl
  obtain ⟨p', after'⟩ := Heap.isLive_iff.1 (step.isLive_of_refers after refers (Heap.isLive_iff.2 ⟨p, function⟩))
  have does' := (step.function? function after').trans does
  exact ⟨o', .object q, after, stays.1, stays.2, q, p', d, rfl, after', does', same⟩

end

/-! ## The invariant -/

/-- The functions of a template are there, but for those that were redefined, and for an instance method that has the
name of the link to the constructor. -/
structure Template.Equips (t : Template) (m : Machine) (redefined : Ref → String → Prop) : Prop where
  table : ExportTable.build t.cls = .ok t.table
  methods : ∀ e ∈ t.table.instanceMethods, e.name ≠ "constructor" → ¬redefined t.prototype e.name →
    m.HasFunction t.prototype e.name (.method e t.cls)
  classMethods : ∀ e ∈ t.table.classMethods, ¬redefined t.constructor e.name →
    m.HasFunction t.constructor e.name (.classMethod e t.cls)

/-- The templates in living contexts have their functions. -/
def Machine.Equipped (m : Machine) (redefined : Ref → String → Prop) : Prop :=
  ∀ id c, m.contextAlive id = true → m.context? id = some c → ∀ t ∈ c.templates, t.Equips m redefined

namespace Machine.Equipped

variable {x y : Point} {before : List Point} {id : Nat} {c : Context} {t : Template}

/-- A template that was there before keeps its functions. -/
theorem keep (equipped : x.machine.Equipped (Redefined before)) (step : x.Step y)
    (alive : x.machine.contextAlive id = true) (context : x.machine.context? id = some c)
    (rooted : c.Rooted x.machine id) (mem : t ∈ c.templates) (prototype : y.machine.heap.isLive t.prototype = true)
    (constructor : y.machine.heap.isLive t.constructor = true) : t.Equips y.machine (Redefined (before ++ [x])) := by
  have here := equipped id c alive context t mem
  have function {r : Ref} {key : String} {f : Callable} (bridged : r = t.prototype ∨ r = t.constructor)
      (lived : x.machine.heap.isLive r = true) (lives : y.machine.heap.isLive r = true)
      (kept : ¬Redefined (before ++ [x]) r key) (has : ¬Redefined before r key → x.machine.HasFunction r key f) :
      y.machine.HasFunction r key f := by
    refine step.hasFunction (has fun redefined => kept (redefined.later lived)) lives fun e next stored => kept ?_
    refine ⟨before, x, [], rfl, ⟨id, c, alive, context, t, mem, bridged⟩, ⟨e, next, stored⟩, fun z at_x => ?_⟩
    exact List.mem_singleton.1 at_x ▸ lived
  refine ⟨here.table, fun e listed named kept => ?_, fun e listed kept => ?_⟩
  · exact function (.inl rfl) (rooted.prototypes t mem) prototype kept (here.methods e listed named)
  · obtain ⟨o, name, there, -⟩ := rooted.constructors t mem
    exact function (.inr rfl) (Heap.isLive_iff.2 ⟨o, there⟩) constructor kept (here.classMethods e listed)

/-- A template that is entered has its functions. -/
theorem enter (step : x.Step y) (next : x.next = some ⟨Unit, .addTemplate id t⟩) (takes : c.Takes x.machine t)
    (prototype : y.machine.heap.isLive t.prototype = true) (constructor : y.machine.heap.isLive t.constructor = true) :
    t.Equips y.machine (Redefined (before ++ [x])) := by
  have quiet (r : Ref) (key : String) (e : Edit) (edits : x.next = some ⟨Unit, .edit r e⟩) : e.key? ≠ some key := by
    rw [next] at edits
    nomatch edits
  refine ⟨takes.table, fun e listed named _ => ?_, fun e listed _ => ?_⟩
  · exact step.hasFunction (takes.methods e listed named) prototype (quiet _ _)
  · exact step.hasFunction (takes.classMethods e listed) constructor (quiet _ _)

/-- What one step keeps. -/
theorem step (equipped : x.machine.Equipped (Redefined before)) (step : x.Step y) (settled : y.machine.Settled) :
    y.machine.Equipped (Redefined (before ++ [x])) := by
  intro id c' alive after t mem
  obtain ⟨d, there, rooted'⟩ := settled.rooted id alive
  obtain rfl : d = c' := Option.some.inj (there.symm.trans after)
  have prototype := rooted'.prototypes t mem
  have constructor : y.machine.heap.isLive t.constructor = true := by
    obtain ⟨o, name, there, -⟩ := rooted'.constructors t mem
    exact Heap.isLive_iff.2 ⟨o, there⟩
  rcases step.context? alive after with fresh | ⟨lived, c, context, rooted, alike | ⟨u, next, takes, rfl⟩⟩
  · rw [fresh.templates] at mem
    exact absurd mem List.not_mem_nil
  · exact equipped.keep step lived context rooted (alike.templates ▸ mem) prototype constructor
  · rcases List.mem_cons.1 mem with rfl | old
    · exact enter step next takes prototype constructor
    · exact equipped.keep step lived context rooted (List.mem_filter.1 old).1 prototype constructor

end Machine.Equipped

/-! ## Reading functions -/

theorem Object.isArray_of_wrapper? {o : Object} {w : WrapperData} (wrapper : o.wrapper? = some w) :
    o.isArray = false := by
  rw [Object.isArray, Object.items?, Object.payload_of_wrapper? wrapper]
  rfl

/-- Reading a key gives a function that does what it should. -/
def Machine.ReadsFunction (m : Machine) (s : Scope) (v : Value) (key : String) (does : Callable → Prop) : Prop :=
  ∃ r o f, (s.get v key).Returns m (.object r) (m.record r) ∧ m.object? r = some o ∧ o.function? = some f ∧
    does f.callable

namespace Machine

variable {m : Machine} {s : Scope} {r w : Ref} {o : Object} {key : String} {f : Callable} {v : Value}
  {does : Callable → Prop}

/-- Where no exported property comes first, reading gives what the chain has. -/
theorem get_of_lookup (free : ((m.wrapper? (.object r)).bind (·.table.property? key)) = none)
    (found : m.heap.lookup r key = .value v) : (s.get (.object r) key).Returns m v ((Action.track v).run m).2 := by
  exact fun job => (Scope.exec_get free job).trans (Scope.getOrdinary_returns found job)

/-- An object has its functions itself. -/
theorem HasFunction.reads (has : m.HasFunction r key f)
    (free : ((m.wrapper? (.object r)).bind (·.table.property? key)) = none) (fits : does f) :
    m.ReadsFunction s (.object r) key does := by
  obtain ⟨o, _, there, plain, found, q, p, d, rfl, function, named, rfl⟩ := has
  have own : o.own? key = some (.data (.object q) true) := by
    rw [Object.own?_of_plain plain, found]
    rfl
  exact ⟨q, p, d, get_of_lookup free (Heap.lookup_of_own there own), function, named, fits⟩

/-- An object has the functions of its prototype, if it has nothing else under their names. -/
theorem HasFunction.reads_below (has : m.HasFunction r key f) (there : m.object? w = some o)
    (free : ((m.wrapper? (.object w)).bind (·.table.property? key)) = none) (absent : o.own? key = none)
    (link : o.prototype = some r) (fits : does f) : m.ReadsFunction s (.object w) key does := by
  obtain ⟨o', _, there', plain, found, q, p, d, rfl, function, named, rfl⟩ := has
  have own : o'.own? key = some (.data (.object q) true) := by
    rw [Object.own?_of_plain plain, found]
    rfl
  exact ⟨q, p, d, get_of_lookup free (Heap.lookup_of_prototype there absent link there' own), function, named, fits⟩

end Machine

/-! ## Functions of selectors -/

namespace Scope

open Routine

/-- What ends alike is raised alike. -/
theorem exec_raising_congr {ε α : Type} {job : Runner} {s : Scope} {x y : Routine Fault α} {m : Machine}
    (same : x.exec job m = y.exec job m) :
    ((s.raising x).attempt : Routine ε (Except Thrown α)).exec job m = (s.raising y).attempt.exec job m := by
  unfold raising
  rw [exec_attempt, exec_attempt, exec_bind, exec_bind, exec_attempt, exec_attempt, same]

end Scope

/-- What the function of an instance method does on an object of its class, for as many arguments as it takes: it looks
up the selector in the class of the object, and runs the body. -/
def Callable.SendsTo (f : Callable) (cls : Class) (method : ExportedMethod) : Prop :=
  ∀ (s : Scope) (i : Invocation) (m : Machine) (h : Handle), method.signature.isMarshalable = true →
    i.args.length = method.signature.arity → m.wrapperState i.this = .live h → h.cls.isSubclassOf cls = true →
    ∀ job : {β : Type} → Job β → Machine → Outcome Empty β × Machine, (f.routine s i).exec job m =
      (s.raising do
        let body ← Scope.implemented h.cls method.selector (h.cls.instanceMethod? method.selector)
        holding [.object h] (s.dispatch method.signature body (.object h) i.args)).attempt.exec job m

/-- The class that a class method runs on: that of the constructor that it is called on, if it is a subclass. -/
def Machine.classReceiver (m : Machine) (s : Scope) (cls : Class) (this : Value) : Class :=
  ((m.classOfConstructor? s this).filter (·.isSubclassOf cls)).getD cls

theorem Scope.classReceiver_returns {s : Scope} {m : Machine} {cls : Class} {this : Value} :
    (s.classReceiver cls this).Returns m (m.classReceiver s cls this) m := by
  unfold Scope.classReceiver
  refine .look ?_
  unfold Machine.classReceiver
  cases m.classOfConstructor? s this with
  | none => exact .pure
  | some c =>
    rw [show ((some c).filter (·.isSubclassOf cls)).getD cls = if c.isSubclassOf cls then c else cls by
      rw [Option.filter_some]
      split <;> rfl]
    exact .pure

/-- What the function of a class method does for as many arguments as it takes: it looks up the selector among the
class methods of its receiver, and runs the body. -/
def Callable.SendsToClass (f : Callable) (cls : Class) (method : ExportedMethod) : Prop :=
  ∀ (s : Scope) (i : Invocation) (m : Machine), method.signature.isMarshalable = true →
    i.args.length = method.signature.arity → let receiver := m.classReceiver s cls i.this
    ∀ job : {β : Type} → Job β → Machine → Outcome Empty β × Machine, (f.routine s i).exec job m =
      (s.raising do
        let body ← Scope.implemented receiver method.selector (receiver.classMethod? method.selector)
        holding [] (s.dispatch method.signature body (.classRef receiver) i.args)).attempt.exec job m

namespace Callable

variable {cls : Class} {method : ExportedMethod}

theorem method_sendsTo : (Callable.method method cls).SendsTo cls method := by
  intro s i m h marshalable arity live below job
  change (s.raising (s.methodCall method cls i)).attempt.exec job m = _
  refine Scope.exec_raising_congr ?_
  unfold Scope.methodCall Scope.checkArity Scope.checkSignature
  rw [if_pos arity.symm, if_pos marshalable]
  have receiver : (Scope.instanceReceiver method cls i.this).Returns m (some h) m := by
    unfold Scope.instanceReceiver
    refine .look ?_
    simp only [live, below, if_true]
    exact .pure
  exact exec_bind_of_done rfl (exec_bind_of_done rfl (exec_bind_of_done (receiver job) rfl))

theorem classMethod_sendsToClass : (Callable.classMethod method cls).SendsToClass cls method := by
  intro s i m marshalable arity receiver job
  change (s.raising (s.classMethodCall method cls i)).attempt.exec job m = _
  refine Scope.exec_raising_congr ?_
  unfold Scope.classMethodCall Scope.checkArity Scope.checkSignature
  rw [if_pos arity.symm, if_pos marshalable]
  have chosen : (s.classReceiver cls i.this).Returns m receiver m := Scope.classReceiver_returns
  exact exec_bind_of_done rfl (exec_bind_of_done rfl (exec_bind_of_done (chosen job) rfl))

end Callable

/-! ## What names lead to -/

/-- What the names in the table of a bridged class lead to. A link takes the place of an instance method named
`constructor`, and a class method named `prototype` takes the place of another. -/
structure Machine.Presents (m : Machine) (s : Scope) (t : Template) (redefined : Ref → String → Prop)
    (relinked : Ref → Prop) : Prop where
  table : ExportTable.build t.cls = .ok t.table
  /-- A new wrapper has the instance methods. -/
  fresh : ∀ h : Handle, h.cls.id = t.cls.id → m.registered? s (.object h.serial) = none →
    ∃ w m', (s.wrapperFor h).Returns m (.object w) m' ∧ m.object? w = none ∧
      m'.heap.prototype? w = some t.prototype ∧ m'.heap.inherits w t.prototype = true ∧
      ∀ e ∈ t.table.instanceMethods, e.name ≠ "constructor" → t.table.property? e.name = none →
        ¬redefined t.prototype e.name → m'.ReadsFunction s (.object w) e.name (·.SendsTo t.cls e)
  /-- An older one still has those that nothing of its own comes before. -/
  wrappers : ∀ w o data, m.object? w = some o → o.wrapper? = some data → data.context = s.context →
    data.native.cls.id = t.cls.id → ¬relinked w → ∀ e ∈ t.table.instanceMethods, e.name ≠ "constructor" →
      data.table.property? e.name = none → o.properties.get? e.name = none → ¬redefined t.prototype e.name →
      m.ReadsFunction s (.object w) e.name (·.SendsTo t.cls e)
  classMethods : ∀ e ∈ t.table.classMethods, ¬redefined t.constructor e.name →
    m.ReadsFunction s (.object t.constructor) e.name (·.SendsToClass t.cls e)
  prototype : (∀ e ∈ t.table.classMethods, e.name ≠ "prototype") →
    (s.get (.object t.constructor) "prototype").Returns m (.object t.prototype) (m.record t.prototype)
  /-- The constructor is called on a new object below the prototype. -/
  constructs : (∀ e ∈ t.table.classMethods, e.name ≠ "prototype") →
    ∃ name, ∀ args, ∀ job : {β : Type} → Job β → Machine → Outcome Empty β × Machine,
      (s.construct (.object t.constructor) args).exec job m =
        (do
          let this ← Scope.allocate ⟨.ordinary, [], some t.prototype⟩
          let result ← s.invoke t.constructor ⟨name, .constructor t.cls t.table, s.context⟩ this args true
          return if result.isObject then result else this : Routine Thrown Value).exec job (m.record t.prototype)
  instances : (∀ e ∈ t.table.classMethods, e.name ≠ "prototype") → ∀ w : Ref,
    (s.instanceOf (.object w) (.object t.constructor)).Returns m (m.heap.inherits w t.prototype)
      (m.record t.prototype)

/-- The prototype of an object is on its chain. -/
theorem Heap.inherits_of_prototype {h : Heap} {r p : Ref} (above : h.prototype? r = some p) :
    h.inherits r p = true := by
  rw [inherits, above, show maxChain = 9999 + 1 from rfl, onChain, beq_self_eq_true, Bool.true_or]

namespace Scope

variable {m : Machine} {s : Scope} {o : Object}

/-- A wrapper comes from the template of its class, if there is none yet. Functions stay where they were. -/
theorem wrapperFor_new {h : Handle} {t : Template} (heap : m.heap.Sound)
    (absent : m.registered? s (.object h.serial) = none)
    (found : (m.scopeContext s).templates.find? (·.cls.id == h.cls.id) = some t) :
    ∃ w m', (s.wrapperFor h).Returns m (.object w) m' ∧ m.object? w = none ∧
      m'.object? w = some ⟨.wrapper ⟨h, h.cls.name, t.table, s.context⟩, [], some t.prototype⟩ ∧
      ∀ r key f, m.HasFunction r key f → m'.HasFunction r key f := by
  let o : Object := ⟨.wrapper ⟨h, h.cls.name, t.table, s.context⟩, [], some t.prototype⟩
  let w := (m.allocate o).1
  refine ⟨w, (m.allocate o).2.register s.context (.object h.serial) w, ?_, Machine.object?_new heap o,
    Machine.object?_allocate_self heap o, fun r key f has => ?_⟩
  · unfold wrapperFor
    refine .look ?_
    rw [absent]
    exact .bind (templateFor_returns found) (.bind .perform .pure)
  · have stays := has.gains (Machine.stores_allocate heap o).gains id
    exact stays.of_same (.of_heap_eq rfl) rfl

/-- Constructing makes an object below what a constructor leads to. -/
theorem exec_construct {job : Runner} {k p : Ref} {f : FunctionData} {args : List Value} (there : m.object? k = some o)
    (function : o.function? = some f) (constructs : f.callable.isConstructor = true)
    (leads : o.properties.get? "prototype" = some (.fixed (.object p))) :
    (s.construct (.object k) args).exec job m =
      (do
        let this ← allocate ⟨.ordinary, [], some p⟩
        let result ← s.invoke k f this args true
        return if result.isObject then result else this : Routine Thrown Value).exec job (m.record p) := by
  have called : (s.functionOf (.object k)).Returns m (k, f) m :=
    functionOf_returns (Machine.function?_eq_some.2 ⟨rfl, o, there, function⟩)
  unfold construct
  refine exec_bind_of_done (called job) ?_
  simp only [constructs, Bool.not_true, Bool.false_eq_true, if_false]
  exact exec_bind_of_done (getOrdinary_leads there function leads job) rfl

end Scope

namespace Template.Equips

variable {m : Machine} {s : Scope} {c : Context} {t : Template} {redefined : Ref → String → Prop}

/-- A new wrapper of a class has its instance methods, if no exported property comes first. -/
theorem fresh (equips : t.Equips m redefined) (settled : m.Settled) (context : m.context? s.context = some c)
    (mem : t ∈ c.templates) {h : Handle} (same : h.cls.id = t.cls.id)
    (absent : m.registered? s (.object h.serial) = none) :
    ∃ w m', (s.wrapperFor h).Returns m (.object w) m' ∧ m.object? w = none ∧
      m'.heap.prototype? w = some t.prototype ∧ m'.heap.inherits w t.prototype = true ∧
      ∀ e ∈ t.table.instanceMethods, e.name ≠ "constructor" → t.table.property? e.name = none →
        ¬redefined t.prototype e.name → m'.ReadsFunction s (.object w) e.name (·.SendsTo t.cls e) := by
  have found : (m.scopeContext s).templates.find? (·.cls.id == h.cls.id) = some t := by
    rw [Scope.scopeContext_of_context? context, same]
    exact Machine.find?_of_nodup (f := fun t : Template => t.cls.id) (settled.classes _ c context) mem
  obtain ⟨w, m', makes, new, there, keeps⟩ := Scope.wrapperFor_new settled.heap absent found
  have above : m'.heap.prototype? w = some t.prototype := congrArg (Option.bind · Object.prototype) there
  have wrapped : m'.wrapper? (.object w) = some ⟨h, h.cls.name, t.table, s.context⟩ :=
    congrArg (Option.bind · Object.wrapper?) there
  refine ⟨w, m', makes, new, above, Heap.inherits_of_prototype above, fun e listed named unexported stays => ?_⟩
  have has := keeps _ _ _ (equips.methods e listed named stays)
  refine has.reads_below there ?_ rfl rfl Callable.method_sendsTo
  rw [wrapped]
  exact unexported

/-- So does an older wrapper below the prototype, if it has nothing of its own under the name. -/
theorem wrapper (equips : t.Equips m redefined) {w : Ref} {o : Object} {data : WrapperData}
    (there : m.object? w = some o) (is : o.wrapper? = some data) (link : o.prototype = some t.prototype)
    {e : ExportedMethod} (listed : e ∈ t.table.instanceMethods) (named : e.name ≠ "constructor")
    (unexported : data.table.property? e.name = none) (absent : o.properties.get? e.name = none)
    (stays : ¬redefined t.prototype e.name) : m.ReadsFunction s (.object w) e.name (·.SendsTo t.cls e) := by
  have wrapped : m.wrapper? (.object w) = some data := (congrArg (Option.bind · Object.wrapper?) there).trans is
  refine (equips.methods e listed named stays).reads_below there ?_ ?_ link Callable.method_sendsTo
  · rw [wrapped]
    exact unexported
  · rw [Object.own?_of_plain (Object.isArray_of_wrapper? is), absent]
    rfl

end Template.Equips

namespace Session

open Program (Step)

variable {options : Options} {now : Int} {steps : List Step} {depth : Nat} {before after : List Point} {x : Point}
  {s : Scope} {c : Context} {t : Template}

/-- At every point of a session, bridged classes have their functions. -/
theorem equipped_points (split : points options now steps depth = before ++ x :: after) :
    x.machine.Equipped (Redefined before) := by
  refine points_induct (P := fun before m => m.Equipped (Redefined before)) ?_ ?_ split
  · intro id c alive
    simp [Machine.contextAlive] at alive
  · intro before x y after split step equipped
    have mem : y ∈ points options now steps depth :=
      split ▸ List.mem_append_right _ (List.mem_cons_of_mem _ List.mem_cons_self)
    exact equipped.step step (settled_points mem)

/-- At every point of a session, the names of a class that is bridged into a living context lead where they should:
instance methods from wrappers, class methods from the constructor, and `prototype` to the prototype of the class. What
was redefined is gone, and so are an instance method named `constructor` and a prototype with a class method of that
name. -/
theorem presents (split : points options now steps depth = before ++ x :: after)
    (alive : x.machine.contextAlive s.context = true) (context : x.machine.context? s.context = some c)
    (mem : t ∈ c.templates) : x.machine.Presents s t (Redefined before) (Relinked before) := by
  have here : x ∈ points options now steps depth := split ▸ List.mem_append_right _ List.mem_cons_self
  have settled := settled_points here
  have lineage := lineage_points split s.context c alive context
  have equips := equipped_points split s.context c alive context t mem
  obtain ⟨d, there, rooted⟩ := settled.rooted s.context alive
  obtain rfl : c = d := Option.some.inj (context.symm.trans there)
  obtain ⟨k, name, made, function⟩ := rooted.constructors t mem
  have leads (plain : ∀ e ∈ t.table.classMethods, e.name ≠ "prototype") :
      k.properties.get? "prototype" = some (.fixed (.object t.prototype)) := by
    obtain ⟨k', there, leads⟩ := lineage.leads t mem plain
    exact Option.some.inj (made.symm.trans there) ▸ leads
  -- Functions are no wrappers.
  have unwrapped : x.machine.wrapper? (.object t.constructor) = none :=
    Scope.not_wrapped made (by rw [Object.wrapper?, Object.payload_of_function? function])
  have free (key : String) : ((x.machine.wrapper? (.object t.constructor)).bind (·.table.property? key)) = none := by
    rw [unwrapped]
    rfl
  constructor
  case table => exact equips.table
  case fresh => exact fun h same absent => equips.fresh settled context mem same absent
  case wrappers =>
    intro w o data there wrapper inside same kept e listed named unexported absent stays
    obtain ⟨u, hu, is, link⟩ := lineage.wraps w o data there wrapper inside kept
    obtain rfl : u = t := List.inj_on_of_nodup_map (settled.classes _ c context) hu mem (is.trans same)
    exact equips.wrapper there wrapper link listed named unexported absent stays
  case classMethods =>
    intro e listed stays
    exact (equips.classMethods e listed stays).reads (free _) Callable.classMethod_sendsToClass
  case prototype =>
    intro plain
    have own : k.own? "prototype" = some (.data (.object t.prototype) false) := by
      rw [Object.own?_of_plain (Object.isArray_of_function? function), leads plain]
      rfl
    exact Machine.get_of_lookup (free _) (Heap.lookup_of_own made own)
  case constructs =>
    intro plain
    exact ⟨name, fun args job => Scope.exec_construct made function rfl (leads plain)⟩
  case instances => exact fun plain w => Scope.instanceOf_returns made function (leads plain)

/-- A class with an instance method, one named `constructor`, and a class method. -/
def equipped : List Step :=
  [.machine (.newContext "main") none,
    .machine (.protocol "P" "P" [] true
      [.method "run" "v@:", .method "constructor" "v@:", .classMethod "make" "v@:"]) none,
    .declareClass "K" "K" none ["P"] [("run", []), ("constructor", [])] [("make", [])] false,
    .native (.bind (.create (.key "K") [])) (some "o"),
    .execute "main" [.bridge (.wrap (.register "o")) (some "w")]]

/-- The object has a wrapper and its class a template, which lists the methods. -/
def isEquipped (x : Point) : Bool :=
  x.machine.contextAlive 0 && (x.machine.context? 0).any fun c => c.templates.any fun t =>
    t.table.instanceMethods.map (·.name) == ["run", "constructor"] && t.table.classMethods.map (·.name) == ["make"] &&
    t.table.properties.isEmpty && c.wrappers.any fun entry => (x.machine.wrapper? (.object entry.2)).any fun data =>
      data.native.cls.id == t.cls.id && data.table.properties.isEmpty &&
      x.machine.heap.lookup entry.2 "constructor" == .value (.object t.constructor)

theorem exists_equipped : ∃ before x after c t w data, points {} 0 equipped 3 = before ++ x :: after ∧
    x.machine.contextAlive 0 = true ∧ x.machine.context? 0 = some c ∧ t ∈ c.templates ∧
    t.table.instanceMethods.map (·.name) = ["run", "constructor"] ∧ t.table.classMethods.map (·.name) = ["make"] ∧
    t.table.properties = [] ∧ x.machine.wrapper? (.object w) = some data ∧ data.native.cls.id = t.cls.id ∧
    data.table.properties = [] ∧ x.machine.heap.lookup w "constructor" = .value (.object t.constructor) := by
  obtain ⟨suffix, tail, is⟩ : ∃ l ∈ (points {} 0 equipped 3).tails, l.head?.any isEquipped = true := by decide +kernel
  obtain ⟨before, split⟩ := (List.mem_tails ..).1 tail
  cases suffix with
  | nil => exact absurd is Bool.false_ne_true
  | cons x after =>
    simp only [List.head?_cons, Option.any_some, isEquipped, Bool.and_eq_true, Option.any_eq_true, List.any_eq_true,
      beq_iff_eq, List.isEmpty_iff] at is
    obtain ⟨alive, c, context, t, mem, ⟨⟨methods, classMethods⟩, properties⟩, entry, -, data, wrapper, ⟨same, none⟩,
      found⟩ := is
    exact ⟨before, x, after, c, t, entry.2, data, split.symm, alive, context, mem, methods, classMethods, properties,
      wrapper, same, none, found⟩

/-- The methods are where they should be. -/
theorem presents_equipped : ∃ before x after c t, points {} 0 equipped 3 = before ++ x :: after ∧
    x.machine.contextAlive 0 = true ∧ x.machine.context? 0 = some c ∧ t ∈ c.templates ∧
    t.table.instanceMethods.map (·.name) = ["run", "constructor"] ∧ t.table.classMethods.map (·.name) = ["make"] ∧
    x.machine.Presents ⟨0⟩ t (Redefined before) (Relinked before) := by
  obtain ⟨before, x, after, c, t, -, -, split, alive, context, mem, methods, classMethods, -⟩ := exists_equipped
  exact ⟨before, x, after, c, t, split, alive, context, mem, methods, classMethods,
    presents (s := ⟨0⟩) split alive context mem⟩

/-- Under the name of an instance method a wrapper has the constructor of its class. -/
theorem constructor_hidden : ∃ x ∈ points {} 0 equipped 3, ∃ c t w data, x.machine.contextAlive 0 = true ∧
    x.machine.context? 0 = some c ∧ t ∈ c.templates ∧ x.machine.wrapper? (.object w) = some data ∧
    data.native.cls.id = t.cls.id ∧ (∃ e ∈ t.table.instanceMethods, e.name = "constructor") ∧
    t.table.property? "constructor" = none ∧
    (Scope.get ⟨0⟩ (.object w) "constructor").Returns x.machine (.object t.constructor)
      (x.machine.record t.constructor) ∧
    x.machine.Does (.object t.constructor) (.constructor t.cls t.table) := by
  obtain ⟨before, x, after, c, t, w, data, split, alive, context, mem, methods, -, properties, wrapper, same, none,
    found⟩ := exists_equipped
  have here : x ∈ points {} 0 equipped 3 := split ▸ List.mem_append_right _ List.mem_cons_self
  have listed : "constructor" ∈ t.table.instanceMethods.map (·.name) := by simp [methods]
  have unexported (table : ExportTable) (none : table.properties = []) :
      table.property? "constructor" = Option.none := by
    rw [ExportTable.property?, none]
    rfl
  have reads := Machine.get_of_lookup (s := ⟨0⟩) (m := x.machine)
    (by rw [wrapper]; exact unexported data.table none) found
  obtain ⟨d, there, rooted⟩ := (settled_points here).rooted 0 alive
  obtain rfl : c = d := Option.some.inj (context.symm.trans there)
  obtain ⟨k, name, made, function⟩ := rooted.constructors t mem
  exact ⟨x, here, c, t, w, data, alive, context, mem, wrapper, same, List.mem_map.1 listed,
    unexported t.table properties, reads, t.constructor, k, _, rfl, made, function, rfl⟩

end Session

end ScriptBridge
