import ScriptBridge.Proofs.Chain
import ScriptBridge.Proofs.Exec
import ScriptBridge.Proofs.Fixed
import ScriptBridge.Proofs.Identity

/-!
# Prototype chains mirror classes

The prototype of a bridged class hangs below that of its superclass, and wrappers hang below the prototype of their
class. So whether a wrapped object is an instance of a constructor can be read off the chain as well as off the
classes, as long as nobody changes the prototypes of the objects on the chain (`Relinked`).

* `Context.Lineage`: the invariant of a living context. Its parts need one another: constructors keep their prototypes
  because global objects are no functions, and a class stays below its superclass because no template is replaced.
* `Machine.Lineage.step`: one step keeps it. `Session.lineage_points`: it holds at every point of a session.
* `Context.Lineage.onChain_eq`: walking a chain is walking the superclasses.
* `Session.instances_agree`: the prototype test, the class test and the classes agree.

Proof-only: not reachable from `ScriptBridge.Session.Run`.
-/

namespace ScriptBridge

/-! ## Changed prototypes -/

/-- The object under a reference was given another prototype on the way, and lived on. -/
def Relinked (points : List Point) (r : Ref) : Prop :=
  ∃ l z l', points = l ++ z :: l' ∧ (∃ p, z.next = some ⟨Unit, .edit r (.setPrototype p)⟩) ∧
    ∀ y ∈ z :: l', y.machine.heap.isLive r = true

section

variable {before : List Point} {x y : Point} {r : Ref} {o o' : Object}

theorem Relinked.later (relinked : Relinked before r) (lives : x.machine.heap.isLive r = true) :
    Relinked (before ++ [x]) r := by
  obtain ⟨l, z, l', rfl, changed, lived⟩ := relinked
  refine ⟨l, z, l' ++ [x], by rw [List.append_assoc, List.cons_append], changed, fun y mem => ?_⟩
  rcases List.mem_append.1 (List.cons_append ▸ mem) with mem | mem
  · exact lived y mem
  · exact List.mem_singleton.1 mem ▸ lives

theorem Object.prototype_edit {e : Edit} (other : ∀ p, e ≠ .setPrototype p) : (o.edit e).prototype = o.prototype := by
  cases e with
  | define | store | remove => rfl
  | setPrototype p => exact absurd rfl (other p)
  | storeItem | clearItem | resize =>
    obtain ⟨payload, properties, prototype⟩ := o
    cases payload <;> rfl

/-- An object has the prototype that it had, if nobody changed it. -/
theorem Point.Step.prototype (step : x.Step y) (kept : ¬Relinked (before ++ [x]) r)
    (there : x.machine.object? r = some o) (after : y.machine.object? r = some o') : o'.prototype = o.prototype := by
  rcases step.object?_of_lives there after with rfl | ⟨e, next, -, rfl⟩
  · rfl
  · refine Object.prototype_edit fun p same => kept ⟨before, x, [], rfl, ⟨p, same ▸ next⟩, fun z mem => ?_⟩
    exact List.mem_singleton.1 mem ▸ Heap.isLive_iff.2 ⟨o, there⟩

end

/-! ## Classes are not above themselves -/

namespace Class

theorem length_ancestors_le {a : Class} (c : Class) (mem : a ∈ c.ancestors) :
    a.ancestors.length ≤ c.ancestors.length := by
  obtain ⟨id, key, name, superclass, protocols, instanceMethods, classMethods, factory⟩ := c
  rcases mem_ancestors_iff.1 mem with rfl | ⟨s, super, mem⟩
  · exact Nat.le_refl _
  · cases superclass with
    | none => nomatch super
    | some superclass =>
      obtain rfl : superclass = s := Option.some.inj super
      exact Nat.le_succ_of_le (length_ancestors_le superclass mem)
termination_by structural c

theorem not_mem_ancestors {c s : Class} (super : c.superclass = some s) : c ∉ s.ancestors := by
  intro mem
  have longer : c.ancestors.length = s.ancestors.length + 1 := by
    rw [ancestors_eq, super]
    rfl
  have := length_ancestors_le s mem
  omega

end Class

/-- The superclasses of a declared class have other identities. -/
theorem Roster.Has.apart {K : Roster} {c s a : Class} (has : K.Has c) (super : c.superclass = some s)
    (mem : a ∈ s.ancestors) : a.id ≠ c.id := by
  intro same
  have ancestor : a ∈ c.ancestors := Class.mem_ancestors_iff.2 (.inr ⟨s, super, mem⟩)
  obtain rfl := (has.ancestor ancestor).eq_of_id has same
  exact Class.not_mem_ancestors super mem

/-! ## The invariant -/

/-- What holds in a living context: nothing defines the prototypes of constructors again, and the prototypes of objects
are those of their classes unless they were changed. -/
structure Context.Lineage (m : Machine) (relinked : Ref → Prop) (id : Nat) (c : Context) : Prop where
  global : ∃ o, m.object? c.global = some o ∧ o.function? = none
  leads : ∀ t ∈ c.templates, (∀ method ∈ t.table.classMethods, method.name ≠ "prototype") →
    ∃ o, m.object? t.constructor = some o ∧ o.properties.get? "prototype" = some (.fixed (.object t.prototype))
  above : ∀ t ∈ c.templates, ¬relinked t.prototype → ∃ o, m.object? t.prototype = some o ∧ c.Above t.cls o.prototype
  top : ¬relinked c.intrinsics.object → ∃ o, m.object? c.intrinsics.object = some o ∧ o.prototype = none
  apart : ∀ t ∈ c.templates, t.prototype ≠ c.intrinsics.object ∧ ∀ u ∈ c.templates, u.prototype = t.prototype → u = t
  wraps : ∀ r o w, m.object? r = some o → o.wrapper? = some w → w.context = id → ¬relinked r → c.Wraps w o.prototype

/-- Every living context mirrors the classes that are bridged into it. -/
def Machine.Lineage (m : Machine) (relinked : Ref → Prop) : Prop :=
  ∀ id c, m.contextAlive id = true → m.context? id = some c → c.Lineage m relinked id

/-- A context that has the templates it had, and at most one that it took since. -/
structure Context.Extends (m : Machine) (c c' : Context) : Prop where
  global : c'.global = c.global
  intrinsics : c'.intrinsics = c.intrinsics
  kept : ∀ u ∈ c.templates, u ∈ c'.templates
  taken : ∀ u ∈ c'.templates, u ∈ c.templates ∨ c.Takes m u ∧ ∀ v ∈ c'.templates, v ∈ c.templates ∨ v = u

namespace Context.Extends

variable {m : Machine} {c c' : Context}

theorem of_alike (alike : c.Alike c') : c.Extends m c' :=
  ⟨alike.global, alike.intrinsics, fun _ mem => alike.templates ▸ mem, fun _ mem => .inl (alike.templates ▸ mem)⟩

/-- A new class replaces no other one. -/
theorem of_takes {K : Roster} {t : Template} (takes : c.Takes m t) (has : K.Has t.cls) :
    c.Extends m (Machine.withTemplate t c) := by
  have new : ∀ u ∈ c.templates, u.cls.id ≠ t.cls.id := takes.new fun _ super _ => has.apart super
  refine ⟨rfl, rfl, fun u mem => ?_, fun u mem => ?_⟩
  · exact List.mem_cons_of_mem _ (List.mem_filter.2 ⟨mem, bne_iff_ne.2 (new u mem)⟩)
  · have cases {v : Template} (mem : v ∈ (Machine.withTemplate t c).templates) : v = t ∨ v ∈ c.templates :=
      (List.mem_cons.1 mem).imp_right fun mem => (List.mem_filter.1 mem).1
    rcases cases mem with rfl | old
    · exact .inr ⟨takes, fun v mem => (cases mem).symm⟩
    · exact .inl old

theorem above (grows : c.Extends m c') {cls : Class} {p : Option Ref} (above : c.Above cls p) : c'.Above cls p := by
  unfold Context.Above at above ⊢
  split at above
  · rw [grows.intrinsics]
    exact above
  · obtain ⟨t, mem, same, is⟩ := above
    exact ⟨t, grows.kept t mem, same, is⟩

theorem wraps (grows : c.Extends m c') {w : WrapperData} {p : Option Ref} (wraps : c.Wraps w p) : c'.Wraps w p := by
  obtain ⟨t, mem, same, is⟩ := wraps
  exact ⟨t, grows.kept t mem, same, is⟩

end Context.Extends

/-! ## What one step keeps -/

/-- A wrapper is stored below the prototype of its class. -/
theorem Action.Proper.wraps {β : Type} {a : Action β} {m : Machine} {o : Object} {w : WrapperData} (proper : a.Proper m)
    (stores : a.stores? = some o) (wrapper : o.wrapper? = some w) :
    ∃ c, m.context? w.context = some c ∧ c.Wraps w o.prototype := by
  have payload := Object.payload_of_wrapper? wrapper
  have twin : o.twin? = some (w.context, .object w.native.serial) := Object.twin?_eq_some.2 (.inl ⟨w, payload, rfl, rfl⟩)
  cases a with
  | allocate p =>
    obtain rfl : p = o := Option.some.inj stores
    exact (Option.some_ne_none _ (twin.symm.trans proper.legal)).elim
  | addWrapper id key p =>
    obtain rfl : p = o := Option.some.inj stores
    obtain ⟨rfl, -⟩ : w.context = id ∧ _ = key := Prod.mk.inj (Option.some.inj (twin.symm.trans proper.legal.2.1))
    exact proper.careful.1 w payload
  | _ => exact (Option.some_ne_none _ stores.symm).elim

namespace Machine.Lineage

variable {x y : Point} {before : List Point} {relinked : Ref → Prop} {id : Nat} {c c' : Context}

/-- The prototype of a constructor is overridden by no edit. -/
theorem not_overrides {m : Machine} (lineage : m.Lineage relinked) {r : Ref} {o : Object} {e : Edit} {name : String}
    {t : Template} (there : m.object? r = some o) (constructs : o.function? = some ⟨name, .constructor t.cls t.table, id⟩)
    (plain : ∀ method ∈ t.table.classMethods, method.name ≠ "prototype") : ¬m.Overrides r e := by
  intro overrides
  cases overrides with
  | setClass alive context =>
    obtain ⟨p, there', none⟩ := (lineage _ _ alive context).global
    obtain rfl : o = p := Option.some.inj (there.symm.trans there')
    exact Option.some_ne_none _ (constructs.symm.trans none)
  | classMethod there' constructs' exported named =>
    obtain rfl := Option.some.inj (there.symm.trans there')
    cases constructs.symm.trans constructs'
    exact plain _ exported named

/-- A context that lived before, and grew perhaps. -/
theorem extend (lineage : x.machine.Lineage (Relinked before)) (step : x.Step y) (rooted : c.Rooted x.machine id)
    (rooted' : c'.Rooted y.machine id) (alive : x.machine.contextAlive id = true)
    (context : x.machine.context? id = some c) (grows : c.Extends x.machine c') :
    c'.Lineage y.machine (Relinked (before ++ [x])) id := by
  have here := lineage id c alive context
  have earlier {r : Ref} (lives : x.machine.heap.isLive r = true) (kept : ¬Relinked (before ++ [x]) r) :
      ¬Relinked before r := fun relinked => kept (relinked.later lives)
  constructor
  case global =>
    obtain ⟨o, there, plain⟩ := here.global
    obtain ⟨o', after⟩ := Heap.isLive_iff.1 rooted'.global
    rw [grows.global] at after ⊢
    exact ⟨o', after, (step.function? there after).trans plain⟩
  case leads =>
    intro t mem plain
    obtain ⟨o', name, after, constructs⟩ := rooted'.constructors t mem
    obtain ⟨o, there, found⟩ : ∃ o, x.machine.object? t.constructor = some o ∧
        o.properties.get? "prototype" = some (.fixed (.object t.prototype)) :=
      (grows.taken t mem).elim (fun old => here.leads t old plain) fun new => new.1.leads plain
    have fixed := Machine.fixed?_eq_some.2 ⟨rfl, o, there, found⟩
    rcases step.fixed fixed (Heap.isLive_iff.2 ⟨o', after⟩) with stays | ⟨e, -, -, overrides⟩
    · exact (Machine.fixed?_eq_some.1 stays).2
    · exact absurd overrides (lineage.not_overrides there ((step.function? there after).symm.trans constructs) plain)
  case above =>
    intro t mem kept
    obtain ⟨o', after⟩ := Heap.isLive_iff.1 (rooted'.prototypes t mem)
    obtain ⟨o, there, above⟩ : ∃ o, x.machine.object? t.prototype = some o ∧ c.Above t.cls o.prototype := by
      rcases grows.taken t mem with old | new
      · exact here.above t old (earlier (rooted.prototypes t old) kept)
      · exact new.1.above
    exact ⟨o', after, step.prototype kept there after ▸ grows.above above⟩
  case top =>
    intro kept
    obtain ⟨o', after⟩ := Heap.isLive_iff.1 (rooted'.intrinsics _ List.mem_cons_self)
    rw [grows.intrinsics] at after kept ⊢
    obtain ⟨o, there, top⟩ := here.top (earlier (rooted.intrinsics _ List.mem_cons_self) kept)
    exact ⟨o', after, (step.prototype kept there after).trans top⟩
  case apart =>
    intro t mem
    rw [grows.intrinsics]
    refine ⟨(grows.taken t mem).elim (fun old => (here.apart t old).1) fun new => new.1.apart.1, fun u mem' same => ?_⟩
    rcases grows.taken t mem with old | ⟨takes, only⟩
    · rcases grows.taken u mem' with old' | ⟨takes', -⟩
      · exact (here.apart t old).2 u old' same
      · exact absurd same.symm (takes'.apart.2 t old)
    · rcases only u mem' with old' | rfl
      · exact absurd same (takes.apart.2 u old')
      · rfl
  case wraps =>
    intro r o' w after wrapper inside kept
    rcases step.object? after with ⟨o, there, -⟩ | ⟨absent, β, a, next, proper, stores⟩
    · have same : o'.wrapper? = o.wrapper? := by
        rcases step.object?_of_lives there after with rfl | ⟨e, -, -, rfl⟩
        · rfl
        · exact o.wrapper?_edit e
      have wraps := here.wraps r o w there (same.symm.trans wrapper) inside
        (earlier (Heap.isLive_iff.2 ⟨o, there⟩) kept)
      exact step.prototype kept there after ▸ grows.wraps wraps
    · obtain ⟨d, there, wraps⟩ := proper.wraps stores wrapper
      rw [inside] at there
      obtain rfl : c = d := Option.some.inj (context.symm.trans there)
      exact grows.wraps wraps

/-- A new context has no templates, and no wrappers were made in it. -/
theorem of_fresh {m : Machine} (settled : m.Settled) (context : m.context? id = some c) (fresh : c.Fresh m) :
    c.Lineage m relinked id := by
  have none {t : Template} : t ∉ c.templates := by
    rw [fresh.templates]
    exact List.not_mem_nil
  refine ⟨fresh.global, fun t mem => absurd mem none, fun t mem => absurd mem none, fun _ => fresh.top,
    fun t mem => absurd mem none, fun r o w there wrapper inside _ => ?_⟩
  have stands : m.Stands r id (.object w.native.serial) := by
    refine ⟨o, there, Object.twin?_eq_some.2 (.inl ⟨w, Object.payload_of_wrapper? wrapper, inside, rfl⟩)⟩
  obtain ⟨d, there, mem⟩ := settled.registered r id _ stands
  obtain rfl : c = d := Option.some.inj (context.symm.trans there)
  rw [fresh.wrappers] at mem
  exact absurd mem List.not_mem_nil

/-- What one step keeps. -/
theorem step (lineage : x.machine.Lineage (Relinked before)) (step : x.Step y) (settled : y.machine.Settled) {K : Roster}
    (known : y.machine.Known K) : y.machine.Lineage (Relinked (before ++ [x])) := by
  intro id c' alive after
  obtain ⟨d, there, rooted'⟩ := settled.rooted id alive
  obtain rfl : d = c' := Option.some.inj (there.symm.trans after)
  rcases step.context? alive after with fresh | ⟨lived, c, context, rooted, alike | ⟨t, -, takes, rfl⟩⟩
  · exact of_fresh settled after fresh
  · exact lineage.extend step rooted rooted' lived context (.of_alike alike)
  · have has := (known.templates id _ after t List.mem_cons_self).has
    exact lineage.extend step rooted rooted' lived context (.of_takes takes has)

end Machine.Lineage

/-! ## Walking a chain -/

/-- A class is a subclass of those that it is the same as, or that its superclass is a subclass of. -/
theorem Class.isSubclassOf_eq (c other : Class) :
    c.isSubclassOf other = (c.id == other.id || c.superclass.any fun s => s.isSubclassOf other) := by
  unfold isSubclassOf
  rw [ancestors_eq]
  cases c.superclass <;> rfl

namespace Context.Lineage

variable {m : Machine} {relinked : Ref → Prop} {id : Nat} {c : Context} {K : Roster} {t u : Template} {n : Nat}

/-- The prototype of all objects is below no prototype of a class. -/
theorem onChain_top (lineage : c.Lineage m relinked id) (mem : t ∈ c.templates)
    (untouched : ∀ r, m.heap.onChain r n (some c.intrinsics.object) = true → ¬relinked r) :
    m.heap.onChain t.prototype n (some c.intrinsics.object) = false := by
  cases n with
  | zero => rfl
  | succ n =>
    have own : m.heap.onChain c.intrinsics.object (n + 1) (some c.intrinsics.object) = true := by simp [Heap.onChain]
    obtain ⟨o, there, top⟩ := lineage.top (untouched _ own)
    have above : m.heap.prototype? c.intrinsics.object = none := by
      rw [Heap.prototype?, show m.heap.get? c.intrinsics.object = some o from there]
      exact top
    have other : (c.intrinsics.object == t.prototype) = false := beq_false_of_ne (lineage.apart t mem).1.symm
    rw [Heap.onChain, other, above]
    cases n <;> rfl

/-- Walking from the prototype of a class is walking its superclasses. -/
theorem onChain_eq (lineage : c.Lineage m relinked id) (classes : (c.templates.map (·.cls.id)).Nodup)
    (known : ∀ v ∈ c.templates, K.Has v.cls) (mem : t ∈ c.templates) (hu : u ∈ c.templates)
    (short : u.cls.ancestors.length ≤ n)
    (untouched : ∀ r, m.heap.onChain r n (some u.prototype) = true → ¬relinked r) :
    m.heap.onChain t.prototype n (some u.prototype) = u.cls.isSubclassOf t.cls := by
  induction n generalizing u with
  | zero =>
    rw [Class.ancestors_eq] at short
    exact absurd short (Nat.not_succ_le_zero _)
  | succ n ih =>
    have own : m.heap.onChain u.prototype (n + 1) (some u.prototype) = true := by simp [Heap.onChain]
    obtain ⟨o, there, above⟩ := lineage.above u hu (untouched _ own)
    have next : m.heap.prototype? u.prototype = o.prototype := by
      rw [Heap.prototype?, show m.heap.get? u.prototype = some o from there]
      rfl
    have rest : ∀ r, m.heap.onChain r n o.prototype = true → ¬relinked r := fun r on => untouched r (by
      rw [Heap.onChain, next, on, Bool.or_true])
    have same : (u.prototype == t.prototype) = (u.cls.id == t.cls.id) := by
      refine Bool.eq_iff_iff.2 (beq_iff_eq.trans (Iff.trans ⟨fun same => ?_, fun same => ?_⟩ beq_iff_eq.symm))
      · exact congrArg (·.cls.id) ((lineage.apart t mem).2 u hu same)
      · exact congrArg Template.prototype (List.inj_on_of_nodup_map classes hu mem same)
    rw [Heap.onChain, next, same, Class.isSubclassOf_eq]
    congr 1
    unfold Context.Above at above
    split at above
    · rename_i none
      rw [above] at rest ⊢
      rw [none]
      exact lineage.onChain_top mem rest
    · rename_i super superclass
      obtain ⟨v, hv, is, link⟩ := above
      rw [link] at rest ⊢
      have ancestor : super ∈ u.cls.ancestors :=
        Class.mem_ancestors_iff.2 (.inr ⟨super, superclass, super.mem_ancestors_self⟩)
      have cls : v.cls = super := (known v hv).eq_of_id ((known u hu).ancestor ancestor) is
      rw [superclass, Option.any_some, ← cls]
      refine ih hv ?_ rest
      rw [Class.ancestors_eq, superclass] at short
      exact cls ▸ Nat.le_of_succ_le_succ short

end Context.Lineage

/-! ## Tests for instances -/

namespace Scope

variable {m : Machine} {s : Scope} {c : Context} {t : Template} {w : Ref} {data : WrapperData}

/-- A constructor leads to its prototype. -/
theorem getOrdinary_leads {k p : Ref} {o : Object} {f : FunctionData} (there : m.object? k = some o)
    (function : o.function? = some f) (leads : o.properties.get? "prototype" = some (.fixed (.object p))) :
    (s.getOrdinary k (.object k) "prototype").Returns m (.object p) (m.record p) := by
  have own : o.own? "prototype" = some (.data (.object p) false) := by
    rw [Object.own?_of_plain (Object.isArray_of_function? function), leads]
    rfl
  exact getOrdinary_returns (Heap.lookup_of_own there own)

/-- The prototype test looks for the prototype of the constructor on the chain. -/
theorem instanceOf_returns {k p : Ref} {o : Object} {f : FunctionData} (there : m.object? k = some o)
    (function : o.function? = some f) (leads : o.properties.get? "prototype" = some (.fixed (.object p))) :
    (s.instanceOf (.object w) (.object k)).Returns m (m.heap.inherits w p) (m.record p) := by
  have callable : m.function? (.object k) = some (k, f) := Machine.function?_eq_some.2 ⟨rfl, o, there, function⟩
  have same : (m.record p).heap = m.heap := by rw [Machine.record_eq]
  unfold instanceOf
  refine .look ?_
  rw [callable]
  refine .bind (getOrdinary_leads there function leads) ?_
  rw [← same]
  exact .perform

/-- The class test compares classes. -/
theorem isInstanceOf_returns (settled : m.Settled) (alive : m.contextAlive s.context = true)
    (context : m.context? s.context = some c) (wrapper : m.wrapper? (.object w) = some data)
    (inside : data.context = s.context) (mem : t ∈ c.templates) :
    (s.isInstanceOf (.object w) (.object t.constructor)).Returns m (data.native.cls.isSubclassOf t.cls) m := by
  have behind : m.nativeBehind? (.object w) = some data.native := by
    obtain ⟨o, there, is⟩ := Option.bind_eq_some_iff.1 wrapper
    have there : m.object? w = some o := there
    have payload := Object.payload_of_wrapper? is
    have stands : m.Stands w s.context (.object data.native.serial) :=
      ⟨o, there, Object.twin?_eq_some.2 (.inl ⟨data, payload, inside, rfl⟩)⟩
    unfold Machine.nativeBehind?
    rw [wrapperState_of_object? there payload (settled.nativeAlive alive stands)]
  have constructs : m.classOfConstructor? s (.object t.constructor) = some t.cls := by
    obtain ⟨d, there, rooted⟩ := settled.rooted s.context alive
    obtain rfl : c = d := Option.some.inj (context.symm.trans there)
    have some : (c.templates.find? (·.constructor == t.constructor)).isSome = true :=
      List.find?_isSome.2 ⟨t, mem, beq_self_eq_true _⟩
    obtain ⟨u, found⟩ := Option.isSome_iff_exists.1 some
    -- Two classes with one constructor are the same.
    obtain ⟨o, name, there, function⟩ := rooted.constructors t mem
    obtain ⟨o', name', there', function'⟩ := rooted.constructors u (List.mem_of_find?_eq_some found)
    have one : u.constructor = t.constructor := by simpa using List.find?_some found
    rw [one, there] at there'
    obtain rfl := Option.some.inj there'
    have same := Option.some.inj (function.symm.trans function')
    have cls : t.cls = u.cls := by injection congrArg FunctionData.callable same
    simp only [Machine.classOfConstructor?, Value.ref?, Option.bind_eq_bind, Option.bind_some,
      scopeContext_of_context? context, found]
    exact congrArg _ cls.symm
  unfold isInstanceOf
  refine .look (.look ?_)
  rw [constructs, behind]
  exact .pure

end Scope

namespace Session

open Program (Step)

variable {options : Options} {now : Int} {steps : List Step} {depth : Nat} {before after : List Point} {x : Point}
  {s : Scope} {c : Context} {t : Template} {w : Ref} {data : WrapperData}

/-- At every point of a session, living contexts mirror the classes. -/
theorem lineage_points (split : points options now steps depth = before ++ x :: after) :
    x.machine.Lineage (Relinked before) := by
  refine points_induct (P := fun before m => m.Lineage (Relinked before)) ?_ ?_ split
  · intro id c alive
    simp [Machine.contextAlive] at alive
  · intro before x y after split step lineage
    have mem : y ∈ points options now steps depth :=
      split ▸ List.mem_append_right _ (List.mem_cons_of_mem _ List.mem_cons_self)
    obtain ⟨K, known⟩ := (lawful_points mem).machine
    exact lineage.step step (settled_points mem) known

/-- At every point of a session, a wrapped object is an instance of the constructor of a class that is bridged into its
context if and only if its class is a subclass: the prototype chain says so, and so does the test by class. No class
method takes the place of the prototype, the chain is not too long to walk, and nobody changed the prototypes of the
objects on it. -/
theorem instances_agree (split : points options now steps depth = before ++ x :: after)
    (alive : x.machine.contextAlive s.context = true) (context : x.machine.context? s.context = some c)
    (wrapper : x.machine.wrapper? (.object w) = some data) (inside : data.context = s.context) (mem : t ∈ c.templates)
    (plain : ∀ method ∈ t.table.classMethods, method.name ≠ "prototype")
    (short : data.native.cls.ancestors.length ≤ maxChain)
    (untouched : ∀ r, r = w ∨ x.machine.heap.inherits w r = true → ¬Relinked before r) :
    (s.instanceOf (.object w) (.object t.constructor)).Returns x.machine (data.native.cls.isSubclassOf t.cls)
        (x.machine.record t.prototype) ∧
      (s.isInstanceOf (.object w) (.object t.constructor)).Returns x.machine (data.native.cls.isSubclassOf t.cls)
        x.machine := by
  have here : x ∈ points options now steps depth := split ▸ List.mem_append_right _ List.mem_cons_self
  have settled := settled_points here
  have lineage := lineage_points split s.context c alive context
  obtain ⟨K, known⟩ := (lawful_points here).machine
  have templates : ∀ v ∈ c.templates, K.Has v.cls := fun v mem => (known.templates _ c context v mem).has
  -- The wrapper hangs below the prototype of its class.
  obtain ⟨o, there, is⟩ := Option.bind_eq_some_iff.1 wrapper
  have there : x.machine.object? w = some o := there
  obtain ⟨u, hu, same, link⟩ := lineage.wraps w o data there is inside (untouched w (.inl rfl))
  have cls : u.cls = data.native.cls := (templates u hu).eq_of_id ((known.objects w o there).wrapper data is).1.has same
  have next : x.machine.heap.prototype? w = some u.prototype := by
    rw [Heap.prototype?, show x.machine.heap.get? w = some o from there]
    exact link
  have inherits (r : Ref) : x.machine.heap.inherits w r = x.machine.heap.onChain r maxChain (some u.prototype) := by
    rw [Heap.inherits, next]
  have walk : x.machine.heap.inherits w t.prototype = data.native.cls.isSubclassOf t.cls := by
    rw [inherits, ← cls]
    refine lineage.onChain_eq (settled.classes _ c context) templates mem hu (cls ▸ short) fun r on => ?_
    exact untouched r (.inr ((inherits r).trans on))
  -- The constructor leads to the prototype of the other class.
  obtain ⟨d, there', rooted⟩ := settled.rooted s.context alive
  obtain rfl : c = d := Option.some.inj (context.symm.trans there')
  obtain ⟨k, name, there', function⟩ := rooted.constructors t mem
  obtain ⟨k', there'', leads⟩ := lineage.leads t mem plain
  obtain rfl : k = k' := Option.some.inj (there'.symm.trans there'')
  refine ⟨?_, Scope.isInstanceOf_returns settled alive context wrapper inside mem⟩
  rw [← walk]
  exact Scope.instanceOf_returns there' function leads

/-- An object of a subclass gets a wrapper. -/
def descended : List Step :=
  [.machine (.newContext "main") none, .machine (.protocol "P" "P" [] true []) none,
    .declareClass "A" "A" none ["P"] [] [] false, .declareClass "B" "B" (some "A") [] [] [] false,
    .native (.bind (.create (.key "B") [])) (some "o"),
    .execute "main" [.bridge (.wrap (.register "o")) (some "w")]]

/-- The object that gets another prototype next. -/
def relinks? (z : Point) : Option Ref :=
  z.next.bind fun a =>
    match a.2.edit? with
    | some (r, .setPrototype _) => some r
    | _ => none

/-- There is the wrapper, the superclass has a template, and no prototype on the chain is changed at any point. -/
def isDescended (pts : List Point) : List Point → Bool
  | [] => false
  | x :: _ => x.machine.contextAlive 0 && (x.machine.context? 0).any fun c =>
    (x.machine.wrapper? (.object ⟨22, 0⟩)).any fun data => data.context == 0 &&
      decide (data.native.cls.ancestors.length ≤ maxChain) &&
      (c.templates.any fun t => t.table.classMethods.isEmpty && t.cls.name == "A" && data.native.cls.isSubclassOf t.cls) &&
      pts.all fun z => (relinks? z).all fun r => r != ⟨22, 0⟩ && !x.machine.heap.inherits ⟨22, 0⟩ r

/-- The wrapper is an instance of the superclass. -/
theorem instances_agree_descended : ∃ before x after c t data, points {} 0 descended 3 = before ++ x :: after ∧
    t.cls.name = "A" ∧ data.native.cls.isSubclassOf t.cls = true ∧
    x.machine.contextAlive 0 = true ∧ x.machine.context? 0 = some c ∧
    x.machine.wrapper? (.object ⟨22, 0⟩) = some data ∧ data.context = 0 ∧ t ∈ c.templates ∧
    (∀ method ∈ t.table.classMethods, method.name ≠ "prototype") ∧ data.native.cls.ancestors.length ≤ maxChain ∧
    (∀ r, r = ⟨22, 0⟩ ∨ x.machine.heap.inherits ⟨22, 0⟩ r = true → ¬Relinked before r) ∧
    (Scope.instanceOf ⟨0⟩ (.object ⟨22, 0⟩) (.object t.constructor)).Returns x.machine
        (data.native.cls.isSubclassOf t.cls) (x.machine.record t.prototype) ∧
      (Scope.isInstanceOf ⟨0⟩ (.object ⟨22, 0⟩) (.object t.constructor)).Returns x.machine
        (data.native.cls.isSubclassOf t.cls) x.machine := by
  obtain ⟨suffix, tail, is⟩ : ∃ l ∈ (points {} 0 descended 3).tails, isDescended (points {} 0 descended 3) l = true := by
    decide +kernel
  obtain ⟨before, split⟩ := (List.mem_tails ..).1 tail
  cases suffix with
  | nil => exact absurd is Bool.false_ne_true
  | cons x after =>
    simp only [isDescended, Bool.and_eq_true, Option.any_eq_true, List.any_eq_true, List.all_eq_true, Option.all_eq_true,
      decide_eq_true_eq, beq_iff_eq, bne_iff_ne, List.isEmpty_iff, Bool.not_eq_true'] at is
    obtain ⟨alive, c, context, data, wrapper, ⟨⟨inside, short⟩, t, mem, ⟨none, named⟩, sub⟩, kept⟩ := is
    have plain : ∀ method ∈ t.table.classMethods, method.name ≠ "prototype" := by simp [none]
    have untouched : ∀ r, r = ⟨22, 0⟩ ∨ x.machine.heap.inherits ⟨22, 0⟩ r = true → ¬Relinked before r := by
      rintro r on ⟨l, z, l', rfl, ⟨p, next⟩, -⟩
      have relinks : relinks? z = some r := by rw [relinks?, next]; rfl
      obtain ⟨other, off⟩ := kept z (split ▸ by simp) r relinks
      exact on.elim other fun inherits => Bool.false_ne_true (off.symm.trans inherits)
    exact ⟨before, x, after, c, t, data, split.symm, named, sub, alive, context, wrapper, inside, mem, plain,
      short, untouched, instances_agree split.symm alive context wrapper inside mem plain short untouched⟩

end Session

end ScriptBridge
