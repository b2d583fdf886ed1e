import ScriptBridge.Bridge.ToScript
import ScriptBridge.Proofs.Naming
import ScriptBridge.Proofs.Tidy.Values

/-!
# Raising failures, and making wrappers

A wrapper is only made for what has none: building the template of a class in between enters no wrapper
(`Machine.Builds`), so the table still has no entry of the key. Every value that native code gets as a
script value is recorded (`Scope.toScriptAt_gives`).

Proof-only: not reachable from `ScriptBridge.Session.Run`.
-/

namespace ScriptBridge

namespace Machine

variable {m m' m'' : Machine} {key : NativeKey} {s : Scope}

/-- What lived still does, and no wrapper was entered anywhere. -/
structure Builds (m m' : Machine) : Prop where
  grows : m.Grows m'
  wrappers : ∀ s, (m'.scopeContext s).wrappers = (m.scopeContext s).wrappers

theorem Builds.refl (m : Machine) : m.Builds m := ⟨.refl m, fun _ => rfl⟩

theorem Builds.trans (first : m.Builds m') (next : m'.Builds m'') : m.Builds m'' :=
  ⟨first.grows.trans next.grows, fun s => (next.wrappers s).trans (first.wrappers s)⟩

theorem Builds.of_contexts (grows : m.Grows m') (contexts : m'.contexts = m.contexts) : m.Builds m' :=
  ⟨grows, fun s => by rw [scopeContext, scopeContext, context?, context?, contexts]⟩

theorem Builds.of_gains {names : Ref → String → Prop} (gains : m.Gains names m') : m.Builds m' :=
  .of_contexts gains.grows gains.contexts

/-- Between collections every entry of a table resolves. -/
theorem Sound.registered?_eq_none (settled : m.Settled) :
    m.registered? s key = none ↔ ∀ entry ∈ (m.scopeContext s).wrappers, entry.1 ≠ key := by
  have live : ∀ entry ∈ (m.scopeContext s).wrappers, m.heap.isLive entry.2 = true := by
    intro entry mem
    cases hc : m.context? s.context with
    | none =>
      rw [scopeContext, hc] at mem
      cases mem
    | some c =>
      rw [scopeContext, hc, Option.getD_some] at mem
      rcases settled.entries _ c entry.1 entry.2 hc mem with stands | waits
      · exact stands.isLive
      · exact absurd waits List.not_mem_nil
  cases found : (m.scopeContext s).wrappers.find? (·.1 == key) with
  | none =>
    refine iff_of_true (by simp [Machine.registered?, found]) fun entry mem => ?_
    simpa using List.find?_eq_none.1 found entry mem
  | some entry =>
    have mem := List.mem_of_find?_eq_some found
    have same : entry.1 = key := by simpa using List.find?_some found
    refine iff_of_false ?_ fun absent => absent entry mem same
    simp [Machine.registered?, found, live entry mem]

end Machine

/-- After the template of a class was wanted in a context it is there. Templates that were not there before are those
of the class and its superclasses. -/
structure Machine.HasBuilt (m : Machine) (s : Scope) (cls : Class) (t : Template) (m' : Machine) : Prop where
  builds : m.Builds m'
  mem : t ∈ (m'.scopeContext s).templates
  id : t.cls.id = cls.id
  others : ∀ u ∈ (m'.scopeContext s).templates, u ∈ (m.scopeContext s).templates ∨ ∃ a ∈ cls.ancestors, u.cls.id = a.id

namespace Scope

open Routine

variable {ε α : Type} [Carries ε] {s : Scope} {o : Option Scope} {m : Machine} {Q : α → Machine → Prop}

/-! ## Failures -/

theorem error_gives {e : BridgeError} : (Routine.throw (.error e) : Routine Fault α).Gives o m Q :=
  .throw fun _ h => nomatch h

theorem dispatch_gives {e : DispatchError} : (Routine.throw (.dispatch e) : Routine Fault α).Gives o m Q :=
  error_gives

theorem conversion_gives {e : ConversionError} : (Routine.throw (.conversion e) : Routine Fault α).Gives o m Q :=
  error_gives

/-- What scripts throw, a bridge operation throws on. -/
theorem lift_gives {r : Routine Thrown α} (h : r.Gives o m Q) : (liftM r : Routine Fault α).Gives o m Q :=
  h.mapError fun _ _ hv => hv

theorem exceptionField_tidy {r : Ref} {key : String} :
    (s.exceptionField r key : Routine ε String).Tidy (some s) m := by
  unfold exceptionField
  refine .bind getOrdinary_gives.attempt fun result _ _ _ => ?_
  split
  · exact .pure trivial
  · exact .pure trivial
  · exact textOf_tidy

theorem capture_tidy {t : Thrown} : (s.capture t : Routine ε BridgeException).Tidy (some s) m := by
  unfold capture
  refine .look ?_
  split
  · refine .bind exceptionField_tidy fun _ _ _ _ => .bind exceptionField_tidy fun _ _ _ _ => .read trivial
  · exact .bind textOf_tidy fun _ _ _ _ => .read trivial

/-- What a fault throws into a script is recorded, if what it carries is. -/
theorem raise_gives {fault : Fault} (carried : m.RecordedIn fault) :
    (s.raise fault : Routine ε Thrown).Gives (some s) m fun t m' => m'.RecordedIn t := by
  have recordedIn {m' : Machine} {v : Value} (h : m'.Recorded v) : m'.RecordedIn (⟨v⟩ : Thrown) :=
    fun _ hw => Option.some.inj hw ▸ h
  unfold raise
  split
  · exact .pure fun v hv => carried v hv
  · exact .bind newNativeError_gives fun _ _ _ h => .pure (recordedIn h)
  · split
    · exact .bind newNativeError_gives fun _ _ _ h => .pure (recordedIn h)
    · exact .bind newError_gives fun _ _ _ h => .pure (recordedIn h)
  · exact .bind newError_gives fun _ _ _ h => .pure (recordedIn h)

theorem raising_gives {r : Routine Fault α} (h : r.Gives (some s) m Q) : (s.raising r).Gives (some s) m Q := by
  unfold raising
  refine .bind h.attempt fun result m₁ _ ends => ?_
  cases result with
  | ok a => exact .pure ends
  | error fault => exact .bind (raise_gives ends) fun t m₂ _ recorded => .throw recorded

theorem report_tidy {e : BridgeException} : (report e : Routine ε Unit).Tidy o m :=
  .tables fun _ _ mem => mem

theorem settle_gives {empty : α} {r : Routine Fault α} (h : r.Gives (some s) m Q) (plain : ∀ m', Q empty m') :
    (s.settle empty r).Gives (some s) m Q := by
  unfold settle
  refine .bind h.attempt fun result m₁ _ ends => ?_
  split
  · exact .pure ends
  · exact .throw fun _ hv => nomatch hv
  · refine .bind capture_tidy fun e m₂ _ _ => .look ?_
    split
    · exact .throw fun _ hv => nomatch hv
    · exact .bind report_tidy fun _ m₃ _ _ => .pure (plain m₃)

/-! ## Templates -/

theorem define_gains {r : Ref} {name : String} {v : Value} (names : Ref → String → Prop) (named : names r name)
    (careful : (Action.edit r (.define name (.hidden v))).Careful m) :
    (edit r (.define name (.hidden v)) : Routine ε Unit).Gives o m fun _ m' => m.Gains names m' ∧
      ∀ ob, m.object? r = some ob → m'.object? r = some (ob.edit (.define name (.hidden v))) := by
  refine .perform ⟨trivial, careful⟩ (.of_order rfl) ⟨Machine.gains_define v named, fun ob there => ?_⟩
  refine (Heap.get?_edit ..).trans ((if_pos rfl).trans ?_)
  exact congrArg (Option.map (Object.edit · _)) there

/-- Only the object gains properties, under the names of the methods, and each name leads to the function of its
method. -/
theorem defineMethods_gains {on : Ref} {ob : Object} {methods : List ExportedMethod}
    {callable : ExportedMethod → Callable} (plain : ∀ method c, callable method ≠ .closure c)
    (apart : (methods.map (·.name)).Nodup) (there : m.object? on = some ob) (noArray : ob.isArray = false)
    (careful : ∀ m' ob', m'.object? on = some ob' → ob.Gains (· ∈ methods.map (·.name)) ob' → ∀ method ∈ methods, ∀ v,
      (Action.edit on (.define method.name (.hidden v))).Careful m') :
    (s.defineMethods on methods callable).Gives (some s) m fun _ m' =>
      m.Gains (fun r name => r = on ∧ name ∈ methods.map (·.name)) m' ∧
        ∀ method ∈ methods, m'.HasFunction on method.name (callable method) := by
  unfold defineMethods
  induction methods generalizing m ob with
  | nil => exact .pure ⟨.refl m, nofun⟩
  | cons method methods ih =>
    obtain ⟨other, apart⟩ := List.nodup_cons.1 apart
    let names (r : Ref) (name : String) : Prop := r = on ∧ name ∈ (method :: methods).map (·.name)
    have define : (do
        let f ← s.newFunction method.name (callable method)
        edit on (.define method.name (.hidden f)) : Routine Fault Unit).Gives (some s) m fun _ m' =>
          m.Gains names m' ∧ m'.HasFunction on method.name (callable method) := by
      refine .bind (newFunction_gives (plain method)) fun f m₁ _ made => ?_
      obtain ⟨-, does, made⟩ := made
      have there₁ := made.object? there fun _ => id
      have careful₁ := careful m₁ ob there₁ .none method List.mem_cons_self f
      have gains : m.Gains names m₁ := made.mono fun _ _ => False.elim
      refine (define_gains names ⟨rfl, List.mem_cons_self⟩ careful₁).imp fun _ m₂ _ defined => ?_
      refine ⟨gains.trans defined.1, _, f, defined.2 ob there₁, noArray, ?_, does.grows defined.1.grows⟩
      exact (Properties.get?_insert ..).trans (if_pos rfl)
    refine .bind define fun _ m₁ _ defined => ?_
    obtain ⟨gains, has⟩ := defined
    obtain ⟨ob₁, there₁, gains₁⟩ := gains.objects on ob there
    have gains₁ : ob.Gains (· ∈ (method :: methods).map (·.name)) ob₁ := gains₁.mono fun _ gained => gained.2
    refine (ih apart there₁ (gains₁.isArray.trans noArray) fun m' ob' there' gains' next mem => ?_).imp fun _ m₂ _ defined => ?_
    · exact careful m' ob' there' (gains₁.trans (gains'.mono fun _ => List.mem_cons_of_mem _)) next
        (List.mem_cons_of_mem _ mem)
    · obtain ⟨gains', rest⟩ := defined
      refine ⟨gains.trans (gains'.mono fun _ _ gained => ⟨gained.1, List.mem_cons_of_mem _ gained.2⟩), fun next mem => ?_⟩
      rcases List.mem_cons.1 mem with rfl | mem
      · exact has.gains gains' fun gained => other gained.2
      · exact rest next mem

/-- Of the properties that a function has from the start, only its prototype is not to be defined again. -/
theorem configurable_functionObject {above : Ref} {f : FunctionData} {prototype : Option Ref} {key : String}
    {p : Property} (found : (functionObject above f prototype).properties.get? key = some p) (other : key ≠ "prototype") :
    p.configurable = true := by
  cases prototype with
  | none =>
    simp only [functionObject, Properties.get?, Option.ite_none_right_eq_some, Option.some.injEq] at found
    exact found.2 ▸ rfl
  | some r =>
    simp only [functionObject, Properties.get?, if_neg other.symm, Option.ite_none_right_eq_some,
      Option.some.injEq] at found
    exact found.2 ▸ rfl

/-- Other properties do not come in between. -/
theorem leads_of_gains {ob : Object} {f : FunctionData} {above prototype : Ref} {names : String → Prop}
    (gains : (functionObject above f (some prototype)).Gains names ob) (kept : ¬names "prototype") :
    ob.properties.get? "prototype" = some (.fixed (.object prototype)) := gains.get?_of_not kept

/-- Class methods leave the prototype of a constructor alone, or override it. -/
theorem careful_classMethods {r : Ref} {ob : Object} {cls : Class} {table : ExportTable} {above prototype : Ref}
    {names : String → Prop} (there : m.object? r = some ob)
    (gains : (functionObject above ⟨cls.name, .constructor cls table, s.context⟩ (some prototype)).Gains names ob)
    (method : ExportedMethod) (mem : method ∈ table.classMethods) (v : Value) :
    (Action.edit r (.define method.name (.hidden v))).Careful m := by
  refine ⟨?_, Machine.fits_hidden⟩
  by_cases named : method.name = "prototype"
  · rw [named]
    exact .inr (.classMethod there gains.function? mem named)
  · refine .inl fun o key p there' stored found => ?_
    obtain rfl : ob = o := Option.some.inj (there.symm.trans there')
    obtain rfl : method.name = key := Option.some.inj stored
    refine p.isFixed_of_configurable ((gains.get?_cases found).elim id fun before => ?_)
    exact configurable_functionObject before named

/-- A living scope has a context, with the objects that it needs. -/
theorem withContext {r : Routine ε α} (h : ∀ c, m.contextAlive s.context = true → m.context? s.context = some c →
    c.Rooted m s.context → r.Gives (some s) m Q) : r.Gives (some s) m Q := by
  intro settled inside
  obtain ⟨c, context, rooted⟩ := settled.rooted s.context inside.contextAlive
  exact h c inside.contextAlive context rooted settled inside

theorem scopeContext_of_context? {c : Context} (context : m.context? s.context = some c) : m.scopeContext s = c := by
  rw [Machine.scopeContext, context, Option.getD_some]

/-- Entering what fits. -/
theorem addTemplate_enters {c : Context} {t : Template} (context : m.context? s.context = some c)
    (constructs : m.Constructs s.context t) (takes : c.Takes m t) :
    (perform (.addTemplate s.context t) : Routine ε Unit).Gives o m fun _ m' =>
      m.Builds m' ∧ m'.context? s.context = some (Machine.withTemplate t c) := by
  have prototype : m.heap.isLive t.prototype = true := by
    obtain ⟨ob, there, -⟩ := takes.above
    exact Heap.isLive_iff.2 ⟨ob, there⟩
  have careful : (Action.addTemplate s.context t).Careful m := fun d same =>
    Option.some.inj (context.symm.trans same) ▸ takes
  refine .perform ⟨⟨constructs, prototype⟩, careful⟩ (.of_order rfl) ⟨⟨.of_heap_eq rfl, fun x => ?_⟩, ?_⟩
  · change ((m.modifyContext s.context (Machine.withTemplate t)).scopeContext x).wrappers = _
    unfold Machine.scopeContext
    rw [Machine.context?_modifyContext]
    split
    · cases m.context? x.context <;> rfl
    · rfl
  · refine (Machine.context?_modifyContext ..).trans ((if_pos rfl).trans ?_)
    rw [context]
    rfl

/-- A template is built over that of its superclass and entered. -/
theorem buildTemplate_builds {c : Context} {cls : Class} {table : ExportTable} {parent : Option Template}
    (context : m.context? s.context = some c) (built : ExportTable.build cls = .ok table)
    (hangs : c.Above cls (some ((parent.map (·.prototype)).getD c.intrinsics.object)))
    (new : (∀ super, cls.superclass = some super → ∀ a ∈ super.ancestors, a.id ≠ cls.id) →
      ∀ u ∈ c.templates, u.cls.id ≠ cls.id) :
    (s.buildTemplate cls table parent).Gives (some s) m fun t m' =>
      m.Builds m' ∧ t.cls = cls ∧ m'.context? s.context = some (Machine.withTemplate t c) := by
  unfold buildTemplate
  refine withContext fun d _ same rooted => .look ?_
  obtain rfl : c = d := Option.some.inj (context.symm.trans same)
  rw [scopeContext_of_context? context]
  let above := (parent.map (·.prototype)).getD c.intrinsics.object
  -- The prototype, with the instance methods.
  refine .bind (store_builds rfl rfl nofun) fun prototype m₁ _ stores => ?_
  have bare₁ : m₁.Bare prototype (some above) := stores.bare
  have lists := ExportTable.lists_of_build built
  refine .bind (defineMethods_gains (fun _ _ h => nomatch h) (lists.apart .onInstance nofun) stores.there rfl
    fun m' ob' there gains _ _ _ => ⟨.inl (Machine.respects_of_loose there (gains.loose nofun)), Machine.fits_hidden⟩)
    fun _ m₂ _ defined₂ => ?_
  obtain ⟨gains₂, methods⟩ := defined₂
  have bare₂ := bare₁.gains gains₂
  -- The constructor, below that of the superclass, with the class methods.
  refine .bind (newFunctionWith_gives (fun _ h => nomatch h) fun _ same => ⟨_, Option.some.inj same ▸ bare₂⟩)
    fun constructor m₃ _ made => ?_
  obtain ⟨-, made⟩ := made
  obtain ⟨superior, there₃⟩ := made.there
  refine .bind (defineMethods_gains (fun _ _ h => nomatch h) (lists.apart .onClass nofun) there₃ rfl
    fun m' ob' there gains => careful_classMethods there gains) fun _ m₄ _ defined₄ => ?_
  obtain ⟨gains₄, classMethods⟩ := defined₄
  obtain ⟨ob₄, there₄, gained⟩ := gains₄.objects constructor _ there₃
  have other : prototype ≠ constructor := by
    rintro rfl
    obtain ⟨_, there, -⟩ := bare₂
    exact absurd (made.new.symm.trans there) nofun
  have bare₄ : m₄.Bare prototype (some above) := (bare₂.gains made.gains).gains gains₄
  -- The template.
  have contexts : m₄.contexts = m.contexts :=
    gains₄.contexts.trans (made.gains.contexts.trans (gains₂.contexts.trans stores.gains.contexts))
  have constructs : m₄.Constructs s.context ⟨cls, table, constructor, prototype⟩ :=
    ⟨ob₄, cls.name, there₄, gained.function?⟩
  have takes : c.Takes m₄ ⟨cls, table, constructor, prototype⟩ := by
    have apart {r : Ref} (live : m.heap.isLive r = true) : r ≠ prototype := by
      rintro rfl
      obtain ⟨ob, there⟩ := Heap.isLive_iff.1 live
      exact absurd (stores.new.symm.trans there) nofun
    refine ⟨fun none => ⟨ob₄, there₄, ?_⟩, ?_, built, fun method mem named => ?_, classMethods,
      ⟨?_, fun u mem => apart (rooted.prototypes u mem)⟩, new⟩
    · refine leads_of_gains gained fun ⟨_, mem⟩ => ?_
      obtain ⟨method, mem, named⟩ := List.mem_map.1 mem
      exact none method mem named
    · obtain ⟨ob, there, -, -, is⟩ := bare₄
      exact ⟨ob, there, is ▸ hangs⟩
    · have has₃ := (methods method mem).gains made.gains fun gained => named gained.2
      exact has₃.gains gains₄ fun gained => other gained.1
    · exact (apart (rooted.intrinsics _ List.mem_cons_self)).symm
  refine .bind (addTemplate_enters (by rw [Machine.context?, contexts]; exact context) constructs takes)
    fun _ m₅ _ entered => .pure ⟨?_, rfl, entered.2⟩
  have builds₃ := ((Machine.Builds.of_gains stores.gains).trans (.of_gains gains₂)).trans (.of_gains made.gains)
  exact (builds₃.trans (.of_gains gains₄)).trans entered.1

theorem hasBuilt_of_entered {m' : Machine} {c : Context} {cls : Class} {t : Template} (builds : m.Builds m')
    (is : t.cls = cls) (entered : m'.context? s.context = some (Machine.withTemplate t c))
    (before : ∀ u ∈ c.templates, u ∈ (m.scopeContext s).templates ∨ ∃ a ∈ cls.ancestors, u.cls.id = a.id) :
    m.HasBuilt s cls t m' := by
  have scope := scopeContext_of_context? entered
  refine ⟨builds, ?_, congrArg Class.id is, fun u mem => ?_⟩
  · rw [scope]
    exact List.mem_cons_self
  · rw [scope] at mem
    rcases List.mem_cons.1 mem with rfl | mem
    · exact .inr ⟨cls, Class.mem_ancestors_self cls, congrArg Class.id is⟩
    · exact before u (List.mem_filter.1 mem).1

/-- Superclasses are bridged first. Building a template enters no wrapper. -/
theorem templateFor_builds (cls : Class) (m : Machine) :
    (s.templateFor cls).Gives (some s) m fun t m' => m.HasBuilt s cls t m' := by
  have exports {cls : Class} (parent : Option Template) {m : Machine} {c : Context}
      (context : m.context? s.context = some c)
      (hangs : c.Above cls (some ((parent.map (·.prototype)).getD c.intrinsics.object)))
      (new : (∀ super, cls.superclass = some super → ∀ a ∈ super.ancestors, a.id ≠ cls.id) →
        ∀ u ∈ c.templates, u.cls.id ≠ cls.id) :
      (s.exportTemplate cls parent).Gives (some s) m fun t m' => m.Builds m' ∧ t.cls = cls ∧
        m'.context? s.context = some (Machine.withTemplate t c) := by
    unfold exportTemplate
    split
    · exact dispatch_gives
    · exact buildTemplate_builds context ‹_› hangs new
  obtain ⟨id, key, name, superclass, protocols, instanceMethods, classMethods, factory⟩ := cls
  unfold templateFor
  refine .look ?_
  split
  · rename_i t found
    refine .pure ⟨.refl m, List.mem_of_find?_eq_some found, ?_, fun u mem => .inl mem⟩
    simpa using List.find?_some found
  · rename_i absent
    have missing : ∀ u ∈ (m.scopeContext s).templates, u.cls.id ≠ id := by simpa using absent
    cases superclass with
    | none =>
      refine withContext fun c _ context _ => ?_
      have scope := scopeContext_of_context? context
      have hangs : c.Above ⟨id, key, name, none, protocols, instanceMethods, classMethods, factory⟩
        (some c.intrinsics.object) := rfl
      refine (exports none context hangs fun _ => scope ▸ missing).imp fun t m' _ built => ?_
      exact hasBuilt_of_entered built.1 built.2.1 built.2.2 fun u mem => .inl (scope ▸ mem)
    | some superclass =>
      refine .bind (templateFor_builds superclass m) fun parent m₁ _ above => withContext fun c _ context _ => ?_
      have scope := scopeContext_of_context? context
      have others := above.others
      rw [scope] at others
      have hangs : c.Above ⟨id, key, name, some superclass, protocols, instanceMethods, classMethods, factory⟩
        (some parent.prototype) := ⟨parent, scope ▸ above.mem, above.id, rfl⟩
      refine (exports (some parent) context hangs fun proper u mem => ?_).imp fun t m' _ built => ?_
      · rcases others u mem with old | ⟨a, ancestor, same⟩
        · exact missing u old
        · exact same ▸ proper superclass rfl a ancestor
      · refine hasBuilt_of_entered (above.builds.trans built.1) built.2.1 built.2.2 fun u mem => ?_
        refine (others u mem).imp_right fun ⟨a, ancestor, same⟩ => ⟨a, ?_, same⟩
        exact Class.mem_ancestors_iff.2 (.inr ⟨superclass, rfl, ancestor⟩)
termination_by structural cls

/-! ## Wrappers -/

/-- Entering a new object under a key without an entry, in the context of the scope. -/
theorem addWrapper_gives {key : NativeKey} {ob : Object} (twin : ob.twin? = some (s.context, key))
    (absent : m.registered? s key = none) (careful : (Action.addWrapper s.context key ob).Careful m) :
    (perform (.addWrapper s.context key ob) : Routine ε Ref).Gives (some s) m
      fun r m' => m'.Recorded (.object r) := by
  have run : Action.run (.addWrapper s.context key ob) m =
    ((m.allocate ob).1, (m.allocate ob).2.register s.context key (m.allocate ob).1) := rfl
  intro settled inside
  have kept : m.Kept false (Action.run (.addWrapper s.context key ob) m).2 := (m.kept_allocate ob).of_same rfl
  have legal := And.intro inside.contextAlive (And.intro twin absent)
  refine GivesAs.perform (s := some s) ⟨legal, careful⟩ kept ?_ settled inside
  rw [run, Machine.allocate_eq]
  exact recorded_keep inside rfl

theorem wrapperFor_gives {h : Handle} : (s.wrapperFor h).HandsOut (some s) m := by
  unfold wrapperFor
  intro settled
  refine GivesAs.look ?_ settled
  split
  · exact tracked fun _ h => h
  · rename_i absent
    have before := (Machine.Sound.registered?_eq_none settled).1 absent
    refine .bind (templateFor_builds h.cls m) fun t m₁ _ bridges => withContext fun c _ context _ settled₁ => ?_
    have absent : m₁.registered? s (.object h.serial) = none :=
      (Machine.Sound.registered?_eq_none settled₁).2 (by rw [bridges.builds.wrappers s]; exact before)
    have mem : t ∈ c.templates := scopeContext_of_context? context ▸ bridges.mem
    have careful : (Action.addWrapper s.context (.object h.serial)
        ⟨.wrapper ⟨h, h.cls.name, t.table, s.context⟩, [], some t.prototype⟩).Careful m₁ := by
      refine ⟨?_, nofun, rfl⟩
      rintro w ⟨⟩
      exact ⟨c, context, t, mem, bridges.id, rfl⟩
    exact GivesAs.bind (addWrapper_gives rfl absent careful) (fun r m₂ _ recorded => .pure recorded) settled₁

theorem functionFor_gives {c : Closure} : (s.functionFor c).HandsOut (some s) m := by
  unfold functionFor
  refine .look ?_
  split
  · exact tracked fun _ h => h
  · rename_i absent
    split
    · exact dispatch_gives
    · rename_i marshals
      have marshalable : c.signature.isMarshalable = true := by simpa using marshals
      have careful {above : Ref} {m₁ : Machine} : (Action.addWrapper s.context (.closure c.id)
          (functionObject above ⟨"", .closure c, s.context⟩ none)).Careful m₁ := by
        refine ⟨nofun, ?_, isBlank_functionObject⟩
        rintro f d ⟨⟩ ⟨⟩
        exact marshalable
      exact .look (.bind (addWrapper_gives rfl absent careful) fun r m₁ _ recorded => .pure recorded)

/-! ## Native values as script values -/

theorem managedValue_gives {id : Nat} : (managedValue id : Routine ε (Option Value)).Gives (some s) m
    fun v m' => ∀ w, v = some w → m'.Recorded w := by
  unfold managedValue
  refine .look ?_
  split
  · exact tracked fun m' recorded w hw => Option.some.inj hw ▸ recorded
  · exact .pure fun w hw => nomatch hw

theorem managedValue_tidy {id : Nat} : (managedValue id : Routine ε (Option Value)).Tidy o m := by
  unfold managedValue
  refine .look ?_
  split
  · exact .bind track_tidy fun _ _ _ _ => .pure trivial
  · exact .pure trivial

mutual

/-- Every value that native code gets as a script value is recorded. -/
theorem toScriptAt_gives (v : NativeValue) (depth : Nat) (m : Machine) :
    (s.toScriptAt depth v).HandsOut (some s) m := by
  have plain {m : Machine} {v : Value} (h : v.isObject = false) :
      (Pure.pure v : Routine Fault Value).HandsOut (some s) m := .pure (Machine.recorded_of_not_object h)
  unfold toScriptAt
  refine .look ?_
  split
  · exact conversion_gives
  · cases v with
    | nil | null | bool | number | text | selector => exact plain rfl
    | array items => exact .bind (itemsToScript_tidy items depth #[] m) fun _ _ _ _ => newArray_gives
    | dictionary entries =>
      refine .bind newObject_gives fun object m₁ _ recorded => ?_
      split
      · exact .bind (entriesToScript_tidy entries depth _ m₁) fun _ _ balanced _ => .pure (recorded.mono balanced)
      · exact .pure recorded
    | date t => exact newDate_gives
    | data bytes =>
      dsimp only
      split
      · exact newBuffer_gives
      · exact conversion_gives
    | closure c => exact functionFor_gives
    | object h => exact wrapperFor_gives
    | classRef c => exact .bind (templateFor_builds c m) fun t m₁ _ _ => tracked fun _ recorded => recorded
    | script token =>
      cases token with
      | managed id =>
        refine .bind managedValue_gives fun v m₁ _ recorded => .pure ?_
        cases v with
        | none => exact Machine.recorded_of_not_object rfl
        | some w => exact recorded w rfl
      | foreign id => exact conversion_gives

theorem itemsToScript_tidy (items : List NativeValue) (depth : Nat) (done : Array Value) (m : Machine) :
    (s.itemsToScript depth done items).Tidy (some s) m := by
  unfold itemsToScript
  cases items with
  | nil => exact .pure trivial
  | cons item rest =>
    exact .bind (toScriptAt_gives item (depth + 1) m) fun v m₁ _ _ => itemsToScript_tidy rest depth _ m₁

theorem entriesToScript_tidy (entries : List (NativeValue × NativeValue)) (depth : Nat) (r : Ref) (m : Machine) :
    (s.entriesToScript depth r entries).Tidy (some s) m := by
  unfold entriesToScript
  cases entries with
  | nil => exact .pure trivial
  | cons entry rest =>
    obtain ⟨key, item⟩ := entry
    cases key with
    | text key =>
      refine .bind (toScriptAt_gives item (depth + 1) m) fun v m₁ _ _ => ?_
      exact .bind (lift_gives setOrdinary_tidy) fun _ m₂ _ _ => entriesToScript_tidy rest depth r m₂
    | _ => exact entriesToScript_tidy rest depth r m

end

theorem toScript_gives {v : NativeValue} : (s.toScript v).HandsOut (some s) m := toScriptAt_gives v 0 m

theorem resultOf_gives {declared : Encoding} {v : NativeValue} : (s.resultOf declared v).HandsOut (some s) m := by
  unfold resultOf
  split
  · exact .pure (Machine.recorded_of_not_object rfl)
  · exact .pure (Machine.recorded_of_not_object rfl)
  · split
    · exact .pure (Machine.recorded_of_not_object rfl)
    · exact toScript_gives
  · exact toScript_gives

end Scope

end ScriptBridge
