import ScriptBridge.Proofs.Lineage
import ScriptBridge.Proofs.Retention

/-!
# Classes whose exports clash

A class has no template if two selectors claim one name among its exports, or among those of a superclass. Whatever
brings it into a context then fails, however often it is tried, and leaves nothing of the class behind.

* `Scope.Brings`: the templates that bridging adds are those that bridging each class by itself gives.
* `Class.Refused`: the templates that a context has do not get it any further. `Scope.Ends`, `Scope.templateFor_ends`: a
  class gets its template, or is refused from then on.
* `Machine.Lacks`: contexts have nothing of a class.
* `Bridging`: what brings a class into a context. `Bridging.FailInTurn`: attempts that fail one after another.
* `Session.refuses_clashing`: attempts to bring such a class into a context do that, at every point of a session.

Proof-only: not reachable from `ScriptBridge.Session.Run`.
-/

namespace ScriptBridge

open Routine

/-- What holds of a class if it holds of its superclass holds of all classes. -/
theorem Class.superclass_induct {P : Class → Prop} (step : ∀ c, (∀ d, c.superclass = some d → P d) → P c) :
    ∀ c, P c
  | ⟨id, key, name, superclass, protocols, instanceMethods, classMethods, factory⟩ => by
    refine step _ fun d super => ?_
    cases superclass with
    | none => nomatch super
    | some e =>
      obtain rfl : e = d := Option.some.inj super
      exact superclass_induct step e
termination_by structural c => c

theorem Class.mem_ancestors_of_super {c d a : Class} (super : c.superclass = some d) (mem : a ∈ d.ancestors) :
    a ∈ c.ancestors := mem_ancestors_iff.2 (.inr ⟨d, super, mem⟩)

/-- A class has exports without a clash if its own have none, nor those of its superclass. -/
theorem Class.exports_of_super {c : Class} (own : (ExportTable.build c).isOk = true)
    (above : ∀ d, c.superclass = some d → d.Exports) : c.Exports := by
  intro a mem
  rcases mem_ancestors_iff.1 mem with rfl | ⟨d, super, mem⟩
  · exact own
  · exact above d super a mem

/-- The clash among the exports of a class itself. -/
def Class.clash? (cls : Class) : Option NameClash :=
  match ExportTable.build cls with
  | .error clash => some clash
  | .ok _ => none

theorem Class.build_of_clash? {cls : Class} {clash : NameClash} (clashes : cls.clash? = some clash) :
    ExportTable.build cls = .error clash := by
  unfold clash? at clashes
  split at clashes
  · obtain rfl := Option.some.inj clashes
    assumption
  · nomatch clashes

theorem Class.not_exports_of_clash? {cls : Class} {clash : NameClash} (clashes : cls.clash? = some clash) :
    ¬cls.Exports := fun exports => by
  have built := exports cls cls.mem_ancestors_self
  rw [build_of_clash? clashes] at built
  nomatch built

/-! ## Templates of superclasses -/

namespace Scope

variable {s : Scope} {m m' : Machine} {c : Context} {cls : Class} {clash : NameClash} {K : Roster}

/-- Each template is of a class or of a class above it, and it is the one that bridging that class by itself gives. -/
def Brings (s : Scope) (m : Machine) (cls : Class) (added : List Template) : Prop :=
  ∀ t ∈ added, t.cls ∈ cls.ancestors ∧ ∃ m', (s.templateFor t.cls).Returns m t m'

theorem Brings.of_super {d : Class} {added : List Template} (brings : s.Brings m d added)
    (super : cls.superclass = some d) : s.Brings m cls added := fun t mem =>
  (brings t mem).imp_left (Class.mem_ancestors_of_super super)

/-- A class without a template is exported below its superclass. -/
theorem exec_templateFor {job : Runner} (absent : ∀ t ∈ (m.scopeContext s).templates, t.cls.id ≠ cls.id) :
    (s.templateFor cls).exec job m =
      (match cls.superclass with
        | none => s.exportTemplate cls none
        | some d => s.templateFor d >>= fun parent => s.exportTemplate cls (some parent)).exec job m := by
  have none : (m.scopeContext s).templates.find? (·.cls.id == cls.id) = none := by simpa using absent
  obtain ⟨id, key, name, superclass, protocols, instanceMethods, classMethods, factory⟩ := cls
  conv_lhs => unfold templateFor
  refine (exec_look none).trans ?_
  cases superclass <;> rfl

theorem exportTemplate_throws {parent : Option Template} (clashes : ExportTable.build cls = .error clash) :
    (s.exportTemplate cls parent).Throws m (.error (.dispatch (.ambiguousRename clash))) m := by
  unfold exportTemplate
  rw [clashes]
  exact .throw

theorem exportTemplate_gathers (steady : m.Steady) (there : m.context? s.context = some c)
    (absent : ∀ t ∈ c.templates, t.cls.id ≠ cls.id) {table : ExportTable} (built : ExportTable.build cls = .ok table)
    (parent : Option Template) :
    ∃ t m', (s.exportTemplate cls parent).Returns m t m' ∧ m.Gathers s [t] m' ∧ t.cls = cls := by
  obtain ⟨t, m₁, builds, stocks, whole, live, same⟩ := buildTemplate_stocks (s := s) steady cls table parent
  refine ⟨t, _, ?_, ⟨stocks.addTemplate whole live, fun waiting sound =>
    (stocks.sound waiting sound).addTemplate whole live, ?_, fun i => ?_⟩, same⟩
  · unfold exportTemplate
    rw [built]
    exact builds
  · obtain ⟨heap, collector, more, rfl⟩ := stocks.rest
    exact ⟨heap, _, collector, more, rfl⟩
  · have contexts : m₁.context? i = m.context? i := by
      obtain ⟨heap, collector, more, rfl⟩ := stocks.rest
      rfl
    rw [Machine.context?_modifyContext, contexts]
    by_cases here : i = s.context
    · rw [if_pos here.symm, if_pos here, here, there]
      have others : c.templates.filter (·.cls.id != t.cls.id) = c.templates :=
        List.filter_eq_self.2 fun u mem => bne_iff_ne.2 (same ▸ absent u mem)
      exact congrArg (fun templates => some { c with templates := t :: templates }) others
    · rw [if_neg (Ne.symm here), if_neg here, Option.map_id]
      rfl

end Scope

/-! ## Refusal -/

/-- Among some templates a class has none, and gets none: its superclass has one and its own exports clash, or its
superclass gets none. -/
inductive Class.Refused (templates : List Template) (clash : NameClash) : Class → Prop
  | clashes {c : Class} (absent : ∀ t ∈ templates, t.cls.id ≠ c.id)
    (above : ∀ d, c.superclass = some d → ∃ t ∈ templates, t.cls.id = d.id)
    (clashes : ExportTable.build c = .error clash) : Refused templates clash c
  | above {c d : Class} (absent : ∀ t ∈ templates, t.cls.id ≠ c.id) (super : c.superclass = some d)
    (refused : Refused templates clash d) : Refused templates clash c

namespace Class.Refused

variable {templates : List Template} {clash : NameClash} {c : Class}

theorem absent (refused : c.Refused templates clash) : ∀ t ∈ templates, t.cls.id ≠ c.id := by
  cases refused with
  | clashes absent | above absent => exact absent

/-- What is told is a clash among the exports of the class or of one above it. -/
theorem exists_clash (refused : c.Refused templates clash) : ∃ a ∈ c.ancestors, ExportTable.build a = .error clash := by
  induction refused with
  | clashes _ _ clashes => exact ⟨_, mem_ancestors_self _, clashes⟩
  | above _ super _ ih =>
    obtain ⟨a, mem, clashes⟩ := ih
    exact ⟨a, mem_ancestors_of_super super mem, clashes⟩

end Class.Refused

namespace Scope

variable {s : Scope} {m : Machine} {c : Context} {cls : Class} {clash : NameClash} {K : Roster}

/-- A context refuses such a class and stays as it is. -/
theorem templateFor_refused (refused : cls.Refused (m.scopeContext s).templates clash) :
    (s.templateFor cls).Throws m (.error (.dispatch (.ambiguousRename clash))) m := by
  induction refused with
  | @clashes cls absent above clashes =>
    refine fun job => (exec_templateFor absent).trans ?_
    cases super : cls.superclass with
    | none => exact exportTemplate_throws clashes job
    | some d =>
      obtain ⟨t, mem, same⟩ := above d super
      have found : ((m.scopeContext s).templates.find? (·.cls.id == d.id)).isSome = true :=
        List.find?_isSome.2 ⟨t, mem, beq_iff_eq.2 same⟩
      obtain ⟨p, found⟩ := Option.isSome_iff_exists.1 found
      exact Throws.after (templateFor_returns found) (exportTemplate_throws clashes) job
  | above absent super _ ih =>
    refine fun job => (exec_templateFor absent).trans ?_
    rw [super]
    exact ih.bind job

/-- How bridging a class ends: it has a template, or is refused, from then on as well. Either way what was added are the
templates of classes above it, or its own. -/
def Ends (s : Scope) (m : Machine) (c : Context) (cls : Class) : Prop :=
  (∃ t m' added, (s.templateFor cls).Returns m t m' ∧ m.Gathers s added m' ∧ s.Brings m cls added ∧
    t ∈ added ++ c.templates ∧ t.cls.id = cls.id ∧ cls.Exports) ∨
  ∃ clash m' added, (s.templateFor cls).Throws m (.error (.dispatch (.ambiguousRename clash))) m' ∧
    m.Gathers s added m' ∧ s.Brings m cls added ∧ cls.Refused (added ++ c.templates) clash

/-- Once its superclass has a template, a class is exported, unless its own exports clash. -/
theorem ends_of_export {m₁ : Machine} {added : List Template} {parent : Option Template}
    (there : m.context? s.context = some c) (gathers : m.Gathers s added m₁) (brings : s.Brings m cls added)
    (absent : ∀ t ∈ added ++ c.templates, t.cls.id ≠ cls.id)
    (above : ∀ d, cls.superclass = some d → d.Exports ∧ ∃ t ∈ added ++ c.templates, t.cls.id = d.id)
    (run : ∀ {job : Runner}, (s.templateFor cls).exec job m = (s.exportTemplate cls parent).exec job m₁) :
    s.Ends m c cls := by
  cases built : ExportTable.build cls with
  | error clash =>
    have refused : cls.Refused (added ++ c.templates) clash := .clashes absent (fun d super => (above d super).2) built
    exact .inr ⟨clash, m₁, added, fun job => run.trans (exportTemplate_throws built job), gathers, brings, refused⟩
  | ok table =>
    obtain ⟨t, m', exported, next, same⟩ :=
      exportTemplate_gathers gathers.furnishes.steady (gathers.context there) absent built parent
    have returns : (s.templateFor cls).Returns m t m' := fun job => run.trans (exported job)
    have exports : cls.Exports := Class.exports_of_super (by rw [built]; rfl) fun d super => (above d super).1
    refine .inl ⟨t, m', t :: added, returns, gathers.trans next, fun u mem => ?_, List.mem_cons_self,
      congrArg Class.id same, exports⟩
    rcases List.mem_cons.1 mem with rfl | mem
    · exact ⟨same ▸ cls.mem_ancestors_self, m', same ▸ returns⟩
    · exact brings u mem

theorem templateFor_ends (cls : Class) : ∀ {m : Machine} {c : Context}, K.Has cls → m.Steady →
    m.context? s.context = some c → (∀ t ∈ c.templates, t.Known K) → s.Ends m c cls := by
  -- The superclass is bridged first. What that adds is of other classes, so the class itself is still absent.
  induction cls using Class.superclass_induct with
  | step cls ih =>
  intro m c has steady there known
  have templates : (m.scopeContext s).templates = c.templates := by rw [scopeContext_of_context? there]
  cases found : (m.scopeContext s).templates.find? (·.cls.id == cls.id) with
  | some t =>
    have mem : t ∈ c.templates := templates ▸ List.mem_of_find?_eq_some found
    have same : t.cls.id = cls.id := by simpa using List.find?_some found
    have is : t.cls = cls := (known t mem).has.eq_of_id has same
    have exports : cls.Exports := is ▸ (known t mem).exports
    exact .inl ⟨t, m, [], templateFor_returns found, .refl steady, fun _ => nofun, mem, same, exports⟩
  | none =>
    have absent : ∀ t ∈ c.templates, t.cls.id ≠ cls.id := by simpa [templates] using found
    have absent' : ∀ t ∈ (m.scopeContext s).templates, t.cls.id ≠ cls.id := templates ▸ absent
    cases super : cls.superclass with
    | none =>
      have top (d : Class) : cls.superclass ≠ some d := super ▸ (Option.some_ne_none d).symm
      have run {job : Runner} : (s.templateFor cls).exec job m = (s.exportTemplate cls none).exec job m := by
        rw [exec_templateFor absent', super]
      exact ends_of_export there (.refl steady) (fun _ => nofun) absent (fun d is => absurd is (top d)) run
    | some d =>
      have run {job : Runner} : (s.templateFor cls).exec job m =
          (s.templateFor d >>= fun parent => s.exportTemplate cls (some parent)).exec job m := by
        rw [exec_templateFor absent', super]
      have apart {added : List Template} (brings : s.Brings m d added) :
          ∀ t ∈ added ++ c.templates, t.cls.id ≠ cls.id := fun t mem =>
        (List.mem_append.1 mem).elim (fun new => has.apart super (brings t new).1) (absent t)
      have hasSuper : K.Has d := has.ancestor (Class.mem_ancestors_of_super super d.mem_ancestors_self)
      rcases ih d super hasSuper steady there known with
        ⟨p, m₁, added, first, gathers, brings, mem, is, exports⟩ | ⟨clash, m₁, added, throws, gathers, brings, refused⟩
      · refine ends_of_export there gathers (brings.of_super super) (apart brings) (fun e super' => ?_)
          (run.trans (exec_bind_of_done (first _) rfl))
        obtain rfl : d = e := Option.some.inj (super.symm.trans super')
        exact ⟨exports, p, mem, is⟩
      · exact .inr ⟨clash, m₁, added, fun job => run.trans (throws.bind job), gathers, brings.of_super super,
          .above (apart brings) super refused⟩

end Scope

/-! ## Classes that left no trace -/

/-- Nothing of a class is in the tables of contexts: no template, and no entry for any of its objects. -/
structure Machine.Lacks (K : Roster) (cls : Class) (m : Machine) : Prop where
  templates : ∀ i c, m.context? i = some c → ∀ t ∈ c.templates, t.cls.id ≠ cls.id
  wrappers : ∀ n, K.Holds ⟨n, cls⟩ → ∀ i c, m.context? i = some c → ∀ r, (.object n, r) ∉ c.wrappers

namespace Machine

variable {K : Roster} {cls : Class} {m m' : Machine} {s : Scope} {added : List Template}

/-- A class whose exports clash is nowhere, since the classes of all templates and wrappers have exports. -/
theorem Known.lacks (known : m.Known K) (settled : m.Settled) (has : K.Has cls) (clashing : ¬cls.Exports) :
    m.Lacks K cls where
  templates i c there t mem same := by
    have t_known := known.templates i c there t mem
    exact clashing (t_known.has.eq_of_id has same ▸ t_known.exports)
  wrappers n holds i c there r mem := by
    obtain ⟨o, ho, twin⟩ := (settled.mem_wrappers there).1 mem
    rcases Object.twin?_eq_some.1 twin with ⟨w, payload, -, serial⟩ | ⟨name, closure, -, nothing⟩
    · have wrapper : o.wrapper? = some w := by rw [Object.wrapper?, payload]
      have o_known := known.objects r o ho
      obtain ⟨held, -⟩ := o_known.wrapper w wrapper
      have cls_eq : w.native.cls = cls := held.cls_eq holds (NativeKey.object.inj serial)
      exact clashing (cls_eq ▸ o_known.exports w wrapper)
    · cases nothing

theorem Lacks.retains (lacks : m.Lacks K cls) (retains : m.Retains s added m')
    (others : ∀ t ∈ added, t.cls.id ≠ cls.id) : m'.Lacks K cls where
  templates i c' there' t mem := by
    obtain ⟨c, there, kept⟩ := retains.of_context there'
    rw [kept.templates] at mem
    rcases List.mem_append.1 mem with new | old
    · split at new
      · exact others t new
      · nomatch new
    · exact lacks.templates i c there t old
  wrappers n holds i c' there' r mem := by
    obtain ⟨c, there, kept⟩ := retains.of_context there'
    exact lacks.wrappers n holds i c there r ((kept.wrappers _ r).1 mem).1

theorem Lacks.registered? (lacks : m.Lacks K cls) {n : Nat} (holds : K.Holds ⟨n, cls⟩) :
    m.registered? s (.object n) = none := by
  refine Option.eq_none_iff_forall_ne_some.2 fun r found => ?_
  obtain ⟨mem, -⟩ := mem_of_registered found
  unfold scopeContext at mem
  cases there : m.context? s.context with
  | none =>
    rw [there] at mem
    nomatch mem
  | some c =>
    rw [there] at mem
    exact lacks.wrappers n holds _ c there r mem

end Machine

/-! ## Attempts -/

/-- What brings a class into a context: converting one of its objects, converting the class itself, or making its
constructor a property of the global object. -/
inductive Bridging where
  | object (serial : Nat)
  | reference
  | constructor (name : String)

namespace Bridging

/-- What an attempt runs. -/
def routine (b : Bridging) (s : Scope) (cls : Class) : Routine BridgeError Unit :=
  match b with
  | object serial => do let _ ← s.wrap (.object ⟨serial, cls⟩)
  | reference => do let _ ← s.wrap (.classRef cls)
  | constructor name => Scope.setClass s.context name cls

/-- An object is one that was made, of the class. -/
def Held (b : Bridging) (K : Roster) (cls : Class) : Prop :=
  match b with
  | object serial => K.Holds ⟨serial, cls⟩
  | reference | constructor _ => True

/-- Where an attempt looks for the template. An operation on a whole context has opened a region. -/
def start (b : Bridging) (s : Scope) (m : Machine) : Machine :=
  match b with
  | object _ | reference => m
  | constructor _ => m.enterRegion s.context

/-- How an attempt ends. -/
def finish (b : Bridging) (m : Machine) : Machine :=
  match b with
  | object _ | reference => m
  | constructor _ => m.closeRegion false

/-- The end of the attempt is not the end of the outermost region, which may run a collection. -/
def Quiet (b : Bridging) (m : Machine) : Prop :=
  match b with
  | object _ | reference => True
  | constructor _ => m.regions ≠ []

variable {b : Bridging} {rest : List Bridging} {s : Scope} {cls : Class} {clash : NameClash} {e : BridgeError}
  {m m₁ m' : Machine} {added : List Template} {K : Roster} {c : Context}

/-- An attempt fails as the template does. -/
theorem throws (absent : ∀ n, b = object n → m.registered? s (.object n) = none)
    (refused : (s.templateFor cls).Throws (b.start s m) (.error e) m₁) :
    (b.routine s cls).Throws m e (b.finish m₁) := by
  have shallow (options : Options) : ¬options.maxConversionDepth < 0 := Nat.not_lt_zero _
  cases b with
  | object n =>
    refine .bind (.settle ?_)
    unfold Scope.toScript Scope.toScriptAt
    refine .look ?_
    rw [if_neg (shallow _)]
    refine .look ?_
    rw [absent n rfl]
    exact .bind refused
  | reference =>
    refine .bind (.settle ?_)
    unfold Scope.toScript Scope.toScriptAt
    refine .look ?_
    rw [if_neg (shallow _)]
    exact .bind refused
  | constructor name => exact .inRegion (.settle (.bind refused))

/-- An attempt fails, and leaves further templates. A collection may have run after that. -/
structure Fails (b : Bridging) (s : Scope) (cls : Class) (e : BridgeError) (m : Machine) (added : List Template)
    (m' : Machine) : Prop where
  throws : (b.routine s cls).Throws m e m'
  ends : ∃ m₁, m.Gathers s added m₁ ∧ (m' = m₁ ∨ ¬b.Quiet m ∧ m' = m₁.collect.2)
  /-- The collection frees nothing that was reached before the attempt. -/
  keeps : ∀ r o, m.object? r = some o → m.heap.Reaches m.IsRoot r → m'.object? r = some o

/-- Attempts fail one after another, and add nothing. -/
inductive FailInTurn (s : Scope) (cls : Class) (e : BridgeError) : List Bridging → Machine → Machine → Prop
  | nil {m : Machine} : FailInTurn s cls e [] m m
  | cons {b : Bridging} {rest : List Bridging} {m m₁ m' : Machine} (first : b.Fails s cls e m [] m₁)
    (others : FailInTurn s cls e rest m₁ m') : FailInTurn s cls e (b :: rest) m m'

theorem exists_fails (steady : m.Steady) (alive : m.contextAlive s.context = true)
    (absent : ∀ n, b = object n → m.registered? s (.object n) = none)
    (refused : (s.templateFor cls).Throws (b.start s m) (.error e) m₁) (gathers : (b.start s m).Gathers s added m₁) :
    ∃ m', b.Fails s cls e m added m' := by
  have ends : ∃ m₂, m.Gathers s added m₂ ∧ (b.finish m₁ = m₂ ∨ ¬b.Quiet m ∧ b.finish m₁ = m₂.collect.2) := by
    cases b with
    | object | reference => exact ⟨m₁, gathers, .inl rfl⟩
    | constructor name =>
      obtain ⟨m₂, left, closed⟩ := gathers.closeRegion steady alive
      exact ⟨m₂, left, closed.imp_right fun ⟨last, collected⟩ => ⟨fun quiet => quiet last, collected⟩⟩
  refine ⟨b.finish m₁, throws absent refused, ends, fun r o ho reached => ?_⟩
  obtain ⟨m₂, gathers, same | ⟨-, same⟩⟩ := ends
  · exact same ▸ gathers.furnishes.objects r o ho
  · rw [same]
    have heap := gathers.furnishes.steady.heap
    exact (Machine.object?_collect heap r o).2 ⟨gathers.furnishes.objects r o ho, gathers.reaches reached⟩

namespace Fails

theorem retains (settled : m.Settled) (fails : b.Fails s cls e m added m') : m.Retains s added m' := by
  obtain ⟨m₁, gathers, rfl | ⟨-, rfl⟩⟩ := fails.ends
  · exact gathers.retains settled
  · have first := gathers.retains settled
    exact first.trans settled first.settled.retains_collect

theorem gathers (quiet : b.Quiet m) (fails : b.Fails s cls e m added m') : m.Gathers s added m' := by
  obtain ⟨m₁, gathers, rfl | ⟨loud, -⟩⟩ := fails.ends
  · exact gathers
  · exact absurd quiet loud

end Fails

/-- Where an attempt starts, nothing but a region is new. -/
theorem steady_start (settled : m.Settled) (alive : m.contextAlive s.context = true) : (b.start s m).Steady := by
  refine ⟨[], ?_, nofun⟩
  cases b with
  | object | reference => exact settled
  | constructor name => exact Action.sound_run (a := .openRegion s.context) alive nofun settled

theorem context?_start (i : Nat) : (b.start s m).context? i = m.context? i := by
  cases b <;> rfl

theorem quiet_iff (retains : m.Retains s added m') : b.Quiet m' ↔ b.Quiet m := by
  cases b with
  | object | reference => exact Iff.rfl
  | constructor name => exact not_congr retains.regions

/-- A context that refuses a class does so however often it is tried. -/
theorem fail_in_turn (settled : m.Settled) (alive : m.contextAlive s.context = true)
    (there : m.context? s.context = some c) (lacks : m.Lacks K cls)
    (refused : cls.Refused (added ++ c.templates) clash) (held : ∀ b ∈ rest, b.Held K cls) {m₁ : Machine}
    (retains : m.Retains s added m₁) :
    ∃ m', FailInTurn s cls (.dispatch (.ambiguousRename clash)) rest m₁ m' ∧ m.Retains s added m' ∧
      ((∀ b ∈ rest, b.Quiet m) → m.Gathers s added m₁ → m.Gathers s added m') := by
  -- What is kept since `m` is the invariant: the templates that refuse the class, and no entry for its objects.
  induction rest generalizing m₁ with
  | nil => exact ⟨m₁, .nil, retains, fun _ gathers => gathers⟩
  | cons b rest ih =>
    have alive₁ : m₁.contextAlive s.context = true := (retains.contextAlive _).trans alive
    obtain ⟨c₁, there₁, kept⟩ := retains.context there
    rw [if_pos rfl] at kept
    have lacks₁ : m₁.Lacks K cls := lacks.retains retains fun t mem => refused.absent t (List.mem_append_left _ mem)
    have absent (n : Nat) (is : b = object n) : m₁.registered? s (.object n) = none := by
      subst is
      exact lacks₁.registered? (held _ List.mem_cons_self)
    have steady := steady_start (b := b) retains.settled alive₁
    have templates : ((b.start s m₁).scopeContext s).templates = added ++ c.templates := by
      rw [Scope.scopeContext_of_context? ((context?_start _).trans there₁), kept.templates]
    obtain ⟨m₂, fails⟩ := exists_fails ⟨[], retains.settled, nofun⟩ alive₁ absent
      (Scope.templateFor_refused (templates ▸ refused)) (.refl steady)
    have retains₂ : m.Retains s added m₂ := retains.trans settled (fails.retains retains.settled)
    obtain ⟨m', others, retains', quiet⟩ := ih (fun b mem => held b (List.mem_cons_of_mem _ mem)) retains₂
    refine ⟨m', .cons fails others, retains', fun all gathers => ?_⟩
    have gathers₂ := gathers.trans (fails.gathers ((quiet_iff retains).2 (all b List.mem_cons_self)))
    exact quiet (fun b mem => all b (List.mem_cons_of_mem _ mem)) gathers₂

/-- Where a region is the outermost one and a collection is due, setting the constructor of a class that is refused
collects. -/
theorem refused_collects (alive : m.contextAlive s.context = true)
    (refused : cls.Refused (m.scopeContext s).templates clash) (last : m.regionDepth = 0)
    (due : m.collectionDue false = true) (name : String) :
    ((constructor name).routine s cls).Throws m (.dispatch (.ambiguousRename clash)) m.collect.2 := by
  have closed : (m.enterRegion s.context).closeRegion false = m.collect.2 := by
    have collects : (Action.closeRegion false).Collects (m.enterRegion s.context) := ⟨nofun, last, due⟩
    have left : (m.enterRegion s.context).leaveRegion = m := rfl
    refine (Action.closeRegion_eq_collect rfl collects).trans ?_
    rw [left]
    exact Machine.collect_holdContext alive
  rw [← closed]
  exact throws (b := .constructor name) nofun (Scope.templateFor_refused (m := m.enterRegion s.context) refused)

/-- Attempts to bring a class into a context are in vain: they fail one after another, and leave no trace of it. -/
structure InVain (s : Scope) (K : Roster) (cls : Class) (b : Bridging) (rest : List Bridging) (m : Machine)
    (clash : NameClash) (added : List Template) (m₁ m' : Machine) : Prop where
  /-- What they tell is a clash among the exports of the class, or of one above it. -/
  clashes : ∃ a ∈ cls.ancestors, ExportTable.build a = .error clash
  first : b.Fails s cls (.dispatch (.ambiguousRename clash)) m added m₁
  others : FailInTurn s cls (.dispatch (.ambiguousRename clash)) rest m₁ m'
  lacks : m'.Lacks K cls
  retains : m.Retains s added m'
  /-- If no collection may run, nothing at all is gone. -/
  gathers : (∀ a ∈ b :: rest, a.Quiet m) → m.Gathers s added m'
  /-- The new templates are of classes above it. They are what bridging those by themselves gives, at first and from now
  on. -/
  above : ∀ t ∈ added, t.cls ∈ cls.ancestors ∧ (∃ m₂, (s.templateFor t.cls).Returns (b.start s m) t m₂) ∧
    (s.templateFor t.cls).Returns m' t m'

end Bridging

namespace Session

open Program (Step)

variable {options : Options} {now : Int} {steps : List Step} {depth : Nat} {x : Point} {s : Scope} {K : Roster}
  {cls : Class}

/-- At every point of a session, a class whose exports clash, or those of a superclass, cannot be brought into a
context. Each attempt fails with the clash, whatever was tried before, and leaves no trace of the class. -/
theorem refuses_clashing (mem : x ∈ points options now steps depth) (known : x.machine.Known K)
    (alive : x.machine.contextAlive s.context = true) (has : K.Has cls) (clashing : ¬cls.Exports) (b : Bridging)
    (rest : List Bridging) (held : ∀ a ∈ b :: rest, a.Held K cls) :
    ∃ clash added m₁ m', Bridging.InVain s K cls b rest x.machine clash added m₁ m' := by
  have settled := settled_points mem
  obtain ⟨c, there, -⟩ := settled.rooted s.context alive
  have lacks := known.lacks settled has clashing
  have absent (n : Nat) (is : b = .object n) : x.machine.registered? s (.object n) = none := by
    subst is
    exact lacks.registered? (held _ List.mem_cons_self)
  have start : (b.start s x.machine).context? s.context = some c := (Bridging.context?_start _).trans there
  rcases Scope.templateFor_ends cls has (Bridging.steady_start settled alive) start (known.templates _ c there) with
    ⟨_, _, _, -, -, -, -, -, exports⟩ | ⟨clash, m₀, added, throws, gathers, brings, refused⟩
  · exact absurd exports clashing
  obtain ⟨m₁, first⟩ := Bridging.exists_fails ⟨[], settled, nofun⟩ alive absent throws gathers
  obtain ⟨m', others, retains, quiet⟩ := Bridging.fail_in_turn settled alive there lacks refused
    (fun a mem => held a (List.mem_cons_of_mem _ mem)) (first.retains settled)
  refine ⟨clash, added, m₁, m', refused.exists_clash, first, others, ?_, retains, fun all => ?_, fun t new => ?_⟩
  · exact lacks.retains retains fun t mem => refused.absent t (List.mem_append_left _ mem)
  · exact quiet (fun a mem => all a (List.mem_cons_of_mem _ mem)) (first.gathers (all b List.mem_cons_self))
  · obtain ⟨ancestor, direct⟩ := brings t new
    obtain ⟨c', there', kept⟩ := retains.context there
    rw [if_pos rfl] at kept
    have listed : t ∈ c'.templates := kept.templates ▸ List.mem_append_left _ new
    refine ⟨ancestor, direct, Scope.templateFor_returns ?_⟩
    rw [Scope.scopeContext_of_context? there']
    exact Machine.find?_of_nodup (retains.settled.classes _ c' there') listed

/-- There is an object of a class whose exports clash, below a class whose exports do not. -/
def clashing : List Step :=
  [.machine (.newContext "main") none, .machine (.protocol "P" "P" [] true [.method "m" "v@:"]) none,
    .machine (.protocol "Q" "Q" [] true [.method "x:" "v@:d", .method "x::" "v@:dd"]) none,
    .declareClass "A" "A" none ["P"] [] [] false, .declareClass "B" "B" (some "A") ["Q"] [] [] false,
    .native (.bind (.create (.key "B") [])) (some "o")]

/-- What is tried after the object: the class itself, its constructor, and everything once more. -/
def pestering : List Bridging := [.reference, .constructor "B", .object 1, .reference, .constructor "B"]

/-- The context lives, and a register has an object of a declared class whose exports clash. -/
def isClashing (x : Point) : Bool :=
  x.machine.contextAlive 0 && x.machine.tables.classes.any fun e =>
    e.2.name == "B" && e.2.superclass.isSome && e.2.clash?.isSome &&
      x.machine.tables.natives.any fun v =>
        match v.2 with
        | .object h => h.serial == 1 && h.cls.id == e.2.id
        | _ => false

/-- The superclass gets its template, the class none. -/
theorem refuses_clashing_pestered : ∃ x ∈ points {} 0 clashing 3, ∃ K cls, x.machine.Known K ∧
    x.machine.contextAlive 0 = true ∧ K.Has cls ∧ cls.name = "B" ∧ ¬cls.Exports ∧
    (∀ a ∈ .object 1 :: pestering, Bridging.Held a K cls) ∧
    ∃ clash added m₁ m', Bridging.InVain ⟨0⟩ K cls (.object 1) pestering x.machine clash added m₁ m' := by
  obtain ⟨x, mem, is⟩ : ∃ x ∈ points {} 0 clashing 3, isClashing x = true := by decide +kernel
  simp only [isClashing, Bool.and_eq_true, List.any_eq_true, beq_iff_eq, Option.isSome_iff_exists] at is
  obtain ⟨alive, e, declared, ⟨⟨named, -⟩, clash, clashes⟩, ⟨register, v⟩, registered, is⟩ := is
  obtain ⟨K, known⟩ := (lawful_points mem).machine
  have has : K.Has e.2 := known.tables.classes e declared
  have holds : K.Holds ⟨1, e.2⟩ := by
    split at is
    · rename_i h object
      obtain ⟨serial, same⟩ := Bool.and_eq_true_iff.1 is
      have holds := Roster.knows_object.1 (object ▸ known.tables.natives _ registered)
      have cls : h.cls = e.2 := holds.has.eq_of_id has (beq_iff_eq.1 same)
      rw [← cls, ← beq_iff_eq.1 serial]
      exact holds
    · nomatch is
  have held : ∀ a ∈ .object 1 :: pestering, Bridging.Held a K e.2 := by
    simpa [pestering, Bridging.Held] using holds
  exact ⟨x, mem, K, e.2, known, alive, has, named, Class.not_exports_of_clash? clashes, held,
    refuses_clashing mem known alive has (Class.not_exports_of_clash? clashes) (.object 1) pestering held⟩

/-- A wrapper that nothing reaches is there when the exports of a class clash. -/
def discarding : List Step :=
  [.machine (.newContext "main") none, .machine (.protocol "P" "P" [] true [.method "m" "v@:"]) none,
    .machine (.protocol "Q" "Q" [] true [.method "x:" "v@:d", .method "x::" "v@:dd"]) none,
    .declareClass "K" "K" none ["P"] [] [] false, .declareClass "B" "B" none ["Q"] [] [] false,
    .native (.bind (.create (.key "K") [])) (some "o"),
    .execute "main" [.bridge (.wrap (.register "o")) (some "w")], .machine (.setThreshold 1) none]

/-- A collection is due at the end of the next region, the wrapper is registered, and neither a root nor an object
refers to it. -/
def discards (x : Point) : Bool :=
  x.machine.contextAlive 0 && x.machine.regionDepth == 0 && x.machine.collectionDue false &&
    (x.machine.context? 0).any fun c =>
      (c.wrappers.any fun w => w.1 == .object 1 && x.machine.roots.all (· != w.2) &&
        x.machine.heap.slots.toList.all fun s => s.occupant.toList.all fun o => o.references.all (· != w.2)) &&
      x.machine.tables.classes.any fun e =>
        e.2.superclass.isNone && e.2.clash?.isSome && c.templates.all fun t => t.cls.id != e.2.id

/-- A registered wrapper is gone once the constructor of a class with a clash could not be set. -/
theorem wrapper_discarded : ∃ x ∈ points {} 0 discarding 3, ∃ K cls c r clash m', x.machine.Known K ∧
    x.machine.contextAlive 0 = true ∧ K.Has cls ∧ ¬cls.Exports ∧ x.machine.context? 0 = some c ∧
    (.object 1, r) ∈ c.wrappers ∧ (Scope.setClass 0 "B" cls).Throws x.machine (.dispatch (.ambiguousRename clash)) m' ∧
    ∀ c', m'.context? 0 = some c' → (.object 1, r) ∉ c'.wrappers := by
  obtain ⟨x, mem, is⟩ : ∃ x ∈ points {} 0 discarding 3, discards x = true := by decide +kernel
  simp only [discards, Bool.and_eq_true, List.any_eq_true, List.all_eq_true, beq_iff_eq, bne_iff_ne, Option.any_eq_true,
    Option.isSome_iff_exists, Option.isNone_iff_eq_none, Option.mem_toList] at is
  obtain ⟨⟨⟨alive, last⟩, due⟩, c, there, ⟨⟨key, r⟩, mem_w, ⟨rfl, unrooted⟩, unreferenced⟩, e, declared,
    ⟨top, clash, clashes⟩, absent⟩ := is
  obtain ⟨K, known⟩ := (lawful_points mem).machine
  have settled := settled_points mem
  have refused : e.2.Refused (x.machine.scopeContext ⟨0⟩).templates clash := by
    rw [Scope.scopeContext_of_context? there]
    have none (d : Class) : e.2.superclass ≠ some d := top ▸ (Option.some_ne_none d).symm
    exact .clashes absent (fun d super => absurd super (none d)) (Class.build_of_clash? clashes)
  refine ⟨x, mem, K, e.2, c, r, clash, _, known, alive, known.tables.classes e declared,
    Class.not_exports_of_clash? clashes, there, mem_w,
    Bridging.refused_collects (s := ⟨0⟩) alive refused last due "B", fun c' there' mem' => ?_⟩
  have collected : x.machine.collect.2.Settled := Action.settled_run (a := .collect) trivial settled
  obtain ⟨-, reached⟩ := (Machine.stands_collect settled.heap).1 ((collected.mem_wrappers there').1 mem')
  have apart : ¬x.machine.IsRoot r := fun root => unrooted r (Machine.mem_roots.2 root) rfl
  refine Heap.not_reaches apart (fun s slot o occupied refers => ?_) reached
  exact unreferenced s (Array.mem_toList_iff.2 slot) o occupied r refers rfl

end Session

end ScriptBridge
