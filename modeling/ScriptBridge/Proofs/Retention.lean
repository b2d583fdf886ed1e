import ScriptBridge.Proofs.Furnish
import ScriptBridge.Proofs.Release
import ScriptBridge.Proofs.Steps

/-!
# What stays when a class is bridged

Bridging a class gives a context further templates and takes nothing away. The end of the outermost region may run a
collection after that, which frees what nothing reaches.

* `Machine.Gathers`: what bridging adds. `Machine.Gathers.reaches`: whatever was reached still is.
* `Machine.Gathers.closeRegion`: what the end of a region leaves of it.
* `Machine.Retains`: contexts still have what they had, except for wrappers that are gone.
  `Machine.Gathers.retains`, `Machine.Sound.retains_collect`: what was added, and a collection, leave that.

Proof-only: not reachable from `ScriptBridge.Session.Run`.
-/

namespace ScriptBridge

/-! ## What bridging adds -/

/-- A context with further templates. -/
def Context.withTemplates (added : List Template) (c : Context) : Context :=
  { c with templates := added ++ c.templates }

/-- A machine with further templates in one context, and what they are made of. Nothing else is new but handles and
counts. -/
structure Machine.Gathers (m : Machine) (s : Scope) (added : List Template) (m' : Machine) : Prop where
  furnishes : m.Furnishes m'
  sound : ∀ waiting, m.Sound waiting → m'.Sound waiting
  rest : ∃ heap contexts collector more,
    m' = { m with heap, contexts, collector, regions := m.regions.modifyHead (Region.keep more) }
  contexts : ∀ i, m'.context? i = (m.context? i).map (if i = s.context then Context.withTemplates added else id)

namespace Machine.Gathers

variable {m m' m'' : Machine} {s : Scope} {added more : List Template} {c : Context} {i n : Nat} {r : Ref}

theorem refl (steady : m.Steady) : m.Gathers s [] m := by
  obtain ⟨more, regions⟩ := regions_of_eq (m := m) rfl
  refine ⟨.refl steady, fun _ sound => sound, ⟨m.heap, m.contexts, m.collector, more, ?_⟩, fun i => ?_⟩
  · rw [← regions]
  · have same : (if i = s.context then Context.withTemplates [] else id) = id := ite_self _
    rw [same, Option.map_id]
    rfl

theorem trans (first : m.Gathers s added m') (next : m'.Gathers s more m'') : m.Gathers s (more ++ added) m'' where
  furnishes := first.furnishes.trans next.furnishes
  sound waiting sound := next.sound waiting (first.sound waiting sound)
  rest := by
    obtain ⟨_, _, _, handles, rfl⟩ := first.rest
    obtain ⟨heap, contexts, collector, handles', rfl⟩ := next.rest
    rw [Region.modifyHead_keep]
    exact ⟨heap, contexts, collector, _, rfl⟩
  contexts i := by
    rw [next.contexts, first.contexts, Option.map_map]
    congr 1
    split
    · exact funext fun c => congrArg (fun templates => { c with templates }) (List.append_assoc ..).symm
    · rfl

theorem context (gathers : m.Gathers s added m') (there : m.context? s.context = some c) :
    m'.context? s.context = some (c.withTemplates added) := by
  rw [gathers.contexts, there, if_pos rfl]
  rfl

/-! ### Roots and what they reach -/

theorem alive (gathers : m.Gathers s added m') (alive : m.contextAlive i = true) : m'.contextAlive i = true :=
  (gathers.furnishes.alive i).trans alive

/-- A context keeps all that it has. -/
theorem exists_context (gathers : m.Gathers s added m') (there : m.context? i = some c) :
    ∃ c', m'.context? i = some c' ∧ c'.global = c.global ∧ c'.intrinsics = c.intrinsics ∧
      c'.templates = (if i = s.context then added else []) ++ c.templates ∧ c'.wrappers = c.wrappers := by
  refine ⟨_, (gathers.contexts i).trans (congrArg (Option.map _) there), ?_⟩
  split <;> exact ⟨rfl, rfl, rfl, rfl⟩

/-- Native objects live on. -/
theorem nativeLives (gathers : m.Gathers s added m') (lives : m.NativeLives n) : m'.NativeLives n := by
  have registry {k : Nat} (held : m.HeldByRegistry k) : m'.HeldByRegistry k := by
    obtain ⟨i, c, r, alive, there, mem⟩ := held
    obtain ⟨c', there', -, -, -, wrappers⟩ := gathers.exists_context there
    exact ⟨i, c', r, gathers.alive alive, there', wrappers ▸ mem⟩
  obtain ⟨living, here, held⟩ := lives
  refine ⟨living, here, fun k hk => ?_⟩
  obtain ⟨made, kept⟩ := held k hk
  obtain ⟨_, _, _, _, rfl⟩ := gathers.rest
  exact ⟨made, kept.imp_right (Or.imp_left registry)⟩

/-- What was a root is one. -/
theorem isRoot (gathers : m.Gathers s added m') (root : m.IsRoot r) : m'.IsRoot r := by
  have lives {n : Nat} : m.NativeLives n → m'.NativeLives n := gathers.nativeLives
  have alive {i : Nat} : m.contextAlive i = true → m'.contextAlive i = true := gathers.alive
  have objects := gathers.furnishes.objects
  have context {i : Nat} {c : Context} (there : m.context? i = some c) := gathers.exists_context there
  obtain ⟨_, _, _, handles, rfl⟩ := gathers.rest
  cases root with
  | handle mem handle =>
    obtain ⟨region, mem, handle⟩ := Region.exists_keep mem handle handles
    exact .handle mem handle
  | this mem is => exact .this mem is
  | callee mem => exact .callee mem
  | argument mem arg => exact .argument mem arg
  | persistent mem kept owned owner =>
    refine .persistent mem ?_ owned (lives owner)
    exact kept.imp_right (Or.imp_right fun ⟨owner, o, living, cell⟩ => ⟨owner, o, lives living, cell⟩)
  | global living there =>
    obtain ⟨c', there', global, -⟩ := context there
    exact global ▸ .global (alive living) there'
  | intrinsic living there mem =>
    obtain ⟨c', there', -, intrinsics, -⟩ := context there
    exact .intrinsic (alive living) there' (intrinsics ▸ mem)
  | constructor living there mem =>
    obtain ⟨c', there', -, -, templates, -⟩ := context there
    exact .constructor (alive living) there' (templates ▸ List.mem_append_right _ mem)
  | prototype living there mem =>
    obtain ⟨c', there', -, -, templates, -⟩ := context there
    exact .prototype (alive living) there' (templates ▸ List.mem_append_right _ mem)
  | wrapper living there mem ho own outside =>
    obtain ⟨c', there', -, -, -, wrappers⟩ := context there
    refine .wrapper (alive living) there' (wrappers ▸ mem) (objects _ _ ho) own ⟨outside.1, ?_⟩
    exact outside.2.imp_right fun ⟨owner, living, cell⟩ => ⟨owner, lives living, cell⟩

/-- What was reached is reached. -/
theorem reaches (gathers : m.Gathers s added m') (reached : m.heap.Reaches m.IsRoot r) :
    m'.heap.Reaches m'.IsRoot r := by
  refine reached.induct (fun r root => .root (gathers.isRoot root)) fun a b at_a edge => at_a.step ?_
  obtain ⟨o, ho, refers⟩ := edge
  exact ⟨o, gathers.furnishes.objects a o ho, refers⟩

/-! ### Regions -/

/-- A region that was opened for it may be left again. -/
theorem leave (steady : m.Steady) (alive : m.contextAlive i = true)
    (gathers : (m.enterRegion i).Gathers s added m') : m.Gathers s added m'.leaveRegion := by
  have entered (j : Nat) : (m.enterRegion i).contextAlive j = m.contextAlive j :=
    congrFun (contextAlive_enterRegion alive) j
  have counted (counted : m.Counted) : (m.enterRegion i).Counted :=
    ⟨congrArg (· + 1) counted.1, congrArg (i :: ·) counted.2⟩
  have opened : m.Furnishes (m.enterRegion i) := (Furnishes.refl steady).of_same rfl rfl rfl rfl entered counted
  have furnishes := opened.trans gathers.furnishes
  have sound (waiting : List WeakEntry) (before : m.Sound waiting) : m'.Sound waiting :=
    gathers.sound waiting (Action.sound_run (a := .openRegion i) alive nofun before)
  have contexts := gathers.contexts
  obtain ⟨heap, tables, collector, more, rfl⟩ := gathers.rest
  refine ⟨furnishes.of_same rfl rfl rfl rfl (fun j => (furnishes.alive j).symm) fun counted => ?_,
    fun waiting before => ?_, ?_, contexts⟩
  · exact ⟨Nat.succ.inj counted.1, (List.cons.inj counted.2).2⟩
  · have inside := sound waiting before
    refine inside.of_same rfl rfl rfl (fun j lives => inside.rooted j ((furnishes.alive j).trans lives)) ?_
    exact ⟨Nat.succ.inj inside.counted.1, (List.cons.inj inside.counted.2).2⟩
  · obtain ⟨none, regions⟩ := regions_of_eq (m := m) rfl
    refine ⟨heap, tables, collector, none, ?_⟩
    rw [← regions]
    rfl

/-- The end of the region leaves what was added. Where it is the outermost region, a collection may follow. -/
theorem closeRegion (steady : m.Steady) (alive : m.contextAlive i = true)
    (gathers : (m.enterRegion i).Gathers s added m') : ∃ m₁, m.Gathers s added m₁ ∧
      (m'.closeRegion false = m₁ ∨ m.regions = [] ∧ m'.closeRegion false = m₁.collect.2) := by
  have left := gathers.leave steady alive
  refine ⟨m'.leaveRegion, left, ?_⟩
  by_cases collects : (Action.closeRegion false).Collects m'
  · have lives : m'.leaveRegion.contextAlive i = true := (left.furnishes.alive i).trans alive
    obtain ⟨_, _, _, more, rfl⟩ := gathers.rest
    refine .inr ⟨?_, ?_⟩
    · obtain ⟨waiting, sound, -⟩ := steady
      exact List.eq_nil_of_length_eq_zero (sound.counted.1.symm.trans collects.2.1)
    · exact (Action.closeRegion_eq_collect rfl collects).trans (collect_holdContext lives)
  · exact .inl (Action.closeRegion_eq collects)

end Machine.Gathers

/-! ## What stays -/

/-- The objects that a context itself needs: its global object, its prototypes, and the constructors and prototypes of
the classes that are bridged into it. -/
def Context.anchors (c : Context) : List Ref :=
  c.global :: c.intrinsics.all ++ c.templates.flatMap fun t => [t.constructor, t.prototype]

/-- A context still has what it had, except for the entries of wrappers that are gone. -/
structure Context.Retained (m m' : Machine) (added : List Template) (c c' : Context) : Prop where
  global : c'.global = c.global
  intrinsics : c'.intrinsics = c.intrinsics
  templates : c'.templates = added ++ c.templates
  wrappers : ∀ key r, (key, r) ∈ c'.wrappers ↔ (key, r) ∈ c.wrappers ∧ m'.object? r = m.object? r

/-- All contexts still have what they had, with further templates in one of them, and living contexts have the objects
that they need. Nothing else is new but handles and counts; what else is gone a collection has freed. -/
structure Machine.Retains (m : Machine) (s : Scope) (added : List Template) (m' : Machine) : Prop where
  settled : m'.Settled
  rest : ∃ heap contexts weak collector more,
    m' = { m with heap, contexts, weak, collector, regions := m.regions.modifyHead (Region.keep more) }
  contexts : ∀ i,
    Option.Rel (Context.Retained m m' (if i = s.context then added else [])) (m.context? i) (m'.context? i)
  anchors : ∀ i c, m.contextAlive i = true → m.context? i = some c → ∀ r ∈ c.anchors, ∀ o,
    m.object? r = some o → m'.object? r = some o

namespace Machine

variable {m m' m'' : Machine} {s : Scope} {added more : List Template} {c c' : Context} {i : Nat} {r : Ref}
  {key : NativeKey}

theorem isRoot_of_anchor (alive : m.contextAlive i = true) (there : m.context? i = some c) (mem : r ∈ c.anchors) :
    m.IsRoot r := by
  simp only [Context.anchors, List.cons_append, List.mem_cons, List.mem_append, List.mem_flatMap, List.not_mem_nil,
    or_false] at mem
  rcases mem with rfl | intrinsic | ⟨t, mem, rfl | rfl⟩
  · exact .global alive there
  · exact .intrinsic alive there intrinsic
  · exact .constructor alive there mem
  · exact .prototype alive there mem

namespace Retains

theorem contextAlive (retains : m.Retains s added m') (i : Nat) : m'.contextAlive i = m.contextAlive i := by
  obtain ⟨_, _, _, _, more, rfl⟩ := retains.rest
  simp only [Machine.contextAlive]
  rw [any_context_keep]

theorem regions (retains : m.Retains s added m') : m'.regions = [] ↔ m.regions = [] := by
  obtain ⟨_, _, _, _, more, rfl⟩ := retains.rest
  cases m.regions <;> simp

theorem context (retains : m.Retains s added m') (there : m.context? i = some c) :
    ∃ c', m'.context? i = some c' ∧ Context.Retained m m' (if i = s.context then added else []) c c' := by
  have rel := retains.contexts i
  rw [there] at rel
  cases after : m'.context? i with
  | none => rw [after] at rel; nomatch rel
  | some c' =>
    rw [after] at rel
    cases rel with
    | some retained => exact ⟨c', rfl, retained⟩

theorem of_context (retains : m.Retains s added m') (there : m'.context? i = some c') :
    ∃ c, m.context? i = some c ∧ Context.Retained m m' (if i = s.context then added else []) c c' := by
  have rel := retains.contexts i
  rw [there] at rel
  cases before : m.context? i with
  | none => rw [before] at rel; nomatch rel
  | some c =>
    rw [before] at rel
    cases rel with
    | some retained => exact ⟨c, rfl, retained⟩

theorem trans (settled : m.Settled) (first : m.Retains s added m') (next : m'.Retains s more m'') :
    m.Retains s (more ++ added) m'' where
  settled := next.settled
  rest := by
    obtain ⟨_, _, _, _, handles, rfl⟩ := first.rest
    obtain ⟨heap, contexts, weak, collector, handles', rfl⟩ := next.rest
    rw [Region.modifyHead_keep]
    exact ⟨heap, contexts, weak, collector, _, rfl⟩
  contexts i := by
    cases there : m.context? i with
    | none =>
      cases after : m''.context? i with
      | none => exact .none
      | some c'' =>
        obtain ⟨c', there', -⟩ := next.of_context after
        obtain ⟨c, before, -⟩ := first.of_context there'
        rw [there] at before
        nomatch before
    | some c =>
      obtain ⟨c', there', kept⟩ := first.context there
      obtain ⟨c'', there'', kept'⟩ := next.context there'
      rw [there'']
      refine .some ⟨kept'.global.trans kept.global, kept'.intrinsics.trans kept.intrinsics, ?_, fun key r => ?_⟩
      · rw [kept'.templates, kept.templates]
        split
        · exact (List.append_assoc ..).symm
        · rfl
      · refine settled.mem_wrappers_iff next.settled there there'' fun stands => ?_
        obtain ⟨mem', same'⟩ := (kept'.wrappers key r).1 ((next.settled.mem_wrappers there'').2 stands)
        obtain ⟨mem, same⟩ := (kept.wrappers key r).1 mem'
        exact ⟨(settled.mem_wrappers there).1 mem, same'.trans same⟩
  anchors i c alive there r mem o ho := by
    obtain ⟨c', there', kept⟩ := first.context there
    have stays := first.anchors i c alive there r mem o ho
    refine next.anchors i c' ((first.contextAlive i).trans alive) there' r ?_ o stays
    unfold Context.anchors at mem ⊢
    rw [kept.global, kept.intrinsics, kept.templates, List.flatMap_append]
    rcases List.mem_append.1 mem with mem | mem
    · exact List.mem_append_left _ mem
    · exact List.mem_append_right _ (List.mem_append_right _ mem)

end Retains

/-- What bridging adds takes nothing away. -/
theorem Gathers.retains (settled : m.Settled) (gathers : m.Gathers s added m') : m.Retains s added m' where
  settled := gathers.sound [] settled
  rest := by
    obtain ⟨heap, contexts, collector, more, rfl⟩ := gathers.rest
    exact ⟨heap, contexts, m.weak, collector, more, rfl⟩
  contexts i := by
    cases there : m.context? i with
    | none =>
      have after : m'.context? i = none := (gathers.contexts i).trans (congrArg (Option.map _) there)
      rw [after]
      exact .none
    | some c =>
      obtain ⟨c', after, global, intrinsics, templates, wrappers⟩ := gathers.exists_context there
      rw [after]
      refine .some ⟨global, intrinsics, templates, fun key r => ?_⟩
      refine settled.mem_wrappers_iff (gathers.sound [] settled) there after fun stands => ?_
      have mem := ((gathers.sound [] settled).mem_wrappers after).2 stands
      obtain ⟨o, ho, twin⟩ := (settled.mem_wrappers there).1 (wrappers ▸ mem)
      exact ⟨⟨o, ho, twin⟩, (gathers.furnishes.objects r o ho).trans ho.symm⟩
  anchors i c _ _ r _ o ho := gathers.furnishes.objects r o ho

/-- A collection takes nothing from a context but the entries of wrappers that it frees. -/
theorem Sound.retains_collect (settled : m.Settled) : m.Retains s [] m.collect.2 where
  settled := Action.settled_run (a := .collect) trivial settled
  rest := by
    obtain ⟨heap, contexts, weak, collector, eq⟩ := m.collect_eq
    obtain ⟨more, regions⟩ := regions_of_eq (m := m) rfl
    refine ⟨heap, contexts, weak, collector, more, eq.trans ?_⟩
    rw [← regions]
  contexts i := by
    have collected : m.collect.2.Settled := Action.settled_run (a := .collect) trivial settled
    rw [ite_self]
    cases after : m.collect.2.context? i with
    | none =>
      have none : m.context? i = none := by
        unfold context? at after ⊢
        rw [Array.getElem?_eq_none_iff] at after ⊢
        exact m.size_contexts_collect ▸ after
      rw [none]
      exact .none
    | some c' =>
      obtain ⟨c, there, alike⟩ := context?_collect after
      rw [there]
      refine .some ⟨alike.global, alike.intrinsics, alike.templates, fun key r => ?_⟩
      refine settled.mem_wrappers_iff collected there after fun stands => ?_
      obtain ⟨⟨o, ho, twin⟩, reached⟩ := (stands_collect settled.heap).1 stands
      exact ⟨⟨o, ho, twin⟩, ((object?_collect settled.heap r o).2 ⟨ho, reached⟩).trans ho.symm⟩
  anchors i c alive there r mem o ho :=
    (object?_collect settled.heap r o).2 ⟨ho, .root (isRoot_of_anchor alive there mem)⟩

end Machine

end ScriptBridge
