import Mathlib.Data.List.Chain
import ScriptBridge.Proofs.Collection
import ScriptBridge.Proofs.Confined.Session
import ScriptBridge.Proofs.Stacks

/-!
# The steps of a run

The points of a run follow one another: nothing happens in between, or the action that comes next runs
(`Point.Follows`). What one step keeps a whole session keeps (`Session.points_induct`).

* `Action.object?_run`, `Action.context?_run`, `Action.contextAlive_run`: where objects and contexts were before an
  action that are there after it, a collection included.
* `Routine.passes`, `Job.passes`: the points of a run lead from its start to its end.
* `Point.Step`: one step of a session, by an action that takes care. `Point.Step.object?`, `Point.Step.context?`: where
  objects and living contexts come from.

Proof-only: not reachable from `ScriptBridge.Session.Run`.
-/

namespace ScriptBridge

/-! ## Before and after an action -/

/-- A context with other wrappers. -/
structure Context.Alike (c c' : Context) : Prop where
  global : c'.global = c.global
  intrinsics : c'.intrinsics = c.intrinsics
  templates : c'.templates = c.templates

namespace Machine

variable {m : Machine}

/-- Callbacks take entries of wrappers away, and nothing else. -/
theorem context?_foldl_dropWrapper {id : Nat} {c' : Context} {es : List WeakEntry}
    (after : (es.foldl dropWrapper m).context? id = some c') : ∃ c, m.context? id = some c ∧ c.Alike c' := by
  induction es generalizing m with
  | nil => exact ⟨c', after, rfl, rfl, rfl⟩
  | cons e es ih =>
    obtain ⟨d, dropped, alike⟩ := ih after
    rw [dropWrapper_eq, context?_modifyContext] at dropped
    split at dropped
    · obtain ⟨c, there, rfl⟩ := Option.map_eq_some_iff.1 dropped
      exact ⟨c, there, alike.global, alike.intrinsics, alike.templates⟩
    · exact ⟨d, dropped, alike⟩

theorem context?_collect {id : Nat} {c' : Context} (after : m.collect.2.context? id = some c') :
    ∃ c, m.context? id = some c ∧ c.Alike c' := by
  have after : (m.sweep.1.callbacks.foldl dropWrapper m.sweep.2).context? id = some c' := after
  obtain ⟨c, there, alike⟩ := context?_foldl_dropWrapper after
  rw [sweep_eq] at there
  exact ⟨c, there, alike⟩

theorem size_contexts_collect (m : Machine) : m.collect.2.contexts.size = m.contexts.size := by
  have dropped (es : List WeakEntry) : ∀ m : Machine, (es.foldl dropWrapper m).contexts.size = m.contexts.size := by
    induction es with
    | nil => exact fun _ => rfl
    | cons e es ih => exact fun m => (ih _).trans Array.size_modify
  refine (dropped m.sweep.1.callbacks m.sweep.2).trans ?_
  rw [sweep_eq]

/-- Closing a region leaves it, and perhaps collects while its context is kept. -/
theorem closeRegion_cases (m : Machine) (panicking : Bool) : m.closeRegion panicking = m.leaveRegion ∨
    ∃ region : Region, m.closeRegion panicking = (m.leaveRegion.holdContext region.context).collect.2.releaseContext := by
  by_cases collects : (Action.closeRegion panicking).Collects m
  · obtain ⟨region, rest, regions⟩ := List.exists_cons_of_ne_nil collects.1
    exact .inr ⟨region, Action.closeRegion_eq_collect regions collects⟩
  · exact .inl (Action.closeRegion_eq collects)

end Machine

namespace Action

variable {β : Type}

/-- The object that an action stores. -/
def stores? : Action β → Option Object
  | .allocate o => some o
  | .addWrapper _ _ o => some o
  | _ => none

/-- The template that an action enters, and the context. -/
def template? : Action β → Option (Nat × Template)
  | .addTemplate id t => some (id, t)
  | _ => none

variable {a : Action β} {m : Machine}

theorem eq_edit {r : Ref} {e : Edit} (edits : a.edit? = some (r, e)) :
    (⟨β, a⟩ : Σ β, Action β) = ⟨Unit, .edit r e⟩ := by
  cases a with
  | edit => cases edits; rfl
  | _ => exact (Option.some_ne_none _ edits.symm).elim

theorem eq_addTemplate {id : Nat} {t : Template} (enters : a.template? = some (id, t)) :
    (⟨β, a⟩ : Σ β, Action β) = ⟨Unit, .addTemplate id t⟩ := by
  cases a with
  | addTemplate => cases enters; rfl
  | _ => exact (Option.some_ne_none _ enters.symm).elim

/-- Where an object comes from that is there after an action. -/
theorem object?_run (heap : m.heap.Sound) {r : Ref} {o' : Object} (after : (a.run m).2.object? r = some o') :
    (∃ o, m.object? r = some o ∧ (o' = o ∨ ∃ e, a.edit? = some (r, e) ∧ o' = o.edit e)) ∨
      m.object? r = none ∧ a.stores? = some o' := by
  have same (eq : (a.run m).2.heap = m.heap) :
      ∃ o, m.object? r = some o ∧ (o' = o ∨ ∃ e, a.edit? = some (r, e) ∧ o' = o.edit e) := by
    rw [Machine.object?, eq] at after
    exact ⟨o', after, .inl rfl⟩
  have allocated {o : Object} (after : (m.allocate o).2.object? r = some o') (stores : a.stores? = some o) :
      (∃ o, m.object? r = some o ∧ (o' = o ∨ ∃ e, a.edit? = some (r, e) ∧ o' = o.edit e)) ∨
        m.object? r = none ∧ a.stores? = some o' := by
    rw [Machine.object?_allocate heap] at after
    split at after
    · rename_i new
      exact .inr ⟨new ▸ Machine.object?_new heap o, stores.trans after⟩
    · exact .inl ⟨o', after, .inl rfl⟩
  have side := a.run_nativeSide m
  cases a with
  | read | openRegion | beginCall | endCall | pushFrame | popFrame | position | addSource | openHold | closeHold
  | holdContext | releaseContext | addContext | addTemplate | addNative | addManaged | setOptions | setEvaluator
  | tables => exact .inl (same rfl)
  | track v =>
    obtain ⟨_, eq, -⟩ := run_track m v
    exact .inl (same (by rw [eq]))
  | hold | setCell | addOwner | removeOwner =>
    obtain ⟨_, _, _, eq⟩ := side rfl
    exact .inl (same (by rw [eq]))
  | allocate o => exact allocated after rfl
  | addWrapper id key o => exact allocated after rfl
  | edit q e =>
    have edited : (m.heap.edit q e).get? r = some o' := after
    rw [Heap.get?_edit] at edited
    split at edited
    · rename_i at_q
      subst at_q
      obtain ⟨o, there, rfl⟩ := Option.map_eq_some_iff.1 edited
      exact .inl ⟨o, there, .inr ⟨e, rfl, rfl⟩⟩
    · exact .inl ⟨o', edited, .inl rfl⟩
  | collect => exact .inl ⟨o', ((Machine.object?_collect heap r o').1 after).1, .inl rfl⟩
  | closeRegion panicking =>
    have after : (m.closeRegion panicking).object? r = some o' := after
    obtain left | ⟨region, collected⟩ := m.closeRegion_cases panicking
    · rw [left] at after
      exact .inl ⟨o', after, .inl rfl⟩
    · rw [collected] at after
      have heap : (m.leaveRegion.holdContext region.context).heap.Sound := heap
      exact .inl ⟨o', ((Machine.object?_collect heap r o').1 after).1, .inl rfl⟩

/-- An action leaves all objects that there are, or it collects in a machine with the same objects. -/
theorem grows_or_collects (heap : m.heap.Sound) : m.Grows (a.run m).2 ∨
    ∃ m' : Machine, m'.heap = m.heap ∧ (a.run m).2.heap = m'.collect.2.heap := by
  by_cases collects : a.Collects m
  · cases a with
    | collect => exact .inr ⟨m, rfl, rfl⟩
    | closeRegion panicking =>
      obtain ⟨region, rest, regions⟩ := List.exists_cons_of_ne_nil collects.1
      refine .inr ⟨m.leaveRegion.holdContext region.context, rfl, ?_⟩
      have eq : ((closeRegion panicking).run m).2 = _ := closeRegion_eq_collect regions collects
      rw [eq]
      rfl
    | _ => exact collects.elim
  · refine .inl ?_
    rcases (a.changes collects).heap with ⟨-, same⟩ | ⟨-, o, stored⟩ | ⟨r, e, -, edited⟩
    · exact .of_heap_eq same
    · have grows := Machine.grows_allocate heap o
      rw [Machine.allocate_eq] at grows
      exact grows.trans (.of_heap_eq stored)
    · exact (Machine.grows_edit m r e).trans (.of_heap_eq edited)

/-- What lived before an action lives after it if an object refers to it that is there then. -/
theorem isLive_run_of_refers (heap : m.heap.Sound) {r q : Ref} {o' : Object}
    (after : (a.run m).2.object? r = some o') (refers : o'.Refers q) (lived : m.heap.isLive q = true) :
    (a.run m).2.heap.isLive q = true := by
  rcases a.grows_or_collects heap with grows | ⟨m', same, collected⟩
  · exact grows.isLive lived
  · have heap' : m'.heap.Sound := same ▸ heap
    rw [Machine.object?, collected] at after
    rw [← same] at lived
    obtain ⟨there, reached⟩ := (Machine.object?_collect heap' r o').1 after
    obtain ⟨p, there'⟩ := Heap.isLive_iff.1 lived
    rw [collected]
    exact Heap.isLive_iff.2 ⟨p, (Machine.object?_collect heap' q p).2 ⟨there', reached.step ⟨o', there, refers⟩⟩⟩

/-- Where a context comes from that is there after an action. -/
theorem context?_run {id : Nat} {c' : Context} (after : (a.run m).2.context? id = some c') :
    m.context? id = none ∨ ∃ c, m.context? id = some c ∧
      (c.Alike c' ∨ ∃ t, a.template? = some (id, t) ∧ c' = Machine.withTemplate t c) := by
  have same (eq : (a.run m).2.contexts = m.contexts) : ∃ c, m.context? id = some c ∧
      (c.Alike c' ∨ ∃ t, a.template? = some (id, t) ∧ c' = Machine.withTemplate t c) := by
    rw [Machine.context?, eq] at after
    exact ⟨c', after, .inl ⟨rfl, rfl, rfl⟩⟩
  have side := a.run_nativeSide m
  cases a with
  | read | openRegion | beginCall | endCall | pushFrame | popFrame | position | addSource | openHold | closeHold
  | holdContext | releaseContext | edit | addNative | addManaged | setOptions | setEvaluator | tables =>
    exact .inr (same rfl)
  | track v =>
    obtain ⟨_, eq, -⟩ := run_track m v
    exact .inr (same (by rw [eq]))
  | hold | setCell | addOwner | removeOwner =>
    obtain ⟨_, _, _, eq⟩ := side rfl
    exact .inr (same (by rw [eq]))
  | allocate o => exact .inr ⟨c', (m.context?_allocate o id).symm.trans after, .inl ⟨rfl, rfl, rfl⟩⟩
  | addContext c =>
    have after : (m.contexts.push c)[id]? = some c' := after
    rw [Array.getElem?_push] at after
    split at after
    · rename_i new
      exact .inl (Array.getElem?_eq_none (Nat.le_of_eq new.symm))
    · exact .inr ⟨c', after, .inl ⟨rfl, rfl, rfl⟩⟩
  | addTemplate i t =>
    have after : (m.modifyContext i (Machine.withTemplate t)).context? id = some c' := after
    rw [Machine.context?_modifyContext] at after
    split at after
    · rename_i at_id
      subst at_id
      obtain ⟨c, there, rfl⟩ := Option.map_eq_some_iff.1 after
      exact .inr ⟨c, there, .inr ⟨t, rfl, rfl⟩⟩
    · exact .inr ⟨c', after, .inl ⟨rfl, rfl, rfl⟩⟩
  | addWrapper i key o =>
    let r := (m.allocate o).1
    have after : ((m.allocate o).2.modifyContext i (Machine.withWrapper key r)).context? id = some c' := after
    rw [Machine.context?_modifyContext, Machine.context?_allocate] at after
    split at after
    · obtain ⟨c, there, rfl⟩ := Option.map_eq_some_iff.1 after
      exact .inr ⟨c, there, .inl ⟨rfl, rfl, rfl⟩⟩
    · exact .inr ⟨c', after, .inl ⟨rfl, rfl, rfl⟩⟩
  | collect =>
    obtain ⟨c, there, alike⟩ := Machine.context?_collect after
    exact .inr ⟨c, there, .inl alike⟩
  | closeRegion panicking =>
    have after : (m.closeRegion panicking).context? id = some c' := after
    obtain left | ⟨region, collected⟩ := m.closeRegion_cases panicking
    · rw [left] at after
      exact .inr ⟨c', after, .inl ⟨rfl, rfl, rfl⟩⟩
    · rw [collected] at after
      obtain ⟨c, there, alike⟩ := Machine.context?_collect after
      exact .inr ⟨c, there, .inl alike⟩

/-- A context that lives after an action did so before, or it is new. -/
theorem contextAlive_run (proper : a.Proper m) {id : Nat} (after : (a.run m).2.contextAlive id = true) :
    m.contextAlive id = true ∨ ∃ c, (a.run m).2.context? id = some c ∧ c.Fresh (a.run m).2 := by
  have kept {m' : Machine} (after : m'.contextAlive id = true)
      (tables : ∀ entry ∈ m'.tables.contexts, m.contextAlive entry.2 = true)
      (regions : ∀ region ∈ m'.regions, m.contextAlive region.context = true)
      (holds : ∀ i ∈ m'.contextHolds, m.contextAlive i = true) : m.contextAlive id = true := by
    rcases Machine.contextAlive_iff.1 after with ⟨entry, mem, rfl⟩ | ⟨region, mem, rfl⟩ | held
    · exact tables entry mem
    · exact regions region mem
    · exact holds id held
  have named : ∀ entry ∈ m.tables.contexts, m.contextAlive entry.2 = true := fun entry mem =>
    Machine.contextAlive_iff.2 (.inl ⟨entry, mem, rfl⟩)
  have region {r : Region} (mem : r ∈ m.regions) : m.contextAlive r.context = true := Machine.contextAlive_region mem
  have held {i : Nat} (mem : i ∈ m.contextHolds) : m.contextAlive i = true := Machine.contextAlive_hold mem
  have left {r : Region} (mem : r ∈ m.regions.tail) : m.contextAlive r.context = true :=
    region (List.mem_of_mem_tail mem)
  have side := a.run_nativeSide m
  cases a with
  | read | beginCall | endCall | pushFrame | popFrame | position | addSource | openHold | closeHold | edit
  | addContext | addTemplate | addNative | addManaged | setOptions | setEvaluator => exact .inl after
  | track v =>
    cases v with
    | object r =>
      have after : (m.record r).contextAlive id = true := after
      rw [Machine.contextAlive_record] at after
      exact .inl after
    | undefined | null | bool | number | text => exact .inl after
  | hold | setCell | addOwner | removeOwner =>
    obtain ⟨_, _, _, eq⟩ := side rfl
    rw [eq] at after
    exact .inl after
  | allocate o => exact .inl ((m.contextAlive_allocate o id).symm.trans after)
  | addWrapper i key o => exact .inl ((m.contextAlive_allocate o id).symm.trans after)
  | openRegion i =>
    refine .inl (kept after named (fun r mem => ?_) fun i => held)
    rcases List.mem_cons.1 mem with rfl | mem
    · exact proper.legal
    · exact region mem
  | holdContext i =>
    refine .inl (kept after named (fun r => region) fun j mem => ?_)
    rcases List.mem_cons.1 mem with rfl | mem
    · exact proper.legal
    · exact held mem
  | releaseContext => exact .inl (kept after named (fun r => region) fun i mem => held (List.mem_of_mem_tail mem))
  | collect =>
    obtain ⟨_, _, _, _, eq⟩ := m.collect_eq
    have after : m.collect.2.contextAlive id = true := after
    rw [eq] at after
    exact .inl after
  | closeRegion panicking =>
    have after : (m.closeRegion panicking).contextAlive id = true := after
    obtain only | ⟨closed, collected⟩ := m.closeRegion_cases panicking
    · rw [only] at after
      exact .inl (kept after named (fun r => left) fun i => held)
    · obtain ⟨_, _, _, _, eq⟩ := (m.leaveRegion.holdContext closed.context).collect_eq
      rw [collected, eq] at after
      exact .inl (kept after named (fun r => left) fun i => held)
  | tables f =>
    rcases Machine.contextAlive_iff.1 after with ⟨entry, mem, rfl⟩ | lives
    · rcases proper.careful entry mem with alive | ⟨c, context, fresh⟩
      · exact .inl alive
      · exact .inr ⟨c, context, fresh.wrappers, fresh.templates, fresh.global, fresh.top⟩
    · exact .inl (Machine.contextAlive_iff.2 (.inr lives))

end Action

/-! ## The points of a run -/

/-- A point is followed by another one: nothing happens in between, or the action that comes next. -/
inductive Point.Follows (x y : Point) : Prop
  | stays (same : y.machine = x.machine)
  | acts {β : Type} {a : Action β} (next : x.next = some ⟨β, a⟩) (ran : y.machine = (a.run x.machine).2)

/-- Points that follow one another, from a machine to another one. -/
structure Passes (m m' : Machine) (points : List Point) : Prop where
  chain : points.IsChain Point.Follows
  first : points.head?.map Point.machine = some m
  last : points.getLast?.map Point.machine = some m'

namespace Passes

variable {m m₁ m₂ : Machine} {points points' : List Point}

theorem single (m : Machine) (jobs : List AnyJob) (next : Option (Σ β, Action β)) : Passes m m [⟨m, jobs, next⟩] :=
  ⟨.singleton _, rfl, rfl⟩

theorem append (passes : Passes m m₁ points) (passes' : Passes m₁ m₂ points') : Passes m m₂ (points ++ points') := by
  refine ⟨List.isChain_append.2 ⟨passes.chain, passes'.chain, fun x last y first => .stays ?_⟩, ?_, ?_⟩
  · have ends := passes.last
    have starts := passes'.first
    rw [Option.mem_def.1 last] at ends
    rw [Option.mem_def.1 first] at starts
    exact (Option.some.inj starts).trans (Option.some.inj ends).symm
  · obtain ⟨x, first, starts⟩ := Option.map_eq_some_iff.1 passes.first
    rw [List.head?_append, first]
    exact congrArg some starts
  · obtain ⟨x, last, ends⟩ := Option.map_eq_some_iff.1 passes'.last
    rw [List.getLast?_append, last]
    exact congrArg some ends

/-- An action before other points. -/
theorem act {β : Type} {a : Action β} (jobs : List AnyJob) (passes : Passes (a.run m).2 m₁ points) :
    Passes m m₁ (⟨m, jobs, some ⟨β, a⟩⟩ :: points) := by
  obtain ⟨y, first, starts⟩ := Option.map_eq_some_iff.1 passes.first
  obtain ⟨rest, rfl⟩ := List.head?_eq_some_iff.1 first
  exact ⟨.cons_cons (.acts rfl starts) passes.chain, rfl, passes.last⟩

end Passes

/-- The points of a run of a routine lead from its start to its end, if those of jobs do. -/
theorem Routine.passes {ε α : Type} {job : {β : Type} → Job β → Machine → Outcome Empty β × Machine}
    {points : {β : Type} → Job β → Machine → List Point}
    (jobs : ∀ {β : Type} (j : Job β) (m : Machine), Passes m (job j m).2 (points j m)) (underWay : List AnyJob)
    (r : Routine ε α) (m : Machine) : Passes m (r.exec job m).2 (r.points job points underWay m) := by
  induction r generalizing m with
  | pure a => exact .single m underWay none
  | throw e => exact .single m underWay none
  | panic payload => exact .single m underWay none
  | act a next ih => exact (ih _ _).act underWay
  | enter j next ih =>
    have inner := jobs j m
    unfold exec Routine.points
    rcases out : job j m with ⟨outcome, m'⟩
    rw [out] at inner
    cases outcome with
    | done b => exact inner.append (ih (.ok b) m')
    | thrown e => exact e.elim
    | panicked p => exact inner.append (ih (.error p) m')
    | exhausted => exact inner.append (.single m' underWay none)

/-- The points of a run of a job lead from its start to its end, however deep it is. -/
theorem Job.passes {routine : {β : Type} → Job β → Routine Empty β} (depth : Nat) (underWay : List AnyJob) {β : Type}
    (j : Job β) (m : Machine) : Passes m (Job.exec routine depth j m).2 (Job.points routine depth underWay j m) := by
  induction depth generalizing underWay β m with
  | zero => exact .single m _ none
  | succ depth ih => exact Routine.passes (fun j m => ih _ j m) _ (routine j) m

/-! ## The steps of a session -/

/-- One step of a session, by an action that is proper between collections. -/
structure Point.Step (x y : Point) : Prop where
  follows : x.Follows y
  settled : x.machine.Settled
  proper : ∀ {β : Type} {a : Action β}, x.next = some ⟨β, a⟩ → a.Proper x.machine

namespace Point.Step

variable {x y : Point} {r : Ref} {o o' : Object}

/-- Where an object comes from that is there after a step: it was there before, perhaps edited since, or it was
stored. -/
theorem object? (step : x.Step y) (after : y.machine.object? r = some o') :
    (∃ o, x.machine.object? r = some o ∧
        (o' = o ∨ ∃ e, x.next = some ⟨Unit, .edit r e⟩ ∧ (Action.edit r e).Careful x.machine ∧ o' = o.edit e)) ∨
      x.machine.object? r = none ∧
        ∃ (β : Type) (a : Action β), x.next = some ⟨β, a⟩ ∧ a.Proper x.machine ∧ a.stores? = some o' := by
  obtain ⟨same⟩ | ⟨next, ran⟩ := step.follows
  · exact .inl ⟨o', same ▸ after, .inl rfl⟩
  · have proper := step.proper next
    rw [ran] at after
    rcases Action.object?_run step.settled.heap after with ⟨o, there, became⟩ | ⟨absent, stores⟩
    · refine .inl ⟨o, there, became.imp_right fun ⟨e, edits, is⟩ => ?_⟩
      have edit := next.trans (congrArg some (Action.eq_edit edits))
      exact ⟨e, edit, (step.proper edit).careful, is⟩
    · exact .inr ⟨absent, _, _, next, proper, stores⟩

/-- What became of an object that is there before and after a step. -/
theorem object?_of_lives (step : x.Step y) (before : x.machine.object? r = some o)
    (after : y.machine.object? r = some o') :
    o' = o ∨ ∃ e, x.next = some ⟨Unit, .edit r e⟩ ∧ (Action.edit r e).Careful x.machine ∧ o' = o.edit e := by
  rcases step.object? after with ⟨p, there, became⟩ | ⟨absent, -⟩
  · obtain rfl : o = p := Option.some.inj (before.symm.trans there)
    exact became
  · exact absurd (before.symm.trans absent) nofun

/-- What an object refers to lives on with it. -/
theorem isLive_of_refers (step : x.Step y) {q : Ref} (after : y.machine.object? r = some o') (refers : o'.Refers q)
    (lived : x.machine.heap.isLive q = true) : y.machine.heap.isLive q = true := by
  obtain ⟨same⟩ | ⟨-, ran⟩ := step.follows
  · rwa [same]
  · rw [ran] at after ⊢
    exact Action.isLive_run_of_refers step.settled.heap after refers lived

/-- Functions do what they did. -/
theorem function? (step : x.Step y) (before : x.machine.object? r = some o) (after : y.machine.object? r = some o') :
    o'.function? = o.function? := by
  rcases step.object?_of_lives before after with rfl | ⟨e, -, -, rfl⟩
  · rfl
  · exact o.function?_edit e

/-- Where a context comes from that lives after a step: it is new, or it lived before, with other wrappers perhaps or
without a template that it took since. -/
theorem context? (step : x.Step y) {id : Nat} {c' : Context} (alive : y.machine.contextAlive id = true)
    (after : y.machine.context? id = some c') : c'.Fresh y.machine ∨ x.machine.contextAlive id = true ∧
      ∃ c, x.machine.context? id = some c ∧ c.Rooted x.machine id ∧
        (c.Alike c' ∨ ∃ t, x.next = some ⟨Unit, .addTemplate id t⟩ ∧ c.Takes x.machine t ∧
          c' = Machine.withTemplate t c) := by
  obtain ⟨same⟩ | ⟨next, ran⟩ := step.follows
  · rw [same] at alive after
    obtain ⟨c, there, rooted⟩ := step.settled.rooted id alive
    obtain rfl : c = c' := Option.some.inj (there.symm.trans after)
    exact .inr ⟨alive, c, there, rooted, .inl ⟨rfl, rfl, rfl⟩⟩
  · rw [ran] at alive after
    rcases Action.contextAlive_run (step.proper next) alive with lived | ⟨c, there, fresh⟩
    · obtain ⟨c, there, rooted⟩ := step.settled.rooted id lived
      refine .inr ⟨lived, c, there, rooted, ?_⟩
      rcases Action.context?_run after with absent | ⟨d, there', became⟩
      · exact absurd (there.symm.trans absent) nofun
      · obtain rfl : c = d := Option.some.inj (there.symm.trans there')
        refine became.imp_right fun ⟨t, enters, is⟩ => ?_
        have next := next.trans (congrArg some (Action.eq_addTemplate enters))
        exact ⟨t, next, (step.proper next).careful c there, is⟩
    · obtain rfl : c = c' := Option.some.inj (there.symm.trans after)
      exact .inl (ran ▸ fresh)

end Point.Step

namespace Session

variable {options : Options} {now : Int} {steps : List Program.Step} {depth : Nat} {x y : Point} {before after : List Point}

/-- The points of a session lead on from a new machine. -/
theorem passes (options : Options) (now : Int) (steps : List Program.Step) (depth : Nat) :
    ∃ m, Passes { options, now } m (points options now steps depth) :=
  ⟨_, Routine.passes (fun j m => Job.passes depth [] j m) [] _ _⟩

theorem step_points (split : points options now steps depth = before ++ x :: y :: after) : x.Step y := by
  obtain ⟨m, passes⟩ := passes options now steps depth
  have mem : x ∈ points options now steps depth := split ▸ List.mem_append_right _ List.mem_cons_self
  have follows := List.isChain_iff_forall_rel_of_append_cons_cons.1 passes.chain split
  exact ⟨follows, settled_points mem, (after_points mem).proper⟩

/-- What holds at the start and is kept by each step holds at every point of a session. It may speak of the points
that were passed. -/
theorem points_induct {P : List Point → Machine → Prop} (start : P [] { options, now })
    (step : ∀ before x y after, points options now steps depth = before ++ x :: y :: after → x.Step y →
      P before x.machine → P (before ++ [x]) y.machine)
    (split : points options now steps depth = before ++ x :: after) : P before x.machine := by
  induction before using List.reverseRecOn generalizing x after with
  | nil =>
    obtain ⟨m, passes⟩ := passes options now steps depth
    have first := passes.first
    rw [split] at first
    exact Option.some.inj first ▸ start
  | append_singleton before z ih =>
    have split : points options now steps depth = before ++ z :: x :: after := by
      rw [split, List.append_assoc, List.singleton_append]
    exact step before z x after split (step_points split) (ih split)

end Session

end ScriptBridge
