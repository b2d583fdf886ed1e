import ScriptBridge.Bridge.Exception
import ScriptBridge.Proofs.Wp

/-!
# Routines that keep order

A routine keeps order if it leaves the regions, calls, frames and kept contexts as they were, but for
handles that the innermost region got meanwhile and the position of the innermost frame, and runs its
actions where they are proper.

* `Machine.Recorded v`: an object that the innermost region keeps reachable, or no object at all.
* `Routine.Gives s m Q`: in the scope `s` the routine keeps order from `m` on, `Q` holds of its result,
  and what it throws is recorded. `Routine.Tidy` asks nothing of the result. `Routine.GivesAs` also says
  whether the position of the innermost frame stays.
* `GivesAs.bind`, `GivesFrom.attempt`, `GivesAs.inRegion` and so on: the rules, one for each way to build a
  routine. `Routine.GivesFrom` leaves open what was open further out, as the rule for calls needs.

Proof-only: not reachable from `ScriptBridge.Session.Run`.
-/

namespace ScriptBridge

/-! ## Order -/

/-- A frame at another position, if there is one. -/
def Frame.moved (place : Option (Nat × Nat)) (f : Frame) : Frame :=
  match place with
  | none => f
  | some (line, column) => { f with line, column }

@[simp] theorem Frame.evaluated_moved (place : Option (Nat × Nat)) (f : Frame) :
    (f.moved place).evaluated = f.evaluated := by
  cases place <;> rfl

namespace Machine

variable {m m' m'' : Machine}

/-- What order is about. -/
def order (m : Machine) : List Region × List Nat × Nat × Stack CallRecord × Stack Frame × List Nat :=
  (m.regions, m.current, m.regionDepth, m.calls, m.frames, m.contextHolds)

/-- The same regions, calls, frames and kept contexts; the innermost region may have got further handles,
and the innermost frame another position. -/
structure Balanced (m m' : Machine) : Prop where
  regions : ∃ more, m'.regions = m.regions.modifyHead (Region.keep more)
  current : m'.current = m.current
  regionDepth : m'.regionDepth = m.regionDepth
  calls : m'.calls = m.calls
  frames : ∃ place, m'.frames = m.frames.mapTop (Frame.moved place)
  contextHolds : m'.contextHolds = m.contextHolds

/-- The same, where the innermost frame may have to stay as it is. -/
structure Kept (still : Bool) (m m' : Machine) : Prop extends Balanced m m' where
  place : still = true → m'.frames = m.frames

variable {still : Bool}

/-- Only the innermost region got handles. -/
theorem Kept.of_handles (more : List Ref)
    (same : m'.order = { m with regions := m.regions.modifyHead (Region.keep more) }.order) : m.Kept still m' := by
  simp only [order, Prod.mk.injEq] at same
  obtain ⟨regions, current, regionDepth, calls, frames, contextHolds⟩ := same
  exact ⟨⟨⟨more, regions⟩, current, regionDepth, calls, ⟨none, frames.trans (Stack.mapTop_id m.frames).symm⟩,
    contextHolds⟩, fun _ => frames⟩

theorem kept_record (m : Machine) (r : Ref) : m.Kept still (m.record r) := by
  rw [record_eq]
  exact .of_handles [r] rfl

theorem kept_allocate (m : Machine) (o : Object) : m.Kept still (m.allocate o).2 := by
  rw [allocate_eq]
  exact .of_handles [(m.heap.allocate o).1] rfl

/-- Nothing changed that order is about. -/
theorem Kept.of_order (same : m'.order = m.order) : m.Kept still m' := by
  obtain ⟨more, regions⟩ := regions_of_eq (m := m) rfl
  refine .of_handles more (same.trans ?_)
  unfold order
  rw [← regions]

theorem Kept.refl (m : Machine) : m.Kept still m := .of_order rfl

theorem Balanced.refl (m : Machine) : m.Balanced m :=
  have kept : m.Kept false m := .refl m
  kept.toBalanced

theorem Balanced.kept (balanced : m.Balanced m') : m.Kept false m' := ⟨balanced, nofun⟩

theorem Balanced.trans (first : m.Balanced m') (next : m'.Balanced m'') : m.Balanced m'' := by
  obtain ⟨more, regions⟩ := first.regions
  obtain ⟨more', regions'⟩ := next.regions
  obtain ⟨place, frames⟩ := first.frames
  obtain ⟨place', frames'⟩ := next.frames
  refine ⟨⟨more' ++ more, ?_⟩, next.current.trans first.current, next.regionDepth.trans first.regionDepth,
    next.calls.trans first.calls, ⟨place'.or place, ?_⟩, next.contextHolds.trans first.contextHolds⟩
  · rw [regions', regions, Region.modifyHead_keep]
  · rw [frames', frames, Stack.mapTop_mapTop]
    congr 1
    cases place' <;> cases place <;> rfl

theorem Kept.trans (first : m.Kept still m') (next : m'.Kept still m'') : m.Kept still m'' :=
  ⟨first.toBalanced.trans next.toBalanced, fun h => (next.place h).trans (first.place h)⟩

theorem Balanced.depth (balanced : m.Balanced m') : m'.depth = m.depth := by
  obtain ⟨more, regions⟩ := balanced.regions
  unfold Machine.depth
  rw [regions, balanced.calls, List.length_modifyHead]

/-- An open region belongs to the scope, if there is one; regions of other contexts may be open within.
Calls are open in regions only. -/
def Inside (m : Machine) (s : Option Scope) : Prop :=
  (∀ x, s = some x → ∃ region ∈ m.regions, region.context = x.context) ∧
    (m.regions = [] → m.calls.items = [])

theorem inside_of_mem (region : Region) (mem : region ∈ m.regions) : m.Inside (some ⟨region.context⟩) :=
  ⟨fun _ hx => ⟨region, mem, Option.some.inj hx ▸ rfl⟩, fun none => nomatch none ▸ mem⟩

theorem Inside.regions_ne_nil {s : Scope} (inside : m.Inside (some s)) : m.regions ≠ [] := by
  obtain ⟨region, mem, -⟩ := inside.1 s rfl
  exact List.ne_nil_of_mem mem

theorem Balanced.inside {s : Option Scope} (balanced : m.Balanced m') (inside : m.Inside s) : m'.Inside s := by
  obtain ⟨more, regions⟩ := balanced.regions
  refine ⟨fun x hx => ?_, fun none => ?_⟩
  · obtain ⟨region, mem, context⟩ := inside.1 x hx
    rw [regions]
    cases hm : m.regions with
    | nil =>
      rw [hm] at mem
      nomatch mem
    | cons first rest =>
      rw [hm] at mem
      rcases List.mem_cons.1 mem with rfl | mem
      · exact ⟨region.keep more, List.mem_cons_self, context⟩
      · exact ⟨region, List.mem_cons_of_mem _ mem, context⟩
  · rw [balanced.calls]
    refine inside.2 (List.eq_nil_of_length_eq_zero ?_)
    rw [← List.length_modifyHead (f := Region.keep more), ← regions, none]
    rfl

/-- The innermost region keeps the object reachable, if it is one. -/
def Recorded (m : Machine) (v : Value) : Prop :=
  ∀ r, v = .object r → ∃ region ∈ m.regions.head?, r ∈ region.handles

theorem Recorded.of_regions {v : Value} (recorded : m.Recorded v) (regions : m'.regions = m.regions) :
    m'.Recorded v := by
  intro r hr
  rw [regions]
  exact recorded r hr

theorem recorded_of_not_object {v : Value} (plain : v.isObject = false) : m.Recorded v := by
  rintro r rfl
  nomatch plain

theorem Recorded.mono {v : Value} (recorded : m.Recorded v) (balanced : m.Balanced m') : m'.Recorded v := by
  intro r hr
  obtain ⟨region, head, mem⟩ := recorded r hr
  obtain ⟨more, regions⟩ := balanced.regions
  refine ⟨region.keep more, ?_, List.mem_append_right _ mem⟩
  rw [regions]
  cases hm : m.regions with
  | nil => simp [hm] at head
  | cons first rest =>
    obtain rfl : first = region := by simpa [hm] using head
    rfl

theorem Inside.contextAlive {s : Scope} (inside : m.Inside (some s)) : m.contextAlive s.context = true := by
  obtain ⟨region, mem, context⟩ := inside.1 s rfl
  rw [← context]
  exact contextAlive_region mem

end Machine

/-! ## What is thrown -/

/-- The script value that a failure carries, if it carries one. -/
class Carries (ε : Type) where
  value? : ε → Option Value

instance : Carries Thrown where
  value? t := some t.value

instance : Carries Fault where
  value?
    | .thrown t => some t.value
    | .error _ => none

instance : Carries BridgeError where
  value? _ := none

instance : Carries Empty where
  value? _ := none

/-- What a failure carries is recorded. -/
def Machine.RecordedIn {ε : Type} [Carries ε] (m : Machine) (e : ε) : Prop :=
  ∀ v, Carries.value? e = some v → m.Recorded v

/-! ## The judgement -/

/-- The scope that a job runs in. -/
def Job.scope? {β : Type} : Job β → Option Scope
  | .call _ context _ => some ⟨context⟩
  | .perform .. | .make .. => none
  | .evaluate _ context => some ⟨context⟩

/-- Jobs keep order. -/
def orderly : Contract where
  ready j m := m.Settled ∧ m.Inside j.scope?
  ended _ m _ m' := m'.Settled ∧ m.Balanced m'

/-- What holds of the ends of a routine that keeps order. -/
def Ends {ε α : Type} [Carries ε] (still : Bool) (m : Machine) (Q : α → Machine → Prop) : Post ε α where
  done a m' := m'.Settled ∧ m.Kept still m' ∧ Q a m'
  thrown e m' := m'.Settled ∧ m.Kept still m' ∧ m'.RecordedIn e
  panicked m' := m'.Settled ∧ m.Kept still m'

/-- The ends after two parts of a routine. -/
theorem Ends.after {ε α : Type} [Carries ε] {still : Bool} {m m₁ : Machine} {Q : α → Machine → Prop} {r : Routine ε α}
    {d : Depth} (kept : m.Kept still m₁) (rest : r.wp orderly d (Ends still m₁ Q) m₁) :
    r.wp orderly d (Ends still m Q) m₁ := by
  refine Routine.wp_mono rest (Depth.le_refl d) ?_ ?_ ?_
  · rintro a m₂ ⟨settled, kept', ha⟩
    exact ⟨settled, kept.trans kept', ha⟩
  · rintro e m₂ ⟨settled, kept', he⟩
    exact ⟨settled, kept.trans kept', he⟩
  · rintro m₂ ⟨settled, kept'⟩
    exact ⟨settled, kept.trans kept'⟩

namespace Routine

variable {ε ε' α β : Type} [Carries ε] [Carries ε'] {d : Depth} {still : Bool} {s : Option Scope} {m : Machine}
  {Q : α → Machine → Prop} {R : β → Machine → Prop}

/-- In a scope the routine keeps order from the machine on, with a property of its result, and leaves open
what is open at a depth. -/
def GivesFrom (d : Depth) (still : Bool) (r : Routine ε α) (s : Option Scope) (m : Machine)
    (Q : α → Machine → Prop) : Prop :=
  m.Settled → m.Inside s → r.wp orderly d (Ends still m Q) m

/-- In a scope the routine keeps order from the machine on, perhaps with the position of the innermost frame,
with a property of its result. -/
abbrev GivesAs (still : Bool) (r : Routine ε α) (s : Option Scope) (m : Machine) (Q : α → Machine → Prop) : Prop :=
  r.GivesFrom m.depth still s m Q

/-- In a scope the routine keeps order from the machine on, with a property of its result. -/
abbrev Gives (r : Routine ε α) (s : Option Scope) (m : Machine) (Q : α → Machine → Prop) : Prop :=
  r.GivesAs false s m Q

/-- In a scope the routine keeps order from the machine on, perhaps with the position of the innermost frame. -/
abbrev TidyAs (still : Bool) (r : Routine ε α) (s : Option Scope) (m : Machine) : Prop :=
  r.GivesAs still s m fun _ _ => True

/-- In a scope the routine keeps order from the machine on. -/
abbrev Tidy (r : Routine ε α) (s : Option Scope) (m : Machine) : Prop := r.TidyAs false s m

namespace GivesFrom

theorem pure {a : α} (h : Q a m) : (Pure.pure a : Routine ε α).GivesFrom d still s m Q :=
  fun settled _ => ⟨settled, .refl m, h⟩

theorem ret {a : α} : (Pure.pure a : Routine ε α).GivesFrom d still s m fun _ _ => True := pure trivial

theorem throw {e : ε} (h : m.RecordedIn e) : (Routine.throw e : Routine ε α).GivesFrom d still s m Q :=
  fun settled _ => ⟨settled, .refl m, h⟩

theorem panic {payload : Option String} : (Routine.panic payload : Routine ε α).GivesFrom d still s m Q :=
  fun settled _ => ⟨settled, .refl m⟩

/-- Less may be left open. -/
theorem mono {r : Routine ε α} {d' : Depth} (h : r.GivesFrom d still s m Q) (le : d' ≤ d) :
    r.GivesFrom d' still s m Q :=
  fun settled inside => wp_mono (h settled inside) le (fun _ _ h => h) (fun _ _ h => h) fun _ h => h

/-- A stronger property of the result, with what holds of every routine that keeps order. -/
theorem imp {r : Routine ε α} {Q' : α → Machine → Prop} (h : r.GivesFrom d still s m Q)
    (weaker : ∀ a m', m.Balanced m' → Q a m' → Q' a m') : r.GivesFrom d still s m Q' := by
  intro settled inside
  refine wp_mono (h settled inside) (Depth.le_refl d) ?_ (fun _ _ h => h) (fun _ h => h)
  rintro a m' ⟨settled', kept, ha⟩
  exact ⟨settled', kept, weaker a m' kept.toBalanced ha⟩

theorem tidy {r : Routine ε α} (h : r.GivesFrom d still s m Q) : r.GivesFrom d still s m fun _ _ => True :=
  h.imp fun _ _ _ _ => trivial

theorem bind {x : Routine ε α} {f : α → Routine ε β} (first : x.GivesFrom d still s m Q)
    (next : ∀ a m₁, m.Balanced m₁ → Q a m₁ → (f a).GivesFrom d still s m₁ R) :
    (x >>= f).GivesFrom d still s m R := by
  intro settled inside
  refine wp_bind (wp_mono (first settled inside) (Depth.le_refl d) ?_ (fun _ _ h => h) (fun _ h => h))
  rintro a m₁ ⟨settled₁, kept, ha⟩
  exact Ends.after kept (next a m₁ kept.toBalanced ha settled₁ (kept.toBalanced.inside inside))

/-- A job. A function runs in a call that was begun before. -/
theorem enter {j : Job β} {next : Except Panic β → Routine ε α} (le : d ≤ m.depth)
    (call : j.isCall = true → d.calls < m.calls.items.length) (scope : ∀ x, j.scope? = some x → s = some x)
    (rest : ∀ result m', m.Balanced m' → (next result).GivesFrom d false s m' Q) :
    (Routine.enter j next).GivesFrom d false s m Q := by
  intro settled inside
  refine ⟨⟨settled, fun x hx => inside.1 x (scope x hx), inside.2⟩, call, fun result m' ended => ?_⟩
  obtain ⟨settled', balanced⟩ := ended
  have above : m'.Above m.depth := by
    rw [← balanced.depth]
    exact m'.above_depth
  exact ⟨above.mono le, Ends.after balanced.kept (rest result m' balanced settled' (balanced.inside inside))⟩

/-! ### Failures -/

theorem attempt {r : Routine ε α} (h : r.GivesFrom d still s m Q) :
    (r.attempt : Routine ε' (Except ε α)).GivesFrom d still s m fun result m' =>
      match result with
      | .ok a => Q a m'
      | .error e => m'.RecordedIn e :=
  fun settled inside => wp_attempt (h settled inside)

theorem mapError {r : Routine ε α} {f : ε → ε'} (h : r.GivesFrom d still s m Q)
    (carries : ∀ e v, Carries.value? (f e) = some v → Carries.value? e = some v) :
    (r.mapError f).GivesFrom d still s m Q := by
  intro settled inside
  refine wp_mapError (wp_mono (h settled inside) (Depth.le_refl d) (fun _ _ h => h) ?_ (fun _ h => h))
  rintro e m' ⟨settled', kept, he⟩
  exact ⟨settled', kept, fun v hv => he v (carries e v hv)⟩

/-! ### Brackets -/

/-- A routine between an opening and a closing action. -/
theorem bracket {opening : Action Unit} {closing : Bool → Action Unit} {r : Routine ε α} (inner : Option Scope)
    (innerStill : Bool) {P : α → Machine → Prop} (le : d ≤ m.depth) (deeper : d ≤ (opening.run m).2.depth)
    (proper : opening.Proper m) (entered : m.Inside s → (opening.run m).2.Inside inner)
    (close : m.Inside s → ∀ m' panicking, (opening.run m).2.Kept innerStill m' →
      (closing panicking).Proper m' ∧ m.Kept still ((closing panicking).run m').2)
    (done : ∀ a m', P a m' → Q a ((closing false).run m').2)
    (thrown : ∀ (e : ε) m', m'.RecordedIn e → ((closing false).run m').2.RecordedIn e)
    (body : r.GivesFrom d innerStill inner (opening.run m).2 P) :
    (act opening fun _ => r.ensuring closing).GivesFrom d still s m Q := by
  intro settled inside
  have settled₁ := opening.settled_run proper.legal settled
  have closed (m' : Machine) (panicking : Bool) (kept : (opening.run m).2.Kept innerStill m') (settled' : m'.Settled) :
      (closing panicking).Proper m' ∧ ((closing panicking).run m').2.Above d ∧
        ((closing panicking).run m').2.Settled ∧ m.Kept still ((closing panicking).run m').2 := by
    obtain ⟨proper', kept'⟩ := close inside m' panicking kept
    refine ⟨proper', ?_, (closing panicking).settled_run proper'.legal settled', kept'⟩
    rw [← kept'.toBalanced.depth] at le
    exact (Machine.above_depth _).mono le
  refine ⟨proper, (Machine.above_depth _).mono deeper, wp_ensuring ?_⟩
  refine wp_mono (body settled₁ (entered inside)) (Depth.le_refl d) ?_ ?_ ?_
  · rintro a m' ⟨settled', kept, ha⟩
    obtain ⟨proper', above, settled'', kept'⟩ := closed m' false kept settled'
    exact ⟨proper', above, settled'', kept', done a m' ha⟩
  · rintro e m' ⟨settled', kept, he⟩
    obtain ⟨proper', above, settled'', kept'⟩ := closed m' false kept settled'
    exact ⟨proper', above, settled'', kept', thrown e m' he⟩
  · rintro m' ⟨settled', kept⟩
    obtain ⟨proper', above, settled'', kept'⟩ := closed m' true kept settled'
    exact ⟨proper', above, settled'', kept'⟩

end GivesFrom

namespace GivesAs

theorem bind {x : Routine ε α} {f : α → Routine ε β} (first : x.GivesAs still s m Q)
    (next : ∀ a m₁, m.Balanced m₁ → Q a m₁ → (f a).GivesAs still s m₁ R) : (x >>= f).GivesAs still s m R :=
  GivesFrom.bind first fun a m₁ balanced ha => balanced.depth ▸ next a m₁ balanced ha

theorem map {x : Routine ε α} {f : α → β} (h : x.GivesAs still s m fun a m' => R (f a) m') :
    (f <$> x).GivesAs still s m R := h.bind fun _ _ _ ha => .pure ha

theorem mapTidy {x : Routine ε α} {f : α → β} (h : x.TidyAs still s m) :
    (f <$> x).TidyAs still s m := h.bind fun _ _ _ _ => .ret

/-! ### Actions and jobs -/

theorem perform {a : Action α} (proper : a.Proper m) (kept : m.Kept still (a.run m).2)
    (h : Q (a.run m).1 (a.run m).2) : (perform a : Routine ε α).GivesAs still s m Q := by
  intro settled _
  refine ⟨proper, ?_, a.settled_run proper.legal settled, kept, h⟩
  rw [← kept.toBalanced.depth]
  exact Machine.above_depth _

/-- An action that order is not about. -/
theorem aside {a : Action α} (proper : a.Proper m) (same : (a.run m).2.order = m.order) :
    (Routine.perform a : Routine ε α).TidyAs still s m := .perform proper (.of_order same) trivial

/-- New tables that name no other contexts. -/
theorem tables {f : Tables → α × Tables} (contexts : ∀ t, ∀ entry ∈ (f t).2.contexts, entry ∈ t.contexts) :
    (Routine.perform (.tables f) : Routine ε α).TidyAs still s m := by
  have named : ∀ entry ∈ (f m.tables).2.contexts, m.contextAlive entry.2 = true := fun entry mem =>
    Machine.contextAlive_iff.2 (.inl ⟨entry, contexts _ entry mem, rfl⟩)
  exact .aside ⟨fun entry mem => .inl (named entry mem), fun entry mem => .inl (named entry mem)⟩ rfl

theorem read {f : Machine → α} (h : Q (f m) m) : (read f : Routine ε α).GivesAs still s m Q :=
  .perform ⟨trivial, trivial⟩ (.refl m) h

/-- After a look at the machine, it is still the same. -/
theorem look {f : Machine → α} {next : α → Routine ε β} (h : (next (f m)).GivesAs still s m R) :
    (Routine.read f >>= next).GivesAs still s m R :=
  fun settled inside => ⟨⟨trivial, trivial⟩, m.above_depth, h settled inside⟩

theorem enter {j : Job β} {next : Except Panic β → Routine ε α} (noCall : j.isCall = false)
    (scope : ∀ x, j.scope? = some x → s = some x)
    (rest : ∀ result m', m.Balanced m' → (next result).Gives s m' Q) : (Routine.enter j next).Gives s m Q :=
  GivesFrom.enter (Depth.le_refl _) (fun call => nomatch noCall.symm.trans call) scope fun result m' balanced =>
    balanced.depth ▸ rest result m' balanced

theorem job {j : Job α} (noCall : j.isCall = false) (scope : ∀ x, j.scope? = some x → s = some x) :
    (job j : Routine ε α).Tidy s m :=
  .enter noCall scope fun result m' _ => by
    cases result with
    | ok b => exact .pure trivial
    | error p => exact .panic

end GivesAs

end Routine

namespace Machine

variable {m m' : Machine} {still : Bool}

theorem RecordedIn.of_regions {ε : Type} [Carries ε] {e : ε} (recorded : m.RecordedIn e)
    (regions : m'.regions = m.regions) : m'.RecordedIn e :=
  fun v hv => (recorded v hv).of_regions regions

/-- Closing a region leaves it, with the collection that this may run. -/
theorem order_closeRegion (m : Machine) (panicking : Bool) : (m.closeRegion panicking).order = m.leaveRegion.order := by
  unfold closeRegion
  split
  · rfl
  · rename_i region _ _
    split
    · obtain ⟨_, _, _, _, eq⟩ := (m.leaveRegion.holdContext region.context).collect_eq
      rw [eq]
      rfl
    · rfl

theorem Kept.of_same {m'' : Machine} (kept : m.Kept still m') (same : m''.order = m'.order) : m.Kept still m'' :=
  kept.trans (.of_order same)

/-- Closing the region that was opened last. -/
theorem kept_closeRegion {context : Nat} {panicking : Bool} (kept : (m.enterRegion context).Kept still m') :
    m.Kept still (m'.closeRegion panicking) := by
  suffices left : m.Kept still m'.leaveRegion from left.of_same (order_closeRegion m' panicking)
  obtain ⟨more, regions⟩ := kept.regions
  refine ⟨⟨regions_of_eq ?_, ?_, ?_, kept.calls, kept.frames, kept.contextHolds⟩, kept.place⟩
  · change m'.regions.tail = m.regions
    rw [regions]
    rfl
  · change m'.current.tail = m.current
    rw [kept.current]
    rfl
  · change m'.regionDepth - 1 = m.regionDepth
    rw [kept.regionDepth]
    rfl

/-- Without a region no call is open, so none is when the region closes that was opened then. -/
theorem legal_closeRegion {s : Option Scope} {context : Nat} {panicking : Bool} (inside : m.Inside s)
    (balanced : (m.enterRegion context).Balanced m') : (Action.closeRegion panicking).Legal m' := by
  intro last
  have length : m'.regions.length = m.regions.length + 1 := congrArg Depth.regions balanced.depth
  have none : m.regions = [] := List.eq_nil_of_length_eq_zero (by omega)
  rw [balanced.calls]
  exact inside.2 none

end Machine

namespace Routine

/-- A job does not throw, whatever the routine around it may. -/
theorem inRegion_job_eq {ε β : Type} {j : Job β} {context : Nat} : (inRegion context (job j) : Routine ε β) =
    (inRegion context (job j : Routine Empty β)).mapError fun e => nomatch e := by
  unfold inRegion mapError
  congr 1
  funext _
  unfold job ensuring mapError
  congr 1
  funext result
  cases result <;> rfl

variable {ε ε' α β : Type} [Carries ε] [Carries ε'] {d : Depth} {still : Bool} {s : Option Scope} {m : Machine}
  {Q : α → Machine → Prop} {R : β → Machine → Prop}

/-- What is thrown out of a region carries no value: it would not be recorded outside. -/
theorem GivesFrom.inRegion {r : Routine ε α} {context : Nat} (le : d ≤ m.depth) (alive : m.contextAlive context = true)
    (empty : ∀ e : ε, Carries.value? e = none)
    (body : r.GivesFrom d still (some ⟨context⟩) (m.enterRegion context) fun _ _ => True) :
    (inRegion context r).GivesFrom d still s m fun _ _ => True := by
  refine bracket (some ⟨context⟩) still le ⟨Nat.le_succ_of_le le.1, le.2⟩ ⟨alive, trivial⟩ ?_ ?_
    (fun _ _ _ => trivial) ?_ body
  · intro _
    exact Machine.inside_of_mem ⟨context, []⟩ List.mem_cons_self
  · intro inside m' panicking kept
    exact ⟨⟨Machine.legal_closeRegion inside kept.toBalanced, trivial⟩, Machine.kept_closeRegion kept⟩
  · intro e m' _ v hv
    rw [empty] at hv
    nomatch hv

namespace GivesAs

theorem inRegion {r : Routine ε α} {context : Nat} (alive : m.contextAlive context = true)
    (empty : ∀ e : ε, Carries.value? e = none)
    (body : r.TidyAs still (some ⟨context⟩) (m.enterRegion context)) :
    (inRegion context r).TidyAs still s m :=
  GivesFrom.inRegion (Depth.le_refl _) alive empty (body.mono ⟨Nat.le_succ _, Nat.le_refl _⟩)

/-! Brackets that leave the regions alone keep what depends on regions only. -/

/-- The behaviour of a function runs in a region, as an active call. -/
theorem inCall {x : Scope} {c : CallRecord} {f : Frame} {callable : Callable} {context : Nat} {i : Invocation}
    {next : Except Thrown Value → Routine ε α} (same : ∀ a m m', m'.regions = m.regions → Q a m → Q a m')
    (alive : m.contextAlive context = true)
    (room : f.evaluated = false ∧ m.calls.height < m.options.maxCallDepth)
    (rest : ∀ result m', (next result).Gives (some x) m' Q) :
    (inCall c f (Routine.inRegion context (Routine.job (.call callable context i)) >>= next)).GivesAs still (some x) m Q := by
  refine GivesFrom.bracket (some x) false (Depth.le_refl _) ⟨Nat.le_refl _, Nat.le_succ _⟩ ⟨room, trivial⟩ ?_ ?_
    (fun a m' h => same a m' _ rfl h) (fun e m' h => h.of_regions rfl) ?_
  · exact fun inside => ⟨inside.1, fun none => absurd none inside.regions_ne_nil⟩
  · intro _ m' panicking kept
    obtain ⟨place, frames⟩ := kept.frames
    have frames : m'.frames = m.frames.push (f.moved place) := frames
    have calls : m'.calls = m.calls.push c := kept.calls
    refine ⟨⟨⟨f.moved place, ?_, (Frame.evaluated_moved place f).trans room.1⟩, trivial⟩, ?_⟩
    · rw [frames]
      rfl
    · refine ⟨⟨kept.regions, kept.current, kept.regionDepth, ?_, ⟨none, ?_⟩, kept.contextHolds⟩, fun _ => ?_⟩
      · exact congrArg Stack.pop calls
      · exact (congrArg Stack.pop frames).trans (Stack.mapTop_id m.frames).symm
      · exact congrArg Stack.pop frames
  · -- The depth of the caller is what stays open, so the call is one more.
    have le : m.depth ≤ ((Action.beginCall c f).run m).2.depth := ⟨Nat.le_refl _, Nat.le_succ _⟩
    refine GivesFrom.bind (Q := fun _ _ => True) ?_ fun result m₁ balanced _ =>
      (rest result m₁).mono (balanced.depth ▸ le)
    rw [inRegion_job_eq]
    refine (GivesFrom.inRegion le alive (fun e => nomatch e) ?_).mapError fun e => nomatch e
    refine GivesFrom.enter ⟨Nat.le_succ_of_le le.1, le.2⟩ (fun _ => Nat.lt_succ_self _) (fun _ h => h) ?_
    intro result m' _
    cases result with
    | ok b => exact .pure trivial
    | error p => exact .panic

theorem inFrame {r : Routine ε α} {f : Frame} (same : ∀ a m m', m'.regions = m.regions → Q a m → Q a m')
    (room : f.evaluated = true ∧ m.frames.height < m.options.maxCallDepth)
    (body : r.Gives s { m with frames := m.frames.push f } Q) : (inFrame f r).GivesAs still s m Q := by
  refine GivesFrom.bracket s false (Depth.le_refl _) (Depth.le_refl _) ⟨room, trivial⟩ (fun inside => inside) ?_
    (fun a m' h => same a m' _ rfl h) (fun e m' h => h.of_regions rfl) body
  intro _ m' panicking kept
  obtain ⟨place, frames⟩ := kept.frames
  have frames : m'.frames = m.frames.push (f.moved place) := frames
  refine ⟨⟨⟨f.moved place, ?_, (Frame.evaluated_moved place f).trans room.1⟩, trivial⟩, ?_⟩
  · rw [frames]
    rfl
  · refine ⟨⟨kept.regions, kept.current, kept.regionDepth, kept.calls, ⟨none, ?_⟩, kept.contextHolds⟩, fun _ => ?_⟩
    · exact (congrArg Stack.pop frames).trans (Stack.mapTop_id m.frames).symm
    · exact congrArg Stack.pop frames

theorem holdingContext {r : Routine ε α} {context : Nat} (alive : m.contextAlive context = true)
    (same : ∀ a m m', m'.regions = m.regions → Q a m → Q a m')
    (body : r.GivesAs still s (m.holdContext context) Q) : (holdingContext context r).GivesAs still s m Q := by
  refine GivesFrom.bracket s still (Depth.le_refl _) (Depth.le_refl _) ⟨alive, trivial⟩ (fun inside => inside) ?_
    (fun a m' h => same a m' _ rfl h) (fun e m' h => h.of_regions rfl) body
  intro _ m' panicking kept
  refine ⟨⟨trivial, trivial⟩, ⟨kept.regions, kept.current, kept.regionDepth, kept.calls, kept.frames, ?_⟩, kept.place⟩
  exact congrArg List.tail kept.contextHolds

theorem hold {v : NativeValue} : (Routine.hold v : Routine ε Unit).TidyAs still s m := by
  obtain ⟨holds, eq⟩ := Action.run_hold m v
  exact .aside ⟨trivial, trivial⟩ (by rw [eq]; rfl)

theorem holdAll {vs : List NativeValue} {r : Routine ε α} (h : ∀ m', m.Balanced m' → r.GivesAs still s m' Q) :
    (vs.foldr (fun v rest => act (.hold v) fun _ => rest) r).GivesAs still s m Q := by
  induction vs generalizing m with
  | nil => exact h m (.refl m)
  | cons v vs ih =>
    exact bind (x := Routine.hold v) hold fun _ m₁ balanced _ => ih fun m' balanced' => h m' (balanced.trans balanced')

/-- A group of native values, once it was opened. -/
theorem inHold {r : Routine ε α} (same : ∀ a m m', m'.regions = m.regions → Q a m → Q a m')
    (body : r.GivesAs still s { m with holds := [] :: m.holds } Q) :
    (act .openHold fun _ => r.ensuring fun _ => .closeHold).GivesAs still s m Q := by
  refine GivesFrom.bracket s still (Depth.le_refl _) (Depth.le_refl _) ⟨trivial, trivial⟩ (fun inside => inside) ?_
    (fun a m' h => same a m' _ rfl h) (fun e m' h => h.of_regions rfl) body
  intro _ m' panicking kept
  exact ⟨⟨trivial, trivial⟩,
    ⟨kept.regions, kept.current, kept.regionDepth, kept.calls, kept.frames, kept.contextHolds⟩, kept.place⟩

theorem holding {vs : List NativeValue} {r : Routine ε α} (same : ∀ a m m', m'.regions = m.regions → Q a m → Q a m')
    (body : ∀ m', m.Balanced m' → r.GivesAs still s m' Q) : (holding vs r).GivesAs still s m Q := by
  have opened : m.Kept false { m with holds := [] :: m.holds } := .of_order rfl
  exact inHold same (holdAll fun m' balanced => body m' (opened.toBalanced.trans balanced))

/-- Nothing happens between the opening of an empty group and the body. -/
theorem holdingNone {r : Routine ε α} (same : ∀ a m m', m'.regions = m.regions → Q a m → Q a m')
    (body : r.GivesAs still s { m with holds := [] :: m.holds } Q) : (Routine.holding [] r).GivesAs still s m Q :=
  inHold same body

/-! ### Lists -/

theorem forM {l : List β} {f : β → Routine ε PUnit}
    (h : ∀ b ∈ l, ∀ m', m.Balanced m' → (f b).TidyAs still s m') :
    (l.forM f).TidyAs still s m := by
  induction l generalizing m with
  | nil => exact .pure trivial
  | cons b l ih =>
    refine .bind (h b List.mem_cons_self m (.refl m)) fun _ m₁ balanced _ => ?_
    exact ih fun b' hb m' balanced' => h b' (List.mem_cons_of_mem b hb) m' (balanced.trans balanced')

theorem mapM_loop {l : List β} {f : β → Routine ε α} {done : List α}
    (h : ∀ b ∈ l, ∀ m', m.Balanced m' → (f b).TidyAs still s m') :
    (List.mapM.loop f l done).TidyAs still s m := by
  induction l generalizing m done with
  | nil => exact .pure trivial
  | cons b l ih =>
    refine .bind (h b List.mem_cons_self m (.refl m)) fun _ m₁ balanced _ => ?_
    exact ih fun b' hb m' balanced' => h b' (List.mem_cons_of_mem b hb) m' (balanced.trans balanced')

theorem mapM {l : List β} {f : β → Routine ε α}
    (h : ∀ b ∈ l, ∀ m', m.Balanced m' → (f b).TidyAs still s m') :
    (l.mapM f).TidyAs still s m := mapM_loop h

end GivesAs

end Routine

end ScriptBridge
