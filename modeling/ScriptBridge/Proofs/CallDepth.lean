import ScriptBridge.Proofs.Exec
import ScriptBridge.Proofs.Stacks

/-!
# How deep calls may nest

A call is begun only while fewer calls are open than the options allow, and an evaluation only while fewer
frames are. So at every point of a run the calls are bounded, and so are the frames right after an evaluation
began. Calls within an evaluation count calls only: each of them may add a frame beyond the bound, and the
frames stay below twice the bound.

Every function that runs has a call of its own. So the native bodies that functions enter are bounded as well.
Those that the reading and writing of exported properties and subscripts enters have none.

* `Machine.Bounded`: the invariant. `Moment.Leads.bounded`: it holds of every moment.
* `Session.frames_bounded`: the bound on calls and frames, and what happens at it.
* `Session.natives_bounded`: the bound on native bodies.

Proof-only: not reachable from `ScriptBridge.Session.Run`.
-/

namespace ScriptBridge

/-! ## The invariant -/

namespace Trace

/-- Every evaluation in a trace was begun below a bound. -/
def Bounded (bound : Nat) : Trace → Prop
  | [] => True
  | f :: rest => (f.evaluated = true → rest.length < bound) ∧ Bounded bound rest

/-- The calls since the innermost evaluation. -/
def sinceEvaluation (t : Trace) : Trace := t.takeWhile fun f => !f.evaluated

variable {bound : Nat} {t : Trace}

theorem Bounded.tail (bounded : t.Bounded bound) : Bounded bound t.tail := by
  cases t with
  | nil => trivial
  | cons f rest => exact bounded.2

/-- The position of the innermost frame does not matter. -/
theorem Bounded.modifyHead {f : Frame → Frame} (bounded : t.Bounded bound)
    (same : ∀ frame, (f frame).evaluated = frame.evaluated) : Bounded bound (t.modifyHead f) := by
  cases t with
  | nil => trivial
  | cons frame rest => exact ⟨fun h => bounded.1 (same frame ▸ h), bounded.2⟩

/-- Only the calls since the innermost evaluation may be beyond the bound. -/
theorem Bounded.length_le (bounded : t.Bounded bound) : t.length ≤ bound + t.sinceEvaluation.length := by
  induction t with
  | nil => exact Nat.zero_le _
  | cons f rest ih =>
    cases evaluated : f.evaluated with
    | true =>
      have below : rest.length < bound := bounded.1 evaluated
      rw [List.length_cons]
      omega
    | false =>
      have inner := ih bounded.2
      have since : sinceEvaluation (f :: rest) = f :: sinceEvaluation rest := by
        simp [sinceEvaluation, evaluated]
      rw [since, List.length_cons, List.length_cons]
      omega

theorem sinceEvaluation_length_le (t : Trace) : t.sinceEvaluation.length ≤ t.countP fun f => !f.evaluated := by
  have all : ∀ f ∈ t.sinceEvaluation, (!f.evaluated) = true := List.all_eq_true.1 List.all_takeWhile
  rw [← List.countP_eq_length.2 all]
  exact (List.takeWhile_sublist _).countP_le

end Trace

namespace Machine

variable {m m' : Machine} {bound : Nat}

/-- The options allow so many calls, no more are open, each has one frame, and every evaluation was begun
while fewer frames were open. -/
structure Bounded (bound : Nat) (m : Machine) : Prop where
  allowed : m.options.maxCallDepth = bound
  calls : m.calls.items.length ≤ bound
  frames : m.frames.items.countP (fun f => !f.evaluated) = m.calls.items.length
  evaluations : Trace.Bounded bound m.frames.items

theorem Bounded.of_same (bounded : m.Bounded bound) (allowed : m'.options.maxCallDepth = m.options.maxCallDepth)
    (calls : m'.calls = m.calls) (frames : m'.frames = m.frames) : m'.Bounded bound where
  allowed := allowed.trans bounded.allowed
  calls := calls ▸ bounded.calls
  frames := by rw [calls, frames]; exact bounded.frames
  evaluations := frames ▸ bounded.evaluations

end Machine

/-- What a legal action keeps that runs no collection. -/
theorem Action.bounded_run {β : Type} {a : Action β} {m : Machine} {bound : Nat} (legal : a.Legal m)
    (quiet : ¬a.Collects m) (bounded : m.Bounded bound) : (a.run m).2.Bounded bound := by
  have side := a.run_nativeSide m
  cases a with
  | read | edit | openRegion | addSource | openHold | closeHold | holdContext | releaseContext | addContext
  | addTemplate | addNative | addManaged | setEvaluator | tables => exact bounded.of_same rfl rfl rfl
  | allocate | addWrapper =>
    refine bounded.of_same ?_ ?_ ?_ <;> simp only [run, Machine.register, Machine.allocate_eq]
  | track v =>
    obtain ⟨_, eq, -⟩ := run_track m v
    rw [eq]
    exact bounded.of_same rfl rfl rfl
  | closeRegion panicking =>
    change (m.closeRegion panicking).Bounded bound
    rw [closeRegion_eq quiet]
    exact bounded.of_same rfl rfl rfl
  | beginCall c f =>
    obtain ⟨call, room⟩ := legal
    rw [bounded.allowed, m.calls.height_eq] at room
    refine ⟨bounded.allowed, room, ?_, fun evaluated => ?_, bounded.evaluations⟩
    · change (f :: m.frames.items).countP _ = (c :: m.calls.items).length
      rw [List.countP_cons_of_pos (by simp [call]), List.length_cons, bounded.frames]
    · rw [call] at evaluated
      exact absurd evaluated Bool.false_ne_true
  | endCall =>
    obtain ⟨f, top, call⟩ := legal
    obtain ⟨rest, frames⟩ := List.head?_eq_some_iff.1 top
    have counts := bounded.frames
    rw [frames, List.countP_cons_of_pos (by simp [call])] at counts
    refine ⟨bounded.allowed, ?_, ?_, ?_⟩
    · change m.calls.pop.items.length ≤ bound
      rw [Stack.items_pop, List.length_tail]
      exact Nat.le_trans (Nat.sub_le _ _) bounded.calls
    · change m.frames.pop.items.countP _ = m.calls.pop.items.length
      rw [Stack.items_pop, Stack.items_pop, List.length_tail, frames, List.tail_cons]
      omega
    · change Trace.Bounded bound m.frames.pop.items
      rw [Stack.items_pop]
      exact bounded.evaluations.tail
  | pushFrame f =>
    obtain ⟨evaluated, room⟩ := legal
    rw [bounded.allowed, m.frames.height_eq] at room
    refine ⟨bounded.allowed, bounded.calls, ?_, fun _ => room, bounded.evaluations⟩
    change (f :: m.frames.items).countP _ = m.calls.items.length
    rw [List.countP_cons_of_neg (by simp [evaluated]), bounded.frames]
  | popFrame =>
    obtain ⟨f, top, evaluated⟩ := legal
    obtain ⟨rest, frames⟩ := List.head?_eq_some_iff.1 top
    have counts := bounded.frames
    rw [frames, List.countP_cons_of_neg (by simp [evaluated])] at counts
    refine ⟨bounded.allowed, bounded.calls, ?_, ?_⟩
    · change m.frames.pop.items.countP _ = m.calls.items.length
      rw [Stack.items_pop, frames]
      exact counts
    · change Trace.Bounded bound m.frames.pop.items
      rw [Stack.items_pop]
      exact bounded.evaluations.tail
  | position line column =>
    refine ⟨bounded.allowed, bounded.calls, ?_, ?_⟩
    · change (m.frames.mapTop _).items.countP _ = m.calls.items.length
      rw [Stack.items_mapTop, ← bounded.frames]
      cases m.frames.items <;> rfl
    · change Trace.Bounded bound (m.frames.mapTop _).items
      rw [Stack.items_mapTop]
      exact bounded.evaluations.modifyHead fun _ => rfl
  | hold | setCell | addOwner | removeOwner =>
    obtain ⟨_, _, _, eq⟩ := side rfl
    rw [eq]
    exact bounded.of_same rfl rfl rfl
  | collect => exact absurd trivial quiet
  | setOptions f => exact bounded.of_same legal rfl rfl

namespace Moment

variable {t u : Moment} {bound : Nat}

theorem Step.bounded (step : t.Step u) (bounded : t.machine.Bounded bound) : u.machine.Bounded bound := by
  cases step with
  | act a legal quiet => exact a.bounded_run legal quiet bounded
  | @sweep m =>
    change m.sweep.2.Bounded bound
    rw [Machine.sweep_eq]
    exact bounded.of_same rfl rfl rfl
  | callback => exact bounded.of_same rfl rfl rfl
  | finish => exact bounded.of_same rfl rfl rfl

theorem Leads.bounded (leads : t.Leads u) (bounded : t.machine.Bounded bound) : u.machine.Bounded bound := by
  induction leads with
  | refl => exact bounded
  | tail _ step ih => exact step.bounded ih

theorem bounded_start (options : Options) (now : Int) : (start options now).machine.Bounded options.maxCallDepth :=
  ⟨rfl, Nat.zero_le _, rfl, trivial⟩

end Moment

/-! ## At the bound -/

namespace Scope

open Routine

variable {α β : Type} {s : Scope} {m m₁ : Machine}

/-- The error of a call or an evaluation for which there is no room. -/
def tooDeep (s : Scope) (m : Machine) : Object :=
  ⟨.error m.frames.items none, [("message", .hidden (.text "Maximum call stack size exceeded"))],
    some (m.scopeContext s).intrinsics.rangeError⟩

/-- The routine throws a new `RangeError`, however jobs run, and leaves the stacks as they were. -/
def Overflows (s : Scope) (r : Routine Thrown α) (m : Machine) : Prop :=
  ∃ error m', r.Throws m ⟨.object error⟩ m' ∧ m'.object? error = some (s.tooDeep m) ∧ m.Restored m'

theorem throwRange_overflows (settled : m.Settled) :
    s.Overflows (s.throwRange "Maximum call stack size exceeded" : Routine Thrown α) m := by
  have stored := Machine.object?_allocate_self settled.heap (s.tooDeep m)
  exact ⟨(m.allocate (s.tooDeep m)).1, (m.allocate (s.tooDeep m)).2, fun _ => rfl, stored,
    (m.kept_allocate (s.tooDeep m)).restored⟩

/-- What comes before may store objects and hand them out. -/
theorem Overflows.after {x : Routine Thrown β} {f : β → Routine Thrown α} {b : β} (first : x.Returns m b m₁)
    (kept : m.Kept true m₁) (contexts : m₁.contexts = m.contexts) (next : s.Overflows (f b) m₁) :
    s.Overflows (x >>= f) m := by
  obtain ⟨error, m', throws, stored, restored⟩ := next
  have same : s.tooDeep m₁ = s.tooDeep m := by
    unfold tooDeep Machine.scopeContext Machine.context?
    rw [kept.place rfl, contexts]
  refine ⟨error, m', .after first throws, same ▸ stored, ?_⟩
  obtain ⟨more, regions⟩ := kept.regions
  obtain ⟨more', regions'⟩ := restored.regions
  refine ⟨restored.frames.trans (kept.place rfl), restored.calls.trans kept.calls,
    restored.current.trans kept.current, restored.regionDepth.trans kept.regionDepth, more' ++ more, ?_⟩
  rw [regions', regions]
  cases m.regions with
  | nil => rfl
  | cons region rest => simp [Region.keep]

theorem invoke_overflows {callee : Ref} {f : FunctionData} {this : Value} {args : List Value} {construct : Bool}
    (settled : m.Settled) (full : m.options.maxCallDepth ≤ m.calls.height) :
    s.Overflows (s.invoke callee f this args construct) m := by
  unfold invoke
  refine .after (b := true) (fun _ => ?_) (.refl m) rfl (throwRange_overflows settled)
  exact congrArg (fun b => (Outcome.done b, m)) (decide_eq_true full)

theorem Overflows.bind {x : Routine Thrown β} {f : β → Routine Thrown α} (h : s.Overflows x m) :
    s.Overflows (x >>= f) m := by
  obtain ⟨error, m', throws, stored, restored⟩ := h
  exact ⟨error, m', throws.bind, stored, restored⟩

theorem call_overflows {f this : Value} {args : List Value} (settled : m.Settled)
    (full : m.options.maxCallDepth ≤ m.calls.height) (function : (m.function? f).isSome = true) :
    s.Overflows (s.call f this args) m := by
  obtain ⟨⟨callee, data⟩, function⟩ := Option.isSome_iff_exists.1 function
  exact .after (functionOf_returns function) (.refl m) rfl (invoke_overflows settled full)

/-- Reading a property either calls its getter, which is one call too many, or leaves the calls alone. -/
theorem getOrdinary_overflows {holder : Ref} {receiver : Value} {key : String} (settled : m.Settled)
    (full : m.options.maxCallDepth ≤ m.calls.height)
    (getter : ∀ g, m.heap.lookup holder key = .getter (some g) → (m.function? (.object g)).isSome = true) :
    s.Overflows (s.getOrdinary holder receiver key) m ∨ ∃ v m₁, (s.getOrdinary holder receiver key).Returns m v m₁ ∧
      m₁.Settled ∧ m.Kept true m₁ ∧ m₁.contexts = m.contexts ∧ m₁.options = m.options := by
  unfold getOrdinary
  rcases found : m.heap.lookup holder key with v | (_ | g) | _
  · obtain ⟨regions, eq, more, handles⟩ := Action.run_track m v
    refine .inr ⟨v, ((Action.track v).run m).2, fun job => exec_look (f := (·.heap.lookup holder key)) found,
      (Action.track v).settled_run trivial settled, ?_, ?_, ?_⟩
    · rw [eq, handles]
      exact .of_handles more rfl
    · rw [eq]
    · rw [eq]
  · exact .inr ⟨.undefined, m, fun job => exec_look (f := (·.heap.lookup holder key)) found, settled, .refl m, rfl, rfl⟩
  · obtain ⟨⟨callee, data⟩, function⟩ := Option.isSome_iff_exists.1 (getter g found)
    refine .inl (.after (b := .getter (some g)) (fun job => ?_) (.refl m) rfl ?_)
    · exact congrArg (fun b => (Outcome.done b, m)) found
    · refine .after (b := some (callee, data)) (fun job => ?_) (.refl m) rfl (invoke_overflows settled full)
      exact congrArg (fun b => (Outcome.done b, m)) function
  · exact .inr ⟨.undefined, m, fun job => exec_look (f := (·.heap.lookup holder key)) found, settled, .refl m, rfl, rfl⟩

theorem construct_overflows {f : Value} {args : List Value} {callee : Ref} {data : FunctionData} (settled : m.Settled)
    (full : m.options.maxCallDepth ≤ m.calls.height) (function : m.function? f = some (callee, data))
    (constructs : data.callable.isConstructor = true)
    (getter : ∀ g, m.heap.lookup callee "prototype" = .getter (some g) → (m.function? (.object g)).isSome = true) :
    s.Overflows (s.construct f args) m := by
  refine .after (functionOf_returns function) (.refl m) rfl ?_
  dsimp only
  rw [constructs, Bool.not_true, if_neg Bool.false_ne_true]
  rcases @getOrdinary_overflows s m callee f "prototype" settled full getter with overflows | ⟨v, m₁, reads, settled₁,
    kept, contexts, options⟩
  · exact overflows.bind
  refine .after reads kept contexts ?_
  -- The object is made before the call is refused.
  have make (prototype : Ref) : s.Overflows (do
      let this ← allocate ⟨.ordinary, [], some prototype⟩
      let result ← s.invoke callee data this args true
      return if result.isObject then result else this) m₁ := by
    let made := m₁.allocate ⟨.ordinary, [], some prototype⟩
    have same : made.2.contexts = m₁.contexts ∧ made.2.options = m₁.options := by simp [made, Machine.allocate_eq]
    have stored : m₁.Kept true made.2 := m₁.kept_allocate _
    have calls : made.2.calls = m.calls := stored.calls.trans kept.calls
    have full' : made.2.options.maxCallDepth ≤ made.2.calls.height := by
      rw [calls, same.2, options]
      exact full
    refine .after (b := .object made.1) (fun _ => rfl) (m₁.kept_allocate _) same.1 ?_
    exact (invoke_overflows (settled₁.allocate rfl) full').bind
  cases v with
  | object p => exact make p
  | undefined | null | bool | number | text =>
    exact .after (b := (m₁.scopeContext s).intrinsics) (fun _ => rfl) (.refl m₁) rfl (make _)

theorem evaluate_overflows {source resource : String} (settled : m.Settled)
    (full : m.options.maxCallDepth ≤ m.frames.height) (installed : m.evaluator.isSome = true) :
    s.Overflows (s.evaluate source resource) m := by
  obtain ⟨programs, installed⟩ := Option.isSome_iff_exists.1 installed
  unfold evaluate
  refine .after (b := some programs) (fun _ => ?_) (.refl m) rfl ?_
  · exact congrArg (fun e => (Outcome.done e, m)) installed
  · refine .after (b := true) (fun _ => ?_) (.refl m) rfl (throwRange_overflows settled)
    exact congrArg (fun b => (Outcome.done b, m)) (decide_eq_true full)

end Scope

namespace Session

variable {options : Options} {now : Int} {steps : List Program.Step} {depth : Nat} {x : Point}

theorem bounded_points (mem : x ∈ points options now steps depth) : x.machine.Bounded options.maxCallDepth := by
  obtain ⟨t, leads, -, machine⟩ := reachable_points mem
  exact machine ▸ leads.bounded (Moment.bounded_start options now)

/-- At every point of every session the calls are bounded, and the frames are but for the calls since the
innermost evaluation. What would begin a call or an evaluation beyond its bound throws a `RangeError` and leaves
the stacks as they were. -/
theorem frames_bounded (mem : x ∈ points options now steps depth) :
    x.machine.calls.height ≤ options.maxCallDepth ∧
    x.machine.frames.height ≤ options.maxCallDepth + (Trace.sinceEvaluation x.machine.frames.items).length ∧
    (Trace.sinceEvaluation x.machine.frames.items).length ≤ x.machine.calls.height ∧
    ∀ s : Scope,
      (options.maxCallDepth ≤ x.machine.calls.height →
        (∀ f this args, (x.machine.function? f).isSome = true → s.Overflows (s.call f this args) x.machine) ∧
        ∀ f args callee data, x.machine.function? f = some (callee, data) → data.callable.isConstructor = true →
          (∀ g, x.machine.heap.lookup callee "prototype" = .getter (some g) →
            (x.machine.function? (.object g)).isSome = true) →
          s.Overflows (s.construct f args) x.machine) ∧
      (options.maxCallDepth ≤ x.machine.frames.height → x.machine.evaluator.isSome = true →
        ∀ source resource, s.Overflows (s.evaluate source resource) x.machine) := by
  have settled := settled_points mem
  obtain ⟨allowed, calls, frames, evaluations⟩ := bounded_points mem
  rw [x.machine.calls.height_eq, x.machine.frames.height_eq]
  refine ⟨calls, evaluations.length_le, frames ▸ Trace.sinceEvaluation_length_le _, fun s => ⟨fun full => ⟨?_, ?_⟩, ?_⟩⟩
  · rw [← allowed, ← x.machine.calls.height_eq] at full
    exact fun f this args function => Scope.call_overflows settled full function
  · rw [← allowed, ← x.machine.calls.height_eq] at full
    exact fun f args callee data function constructs getter =>
      Scope.construct_overflows settled full function constructs getter
  · intro full installed source resource
    rw [← allowed, ← x.machine.frames.height_eq] at full
    exact Scope.evaluate_overflows settled full installed

/-- A source that makes a function and calls it is evaluated. -/
def nested : List Program.Step :=
  [.machine (.newContext "main") none, .setEvaluator [("nested", source)],
    .execute "main" [.script (.evaluate "nested" "nested.js") none]]
where
  source : Program.Body :=
    [.function "f" [] false (some "f"), .script (.call (.register "f") .undefined []) none]

/-- The evaluation and the call each find room, so there is one frame more than there may be calls. -/
theorem frames_nested : ∃ x ∈ points { maxCallDepth := 1 } 0 nested 3, x.machine.frames.height = 2 := by
  decide +kernel

/-- That frame is the one of the call in the evaluation, where no further call can begin. -/
theorem frames_bounded_nested : ∃ x ∈ points { maxCallDepth := 1 } 0 nested 3, x.machine.frames.height = 2 ∧
    (Trace.sinceEvaluation x.machine.frames.items).length = 1 ∧
    Scope.Overflows ⟨0⟩ (Scope.call ⟨0⟩ (.object ⟨10, 0⟩) .undefined []) x.machine := by
  obtain ⟨x, mem, height, since, full, function⟩ : ∃ x ∈ points { maxCallDepth := 1 } 0 nested 3,
      x.machine.frames.height = 2 ∧ (Trace.sinceEvaluation x.machine.frames.items).length = 1 ∧
      1 ≤ x.machine.calls.height ∧ (x.machine.function? (.object ⟨10, 0⟩)).isSome = true := by
    decide +kernel
  exact ⟨x, mem, height, since, (((frames_bounded mem).2.2.2 ⟨0⟩).1 full).1 _ _ _ function⟩

end Session

/-! ## Native bodies -/

/-- Whether a job is the behaviour of a function that stands for native code. -/
def Job.isBridged {β : Type} : Job β → Bool
  | .call f _ _ => f.isBridged
  | .perform .. | .make .. | .evaluate .. => false

/-- How many native bodies run among some jobs. -/
def openNatives (jobs : List AnyJob) : Nat := jobs.countP fun j => j.2.isNative

/-- How many of them no function entered: the reading or writing of an exported property or subscript did, or
native code itself. -/
def hookedNatives : List AnyJob → Nat
  | [] => 0
  | j :: rest => hookedNatives rest + if j.2.isNative && !rest.head?.any (·.2.isBridged) then 1 else 0

/-- A function has room for a native body, and a native body that finds no room is entered by no function. -/
theorem Job.isNative_le {β : Type} (j : Job β) (room : Bool) :
    (if j.isNative then 1 else 0) + (if j.isBridged then 1 else 0) ≤
      (if j.isCall then 1 else 0) + (if room then 1 else 0) + if j.isNative && !room then 1 else 0 := by
  cases j with
  | call f =>
    change 0 + (if f.isBridged then 1 else 0) ≤ 1 + (if room then 1 else 0) + 0
    split <;> omega
  | perform => cases room <;> exact Nat.le_refl 1
  | make | evaluate => exact Nat.zero_le _

/-- Each function that stands for native code is in at most one native body of its own at a time. -/
theorem openNatives_le (jobs : List AnyJob) : openNatives jobs ≤ openCalls jobs + hookedNatives jobs := by
  -- A function on top has a call already, and perhaps no native body yet.
  have spare : openNatives jobs + (if jobs.head?.any (·.2.isBridged) then 1 else 0) ≤
      openCalls jobs + hookedNatives jobs := by
    induction jobs with
    | nil => exact Nat.le_refl 0
    | cons j rest ih =>
      have step := j.2.isNative_le (rest.head?.any (·.2.isBridged))
      unfold openNatives openCalls at ih ⊢
      unfold hookedNatives
      rw [List.countP_cons, List.countP_cons, List.head?_cons, Option.any_some]
      omega
  exact Nat.le_trans (Nat.le_add_right _ _) spare

namespace Session

variable {options : Options} {now : Int} {steps : List Program.Step} {depth : Nat} {x : Point}

/-- At every point of every session the native bodies under way are bounded, but for those that no function
entered: each function under way has a call of its own, and what would call one more throws a `RangeError`. -/
theorem natives_bounded (mem : x ∈ points options now steps depth) :
    openNatives x.jobs ≤ options.maxCallDepth + hookedNatives x.jobs ∧
    openCalls x.jobs ≤ x.machine.calls.height ∧ x.machine.calls.height ≤ options.maxCallDepth ∧
    (options.maxCallDepth ≤ x.machine.calls.height → ∀ s callee f this args construct,
      Scope.Overflows s (s.invoke callee f this args construct) x.machine) := by
  obtain ⟨allowed, calls, -, -⟩ := bounded_points mem
  have entered : 0 + openCalls x.jobs ≤ x.machine.calls.items.length + 0 := (after_points mem).calls
  rw [Nat.zero_add, Nat.add_zero] at entered
  have natives := openNatives_le x.jobs
  rw [x.machine.calls.height_eq]
  refine ⟨by omega, entered, calls, fun full s callee f this args construct => ?_⟩
  rw [← allowed, ← x.machine.calls.height_eq] at full
  exact Scope.invoke_overflows (settled_points mem) full

/-- Reading an exported property whose getter reads it again. -/
def endless : List Program.Step :=
  [.machine (.newContext "main") none, .machine (.protocol "P" "P" [] true [.readonly "p" "d"]) none,
    .declareClass "K" "K" none ["P"] [("p", getter)] [] false, .native (.bind (.create (.key "K") [])) (some "o"),
    .execute "main" [.bridge (.wrap (.register "o")) (some "w"), .script (.get (.register "w") "p") none]]
where
  getter : Program.Body := [.bridge (.wrap .receiver) (some "w"), .script (.get (.register "w") "p") none]

/-- No call is open, and three native bodies run, one within the other. -/
theorem natives_endless : ∃ x ∈ points { maxCallDepth := 1 } 0 endless 3, openNatives x.jobs = 3 := by
  decide +kernel

/-- None of them was entered by a function. -/
theorem natives_bounded_endless : ∃ x ∈ points { maxCallDepth := 1 } 0 endless 3,
    openNatives x.jobs = 3 ∧ 2 ≤ hookedNatives x.jobs := by
  obtain ⟨x, mem, three⟩ : ∃ x ∈ points { maxCallDepth := 1 } 0 endless 3, openNatives x.jobs = 3 := by
    decide +kernel
  have bounded : openNatives x.jobs ≤ 1 + hookedNatives x.jobs := (natives_bounded mem).1
  exact ⟨x, mem, three, by omega⟩

end Session

end ScriptBridge
