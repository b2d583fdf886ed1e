import ScriptBridge.Proofs.Failures
import ScriptBridge.Proofs.Settling
import ScriptBridge.Proofs.Steps

/-!
# Where exceptions are from

An error remembers the frames of the point where it was made. So the exception that native code gets tells that place and
those frames, however far the error went since (`Moment.Reachable.locates_errors`). Another value remembers nothing: it
is described when it is settled, and the frames are those of the caller then (`Moment.Reachable.locates_values`).

* `Point.stored?`, `lastStored?`: the points of a run at which objects are made.
* `Point.Step.trace_before`, `Point.Step.trace_made`: one step leaves alone what errors remember, and a new error
  remembers the frames that there are. `trace_of_lastStored`: so it is over a whole run.
* `BridgeException.Locates`: the frames that an exception tells, and the place of the innermost script among them.

Proof-only: not reachable from `ScriptBridge.Session.Run`.
-/

namespace ScriptBridge

/-! ## Where errors are made -/

/-- The reference of the object that is stored next. -/
def Point.stored? (x : Point) : Option Ref :=
  (x.next.bind fun next => next.2.stores?).map fun o => (x.machine.allocate o).1

/-- The last point at which an object with a reference is made. -/
def lastStored? (points : List Point) (r : Ref) : Option Point := points.findRev? (·.stored? == some r)

namespace Object

theorem trace?_of_error {o : Object} {frames : Trace} {cause : Option NativeException}
    (error : o.payload = .error frames cause) : o.trace? = some frames := by
  rw [trace?, error]

/-- No edit changes what an error remembers. -/
theorem trace?_edit (o : Object) (e : Edit) : (o.edit e).trace? = o.trace? := by
  cases plain : o.isArray with
  | false => rw [trace?, trace?, payload_edit plain e]
  | true =>
    have none {o : Object} (array : o.isArray = true) : o.trace? = .none := by
      obtain ⟨payload, properties, prototype⟩ := o
      cases payload with
      | array items => rfl
      | ordinary | function | error | date | regexp | buffer | wrapper => nomatch array
    rw [none plain, none ((isArray_edit o e).trans plain)]

end Object

/-- An error is stored with the frames that there are. -/
theorem Action.Proper.framedIn {β : Type} {a : Action β} {m : Machine} {o : Object} (proper : a.Proper m)
    (stores : a.stores? = some o) : o.FramedIn m := by
  intro frames remembers
  cases a with
  | allocate p =>
    obtain rfl : p = o := Option.some.inj stores
    exact proper.careful.2 frames remembers
  | addWrapper id key p =>
    -- What stands for a native value is no error.
    obtain rfl : p = o := Option.some.inj stores
    have twin := proper.legal.2.1
    obtain ⟨payload, properties, prototype⟩ := p
    cases payload with
    | error frames cause => nomatch twin
    | ordinary | array | function | date | regexp | buffer | wrapper => nomatch remembers
  | _ => nomatch stores

/-- The object that an action stores is the only one that is there after it and was not before. -/
theorem Action.eq_allocated {β : Type} {a : Action β} {m : Machine} (heap : m.heap.Sound) {r : Ref} {o o' : Object}
    (stores : a.stores? = some o) (absent : m.object? r = none) (after : (a.run m).2.object? r = some o') :
    (m.allocate o).1 = r := by
  have allocated (after : (m.allocate o).2.object? r = some o') : (m.allocate o).1 = r := by
    rw [Machine.object?_allocate heap] at after
    split at after
    · rename_i same
      exact same.symm
    · exact absurd (absent.symm.trans after) nofun
  cases a with
  | allocate p =>
    obtain rfl : p = o := Option.some.inj stores
    exact allocated after
  | addWrapper id key p =>
    obtain rfl : p = o := Option.some.inj stores
    exact allocated after
  | _ => nomatch stores

namespace Point.Step

variable {x y : Point} {r : Ref} {o' : Object}

/-- Unless it is made in the step, an object was there before it, and remembers the frames that it did. -/
theorem trace_before (step : x.Step y) (after : y.machine.object? r = some o') (other : x.stored? ≠ some r) :
    ∃ o, x.machine.object? r = some o ∧ o.trace? = o'.trace? := by
  rcases step.object? after with ⟨o, there, rfl | ⟨e, -, -, rfl⟩⟩ | ⟨absent, β, a, next, -, stores⟩
  · exact ⟨_, there, rfl⟩
  · exact ⟨o, there, (o.trace?_edit e).symm⟩
  · -- It would be new.
    have ran : y.machine = (a.run x.machine).2 := by
      obtain ⟨same⟩ | ⟨next', ran⟩ := step.follows
      · rw [same, absent] at after
        nomatch after
      · cases next.symm.trans next'
        exact ran
    rw [ran] at after
    have made := Action.eq_allocated step.settled.heap stores absent after
    refine absurd ?_ other
    rw [stored?, next]
    exact (congrArg (Option.map _) stores).trans (congrArg some made)

/-- An error that is made in the step remembers the frames that there are. -/
theorem trace_made (step : x.Step y) (made : x.stored? = some r) (after : y.machine.object? r = some o')
    {frames : Trace} (remembers : o'.trace? = some frames) : frames = x.machine.frames.items := by
  obtain ⟨o, stores, new⟩ := Option.map_eq_some_iff.1 made
  have absent : x.machine.object? r = none := new ▸ Machine.object?_new step.settled.heap o
  rcases step.object? after with ⟨p, there, -⟩ | ⟨-, β, a, -, proper, stores'⟩
  · exact absurd (absent.symm.trans there) nofun
  · exact proper.framedIn stores' frames remembers

end Point.Step

variable {x : Point} {points : List Point} {m : Machine} {r : Ref} {o : Object}

/-- An object that is made at no point of a run, but is there at the end, was there at the start, and remembers the frames
that it did. -/
theorem trace_of_unstored (chain : (x :: points).IsChain Point.Step)
    (last : (x :: points).getLast?.map Point.machine = some m) (there : m.object? r = some o)
    (unstored : ∀ y ∈ x :: points, y.stored? ≠ some r) :
    ∃ o', x.machine.object? r = some o' ∧ o'.trace? = o.trace? := by
  induction points generalizing x with
  | nil =>
    obtain rfl : x.machine = m := Option.some.inj last
    exact ⟨o, there, rfl⟩
  | cons y points ih =>
    obtain ⟨step, chain⟩ := List.isChain_cons_cons.1 chain
    rw [List.getLast?_cons_cons] at last
    obtain ⟨o₁, there₁, same₁⟩ := ih chain last fun z mem => unstored z (List.mem_cons_of_mem _ mem)
    obtain ⟨o₂, there₂, same₂⟩ := step.trace_before there₁ (unstored x List.mem_cons_self)
    exact ⟨o₂, there₂, same₂.trans same₁⟩

/-- At the end of a run an error remembers the frames that there were when it was made. -/
theorem trace_of_lastStored (chain : points.IsChain Point.Step) (settled : ∀ y ∈ points, y.machine.Settled)
    (last : points.getLast?.map Point.machine = some m) (there : m.object? r = some o) {frames : Trace}
    (remembers : o.trace? = some frames) (made : lastStored? points r = some x) : frames = x.machine.frames.items := by
  induction points with
  | nil => nomatch made
  | cons y points ih =>
    unfold lastStored? List.findRev? at made
    split at made
    · rename_i z later
      cases points with
      | nil => nomatch later
      | cons w points =>
        rw [List.getLast?_cons_cons] at last
        have settled : ∀ y ∈ w :: points, y.machine.Settled := fun z mem => settled z (List.mem_cons_of_mem _ mem)
        exact ih (List.isChain_cons_cons.1 chain).2 settled last (later.trans made)
    · rename_i later
      obtain ⟨stored, rfl⟩ : y.stored? = some r ∧ y = x := by
        split at made
        · rename_i stored
          exact ⟨beq_iff_eq.1 stored, Option.some.inj made⟩
        · nomatch made
      cases points with
      | nil =>
        -- The object is not there yet at its own point.
        obtain rfl : y.machine = m := Option.some.inj last
        obtain ⟨p, -, new⟩ := Option.map_eq_some_iff.1 stored
        have absent := Machine.object?_new (settled y List.mem_cons_self).heap p
        rw [new] at absent
        exact absurd (absent.symm.trans there) nofun
      | cons w points =>
        obtain ⟨step, chain⟩ := List.isChain_cons_cons.1 chain
        rw [List.getLast?_cons_cons] at last
        have unstored : ∀ z ∈ w :: points, z.stored? ≠ some r := by
          rw [List.findRev?_eq_find?_reverse, List.find?_eq_none] at later
          intro z mem stored
          exact later z (List.mem_reverse.2 mem) (beq_iff_eq.2 stored)
        obtain ⟨o₁, there₁, same⟩ := trace_of_unstored chain last there unstored
        exact step.trace_made stored there₁ (same.trans remembers)

/-- The points of a run of a routine. Jobs nest at most so deep. -/
def Routine.pointsWithin {ε α : Type} (r : Routine ε α) (depth : Nat) (m : Machine) : List Point :=
  r.points (Job.exec Job.routine depth) (Job.points Job.routine depth []) [] m

/-- So it is for every routine that keeps order, at any depth. -/
theorem Routine.GivesFrom.trace {ε α : Type} [Carries ε] {still : Bool} {s : Option Scope} {r : Routine ε α} {t : Moment}
    {Q : α → Machine → Prop} (gives : r.GivesAs still s t.machine Q) (depth : Nat) (sound : t.Sound)
    (settled : t.finishing = []) (inside : t.machine.Inside s) {q : Ref} {frames : Trace} {cause : Option NativeException}
    (error : (r.exec (Job.exec Job.routine depth) t.machine).2.payload? (.object q) = some (.error frames cause))
    (made : lastStored? (r.pointsWithin depth t.machine) q = some x) : frames = x.machine.frames.items := by
  obtain ⟨-, -, passed⟩ := gives.exec depth sound settled inside
  have after {y : Point} (mem : y ∈ r.pointsWithin depth t.machine) := passed [] y mem
  have passes : Passes t.machine (r.exec (Job.exec Job.routine depth) t.machine).2 (r.pointsWithin depth t.machine) :=
    Routine.passes (fun j m => Job.passes depth [] j m) [] r t.machine
  have steps : (r.pointsWithin depth t.machine).IsChain Point.Step :=
    .imp_of_mem_imp (fun y _ mem _ follows => ⟨follows, (after mem).machine_settled sound, (after mem).proper⟩) passes.chain
  obtain ⟨o, there, payload⟩ := Machine.payload?_object.1 error
  have remembers : o.trace? = some frames := Object.trace?_of_error payload
  exact trace_of_lastStored steps (fun y mem => (after mem).machine_settled sound) passes.last there remembers made

/-! ## What exceptions tell -/

/-- An exception tells some frames, and the place of the innermost script among them. -/
structure BridgeException.Locates (e : BridgeException) (frames : Trace) : Prop where
  backtrace : e.frames = frames
  place : ∀ f, Trace.scriptFrame? frames = some f →
    e.resource = f.script ∧ e.line = f.line ∧ e.startColumn = f.column
  nowhere : Trace.scriptFrame? frames = none → e.resource = none ∧ e.line = 0 ∧ e.startColumn = 0

namespace Scope

open Routine

variable {s : Scope} {job : Runner} {m m' : Machine} {t : Thrown} {e : BridgeException}

theorem exceptionAt_locates (m : Machine) (name message : String) (frames : Trace) (cause : Option NativeException) :
    (exceptionAt m name message frames cause).Locates frames := by
  refine ⟨rfl, fun f innermost => ?_, fun none => ?_⟩
  · unfold exceptionAt
    rw [innermost]
    exact ⟨rfl, rfl, rfl⟩
  · unfold exceptionAt
    rw [none]
    exact ⟨rfl, rfl, rfl⟩

/-- The exception that describes an error tells the frames that the error remembers. -/
theorem capture_locates_error {ε : Type} {r : Ref} {frames : Trace} {cause : Option NativeException}
    (error : m.payload? (.object r) = some (.error frames cause))
    (captured : (s.capture ⟨.object r⟩ : Routine ε BridgeException).exec job m = (.done e, m')) : e.Locates frames := by
  obtain ⟨told, name, message, rfl⟩ := exists_of_captured rfl error captured
  exact exceptionAt_locates told name message frames cause

/-- The one that describes another value tells the frames that there are when it is described. -/
theorem capture_locates_value {ε : Type} [Carries ε] {v : Value} {depth : Nat} (settled : m.Settled)
    (inside : m.Inside (some s)) (plain : ∀ frames cause, m.payload? v ≠ some (.error frames cause))
    (captured : (s.capture ⟨v⟩ : Routine ε BridgeException).exec (Job.exec Job.routine depth) m = (.done e, m')) :
    e.Locates m.frames.items := by
  unfold capture at captured
  obtain ⟨payload, m₁, look, described⟩ := done_of_bind captured
  obtain ⟨rfl, rfl⟩ : m.payload? v = payload ∧ m = m₁ := by
    injection look with looked same
    exact ⟨by injection looked, same⟩
  split at described
  · rename_i error
    exact absurd error (plain _ _)
  · obtain ⟨message, m₁, read, told⟩ := done_of_bind described
    injection told with told _
    injection told with told
    -- Scripts may run while the text is made, and the frames are as before afterwards.
    have text : (s.textOf v : Routine ε String).TidyAs true (some s) m := textOf_tidy
    obtain ⟨-, ends, -⟩ := text.exec (t := m.moment) depth (.of_settled settled) rfl inside
    rw [show (s.textOf v : Routine ε String).exec _ m.moment.machine = _ from read] at ends
    have frames : m₁.frames = m.frames := ends.2.1.place rfl
    rw [← told, ← frames]
    exact exceptionAt_locates m₁ "" message m₁.frames.items none

/-- What an evaluation throws is returned to native code, where exceptions are. -/
theorem evaluateScript_stops {source resource : String} {programs : Named Program.Body} {depth : Nat} {m₂ : Machine}
    (evaluator : m.evaluator = some programs) (throws : (s.evaluate source resource).Stops depth m t m')
    (captured : (s.capture t : Routine BridgeError BridgeException).exec (Job.exec Job.routine depth) m' = (.done e, m₂))
    (strategy : m₂.options.strategy = .rethrow) :
    (s.evaluateScript source resource).Stops depth m (.script e) m₂ := by
  have lifted : (liftM (s.evaluate source resource) : Routine Fault Value).Stops depth m (.thrown t) m' := throws.mapError
  have settled : (s.settle .undefined (liftM (s.evaluate source resource))).Stops depth m (.script e) m₂ :=
    .after lifted.attempt (.after captured (.look strategy rfl))
  exact .look evaluator settled

end Scope

/-! ## Evaluations -/

namespace Moment

variable {t : Moment} {s : Scope} {source resource : String} {programs : Named Program.Body} {m' : Machine}

/-- An evaluation that throws an error is answered with an exception that tells where the error was made: the frames that
there were, and the place of the innermost script among them. -/
theorem Reachable.locates_errors (reachable : t.Reachable) (settled : t.finishing = []) (depth : Nat)
    (inside : t.machine.Inside (some s)) (evaluator : t.machine.evaluator = some programs) {r : Ref} {frames : Trace}
    {cause : Option NativeException} {x : Point}
    (throws : (s.evaluate source resource).Stops depth t.machine ⟨.object r⟩ m')
    (error : m'.payload? (.object r) = some (.error frames cause))
    (made : lastStored? ((s.evaluate source resource).pointsWithin depth t.machine) r = some x)
    (unbroken : ∀ y ∈ (s.capture ⟨.object r⟩ : Routine BridgeError BridgeException).entered
      (Job.exec Job.routine depth) m', ∃ b, y.outcome = .done b) :
    ∃ e m₂, (s.capture ⟨.object r⟩ : Routine BridgeError BridgeException).exec (Job.exec Job.routine depth) m' =
        (.done e, m₂) ∧ e.Locates x.machine.frames.items ∧
      (m₂.options.strategy = .rethrow → (s.evaluateScript source resource).Stops depth t.machine (.script e) m₂) := by
  obtain ⟨e, m₂, captured⟩ := Scope.capture_discreet.completes unbroken
  have gives : (s.evaluate source resource).HandsOutAs true (some s) t.machine := Scope.evaluate_gives
  have ended : ((s.evaluate source resource).exec (Job.exec Job.routine depth) t.machine).2 = m' :=
    congrArg Prod.snd throws
  rw [← ended] at error
  have remembered : frames = x.machine.frames.items := gives.trace depth reachable.sound settled inside error made
  rw [ended, remembered] at error
  exact ⟨e, m₂, captured, Scope.capture_locates_error error captured, Scope.evaluateScript_stops evaluator throws captured⟩

/-- An evaluation that throws another value is answered with an exception that tells the frames of the caller: those of
the evaluation are gone when the value is described. -/
theorem Reachable.locates_values (reachable : t.Reachable) (settled : t.finishing = []) (depth : Nat)
    (inside : t.machine.Inside (some s)) (evaluator : t.machine.evaluator = some programs) {v : Value}
    (throws : (s.evaluate source resource).Stops depth t.machine ⟨v⟩ m')
    (plain : ∀ frames cause, m'.payload? v ≠ some (.error frames cause))
    (unbroken : ∀ y ∈ (s.capture ⟨v⟩ : Routine BridgeError BridgeException).entered (Job.exec Job.routine depth) m',
      ∃ b, y.outcome = .done b) :
    ∃ e m₂, (s.capture ⟨v⟩ : Routine BridgeError BridgeException).exec (Job.exec Job.routine depth) m' = (.done e, m₂) ∧
      e.Locates t.machine.frames.items ∧
      (m₂.options.strategy = .rethrow → (s.evaluateScript source resource).Stops depth t.machine (.script e) m₂) := by
  obtain ⟨e, m₂, captured⟩ := Scope.capture_discreet.completes unbroken
  have gives : (s.evaluate source resource).HandsOutAs true (some s) t.machine := Scope.evaluate_gives
  obtain ⟨-, ends, -⟩ := gives.exec depth reachable.sound settled inside
  rw [show (s.evaluate source resource).exec _ t.machine = _ from throws] at ends
  obtain ⟨settled', kept, -⟩ := ends
  have located := Scope.capture_locates_value settled' (kept.inside inside) plain captured
  rw [kept.place rfl] at located
  exact ⟨e, m₂, captured, located, Scope.evaluateScript_stops evaluator throws captured⟩

/-- While a script is evaluated, there is a program that sets the position that it is at, and throws an error there or a
text. -/
def throwing : Moment :=
  opened.after (.setEvaluator [("error", body (.throwNew .typeError "boom")), ("text", body (.throwValue (.text "boom")))])
    |>.after (.pushFrame (.ofResource "outer.js"))
    |>.after (.position 7 3)
where
  body (throw : Program.ValueStep) : Program.Body := [.value (.position 2 5) none, .value throw none]

theorem reachable_throwing : throwing.Reachable := by
  have programs := reachable_opened.after (a := .setEvaluator [("error", throwing.body (.throwNew .typeError "boom")),
    ("text", throwing.body (.throwValue (.text "boom")))]) trivial id
  have outer := programs.after (a := .pushFrame (.ofResource "outer.js")) ⟨rfl, by decide⟩ id
  exact outer.after (a := .position 7 3) trivial id

theorem inside_throwing : throwing.machine.Inside (some ⟨0⟩) :=
  Machine.inside_of_mem ⟨0, []⟩ (List.mem_singleton_self _)

/-- The program runs. -/
abbrev thrown (source : String) : Routine Thrown Value := Scope.evaluate ⟨0⟩ source "inner.js"

/-- The frame of the program where it throws. -/
def thrower : Frame := { Frame.ofResource "inner.js" with line := 2, column := 5 }

/-- The frame of the script around it. -/
def around : Frame := { Frame.ofResource "outer.js" with line := 7, column := 3 }

/-- The exception of the error tells where the program was. -/
theorem locates_errors_thrown : ∃ x e m',
    lastStored? ((thrown "error").pointsWithin 1 throwing.machine) ⟨1, 0⟩ = some x ∧
      Trace.scriptFrame? x.machine.frames.items = some thrower ∧
      (Scope.evaluateScript ⟨0⟩ "error" "inner.js").Stops 1 throwing.machine (.script e) m' ∧
      e.frames = x.machine.frames.items ∧ e.resource = some "inner.js" ∧ e.line = 2 ∧ e.startColumn = 5 := by
  let m₁ := ((thrown "error").exec (Job.exec Job.routine 1) throwing.machine).2
  have throws : (thrown "error").Stops 1 throwing.machine ⟨.object ⟨1, 0⟩⟩ m₁ := rfl
  have error : m₁.payload? (.object ⟨1, 0⟩) = some (.error [thrower, around] none) := rfl
  have noJobs : (Scope.capture ⟨0⟩ ⟨.object ⟨1, 0⟩⟩ : Routine BridgeError _).entered (Job.exec Job.routine 1) m₁ = [] := rfl
  have there : (lastStored? ((thrown "error").pointsWithin 1 throwing.machine) ⟨1, 0⟩).map
    (·.machine.frames.items) = some [thrower, around] := by decide +kernel
  obtain ⟨x, made, frames⟩ := Option.map_eq_some_iff.1 there
  obtain ⟨e, m', captured, located, returned⟩ := reachable_throwing.locates_errors rfl 1 inside_throwing rfl throws error made
    (by rw [noJobs]; exact fun _ mem => absurd mem List.not_mem_nil)
  have innermost : Trace.scriptFrame? x.machine.frames.items = some thrower := by
    rw [frames]
    rfl
  have strategy : m'.options.strategy = .rethrow := by
    obtain rfl := (Prod.mk.inj captured).2
    decide +kernel
  obtain ⟨resource, line, column⟩ := located.place thrower innermost
  exact ⟨x, e, m', made, innermost, returned strategy, located.backtrace, resource, line, column⟩

/-- The program was at the same place when it threw the text, but the exception of the text tells where the script around
it was. -/
theorem text_misplaced :
    (∃ x ∈ (thrown "text").pointsWithin 1 throwing.machine, Trace.scriptFrame? x.machine.frames.items = some thrower ∧
      x.jobs.head?.isSome = true ∧ x.next.isNone = true) ∧
    ∃ e m', (Scope.evaluateScript ⟨0⟩ "text" "inner.js").Stops 1 throwing.machine (.script e) m' ∧
      e.frames = [around] ∧ e.resource = some "outer.js" ∧ e.line = 7 ∧ e.startColumn = 3 := by
  let m₁ := ((thrown "text").exec (Job.exec Job.routine 1) throwing.machine).2
  have throws : (thrown "text").Stops 1 throwing.machine ⟨.text "boom"⟩ m₁ := rfl
  have plain : m₁.payload? (.text "boom") = none := rfl
  have noJobs : (Scope.capture ⟨0⟩ ⟨.text "boom"⟩ : Routine BridgeError _).entered (Job.exec Job.routine 1) m₁ = [] := rfl
  obtain ⟨e, m', captured, located, returned⟩ := reachable_throwing.locates_values rfl 1 inside_throwing rfl throws
    (by rw [plain]; nofun) (by rw [noJobs]; exact fun _ mem => absurd mem List.not_mem_nil)
  have strategy : m'.options.strategy = .rethrow := by
    obtain rfl := (Prod.mk.inj captured).2
    decide +kernel
  obtain ⟨resource, line, column⟩ := located.place around rfl
  refine ⟨?_, e, m', returned strategy, located.backtrace, resource, line, column⟩
  decide +kernel

end Moment

end ScriptBridge
