import ScriptBridge.Proofs.Tidy.Session

/-!
# The stacks of the machine

A call, a construction and an evaluation leave every stack of the machine as it was, however they end: by a
value, a throw or a panic. Only the innermost region may have got handles. Steps in a region of their own
leave every stack as high as it was.

* `Machine.Restored`, `Machine.levels`: the stacks are those that were, or as high.
* `Point.After.collects`: a region whose end runs a collection is the last one, and no call is open.
* `Moment.Reachable.restores_stacks`: all of this, at every moment and at every point of a run.

Proof-only: not reachable from `ScriptBridge.Session.Run`.
-/

namespace ScriptBridge

namespace Machine

variable {m m' : Machine} {still : Bool}

/-- The stacks of a machine are those that were; the innermost region may have got further handles. -/
structure Restored (m m' : Machine) : Prop where
  frames : m'.frames = m.frames
  calls : m'.calls = m.calls
  current : m'.current = m.current
  regionDepth : m'.regionDepth = m.regionDepth
  regions : ∃ more, m'.regions = m.regions.modifyHead (Region.keep more)

theorem Kept.restored (kept : m.Kept true m') : m.Restored m' :=
  ⟨kept.place rfl, kept.calls, kept.current, kept.regionDepth, kept.regions⟩

/-- How high the stacks are: frames, calls, contexts that were entered, the counter of regions, and regions. -/
def levels (m : Machine) : Nat × Nat × Nat × Nat × Nat :=
  (m.frames.height, m.calls.height, m.current.length, m.regionDepth, m.regions.length)

theorem Balanced.levels (balanced : m.Balanced m') : m'.levels = m.levels := by
  obtain ⟨place, frames⟩ := balanced.frames
  obtain ⟨more, regions⟩ := balanced.regions
  have height : m'.frames.height = m.frames.height := by
    rw [frames]
    rcases m.frames with ⟨_ | ⟨_, _⟩, _, _⟩ <;> rfl
  unfold Machine.levels
  rw [height, balanced.calls, balanced.current, balanced.regionDepth, regions, List.length_modifyHead]

end Machine

/-- Whichever way a routine ends that keeps order, it has kept order. -/
theorem Ends.kept {ε α : Type} [Carries ε] {still : Bool} {m : Machine} {Q : α → Machine → Prop}
    {out : Outcome ε α × Machine} (meets : (Ends still m Q).Meets out) (ended : out.1 ≠ .exhausted) :
    m.Kept still out.2 := by
  obtain ⟨outcome, m'⟩ := out
  cases outcome with
  | done a => exact meets.2.1
  | thrown e => exact meets.2.1
  | panicked p => exact meets.2
  | exhausted => exact absurd rfl ended

/-- The operations that run a function or a source. -/
inductive Entry where
  | call (f this : Value) (args : List Value)
  | construct (f : Value) (args : List Value)
  | evaluate (source resource : String)

/-- What an operation does that runs a function or a source. -/
def Entry.routine (s : Scope) : Entry → Routine Thrown Value
  | .call f this args => s.call f this args
  | .construct f args => s.construct f args
  | .evaluate source resource => s.evaluate source resource

theorem Entry.routine_gives (e : Entry) {still : Bool} {s : Scope} {m : Machine} :
    (e.routine s).HandsOutAs still (some s) m := by
  cases e with
  | call f this args => exact Scope.call_gives
  | construct f args => exact Scope.construct_gives
  | evaluate source resource => exact Scope.evaluate_gives

namespace Point.After

variable {x : Point} {d : Depth} {t : Moment} {jobs : List AnyJob}

/-- The invariant holds at every point of a run. -/
theorem machine_settled (after : x.After d t jobs) (sound : t.Sound) : x.machine.Settled := by
  obtain ⟨u, within, machine, settled⟩ := after.becomes
  exact machine ▸ (sound.leads within.leads).settled settled

/-- When the end of a region runs a collection, no region is left and no call is open. -/
theorem collects (after : x.After d t jobs) (sound : t.Sound) {panicking : Bool}
    (next : x.next = some ⟨Unit, .closeRegion panicking⟩) (collects : (Action.closeRegion panicking).Collects x.machine) :
    x.machine.leaveRegion.regions = [] ∧ x.machine.calls.items = [] := by
  obtain ⟨open_, last, -⟩ := collects
  have last : x.machine.regionDepth - 1 = 0 := last
  have counted : x.machine.regionDepth = x.machine.regions.length := (after.machine_settled sound).counted.1
  have some : 0 < x.machine.regions.length := List.length_pos_of_ne_nil open_
  have one : x.machine.regions.length = 1 := by omega
  refine ⟨List.eq_nil_of_length_eq_zero ?_, (after.proper next).legal one⟩
  change x.machine.regions.tail.length = 0
  rw [List.length_tail, one]

end Point.After

/-- The invariant holds at every point of a session. -/
theorem Session.settled_points {options : Options} {now : Int} {steps : List Program.Step} {depth : Nat} {x : Point}
    (mem : x ∈ points options now steps depth) : x.machine.Settled :=
  (after_points mem).machine_settled (.start options now)

namespace Moment

variable {t : Moment}

/-- Calls, constructions and evaluations restore the stacks, and steps in a region restore their heights. At
every point of a run the counter and the contexts go along with the regions, and a collection that the end of
a region runs starts when no region and no call is open. -/
theorem Reachable.restores_stacks (reachable : t.Reachable) (settled : t.finishing = []) (depth : Nat) :
    (∀ s, t.machine.Inside (some s) → ∀ e : Entry,
      let out := (e.routine s).exec (Job.exec Job.routine depth) t.machine
      out.1 ≠ .exhausted → t.machine.Restored out.2) ∧
    ∀ env, t.machine.Inside env.scope →
      (∀ record ctx steps,
        let out := (Session.runStep env record (.execute ctx steps)).exec (Job.exec Job.routine depth) t.machine
        out.1 ≠ .exhausted → out.2.levels = t.machine.levels) ∧
      ∀ steps, ∀ x ∈ (Session.recordSteps env steps []).points (Job.exec Job.routine depth)
          (Job.points Job.routine depth []) [] t.machine,
        x.machine.regionDepth = x.machine.regions.length ∧
        x.machine.current = x.machine.regions.map Region.context ∧
        ∀ panicking, x.next = some ⟨Unit, .closeRegion panicking⟩ →
          (Action.closeRegion panicking).Collects x.machine →
          x.machine.leaveRegion.regions = [] ∧ x.machine.calls.items = [] := by
  have sound := reachable.sound
  refine ⟨?_, fun env inside => ⟨?_, ?_⟩⟩
  · intro s inside e out ended
    have gives : (e.routine s).HandsOutAs true (some s) t.machine := e.routine_gives
    exact (Ends.kept (gives.exec depth sound settled inside).2.1 ended).restored
  · intro record ctx steps out ended
    have tidy := Session.runStep_tidy env record (.execute ctx steps) t.machine
    have meets := (Routine.GivesFrom.exec tidy depth sound settled inside).2.1
    exact (Ends.kept meets ended).toBalanced.levels
  · intro steps x mem
    have tidy := Session.recordSteps_tidy env steps [] t.machine
    have after := (Routine.GivesFrom.exec tidy depth sound settled inside).2.2 [] x mem
    have counted := (after.machine_settled sound).counted
    exact ⟨counted.1, counted.2, fun panicking next => after.collects sound next⟩

/-- A function that panics. -/
def bursting : Moment := opened.after (.allocate ⟨.function ⟨"burst", .host body false, 0⟩, [], none⟩)
where
  body : Program.Body := [.native (.panic "boom") none]

theorem reachable_bursting : bursting.Reachable :=
  reachable_opened.after (a := .allocate ⟨.function ⟨"burst", .host bursting.body false, 0⟩, [], none⟩) rfl id

/-- Its panic goes through the call, and the stacks are as they were. -/
theorem restores_bursting :
    let out := ((Entry.call (.object ⟨1, 0⟩) .undefined []).routine ⟨0⟩).exec (Job.exec Job.routine 1) bursting.machine
    out.1 = .panicked ⟨some "boom"⟩ ∧ bursting.machine.Restored out.2 := by
  intro out
  have inside : bursting.machine.Inside (some ⟨0⟩) :=
    Machine.inside_of_mem ⟨0, [⟨1, 0⟩]⟩ (List.mem_singleton_self _)
  have panics : out.1 = .panicked ⟨some "boom"⟩ := rfl
  have restores := (reachable_bursting.restores_stacks rfl 1).1 ⟨0⟩ inside (.call (.object ⟨1, 0⟩) .undefined [])
  exact ⟨panics, restores fun exhausted => nomatch panics.symm.trans exhausted⟩

end Moment

end ScriptBridge
