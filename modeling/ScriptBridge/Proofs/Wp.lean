import ScriptBridge.Machine.Routine
import ScriptBridge.Proofs.Careful

/-!
# Weakest preconditions of routines

`Routine.wp` folds a routine: every action is proper where it is run and leaves at least some regions and
calls open, every job is entered where it may be, the behaviour of a function in a call of its own, and
what holds at the end is what a `Post` says. What jobs do is a `Contract`.

* `Routine.wp_bind`, `Routine.wp_attempt`, `Routine.wp_mapError`, `Routine.wp_ensuring`: the rules.
* `Routine.points`, `Job.points`: the points of a run, each with the machine there, the jobs under way and
  the action that comes next. `Point.After` says what holds at each of them.
* `Routine.exec_spec`: a run of the routine is a run of events that ends as the post-condition says, and
  so is each part of it.
* `Job.exec_spec`: if the routines of all jobs keep a contract, so do their runs, at any depth.

Proof-only: not reachable from `ScriptBridge.Session.Run`.
-/

namespace ScriptBridge

/-- When a job may be entered, and what holds when it has ended. -/
structure Contract where
  ready : {β : Type} → Job β → Machine → Prop
  ended : {β : Type} → Job β → Machine → Except Panic β → Machine → Prop

/-- Whether a job is the behaviour of a function. -/
def Job.isCall {β : Type} : Job β → Bool
  | .call .. => true
  | .perform .. | .make .. | .evaluate .. => false

/-- Whether a function stands for native code. -/
def Callable.isBridged : Callable → Bool
  | .method .. | .classMethod .. | .constructor .. | .closure .. => true
  | .builtin .. | .host .. => false

/-- Whether a job is a native body. -/
def Job.isNative {β : Type} : Job β → Bool
  | .perform .. => true
  | .call .. | .make .. | .evaluate .. => false

/-- What holds at each end of a routine. -/
structure Post (ε α : Type) where
  done : α → Machine → Prop
  thrown : ε → Machine → Prop
  panicked : Machine → Prop

/-- What holds when a run has ended, unless it ran out of depth. -/
def Post.Meets {ε α : Type} (Q : Post ε α) (out : Outcome ε α × Machine) : Prop :=
  match out.1 with
  | .done a => Q.done a out.2
  | .thrown e => Q.thrown e out.2
  | .panicked _ => Q.panicked out.2
  | .exhausted => True

namespace Routine

variable {ε ε' α β : Type} {C : Contract} {d : Depth} {m : Machine}

/-- What has to hold for a routine to run well. -/
def wp (C : Contract) (d : Depth) : Routine ε α → Post ε α → Machine → Prop
  | .pure a, Q, m => Q.done a m
  | .throw e, Q, m => Q.thrown e m
  | .panic _, Q, m => Q.panicked m
  | act a next, Q, m =>
    a.Proper m ∧ (a.run m).2.Above d ∧ (next (a.run m).1).wp C d Q (a.run m).2
  | enter j next, Q, m =>
    C.ready j m ∧ (j.isCall = true → d.calls < m.calls.items.length) ∧
      ∀ result m', C.ended j m result m' → m'.Above d ∧ (next result).wp C d Q m'

/-- After a job, what is done next may be replaced. -/
theorem wp_enter_imp {γ : Type} {j : Job γ} {next : Except Panic γ → Routine ε α}
    {next' : Except Panic γ → Routine ε' β} {Q : Post ε α} {Q' : Post ε' β} (wp : (enter j next).wp C d Q m)
    (imp : ∀ result {m'}, (next result).wp C d Q m' → (next' result).wp C d Q' m') :
    (enter j next').wp C d Q' m := by
  refine ⟨wp.1, wp.2.1, fun result m' ended => ?_⟩
  obtain ⟨stays, rest⟩ := wp.2.2 result m' ended
  exact ⟨stays, imp result rest⟩

/-- Less may be asked of the ends and of the open regions and calls. -/
theorem wp_mono {r : Routine ε α} {Q Q' : Post ε α} {d' : Depth} (wp : r.wp C d Q m)
    (le : d' ≤ d) (done : ∀ a m, Q.done a m → Q'.done a m)
    (thrown : ∀ e m, Q.thrown e m → Q'.thrown e m) (panicked : ∀ m, Q.panicked m → Q'.panicked m) :
    r.wp C d' Q' m := by
  induction r generalizing m with
  | pure a => exact done a m wp
  | throw e => exact thrown e m wp
  | panic payload => exact panicked m wp
  | act a next ih => exact ⟨wp.1, wp.2.1.mono le, ih _ wp.2.2⟩
  | enter j next ih =>
    refine ⟨wp.1, fun call => Nat.lt_of_le_of_lt le.2 (wp.2.1 call), fun result m' ended => ?_⟩
    obtain ⟨stays, rest⟩ := wp.2.2 result m' ended
    exact ⟨stays.mono le, ih result rest⟩

theorem wp_bind {r : Routine ε α} {f : α → Routine ε β} {Q : Post ε β}
    (wp : r.wp C d ⟨fun a m => (f a).wp C d Q m, Q.thrown, Q.panicked⟩ m) : (r >>= f).wp C d Q m := by
  change (r.bind f).wp C d Q m
  induction r generalizing m with
  | pure a => exact wp
  | throw e => exact wp
  | panic payload => exact wp
  | act a next ih => exact ⟨wp.1, wp.2.1, ih _ wp.2.2⟩
  | enter j next ih => exact wp_enter_imp wp ih

theorem wp_mapError {r : Routine ε α} {f : ε → ε'} {Q : Post ε' α}
    (wp : r.wp C d ⟨Q.done, fun e => Q.thrown (f e), Q.panicked⟩ m) : (r.mapError f).wp C d Q m := by
  induction r generalizing m with
  | pure a => exact wp
  | throw e => exact wp
  | panic payload => exact wp
  | act a next ih => exact ⟨wp.1, wp.2.1, ih _ wp.2.2⟩
  | enter j next ih => exact wp_enter_imp wp ih

theorem wp_attempt {r : Routine ε α} {Q : Post ε' (Except ε α)}
    (wp : r.wp C d ⟨fun a => Q.done (.ok a), fun e => Q.done (.error e), Q.panicked⟩ m) :
    (r.attempt : Routine ε' (Except ε α)).wp C d Q m := by
  induction r generalizing m with
  | pure a => exact wp
  | throw e => exact wp
  | panic payload => exact wp
  | act a next ih => exact ⟨wp.1, wp.2.1, ih _ wp.2.2⟩
  | enter j next ih => exact wp_enter_imp wp ih

/-- The action at the end runs however the routine ends. -/
theorem wp_ensuring {r : Routine ε α} {cleanup : Bool → Action Unit} {Q : Post ε α}
    (wp : r.wp C d
      ⟨fun a m => (cleanup false).Proper m ∧ ((cleanup false).run m).2.Above d ∧ Q.done a ((cleanup false).run m).2,
        fun e m => (cleanup false).Proper m ∧ ((cleanup false).run m).2.Above d ∧ Q.thrown e ((cleanup false).run m).2,
        fun m => (cleanup true).Proper m ∧ ((cleanup true).run m).2.Above d ∧ Q.panicked ((cleanup true).run m).2⟩ m) :
    (r.ensuring cleanup).wp C d Q m := by
  induction r generalizing m with
  | pure a => exact wp
  | throw e => exact wp
  | panic payload => exact wp
  | act a next ih => exact ⟨wp.1, wp.2.1, ih _ wp.2.2⟩
  | enter j next ih => exact wp_enter_imp wp ih

end Routine

/-! ## Runs -/

/-- A job, whatever it gives. -/
abbrev AnyJob : Type 1 := Σ β, Job β

/-- How many functions run among some jobs. -/
def openCalls (jobs : List AnyJob) : Nat := jobs.countP fun j => j.2.isCall

/-- A point of a run. -/
structure Point where
  machine : Machine
  /-- The jobs under way, innermost first. -/
  jobs : List AnyJob
  /-- The action that comes next, unless a routine ends here or its next job begins. -/
  next : Option (Σ β, Action β)

/-- The points of a run of a routine, in order, while some jobs are under way: its ends and those of its
actions, and the points of the jobs that it enters. -/
def Routine.points {ε α : Type} (job : {β : Type} → Job β → Machine → Outcome Empty β × Machine)
    (points : {β : Type} → Job β → Machine → List Point) (jobs : List AnyJob) :
    Routine ε α → Machine → List Point
  | .pure _, m | .throw _, m | .panic _, m => [⟨m, jobs, none⟩]
  | act a next, m => ⟨m, jobs, some ⟨_, a⟩⟩ :: (next (a.run m).1).points job points jobs (a.run m).2
  | enter j next, m =>
    points j m ++
      match job j m with
      | (.done b, m) => (next (.ok b)).points job points jobs m
      | (.panicked p, m) => (next (.error p)).points job points jobs m
      | (.thrown e, _) => nomatch e
      | (.exhausted, m) => [⟨m, jobs, none⟩]

/-- The points of a run of a job that is entered while others are under way. -/
def Job.points (routine : {β : Type} → Job β → Routine Empty β) :
    (depth : Nat) → List AnyJob → {β : Type} → Job β → Machine → List Point
  | 0, jobs, _, j, m => [⟨m, ⟨_, j⟩ :: jobs, none⟩]
  | depth + 1, jobs, _, j, m =>
    (routine j).points (Job.exec routine depth) (Job.points routine depth (⟨_, j⟩ :: jobs)) (⟨_, j⟩ :: jobs) m

/-- What holds at a point of a run that began at a moment, while some jobs were under way. -/
structure Point.After (x : Point) (d : Depth) (t : Moment) (jobs : List AnyJob) : Prop where
  becomes : t.Becomes d x.machine
  proper : ∀ {β : Type} {a : Action β}, x.next = some ⟨β, a⟩ → a.Proper x.machine
  /-- Each function that began to run since did so in a call of its own, which is still open. -/
  calls : d.calls + openCalls x.jobs ≤ x.machine.calls.items.length + openCalls jobs

namespace Point.After

variable {x : Point} {d : Depth} {t u : Moment} {jobs : List AnyJob}

/-- Where the routine itself is that was under way. -/
theorem here {m : Machine} {next : Option (Σ β, Action β)} (becomes : t.Becomes d m) (above : m.Above d)
    (proper : ∀ {β : Type} {a : Action β}, next = some ⟨β, a⟩ → a.Proper m) :
    (⟨m, jobs, next⟩ : Point).After d t jobs :=
  ⟨becomes, proper, Nat.add_le_add_right above.2 _⟩

theorem of_within (after : x.After d u jobs) (within : Moment.Within d t u) : x.After d t jobs :=
  ⟨after.becomes.of_within within, after.proper, after.calls⟩

/-- In a job that is entered on the way. -/
theorem of_job {β : Type} {j : Job β} (after : x.After t.machine.depth t (⟨β, j⟩ :: jobs)) (above : t.machine.Above d)
    (call : j.isCall = true → d.calls < t.machine.calls.items.length) : x.After d t jobs := by
  refine ⟨after.becomes.of_depth above, after.proper, ?_⟩
  have calls : t.machine.calls.items.length + openCalls x.jobs ≤
      x.machine.calls.items.length + openCalls (⟨β, j⟩ :: jobs) := after.calls
  have fewer : d.calls ≤ t.machine.calls.items.length := above.2
  unfold openCalls at calls ⊢
  rw [List.countP_cons] at calls
  split at calls
  · rename_i isCall
    have := call isCall
    omega
  · omega

end Point.After

/-- Runs of jobs keep a contract, and are runs of events. -/
structure Contract.Holds (C : Contract) (job : {β : Type} → Job β → Machine → Outcome Empty β × Machine)
    (points : List AnyJob → {β : Type} → Job β → Machine → List Point) : Prop where
  becomes : ∀ {β : Type} (j : Job β) (t : Moment), t.finishing = [] → C.ready j t.machine →
    t.Becomes t.machine.depth (job j t.machine).2
  meets : ∀ {β : Type} (j : Job β) (t : Moment), t.finishing = [] → C.ready j t.machine →
    Post.Meets ⟨fun b => C.ended j t.machine (.ok b), fun e => (nomatch e),
      fun m => ∀ p, C.ended j t.machine (.error p) m⟩ (job j t.machine)
  passed : ∀ (jobs : List AnyJob) {β : Type} (j : Job β) (t : Moment), t.finishing = [] → C.ready j t.machine →
    ∀ x ∈ points jobs j t.machine, x.After t.machine.depth t (⟨β, j⟩ :: jobs)

section

variable {ε α : Type} {C : Contract} {d : Depth}
  {job : {β : Type} → Job β → Machine → Outcome Empty β × Machine}
  {points : List AnyJob → {β : Type} → Job β → Machine → List Point}

/-- A run of a routine is a run of events, and what holds at its end is what was asked for. -/
theorem Routine.exec_spec (jobs : C.Holds job points) {r : Routine ε α} {Q : Post ε α} {t : Moment}
    (settled : t.finishing = []) (above : t.machine.Above d) (wp : r.wp C d Q t.machine) :
    t.Becomes d (r.exec job t.machine).2 ∧ Q.Meets (r.exec job t.machine) ∧
      ∀ underWay, ∀ x ∈ r.points job (points underWay) underWay t.machine, x.After d t underWay := by
  have ends (underWay : List AnyJob) (x : Point) (hx : x ∈ [⟨t.machine, underWay, none⟩]) : x.After d t underWay :=
    List.mem_singleton.1 hx ▸ .here (.refl settled) above nofun
  induction r generalizing t with
  | pure a => exact ⟨.refl settled, wp, ends⟩
  | throw e => exact ⟨.refl settled, wp, ends⟩
  | panic payload => exact ⟨.refl settled, wp, ends⟩
  | act a next ih =>
    obtain ⟨proper, stays, rest⟩ := wp
    have first := Moment.becomes_run settled proper.legal above stays
    obtain ⟨u, within, machine, settled'⟩ := first
    rw [← machine] at stays rest
    obtain ⟨becomes, meets, passed⟩ := ih _ settled' stays rest fun underWay x hx =>
      List.mem_singleton.1 hx ▸ .here (.refl settled') stays nofun
    have same : (act a next).exec job t.machine = (next (a.run t.machine).1).exec job u.machine := by
      rw [machine]
      rfl
    rw [same]
    refine ⟨becomes.of_within within, meets, fun underWay x hx => ?_⟩
    rcases List.mem_cons.1 hx with rfl | hx
    · refine .here (.refl settled) above fun same => ?_
      cases same
      exact proper
    · rw [← machine] at hx
      exact (passed underWay x hx).of_within within
  | enter j next ih =>
    obtain ⟨ready, call, rest⟩ := wp
    have becomes := (jobs.becomes j t settled ready).of_depth above
    have ended := jobs.meets j t settled ready
    -- The routine goes on where the job ended, unless that ran out of depth.
    have goOn (result : Except Panic _) (m : Machine) (becomes : t.Becomes d m)
        (h : C.ended j t.machine result m) : t.Becomes d ((next result).exec job m).2 ∧
          Q.Meets ((next result).exec job m) ∧
          ∀ underWay, ∀ x ∈ (next result).points job (points underWay) underWay m, x.After d t underWay := by
      obtain ⟨u, within, machine, settled'⟩ := becomes
      obtain ⟨stays, wp⟩ := rest result m h
      rw [← machine] at stays wp ⊢
      obtain ⟨becomes', meets, passed⟩ := ih result settled' stays wp fun underWay x hx =>
        List.mem_singleton.1 hx ▸ .here (.refl settled') stays nofun
      exact ⟨becomes'.of_within within, meets, fun underWay x hx => (passed underWay x hx).of_within within⟩
    have inside (underWay : List AnyJob) (x : Point) (hx : x ∈ points underWay j t.machine) :
        x.After d t underWay := (jobs.passed underWay j t settled ready x hx).of_job above call
    unfold exec Routine.points
    rcases out : job j t.machine with ⟨outcome, m'⟩
    rw [out] at becomes ended
    cases outcome with
    | done b =>
      obtain ⟨becomes', meets, passed⟩ := goOn (.ok b) m' becomes ended
      exact ⟨becomes', meets, fun underWay x hx => (List.mem_append.1 hx).elim (inside underWay x) (passed underWay x)⟩
    | thrown e => nomatch e
    | panicked p =>
      obtain ⟨becomes', meets, passed⟩ := goOn (.error p) m' becomes (ended p)
      exact ⟨becomes', meets, fun underWay x hx => (List.mem_append.1 hx).elim (inside underWay x) (passed underWay x)⟩
    | exhausted =>
      refine ⟨becomes, trivial, fun underWay x hx => (List.mem_append.1 hx).elim (inside underWay x) fun hx => ?_⟩
      exact List.mem_singleton.1 hx ▸ .here becomes (becomes.above above) nofun

end

/-- If the routines of all jobs keep a contract, so do their runs, however deep. -/
theorem Job.exec_spec {C : Contract} {routine : {β : Type} → Job β → Routine Empty β}
    (keeps : ∀ {β : Type} (j : Job β) (m : Machine), C.ready j m →
      (routine j).wp C m.depth ⟨fun b => C.ended j m (.ok b), fun e => (nomatch e),
        fun m' => ∀ p, C.ended j m (.error p) m'⟩ m) (depth : Nat) :
    C.Holds (Job.exec routine depth) (Job.points routine depth) := by
  induction depth with
  | zero =>
    refine ⟨fun j t settled _ => .refl settled, fun j t _ _ => trivial, fun jobs _ j t settled _ x hx => ?_⟩
    exact List.mem_singleton.1 hx ▸ .here (.refl settled) t.machine.above_depth nofun
  | succ depth ih =>
    have spec {β : Type} (j : Job β) (t : Moment) (settled : t.finishing = []) (ready : C.ready j t.machine) :=
      Routine.exec_spec ih settled t.machine.above_depth (keeps j t.machine ready)
    exact ⟨fun j t settled ready => (spec j t settled ready).1, fun j t settled ready => (spec j t settled ready).2.1,
      fun jobs _ j t settled ready => (spec j t settled ready).2.2 (⟨_, j⟩ :: jobs)⟩

end ScriptBridge
