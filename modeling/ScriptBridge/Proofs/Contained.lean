import ScriptBridge.Proofs.Collection
import ScriptBridge.Proofs.Failures

/-!
# Containing native failures

A routine contains native failures if a native body that it enters and that fails, by an exception or by a
panic, makes it fail with what tells of that exception. It panics only because a job panicked that is no native
body.

* `Routine.entered`: the jobs that a run of a routine enters, with their ends. `Routine.Runs`: a run with its jobs.
* `Contained`: what holds of the jobs and of the end of a run.
* `Routine.Contains`: the judgement, and the rules for it, one for each way to build a routine.

Proof-only: not reachable from `ScriptBridge.Session.Run`.
-/

namespace ScriptBridge

/-! ## The jobs of a run -/

/-- A job that a run entered, with its end. -/
structure Entered where
  {β : Type}
  job : Job β
  outcome : Outcome Empty β

/-- The exception that a native body fails with: what it raised, or what its panic becomes. -/
def Job.failure? : {β : Type} → Job β → Outcome Empty β → Option NativeException
  | _, .perform .., .done (.error e) => some e
  | _, .perform .., .panicked p => some (.ofPanic p.payload)
  | _, _, _ => none

namespace Routine

variable {ε ε' α β : Type} {m : Machine}

/-- The jobs that a run of a routine enters, in order. -/
def entered (job : Runner) : Routine ε α → Machine → List Entered
  | .pure _, _ | .throw _, _ | .panic _, _ => []
  | act a next, m => (next (a.run m).1).entered job (a.run m).2
  | enter j next, m =>
    ⟨j, (job j m).1⟩ ::
      match job j m with
      | (.done b, m) => (next (.ok b)).entered job m
      | (.panicked p, m) => (next (.error p)).entered job m
      | (.thrown e, _) => nomatch e
      | (.exhausted, _) => []

theorem entered_enter (job : Runner) (j : Job β) (next : Except Panic β → Routine ε α) (m : Machine) :
    (enter j next).entered job m = ⟨j, (job j m).1⟩ ::
      match job j m with
      | (.done b, m) => (next (.ok b)).entered job m
      | (.panicked p, m) => (next (.error p)).entered job m
      | (.thrown e, _) => nomatch e
      | (.exhausted, _) => [] := by
  rcases reply : job j m with ⟨outcome, m'⟩
  cases outcome with
  | thrown e => nomatch e
  | done | panicked | exhausted => simp only [entered, reply]

/-- After a job, what is done next may be replaced. -/
theorem entered_enter_map {γ : Type} {job : Runner} {j : Job γ} {next : Except Panic γ → Routine ε α}
    {next' : Except Panic γ → Routine ε' β}
    (same : ∀ result m, (next' result).entered job m = (next result).entered job m) :
    (enter j next').entered job m = (enter j next).entered job m := by
  rw [entered_enter, entered_enter]
  congr 1
  rcases job j m with ⟨outcome, m'⟩
  cases outcome with
  | done b => exact same _ _
  | thrown e => nomatch e
  | panicked p => exact same _ _
  | exhausted => rfl

theorem entered_mapError (job : Runner) (f : ε → ε') (r : Routine ε α) (m : Machine) :
    (r.mapError f).entered job m = r.entered job m := by
  induction r generalizing m with
  | pure | throw | panic => rfl
  | act a next ih => exact ih _ _
  | enter j next ih => exact entered_enter_map ih

theorem entered_attempt (job : Runner) (r : Routine ε α) (m : Machine) :
    (r.attempt : Routine ε' (Except ε α)).entered job m = r.entered job m := by
  induction r generalizing m with
  | pure | throw | panic => rfl
  | act a next ih => exact ih _ _
  | enter j next ih => exact entered_enter_map ih

theorem entered_ensuring (job : Runner) (cleanup : Bool → Action Unit) (r : Routine ε α) (m : Machine) :
    (r.ensuring cleanup).entered job m = r.entered job m := by
  induction r generalizing m with
  | pure | throw | panic => rfl
  | act a next ih => exact ih _ _
  | enter j next ih => exact entered_enter_map ih

/-- The jobs of what comes next, after a run that gave a value. -/
theorem entered_bind (job : Runner) (r : Routine ε α) (f : α → Routine ε β) (m : Machine) :
    (r >>= f).entered job m = r.entered job m ++
      match r.exec job m with
      | (.done a, m) => (f a).entered job m
      | _ => [] := by
  change (r.bind f).entered job m = _
  induction r generalizing m with
  | pure | throw | panic => rfl
  | act a next ih => exact ih _ _
  | enter j next ih =>
    unfold Routine.bind
    rw [exec_enter, entered_enter, entered_enter, List.cons_append]
    congr 1
    rcases job j m with ⟨outcome, m'⟩
    cases outcome with
    | done b => exact ih _ _
    | thrown e => nomatch e
    | panicked p => exact ih _ _
    | exhausted => rfl

theorem entered_bind_of_none {job : Runner} {r : Routine ε α} {f : α → Routine ε β}
    (none : ∀ a m, (f a).entered job m = []) : (r >>= f).entered job m = r.entered job m := by
  rw [entered_bind]
  rcases r.exec job m with ⟨outcome, m'⟩
  cases outcome with
  | done a =>
    dsimp only
    rw [none, List.append_nil]
  | thrown | panicked | exhausted => rw [List.append_nil]

/-- A look at the machine enters no job. -/
theorem entered_look {job : Runner} {f : Machine → α} {next : α → Routine ε β} {a : α} (seen : f m = a) :
    (read f >>= next).entered job m = (next a).entered job m := by
  subst seen
  rfl

theorem entered_job (job : Runner) (j : Job α) (m : Machine) :
    (Routine.job j : Routine ε α).entered job m = [⟨j, (job j m).1⟩] := by
  unfold Routine.job
  rw [entered_enter]
  rcases job j m with ⟨outcome, m'⟩
  cases outcome with
  | thrown e => nomatch e
  | done | panicked | exhausted => rfl

/-- What a routine gives however jobs run, it gives without any. -/
theorem Returns.enters_nothing {r : Routine ε α} {a : α} {m' : Machine} (returns : r.Returns m a m') (job : Runner) :
    r.entered job m = [] := by
  induction r generalizing m with
  | pure | throw | panic => rfl
  | act b next ih => exact ih _ fun job => returns job
  | enter j next ih =>
    -- Jobs that are all cut short would cut the routine short.
    have cut := returns fun {_} _ m => (.exhausted, m)
    rw [exec_enter] at cut
    nomatch cut

/-- So it is with what it throws. -/
theorem Throws.enters_nothing {r : Routine ε α} {e : ε} {m' : Machine} (throws : r.Throws m e m') (job : Runner) :
    r.entered job m = [] := by
  induction r generalizing m with
  | pure | throw | panic => rfl
  | act b next ih => exact ih _ fun job => throws job
  | enter j next ih =>
    have cut := throws fun {_} _ m => (.exhausted, m)
    rw [exec_enter] at cut
    nomatch cut

/-- A run of a routine: the jobs that it enters, and how it ends. -/
structure Runs (r : Routine ε α) (job : Runner) (m : Machine) (jobs : List Entered) (out : Outcome ε α × Machine) :
    Prop where
  entered : r.entered job m = jobs
  ends : r.exec job m = out

namespace Runs

variable {job : Runner} {r : Routine ε α} {f : α → Routine ε β} {jobs jobs' : List Entered} {a : α} {m₁ : Machine}

theorem self (r : Routine ε α) (job : Runner) (m : Machine) : r.Runs job m (r.entered job m) (r.exec job m) := ⟨rfl, rfl⟩

theorem of_returns (returns : r.Returns m a m₁) : r.Runs job m [] (.done a, m₁) :=
  ⟨returns.enters_nothing job, returns job⟩

theorem of_throws {e : ε} (throws : r.Throws m e m₁) : r.Runs job m [] (.thrown e, m₁) :=
  ⟨throws.enters_nothing job, throws job⟩

theorem after {out : Outcome ε β × Machine} (first : r.Runs job m jobs (.done a, m₁))
    (next : (f a).Runs job m₁ jobs' out) : (r >>= f).Runs job m (jobs ++ jobs') out where
  entered := by
    rw [entered_bind, first.entered, first.ends]
    exact congrArg (jobs ++ ·) next.entered
  ends := exec_bind_of_done first.ends next.ends

/-- What comes after something that throws is not run. -/
theorem thrown {e : ε} (first : r.Runs job m jobs (.thrown e, m₁)) : (r >>= f).Runs job m jobs (.thrown e, m₁) where
  entered := by rw [entered_bind, first.entered, first.ends, List.append_nil]
  ends := by
    rw [exec_bind, first.ends]
    rfl

theorem panicked {p : Panic} (first : r.Runs job m jobs (.panicked p, m₁)) :
    (r >>= f).Runs job m jobs (.panicked p, m₁) where
  entered := by rw [entered_bind, first.entered, first.ends, List.append_nil]
  ends := exec_bind_of_panicked first.ends

theorem exhausted (first : r.Runs job m jobs (.exhausted, m₁)) : (r >>= f).Runs job m jobs (.exhausted, m₁) where
  entered := by rw [entered_bind, first.entered, first.ends, List.append_nil]
  ends := by
    rw [exec_bind, first.ends]
    rfl

theorem attempt {out : Outcome ε α × Machine} (run : r.Runs job m jobs out) :
    (r.attempt : Routine ε' (Except ε α)).Runs job m jobs (out.1.attempt, out.2) where
  entered := (entered_attempt job r m).trans run.entered
  ends := by rw [exec_attempt, run.ends]

theorem ensuring {cleanup : Bool → Action Unit} {out : Outcome ε α × Machine} (run : r.Runs job m jobs out) :
    (r.ensuring cleanup).Runs job m jobs (Outcome.closing cleanup out) where
  entered := (entered_ensuring job cleanup r m).trans run.entered
  ends := by rw [exec_ensuring, run.ends]

end Runs

end Routine

/-! ## Heaps -/

/-- Every action keeps the books of the heap right. -/
theorem Action.heap_run {β : Type} (a : Action β) {m : Machine} (heap : m.heap.Sound) : (a.run m).2.heap.Sound := by
  have side := a.run_nativeSide m
  cases a with
  | read | openRegion | beginCall | endCall | pushFrame | popFrame | position | addSource | openHold | closeHold
  | holdContext | releaseContext | addContext | addTemplate | addNative | addManaged | setOptions | setEvaluator
  | tables => exact heap
  | allocate o | addWrapper _ _ o =>
    simp only [run, Machine.register, Machine.allocate_eq]
    exact heap.allocate o
  | edit r e => exact heap.edit r e
  | track v =>
    obtain ⟨_, eq, -⟩ := run_track m v
    rw [eq]
    exact heap
  | hold | setCell | addOwner | removeOwner =>
    obtain ⟨_, _, _, eq⟩ := side rfl
    rw [eq]
    exact heap
  | collect =>
    change m.collect.2.heap.Sound
    rw [m.heap_collect]
    exact heap.reclaim _
  | closeRegion panicking =>
    change (m.closeRegion panicking).heap.Sound
    unfold Machine.closeRegion
    split
    · exact heap
    · split
      · change ((m.leaveRegion.holdContext _).collect.2).heap.Sound
        rw [Machine.heap_collect]
        exact Heap.Sound.reclaim heap _
      · exact heap

/-- Jobs keep the books of the heap right. -/
def Runner.Keeps (job : Runner) : Prop :=
  ∀ {β : Type} (j : Job β) (m : Machine), m.heap.Sound → (job j m).2.heap.Sound

/-- So does what is made of such jobs. -/
theorem Routine.exec_heap {ε α : Type} {job : Runner} (keeps : Runner.Keeps job) (r : Routine ε α) {m : Machine}
    (heap : m.heap.Sound) : (r.exec job m).2.heap.Sound := by
  induction r generalizing m with
  | pure | throw | panic => exact heap
  | act a next ih => exact ih _ (a.heap_run heap)
  | enter j next ih =>
    have heap' : (job j m).2.heap.Sound := keeps j m heap
    rw [exec_enter]
    rcases ended : job j m with ⟨outcome, m'⟩
    rw [ended] at heap'
    cases outcome with
    | done b => exact ih _ heap'
    | thrown e => nomatch e
    | panicked p => exact ih _ heap'
    | exhausted => exact heap'

theorem Job.exec_keeps (depth : Nat) : Runner.Keeps (Job.exec Job.routine depth) := by
  induction depth with
  | zero => exact fun _ _ heap => heap
  | succ depth ih => exact fun j _ heap => j.routine.exec_heap ih heap

/-! ## Ends -/

namespace Outcome

variable {ε ε' α : Type} {o : Outcome ε α} {p : Panic}

/-- Panics cannot be caught. -/
theorem attempt_eq_panicked : (o.attempt : Outcome ε' (Except ε α)) = .panicked p ↔ o = .panicked p := by
  cases o <;> simp [attempt]

theorem closing_fst (cleanup : Bool → Action Unit) (out : Outcome ε α × Machine) :
    (closing cleanup out).1 = out.1 := by
  obtain ⟨o, m⟩ := out
  cases o <;> rfl

end Outcome

/-! ## The judgement -/

/-- What a run made of the jobs that it entered: a native body that failed made it fail with what tells of that, and
only a job that is no native body made it panic. -/
structure Contained {ε α : Type} [Fails ε] (jobs : List Entered) (out : Outcome ε α × Machine) : Prop where
  fails : ∀ x ∈ jobs, ∀ e, x.job.failure? x.outcome = some e →
    ∃ failed, out.1 = .thrown failed ∧ (Origin.native e).Bears out.2 (failure failed)
  panics : ∀ p, out.1 = .panicked p → ∃ x ∈ jobs, x.job.isNative = false ∧ x.outcome = .panicked p

/-- The same, where there may have to be no native body at all. -/
structure ContainedAs {ε α : Type} [Fails ε] (hosted : Bool) (jobs : List Entered) (out : Outcome ε α × Machine) : Prop
    extends Contained jobs out where
  hosts : hosted = true → ∀ x ∈ jobs, x.job.isNative = false

/-- The routine contains what native bodies fail with, and perhaps enters none. -/
def Routine.Contains {ε α : Type} [Fails ε] (hosted : Bool) (r : Routine ε α) : Prop :=
  ∀ (job : Runner), Runner.Keeps job → ∀ m : Machine, m.heap.Sound → ContainedAs hosted (r.entered job m) (r.exec job m)

/-- Only native bodies fail so. -/
theorem Job.isNative_of_failure? {β : Type} {j : Job β} {outcome : Outcome Empty β} {e : NativeException}
    (failed : j.failure? outcome = some e) : j.isNative = true := by
  cases j with
  | perform => rfl
  | call | make | evaluate => nomatch failed

namespace ContainedAs

variable {ε ε' α β : Type} [Fails ε] [Fails ε'] {hosted : Bool} {jobs more : List Entered}

/-- Where no native body was entered, only panics matter. -/
theorem of_hosts {out : Outcome ε α × Machine} (hosts : ∀ x ∈ jobs, x.job.isNative = false)
    (panics : ∀ p, out.1 = .panicked p → ∃ x ∈ jobs, x.job.isNative = false ∧ x.outcome = .panicked p) :
    ContainedAs hosted jobs out where
  fails x mem e failed := by
    have native := Job.isNative_of_failure? failed
    rw [hosts x mem] at native
    nomatch native
  panics := panics
  hosts _ := hosts

theorem none {out : Outcome ε α × Machine} (calm : ∀ p, out.1 ≠ .panicked p) : ContainedAs hosted [] out :=
  of_hosts (fun _ mem => absurd mem List.not_mem_nil) fun p panicked => absurd panicked (calm p)

/-- After a part that gave a value, the rest decides. -/
theorem after {a : α} {m : Machine} {out : Outcome ε' β × Machine}
    (first : ContainedAs hosted jobs ((.done a, m) : Outcome ε α × Machine)) (rest : ContainedAs hosted more out) :
    ContainedAs hosted (jobs ++ more) out where
  fails x mem e failed := by
    rcases List.mem_append.1 mem with mem | mem
    · obtain ⟨_, ended, -⟩ := first.fails x mem e failed
      nomatch ended
    · exact rest.fails x mem e failed
  panics p panicked := by
    obtain ⟨x, mem, found⟩ := rest.panics p panicked
    exact ⟨x, List.mem_append_right _ mem, found⟩
  hosts only x mem := (List.mem_append.1 mem).elim (first.hosts only x) (rest.hosts only x)

/-- A panic goes on. -/
theorem panicked {p : Panic} {m m' : Machine} (h : ContainedAs hosted jobs ((.panicked p, m) : Outcome ε α × Machine)) :
    ContainedAs hosted jobs ((.panicked p, m') : Outcome ε' β × Machine) where
  fails x mem e failed := by
    obtain ⟨_, ended, -⟩ := h.fails x mem e failed
    nomatch ended
  panics q panicked := by
    cases panicked
    exact h.panics _ rfl
  hosts := h.hosts

/-- So does the end of a run that is cut short. -/
theorem exhausted {m m' : Machine} (h : ContainedAs hosted jobs ((.exhausted, m) : Outcome ε α × Machine)) :
    ContainedAs hosted jobs ((.exhausted, m') : Outcome ε' β × Machine) where
  fails x mem e failed := by
    obtain ⟨_, ended, -⟩ := h.fails x mem e failed
    nomatch ended
  panics _ panicked := nomatch panicked
  hosts := h.hosts

/-- So does what is thrown, as long as it tells of the same failure. -/
theorem thrown {e : ε} {e' : ε'} {m m' : Machine} (h : ContainedAs hosted jobs ((.thrown e, m) : Outcome ε α × Machine))
    (bears : ∀ exc, (Origin.native exc).Bears m (failure e) → (Origin.native exc).Bears m' (failure e')) :
    ContainedAs hosted jobs ((.thrown e', m') : Outcome ε' β × Machine) where
  fails x mem exc failed := by
    obtain ⟨_, ended, told⟩ := h.fails x mem exc failed
    cases ended
    exact ⟨e', rfl, bears exc told⟩
  panics _ panicked := nomatch panicked
  hosts := h.hosts

end ContainedAs

namespace Routine.Contains

variable {ε ε' α β : Type} [Fails ε] [Fails ε'] {hosted : Bool}

theorem pure {a : α} : (Pure.pure a : Routine ε α).Contains hosted :=
  fun _ _ _ _ => .none fun _ panicked => nomatch panicked

theorem throw {e : ε} : (Routine.throw e : Routine ε α).Contains hosted :=
  fun _ _ _ _ => .none fun _ panicked => nomatch panicked

theorem act {a : Action β} {next : β → Routine ε α} (rest : ∀ b, (next b).Contains hosted) :
    (Routine.act a next).Contains hosted :=
  fun job keeps _ heap => rest _ job keeps _ (a.heap_run heap)

theorem perform {a : Action α} : (Routine.perform a : Routine ε α).Contains hosted := act fun _ => pure

theorem read {f : Machine → α} : (Routine.read f : Routine ε α).Contains hosted := perform

theorem hold {v : NativeValue} : (Routine.hold v : Routine ε Unit).Contains hosted := perform

theorem bind {x : Routine ε α} {f : α → Routine ε β} (first : x.Contains hosted) (next : ∀ a, (f a).Contains hosted) :
    (x >>= f).Contains hosted := by
  intro job keeps m heap
  have h := first job keeps m heap
  have heap' := x.exec_heap keeps heap
  rw [entered_bind, exec_bind]
  rcases run : x.exec job m with ⟨outcome, m'⟩
  rw [run] at h heap'
  cases outcome with
  | done a => exact h.after (next a job keeps m' heap')
  | thrown e =>
    rw [List.append_nil]
    exact h.thrown fun _ bears => bears
  | panicked p =>
    rw [List.append_nil]
    exact h.panicked
  | exhausted =>
    rw [List.append_nil]
    exact h.exhausted

/-! ### Failures -/

theorem mapError {r : Routine ε α} {f : ε → ε'} (h : r.Contains hosted) (same : ∀ e, failure (f e) = failure e) :
    (r.mapError f).Contains hosted := by
  intro job keeps m heap
  have h := h job keeps m heap
  rw [entered_mapError, exec_mapError]
  rcases run : r.exec job m with ⟨outcome, m'⟩
  rw [run] at h
  cases outcome with
  | done a =>
    rw [← List.append_nil (r.entered job m)]
    exact h.after (.none fun _ panicked => nomatch panicked)
  | thrown e => exact h.thrown fun _ bears => (same e).symm ▸ bears
  | panicked p => exact h.panicked
  | exhausted => exact h.exhausted

/-- What scripts do, an operation of the bridge does. -/
theorem lift {r : Routine Thrown α} (h : r.Contains hosted) : (liftM r : Routine Fault α).Contains hosted :=
  h.mapError fun _ => rfl

/-- A failure may be caught where no native body was entered. -/
theorem attempt {r : Routine ε α} (h : r.Contains true) :
    (r.attempt : Routine ε' (Except ε α)).Contains hosted := by
  intro job keeps m heap
  obtain ⟨⟨-, panics⟩, hosts⟩ := h job keeps m heap
  rw [entered_attempt, exec_attempt]
  exact .of_hosts (hosts rfl) fun p panicked => panics p (Outcome.attempt_eq_panicked.1 panicked)

/-! ### Jobs -/

/-- A job that is no native body; its panic goes on. -/
theorem job {j : Job α} (host : j.isNative = false) : (Routine.job j : Routine ε α).Contains hosted := by
  intro job keeps m heap
  unfold Routine.job
  rw [entered_enter, exec_enter]
  rcases ended : job j m with ⟨outcome, m'⟩
  have hosts : ∀ x ∈ [(⟨j, outcome⟩ : Entered)], x.job.isNative = false := fun x mem => List.mem_singleton.1 mem ▸ host
  cases outcome with
  | done b => exact .of_hosts hosts fun _ panicked => nomatch panicked
  | thrown e => nomatch e
  | panicked p =>
    refine .of_hosts hosts fun q panicked => ⟨_, List.mem_singleton_self _, host, ?_⟩
    exact congrArg Outcome.panicked (Outcome.panicked.inj panicked)
  | exhausted => exact .of_hosts hosts fun _ panicked => nomatch panicked

/-- A native body: what it fails with is a fault of the bridge. -/
theorem runNative {body : Program.Body} {receiver : Receiver} {args : List NativeValue} :
    (Scope.runNative body receiver args).Contains false := by
  intro job keeps m heap
  unfold Scope.runNative
  rw [entered_enter, exec_enter]
  rcases ended : job (.perform body receiver args) m with ⟨outcome, m'⟩
  let entry : Entered := ⟨.perform body receiver args, outcome⟩
  have contained {out : Outcome Fault NativeValue × Machine} (calm : ∀ p, out.1 ≠ .panicked p)
      (fails : ∀ e, entry.job.failure? entry.outcome = some e → out.1 = .thrown (.error (.native e))) :
      ContainedAs false [entry] out := by
    refine ⟨⟨fun x mem e failed => ?_, fun p panicked => absurd panicked (calm p)⟩, nofun⟩
    cases List.mem_singleton.1 mem
    exact ⟨_, fails e failed, rfl⟩
  cases outcome with
  | done result =>
    cases result with
    | ok v => exact contained (fun _ panicked => nomatch panicked) fun _ failed => nomatch failed
    | error e =>
      exact contained (fun _ panicked => nomatch panicked) fun e failed => by
        cases failed
        rfl
  | thrown e => nomatch e
  | panicked p =>
    exact contained (fun _ panicked => nomatch panicked) fun e failed => by
      cases failed
      rfl
  | exhausted => exact contained (fun _ panicked => nomatch panicked) fun _ failed => nomatch failed

/-! ### Brackets -/

theorem ensuring {r : Routine ε α} {cleanup : Bool → Action Unit} (h : r.Contains hosted)
    (quiet : ∀ m, ((cleanup false).run m).2.heap = m.heap) : (r.ensuring cleanup).Contains hosted := by
  intro job keeps m heap
  obtain ⟨⟨fails, panics⟩, hosts⟩ := h job keeps m heap
  rw [entered_ensuring, exec_ensuring]
  refine ⟨⟨fun x mem e failed => ?_, fun p panicked => panics p ?_⟩, hosts⟩
  · obtain ⟨t, ended, bears⟩ := fails x mem e failed
    refine ⟨t, (Outcome.closing_fst _ _).trans ended, ?_⟩
    rcases run : r.exec job m with ⟨outcome, m'⟩
    rw [run] at ended bears
    cases ended
    exact bears.of_heap (quiet m')
  · exact (Outcome.closing_fst _ _).symm.trans panicked

/-- Where no native body is entered, what is done at the end may run a collection. -/
theorem ensuringHosted {r : Routine ε α} {cleanup : Bool → Action Unit} (h : r.Contains true) :
    (r.ensuring cleanup).Contains hosted := by
  intro job keeps m heap
  obtain ⟨⟨-, panics⟩, hosts⟩ := h job keeps m heap
  rw [entered_ensuring, exec_ensuring]
  exact .of_hosts (hosts rfl) fun p panicked => panics p ((Outcome.closing_fst _ _).symm.trans panicked)

theorem inRegion {r : Routine ε α} {context : Nat} (h : r.Contains true) :
    (Routine.inRegion context r).Contains hosted := act fun _ => h.ensuringHosted

theorem inCall {r : Routine ε α} {c : CallRecord} {f : Frame} (h : r.Contains hosted) :
    (Routine.inCall c f r).Contains hosted := act fun _ => h.ensuring fun _ => rfl

theorem holding {r : Routine ε α} {vs : List NativeValue} (h : r.Contains hosted) :
    (Routine.holding vs r).Contains hosted := by
  have held : (vs.foldr (fun v rest => Routine.act (.hold v) fun _ => rest) r).Contains hosted := by
    induction vs with
    | nil => exact h
    | cons v vs ih => exact act fun _ => ih
  exact act fun _ => held.ensuring fun _ => rfl

/-! ### Lists -/

theorem forM {l : List β} {f : β → Routine ε PUnit} (h : ∀ b, (f b).Contains hosted) :
    (l.forM f).Contains hosted := by
  induction l with
  | nil => exact pure
  | cons b l ih => exact bind (h b) fun _ => ih

theorem mapM_loop {l : List β} {f : β → Routine ε α} {done : List α} (h : ∀ b ∈ l, (f b).Contains hosted) :
    (List.mapM.loop f l done).Contains hosted := by
  induction l generalizing done with
  | nil => exact pure
  | cons b l ih =>
    exact bind (h b List.mem_cons_self) fun _ => ih fun b' mem => h b' (List.mem_cons_of_mem b mem)

theorem mapM {l : List β} {f : β → Routine ε α} (h : ∀ b ∈ l, (f b).Contains hosted) :
    (l.mapM f).Contains hosted := mapM_loop h

/-! ### Into a script -/

/-- A fault becomes something thrown, and no job is entered for that. -/
theorem raise_throws (job : Runner) (s : Scope) (fault : Fault) (m : Machine) :
    (s.raise fault >>= fun t => Routine.throw t : Routine Thrown α).entered job m = [] ∧
      ∃ t m', (s.raise fault >>= fun t => Routine.throw t : Routine Thrown α).exec job m = (.thrown t, m') := by
  cases fault with
  | thrown t => exact ⟨rfl, _, _, rfl⟩
  | error e =>
    cases e with
    | script e =>
      obtain ⟨name, message, resource, line, startColumn, endColumn, sourceLine, native, frames⟩ := e
      cases native with
      | some cause => exact ⟨rfl, _, _, rfl⟩
      | none => exact ⟨rfl, _, _, rfl⟩
    | native | conversion | dispatch | alreadyRunning | config => exact ⟨rfl, _, _, rfl⟩

/-- What the bridge fails with is thrown into the script. -/
theorem raising {r : Routine Fault α} {s : Scope} (h : r.Contains hosted) : (s.raising r).Contains hosted := by
  intro job keeps m heap
  have h := h job keeps m heap
  have heap' := r.exec_heap keeps heap
  unfold Scope.raising
  rw [entered_bind, exec_bind, exec_attempt, entered_attempt]
  rcases run : r.exec job m with ⟨outcome, m'⟩
  rw [run] at h heap'
  cases outcome with
  | done a => exact h.after (.none fun _ panicked => nomatch panicked)
  | thrown fault =>
    obtain ⟨none, t, m'', throws⟩ := raise_throws (α := α) job s fault m'
    change ContainedAs hosted (_ ++ (s.raise fault >>= fun t => Routine.throw t : Routine Thrown α).entered job m')
      ((s.raise fault >>= fun t => Routine.throw t : Routine Thrown α).exec job m')
    rw [none, List.append_nil, throws]
    refine h.thrown fun e bears => ?_
    obtain ⟨t', m₁, returns, bears'⟩ := Scope.raise_bears (ε := Thrown) heap' s bears
    have same := throws.symm.trans (exec_bind_of_done (returns job) rfl)
    cases same
    exact bears'
  | panicked p => exact (List.append_nil _).symm ▸ h.panicked
  | exhausted => exact (List.append_nil _).symm ▸ h.exhausted

end Routine.Contains

end ScriptBridge
