import ScriptBridge.Proofs.Contained

/-!
# What routines do by themselves

A routine is discreet if, apart from the jobs that it enters, it takes note of no exception, panics only because a job
did, and throws only what is said; and it lets no class make an object by itself.

* `Routine.reported`: how many exceptions a run takes note of, those of its jobs aside.
* `Routine.Discreet`: the judgement, and the rules for it, one for each way to build a routine. `Discreet.run` is what
  it says of a run, and `Discreet.makes_nothing` of its jobs.

Proof-only: not reachable from `ScriptBridge.Session.Run`.
-/

namespace ScriptBridge

/-- Whether a job is the factory of a class. -/
def Job.isFactory {β : Type} : Job β → Bool
  | .make .. => true
  | .call .. | .perform .. | .evaluate .. => false

/-! ## Reports -/

namespace Action

variable {β : Type} {m : Machine}

/-- Whether an action leaves the tables of the session alone. -/
def silent : Action β → Bool
  | .tables _ => false
  | _ => true

/-- How many exceptions an action takes note of. -/
def reported (a : Action β) (m : Machine) : Nat := (a.run m).2.tables.reports - m.tables.reports

theorem tables_run (a : Action β) (silent : a.silent = true) (m : Machine) : (a.run m).2.tables = m.tables := by
  have side := a.run_nativeSide m
  cases a with
  | read | edit | openRegion | beginCall | endCall | pushFrame | popFrame | position | addSource | openHold | closeHold
  | holdContext | releaseContext | addContext | addTemplate | addNative | addManaged | setOptions | setEvaluator => rfl
  | allocate o | addWrapper _ _ o => simp only [run, Machine.register, Machine.allocate_eq]
  | track v =>
    obtain ⟨_, eq, -⟩ := run_track m v
    rw [eq]
  | hold | setCell | addOwner | removeOwner =>
    obtain ⟨_, _, _, eq⟩ := side rfl
    rw [eq]
  | collect =>
    obtain ⟨_, _, _, _, eq⟩ := m.collect_eq
    change m.collect.2.tables = _
    rw [eq]
  | closeRegion panicking =>
    change (m.closeRegion panicking).tables = _
    unfold Machine.closeRegion
    split
    · rfl
    · rename_i region _ _
      split
      · obtain ⟨_, _, _, _, eq⟩ := (m.leaveRegion.holdContext region.context).collect_eq
        rw [eq]
        rfl
      · rfl
  | tables f => exact absurd silent Bool.false_ne_true

theorem reported_of_silent (a : Action β) (silent : a.silent = true) (m : Machine) : a.reported m = 0 := by
  rw [reported, a.tables_run silent, Nat.sub_self]

end Action

namespace Routine

variable {ε ε' α β : Type}

/-- How many exceptions a run takes note of, apart from those of the jobs that it enters. -/
def reported (job : Runner) : Routine ε α → Machine → Nat
  | .pure _, _ | .throw _, _ | .panic _, _ => 0
  | act a next, m => a.reported m + (next (a.run m).1).reported job (a.run m).2
  | enter j next, m =>
    match job j m with
    | (.done b, m) => (next (.ok b)).reported job m
    | (.panicked p, m) => (next (.error p)).reported job m
    | (.thrown e, _) => nomatch e
    | (.exhausted, _) => 0

theorem reported_enter (job : Runner) (j : Job β) (next : Except Panic β → Routine ε α) (m : Machine) :
    (enter j next).reported job m =
      match job j m with
      | (.done b, m) => (next (.ok b)).reported job m
      | (.panicked p, m) => (next (.error p)).reported job m
      | (.thrown e, _) => nomatch e
      | (.exhausted, _) => 0 := by
  rcases reply : job j m with ⟨outcome, m'⟩
  cases outcome with
  | thrown e => nomatch e
  | done | panicked | exhausted => simp only [reported, reply]

/-- The reports of what comes next count after a run that gave a value. -/
theorem reported_bind (job : Runner) (r : Routine ε α) (f : α → Routine ε β) (m : Machine) :
    (r >>= f).reported job m = r.reported job m +
      match r.exec job m with
      | (.done a, m) => (f a).reported job m
      | _ => 0 := by
  change (r.bind f).reported job m = _
  induction r generalizing m with
  | pure a => exact (Nat.zero_add _).symm
  | throw | panic => rfl
  | act a next ih =>
    change _ + ((next (a.run m).1).bind f).reported job (a.run m).2 = _ + _ + _
    rw [ih, Nat.add_assoc]
    rfl
  | enter j next ih =>
    unfold Routine.bind
    rw [exec_enter, reported_enter, reported_enter]
    rcases job j m with ⟨outcome, m'⟩
    cases outcome with
    | done b => exact ih _ _
    | thrown e => exact e.elim
    | panicked p => exact ih _ _
    | exhausted => rfl

/-- A look at the machine takes note of nothing. -/
theorem reported_look {job : Runner} {m : Machine} {f : Machine → α} {next : α → Routine ε β} {a : α} (seen : f m = a) :
    (read f >>= next).reported job m = (next a).reported job m := by
  subst seen
  exact (congrArg (· + _) ((Action.read f).reported_of_silent rfl m)).trans (Nat.zero_add _)

theorem reported_attempt (job : Runner) (r : Routine ε α) (m : Machine) :
    (r.attempt : Routine ε' (Except ε α)).reported job m = r.reported job m := by
  induction r generalizing m with
  | pure | throw | panic => rfl
  | act a next ih => exact congrArg (_ + ·) (ih _ _)
  | enter j next ih =>
    unfold Routine.attempt
    rw [reported_enter, reported_enter]
    rcases job j m with ⟨outcome, m'⟩
    cases outcome with
    | done b => exact ih _ _
    | thrown e => exact e.elim
    | panicked p => exact ih _ _
    | exhausted => rfl

theorem reported_ensuring (job : Runner) {cleanup : Bool → Action Unit} (silent : ∀ b, (cleanup b).silent = true)
    (r : Routine ε α) (m : Machine) : (r.ensuring cleanup).reported job m = r.reported job m := by
  induction r generalizing m with
  | pure a => exact congrArg (· + 0) ((cleanup false).reported_of_silent (silent false) m)
  | throw e => exact congrArg (· + 0) ((cleanup false).reported_of_silent (silent false) m)
  | panic payload => exact congrArg (· + 0) ((cleanup true).reported_of_silent (silent true) m)
  | act a next ih => exact congrArg (_ + ·) (ih _ _)
  | enter j next ih =>
    unfold Routine.ensuring
    rw [reported_enter, reported_enter]
    rcases job j m with ⟨outcome, m'⟩
    cases outcome with
    | done b => exact ih _ _
    | thrown e => exact e.elim
    | panicked p => exact ih _ _
    | exhausted => rfl

/-! ## The judgement -/

/-- By itself the routine takes note of nothing, panics only where a job did before, throws only what is said, and
enters no factory. `broken` says whether a job has panicked already. -/
def Discreet (P : ε → Prop) : (broken : Bool) → Routine ε α → Prop
  | _, .pure _ => True
  | _, .throw e => P e
  | broken, .panic _ => broken = true
  | broken, act a next => a.silent = true ∧ ∀ b, (next b).Discreet P broken
  | broken, enter j next =>
    j.isFactory = false ∧ (∀ b, (next (.ok b)).Discreet P broken) ∧ ∀ p, (next (.error p)).Discreet P true

namespace Discreet

variable {P Q : ε → Prop} {R : ε' → Prop} {broken : Bool}

/-- What such a routine does when it runs: it counts no reports, and if it does not end by itself, a job did not. -/
theorem run {r : Routine ε α} (h : r.Discreet P false) (job : Runner) (m : Machine) :
    r.reported job m = 0 ∧ (∀ e, (r.exec job m).1 = .thrown e → P e) ∧
      (∀ p, (r.exec job m).1 = .panicked p → ∃ x ∈ r.entered job m, ∃ q, x.outcome = .panicked q) ∧
      ((r.exec job m).1 = .exhausted → ∃ x ∈ r.entered job m, x.outcome = .exhausted) := by
  suffices any : ∀ broken, r.Discreet P broken → r.reported job m = 0 ∧
      (∀ e, (r.exec job m).1 = .thrown e → P e) ∧
      (∀ p, (r.exec job m).1 = .panicked p → broken = true ∨ ∃ x ∈ r.entered job m, ∃ q, x.outcome = .panicked q) ∧
      ((r.exec job m).1 = .exhausted → ∃ x ∈ r.entered job m, x.outcome = .exhausted) by
    obtain ⟨silent, throws, panics, exhausts⟩ := any false h
    exact ⟨silent, throws, fun p panicked => (panics p panicked).resolve_left nofun, exhausts⟩
  clear h
  induction r generalizing m with
  | pure a => exact fun _ _ => ⟨rfl, nofun, nofun, nofun⟩
  | throw e =>
    intro _ h
    exact ⟨rfl, fun _ thrown => Outcome.thrown.inj thrown ▸ h, nofun, nofun⟩
  | panic payload => exact fun _ h => ⟨rfl, nofun, fun _ _ => .inl h, nofun⟩
  | act a next ih =>
    intro broken h
    obtain ⟨silent, rest⟩ := ih _ (a.run m).2 broken (h.2 _)
    exact ⟨congrArg₂ (· + ·) (a.reported_of_silent h.1 m) silent, rest⟩
  | enter j next ih =>
    intro broken h
    rw [exec_enter, reported_enter, entered_enter]
    rcases job j m with ⟨outcome, m'⟩
    cases outcome with
    | thrown e => nomatch e
    | done b =>
      obtain ⟨silent, throws, panics, exhausts⟩ := ih _ m' broken (h.2.1 b)
      refine ⟨silent, throws, fun p panicked => (panics p panicked).imp_right ?_, fun exhausted => ?_⟩
      · exact fun ⟨x, mem, ended⟩ => ⟨x, List.mem_cons_of_mem _ mem, ended⟩
      · obtain ⟨x, mem, ended⟩ := exhausts exhausted
        exact ⟨x, List.mem_cons_of_mem _ mem, ended⟩
    | panicked p =>
      obtain ⟨silent, throws, -, exhausts⟩ := ih _ m' true (h.2.2 p)
      refine ⟨silent, throws, fun _ _ => .inr ⟨_, List.mem_cons_self, p, rfl⟩, fun exhausted => ?_⟩
      obtain ⟨x, mem, ended⟩ := exhausts exhausted
      exact ⟨x, List.mem_cons_of_mem _ mem, ended⟩
    | exhausted => exact ⟨rfl, nofun, nofun, fun _ => ⟨_, List.mem_cons_self, rfl⟩⟩

/-- A routine that throws nothing gives a value, unless one of its jobs breaks off. -/
theorem completes {r : Routine ε α} (h : r.Discreet (fun _ => False) false) {job : Runner} {m : Machine}
    (unbroken : ∀ x ∈ r.entered job m, ∃ b, x.outcome = .done b) : ∃ a m', r.exec job m = (.done a, m') := by
  obtain ⟨-, throws, panics, exhausts⟩ := h.run job m
  rcases run : r.exec job m with ⟨outcome, m'⟩
  rw [run] at throws panics exhausts
  cases outcome with
  | done a => exact ⟨a, m', rfl⟩
  | thrown e => exact (throws e rfl).elim
  | panicked p =>
    obtain ⟨x, mem, q, broke⟩ := panics p rfl
    obtain ⟨b, done⟩ := unbroken x mem
    nomatch done.symm.trans broke
  | exhausted =>
    obtain ⟨x, mem, broke⟩ := exhausts rfl
    obtain ⟨b, done⟩ := unbroken x mem
    nomatch done.symm.trans broke

/-- The jobs of such a routine are no factories. -/
theorem makes_nothing {r : Routine ε α} (h : r.Discreet P broken) (job : Runner) (m : Machine) :
    ∀ x ∈ r.entered job m, x.job.isFactory = false := by
  induction r generalizing broken m with
  | pure | throw | panic => exact fun _ mem => absurd mem List.not_mem_nil
  | act a next ih => exact ih _ (h.2 _) _
  | enter j next ih =>
    rw [entered_enter]
    intro x mem
    rcases List.mem_cons.1 mem with rfl | mem
    · exact h.1
    · rcases ended : job j m with ⟨outcome, m'⟩
      rw [ended] at mem
      cases outcome with
      | done b => exact ih _ (h.2.1 b) m' x mem
      | thrown e => nomatch e
      | panicked p => exact ih _ (h.2.2 p) m' x mem
      | exhausted => exact absurd mem List.not_mem_nil

theorem mono {r : Routine ε α} (h : r.Discreet P broken) (weaker : ∀ e, P e → Q e) : r.Discreet Q broken := by
  induction r generalizing broken with
  | pure a => trivial
  | throw e => exact weaker e h
  | panic payload => exact h
  | act a next ih => exact ⟨h.1, fun b => ih b (h.2 b)⟩
  | enter j next ih => exact ⟨h.1, fun b => ih _ (h.2.1 b), fun p => ih _ (h.2.2 p)⟩

/-- Whatever it throws. -/
theorem any {r : Routine ε α} (h : r.Discreet P broken) : r.Discreet (fun _ => True) broken := h.mono fun _ _ => trivial

theorem afterPanic {r : Routine ε α} (h : r.Discreet P broken) : r.Discreet P true := by
  induction r generalizing broken with
  | pure a => trivial
  | throw e => exact h
  | panic payload => rfl
  | act a next ih => exact ⟨h.1, fun b => ih b (h.2 b)⟩
  | enter j next ih => exact ⟨h.1, fun b => ih _ (h.2.1 b), fun p => ih _ (h.2.2 p)⟩

theorem pure {a : α} : (Pure.pure a : Routine ε α).Discreet P broken := trivial

theorem throw {e : ε} (h : P e) : (Routine.throw e : Routine ε α).Discreet P broken := h

theorem perform {a : Action α} (silent : a.silent = true) :
    (Routine.perform a : Routine ε α).Discreet P broken := ⟨silent, fun _ => trivial⟩

theorem read {f : Machine → α} : (Routine.read f : Routine ε α).Discreet P broken := perform rfl

theorem hold {v : NativeValue} : (Routine.hold v : Routine ε Unit).Discreet P broken := perform rfl

theorem bind {x : Routine ε α} {f : α → Routine ε β} (first : x.Discreet P broken)
    (next : ∀ a, (f a).Discreet P broken) : (x >>= f).Discreet P broken := by
  change (x.bind f).Discreet P broken
  induction x generalizing broken with
  | pure a => exact next a
  | throw e => exact first
  | panic payload => exact first
  | act a after ih => exact ⟨first.1, fun b => ih b (first.2 b) next⟩
  | enter j after ih =>
    exact ⟨first.1, fun b => ih _ (first.2.1 b) next, fun p => ih _ (first.2.2 p) fun a => (next a).afterPanic⟩

theorem mapError {r : Routine ε α} {f : ε → ε'} (h : r.Discreet P broken) (maps : ∀ e, P e → R (f e)) :
    (r.mapError f).Discreet R broken := by
  induction r generalizing broken with
  | pure a => trivial
  | throw e => exact maps e h
  | panic payload => exact h
  | act a next ih => exact ⟨h.1, fun b => ih b (h.2 b)⟩
  | enter j next ih => exact ⟨h.1, fun b => ih _ (h.2.1 b), fun p => ih _ (h.2.2 p)⟩

/-- What is caught is not thrown. -/
theorem attempt {r : Routine ε α} (h : r.Discreet P broken) :
    (r.attempt : Routine ε' (Except ε α)).Discreet R broken := by
  induction r generalizing broken with
  | pure a => trivial
  | throw e => trivial
  | panic payload => exact h
  | act a next ih => exact ⟨h.1, fun b => ih b (h.2 b)⟩
  | enter j next ih => exact ⟨h.1, fun b => ih _ (h.2.1 b), fun p => ih _ (h.2.2 p)⟩

/-- A job, whose panic goes on. -/
theorem job {j : Job α} (other : j.isFactory = false) : (Routine.job j : Routine ε α).Discreet P broken :=
  ⟨other, fun _ => trivial, fun _ => rfl⟩

/-! ### Brackets -/

theorem ensuring {r : Routine ε α} {cleanup : Bool → Action Unit} (h : r.Discreet P broken)
    (silent : ∀ b, (cleanup b).silent = true) : (r.ensuring cleanup).Discreet P broken := by
  induction r generalizing broken with
  | pure a => exact ⟨silent false, fun _ => trivial⟩
  | throw e => exact ⟨silent false, fun _ => h⟩
  | panic payload => exact ⟨silent true, fun _ => h⟩
  | act a next ih => exact ⟨h.1, fun b => ih b (h.2 b)⟩
  | enter j next ih => exact ⟨h.1, fun b => ih _ (h.2.1 b), fun p => ih _ (h.2.2 p)⟩

theorem inRegion {r : Routine ε α} {context : Nat} (h : r.Discreet P broken) :
    (Routine.inRegion context r).Discreet P broken := ⟨rfl, fun _ => h.ensuring fun _ => rfl⟩

theorem inCall {r : Routine ε α} {c : CallRecord} {f : Frame} (h : r.Discreet P broken) :
    (Routine.inCall c f r).Discreet P broken := ⟨rfl, fun _ => h.ensuring fun _ => rfl⟩

theorem inFrame {r : Routine ε α} {f : Frame} (h : r.Discreet P broken) :
    (Routine.inFrame f r).Discreet P broken := ⟨rfl, fun _ => h.ensuring fun _ => rfl⟩

theorem holding {r : Routine ε α} {vs : List NativeValue} (h : r.Discreet P broken) :
    (Routine.holding vs r).Discreet P broken := by
  have held : (vs.foldr (fun v rest => Routine.act (.hold v) fun _ => rest) r).Discreet P broken := by
    induction vs with
    | nil => exact h
    | cons v vs ih => exact ⟨rfl, fun _ => ih⟩
  exact ⟨rfl, fun _ => held.ensuring fun _ => rfl⟩

/-! ### Lists -/

theorem forM {l : List β} {f : β → Routine ε PUnit} (h : ∀ b, (f b).Discreet P broken) :
    (l.forM f).Discreet P broken := by
  induction l with
  | nil => exact pure
  | cons b l ih => exact bind (h b) fun _ => ih

theorem mapM {l : List β} {f : β → Routine ε α} (h : ∀ b, (f b).Discreet P broken) : (l.mapM f).Discreet P broken := by
  suffices loop : ∀ done, (List.mapM.loop f l done).Discreet P broken from loop []
  induction l with
  | nil => exact fun _ => pure
  | cons b l ih => exact fun _ => bind (h b) fun _ => ih _

end Discreet

end Routine

end ScriptBridge
