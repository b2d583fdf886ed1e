import ScriptBridge.Proofs.Exec
import ScriptBridge.Session.Run

/-!
# Runs that come to an end

Jobs nest as deep as a run allows. A run that is not cut short is the same where they may nest deeper.

* `Runner.Extends`: one way to run jobs does what another does, but for the jobs that the other cuts short.
  `Routine.exec_of_extends`: then it does so for routines. `Job.exec_extends`: more depth does.
* `Routine.CutShort`: the run of a routine is cut short. `Routine.CutShort.bind`, `Routine.cutShort_bind_of_done` and
  `Routine.not_cutShort_bind`: when the run of one part and then another is.
* `Routine.Terminates`: the run of a routine comes to an end, if jobs may nest deep enough.

Proof-only: not reachable from `ScriptBridge.Session.Run`.
-/

namespace ScriptBridge

/-- One way to run jobs does what another does, with all jobs that the other does not cut short. -/
def Runner.Extends (deeper job : Runner) : Prop :=
  ∀ {β : Type} (j : Job β) (m : Machine), (job j m).1 ≠ .exhausted → deeper j m = job j m

namespace Routine

variable {ε ε' α β : Type} {deeper job : Runner} {m m' : Machine} {r : Routine ε α} {f : α → Routine ε β} {a : α}

/-- So it does with routines. -/
theorem exec_of_extends (extending : Runner.Extends @deeper @job) (r : Routine ε α) (m : Machine)
    (ends : (r.exec job m).1 ≠ .exhausted) : r.exec deeper m = r.exec job m := by
  induction r generalizing m with
  | pure | throw | panic => rfl
  | act a next ih => exact ih _ _ ends
  | enter j next ih =>
    rw [exec_enter] at ends
    rw [exec_enter, exec_enter]
    rcases run : job j m with ⟨outcome, m₁⟩
    rw [run] at ends
    cases outcome with
    | thrown e => nomatch e
    | exhausted => exact absurd rfl ends
    | done | panicked =>
      rw [extending j m (by rw [run]; nofun), run]
      exact ih _ _ ends

end Routine

/-- Where jobs may nest deeper they run as before, unless they were cut short. -/
theorem Job.exec_extends {routine : {β : Type} → Job β → Routine Empty β} (depth more : Nat) :
    Runner.Extends (Job.exec routine (depth + more)) (Job.exec routine depth) := by
  induction depth with
  | zero => exact fun j m ends => absurd rfl ends
  | succ depth ih =>
    intro β j m ends
    rw [Nat.add_right_comm]
    exact Routine.exec_of_extends ih (routine j) m ends

namespace Routine

variable {ε α β : Type} {m m' : Machine} {r : Routine ε α} {f : α → Routine ε β} {a : α} {depth depth' : Nat}

/-- The run of a routine, where jobs nest at most so deep, is cut short. -/
def CutShort (r : Routine ε α) (m : Machine) (depth : Nat) : Prop :=
  (r.exec (Job.exec Job.routine depth) m).1 = .exhausted

/-- The run of a routine comes to an end, if jobs may nest deep enough. -/
def Terminates (r : Routine ε α) (m : Machine) : Prop := ∃ depth, ¬r.CutShort m depth

/-- With more depth, a run that was not cut short is the same. -/
theorem exec_deeper (ends : ¬r.CutShort m depth) (le : depth ≤ depth') :
    r.exec (Job.exec Job.routine depth') m = r.exec (Job.exec Job.routine depth) m := by
  obtain ⟨more, rfl⟩ := Nat.exists_eq_add_of_le le
  exact exec_of_extends (Job.exec_extends depth more) r m ends

/-- Runs that are not cut short are the same. -/
theorem exec_unique (first : ¬r.CutShort m depth) (second : ¬r.CutShort m depth') :
    r.exec (Job.exec Job.routine depth) m = r.exec (Job.exec Job.routine depth') m := by
  rcases Nat.le_total depth depth' with le | le
  · exact (exec_deeper first le).symm
  · exact exec_deeper second le

theorem not_cutShort_of_done (done : r.exec (Job.exec Job.routine depth) m = (.done a, m')) : ¬r.CutShort m depth := by
  unfold CutShort
  rw [done]
  nofun

/-- What is not cut short is not cut short with more depth. -/
theorem not_cutShort_deeper (ends : ¬r.CutShort m depth) (le : depth ≤ depth') : ¬r.CutShort m depth' := by
  unfold CutShort
  rwa [exec_deeper ends le]

theorem CutShort.bind (short : r.CutShort m depth) : (r >>= f).CutShort m depth := by
  unfold CutShort at short ⊢
  rw [exec_bind]
  rcases run : r.exec (Job.exec Job.routine depth) m with ⟨outcome, m₁⟩
  rw [run] at short
  obtain rfl : outcome = .exhausted := short
  rfl

theorem cutShort_bind_of_done (done : r.exec (Job.exec Job.routine depth) m = (.done a, m')) :
    (r >>= f).CutShort m depth ↔ (f a).CutShort m' depth := by
  unfold CutShort
  rw [exec_bind, done]
  rfl

/-- After a part that gives no value nothing runs. -/
theorem not_cutShort_bind (ends : ¬r.CutShort m depth)
    (gives : ∀ a m', r.exec (Job.exec Job.routine depth) m ≠ (.done a, m')) : ¬(r >>= f).CutShort m depth := by
  unfold CutShort at ends ⊢
  rw [exec_bind]
  rcases run : r.exec (Job.exec Job.routine depth) m with ⟨outcome, m₁⟩
  rw [run] at ends
  cases outcome with
  | done a => exact absurd run (gives a m₁)
  | thrown | panicked => exact nofun
  | exhausted => exact absurd rfl ends

end Routine

end ScriptBridge
