import ScriptBridge.Bridge.Exception
import ScriptBridge.Proofs.Chain
import ScriptBridge.Proofs.Moments
import ScriptBridge.Scope.Write

/-!
# How routines run

A run of a routine that is put together from parts is made of the runs of the parts: `Routine.exec_bind`,
`exec_attempt`, `exec_mapError` and `exec_ensuring` say how.

* `Routine.Returns`, `Routine.Throws`: what a routine gives or throws that does not depend on jobs, and the
  machine after it. `Routine.Settles`: it does one of the two.
* `Scope.getOrdinary_returns`, `Scope.setOrdinary_own`, `Scope.setOrdinary_ignored`: reading and writing data.

Proof-only: not reachable from `ScriptBridge.Session.Run`.
-/

namespace ScriptBridge

/-- How jobs run. -/
abbrev Runner := {β : Type} → Job β → Machine → Outcome Empty β × Machine

namespace Outcome

variable {ε ε' α β : Type}

/-- What becomes of the way in which a run ended, when it did not give a value. -/
def andThen (out : Outcome ε α × Machine) (next : α → Machine → Outcome ε β × Machine) : Outcome ε β × Machine :=
  match out with
  | (.done a, m) => next a m
  | (.thrown e, m) => (.thrown e, m)
  | (.panicked p, m) => (.panicked p, m)
  | (.exhausted, m) => (.exhausted, m)

/-- What a run gave, if it gave something. -/
def given? : Outcome ε α → Option α
  | .done a => some a
  | .thrown _ | .panicked _ | .exhausted => none

/-- Changes what was thrown. -/
def mapError (f : ε → ε') : Outcome ε α → Outcome ε' α
  | .done a => .done a
  | .thrown e => .thrown (f e)
  | .panicked p => .panicked p
  | .exhausted => .exhausted

/-- What was thrown, as a value. -/
def attempt : Outcome ε α → Outcome ε' (Except ε α)
  | .done a => .done (.ok a)
  | .thrown e => .done (.error e)
  | .panicked p => .panicked p
  | .exhausted => .exhausted

/-- A run ends, and then an action is done. A run that was cut short does not end. -/
def closing (cleanup : Bool → Action Unit) : Outcome ε α × Machine → Outcome ε α × Machine
  | (.done a, m) => (.done a, ((cleanup false).run m).2)
  | (.thrown e, m) => (.thrown e, ((cleanup false).run m).2)
  | (.panicked p, m) => (.panicked p, ((cleanup true).run m).2)
  | (.exhausted, m) => (.exhausted, m)

end Outcome

namespace Routine

variable {ε ε' α β : Type} {m m₁ m₂ m' : Machine}

/-! ## Parts -/

/-- Parts may be regrouped. -/
instance : LawfulMonad (Routine ε) := by
  refine .mk' _ (fun r => ?_) (fun _ _ => rfl) fun r f g => ?_
  · change r.bind _ = r
    induction r with
    | pure | throw | panic => rfl
    | act a next ih => exact congrArg (act a) (funext ih)
    | enter j next ih => exact congrArg (enter j) (funext ih)
  · change (r.bind f).bind g = r.bind fun a => (f a).bind g
    induction r with
    | pure | throw | panic => rfl
    | act a next ih => exact congrArg (act a) (funext ih)
    | enter j next ih => exact congrArg (enter j) (funext ih)

/-- A routine goes on from the way in which a job ended. -/
theorem exec_enter (job : Runner) (j : Job β) (next : Except Panic β → Routine ε α) (m : Machine) :
    (enter j next).exec job m =
      match job j m with
      | (.done b, m) => (next (.ok b)).exec job m
      | (.panicked p, m) => (next (.error p)).exec job m
      | (.thrown e, _) => nomatch e
      | (.exhausted, m) => (.exhausted, m) := by
  rcases reply : job j m with ⟨outcome, m'⟩
  cases outcome with
  | thrown e => nomatch e
  | done | panicked | exhausted => simp only [exec, reply]

/-- What changes how runs end, but not those that are cut short, may change what is done after a job. -/
theorem exec_enter_map {γ : Type} {job : Runner} {j : Job γ} {next : Except Panic γ → Routine ε α}
    {next' : Except Panic γ → Routine ε' β} (F : Outcome ε α × Machine → Outcome ε' β × Machine)
    (exhausted : ∀ m, F (.exhausted, m) = (.exhausted, m))
    (same : ∀ result m, (next' result).exec job m = F ((next result).exec job m)) :
    (enter j next').exec job m = F ((enter j next).exec job m) := by
  rw [exec_enter, exec_enter]
  rcases job j m with ⟨outcome, m'⟩
  cases outcome with
  | done b => exact same _ _
  | thrown e => nomatch e
  | panicked p => exact same _ _
  | exhausted => exact (exhausted m').symm

theorem exec_bind (job : Runner) (r : Routine ε α) (f : α → Routine ε β) (m : Machine) :
    (r >>= f).exec job m = Outcome.andThen (r.exec job m) fun a m => (f a).exec job m := by
  change (r.bind f).exec job m = _
  induction r generalizing m with
  | pure a => rfl
  | throw e => rfl
  | panic payload => rfl
  | act a next ih => exact ih _ _
  | enter j next ih => exact exec_enter_map (Outcome.andThen · fun a m => (f a).exec job m) (fun _ => rfl) ih

theorem exec_bind_of_done {job : Runner} {r : Routine ε α} {f : α → Routine ε β} {a : α} {out : Outcome ε β × Machine}
    (first : r.exec job m = (.done a, m₁)) (next : (f a).exec job m₁ = out) : (r >>= f).exec job m = out := by
  rw [exec_bind, first]
  exact next

theorem exec_bind_of_panicked {job : Runner} {r : Routine ε α} {f : α → Routine ε β} {p : Panic}
    (first : r.exec job m = (.panicked p, m₁)) : (r >>= f).exec job m = (.panicked p, m₁) := by
  rw [exec_bind, first]
  rfl

/-- After a look at the machine, it is still the same. -/
theorem exec_look {job : Runner} {f : Machine → α} {next : α → Routine ε β} {a : α} (seen : f m = a) :
    (read f >>= next).exec job m = (next a).exec job m := by
  subst seen
  rfl

/-- What gives a value has parts that give values. -/
theorem done_of_bind {job : Runner} {r : Routine ε α} {f : α → Routine ε β} {b : β}
    (done : (r >>= f).exec job m = (.done b, m')) :
    ∃ a m₁, r.exec job m = (.done a, m₁) ∧ (f a).exec job m₁ = (.done b, m') := by
  rw [exec_bind] at done
  rcases first : r.exec job m with ⟨outcome, m₁⟩
  rw [first] at done
  cases outcome with
  | done a => exact ⟨a, m₁, rfl, done⟩
  | thrown e => nomatch done
  | panicked p => nomatch done
  | exhausted => nomatch done

/-- That a run gives a value can be checked by running it. -/
theorem exists_done {job : Runner} {r : Routine ε α} (given : (r.exec job m).1.given?.isSome = true) :
    ∃ a m', r.exec job m = (.done a, m') := by
  rcases run : r.exec job m with ⟨outcome, m'⟩
  rw [run] at given
  cases outcome with
  | done a => exact ⟨a, m', rfl⟩
  | thrown e => nomatch given
  | panicked p => nomatch given
  | exhausted => nomatch given

theorem exec_mapError (job : Runner) (f : ε → ε') (r : Routine ε α) (m : Machine) :
    (r.mapError f).exec job m = ((r.exec job m).1.mapError f, (r.exec job m).2) := by
  induction r generalizing m with
  | pure a => rfl
  | throw e => rfl
  | panic payload => rfl
  | act a next ih => exact ih _ _
  | enter j next ih => exact exec_enter_map (fun out => (out.1.mapError f, out.2)) (fun _ => rfl) ih

theorem exec_attempt (job : Runner) (r : Routine ε α) (m : Machine) :
    (r.attempt : Routine ε' (Except ε α)).exec job m = ((r.exec job m).1.attempt, (r.exec job m).2) := by
  induction r generalizing m with
  | pure a => rfl
  | throw e => rfl
  | panic payload => rfl
  | act a next ih => exact ih _ _
  | enter j next ih => exact exec_enter_map (fun out => (out.1.attempt, out.2)) (fun _ => rfl) ih

theorem exec_ensuring (job : Runner) (cleanup : Bool → Action Unit) (r : Routine ε α) (m : Machine) :
    (r.ensuring cleanup).exec job m = Outcome.closing cleanup (r.exec job m) := by
  induction r generalizing m with
  | pure a => rfl
  | throw e => rfl
  | panic payload => rfl
  | act a next ih => exact ih _ _
  | enter j next ih => exact exec_enter_map (Outcome.closing cleanup) (fun _ => rfl) ih

/-! ## Runs without jobs -/

/-- The routine gives a value and leaves a machine, however jobs run. -/
def Returns (r : Routine ε α) (m : Machine) (a : α) (m' : Machine) : Prop :=
  ∀ job : {β : Type} → Job β → Machine → Outcome Empty β × Machine, r.exec job m = (.done a, m')

/-- The routine throws and leaves a machine, however jobs run. -/
def Throws (r : Routine ε α) (m : Machine) (e : ε) (m' : Machine) : Prop :=
  ∀ job : {β : Type} → Job β → Machine → Outcome Empty β × Machine, r.exec job m = (.thrown e, m')

namespace Returns

theorem pure {a : α} : (Pure.pure a : Routine ε α).Returns m a m := fun _ => rfl

theorem perform {a : Action α} : (Routine.perform a : Routine ε α).Returns m (a.run m).1 (a.run m).2 := fun _ => rfl

theorem bind {x : Routine ε α} {f : α → Routine ε β} {a : α} {b : β} (first : x.Returns m a m₁)
    (next : (f a).Returns m₁ b m₂) : (x >>= f).Returns m b m₂ := fun job => exec_bind_of_done (first job) (next job)

/-- After a look at the machine, it is still the same. -/
theorem look {f : Machine → α} {next : α → Routine ε β} {b : β} (h : (next (f m)).Returns m b m₁) :
    (Routine.read f >>= next).Returns m b m₁ := h

theorem attempt {r : Routine ε α} {a : α} (h : r.Returns m a m₁) :
    (r.attempt : Routine ε' (Except ε α)).Returns m (.ok a) m₁ := by
  intro job
  rw [exec_attempt, h job]
  rfl

theorem mapError {f : ε → ε'} {r : Routine ε α} {a : α} (h : r.Returns m a m₁) : (r.mapError f).Returns m a m₁ := by
  intro job
  rw [exec_mapError, h job]
  rfl

/-- What scripts do a bridge operation does. -/
theorem lifted {r : Routine Thrown α} {a : α} (h : r.Returns m a m₁) : (liftM r : Routine Fault α).Returns m a m₁ :=
  h.mapError

theorem settle {s : Scope} {empty a : α} {r : Routine Fault α} (h : r.Returns m a m₁) :
    (s.settle empty r).Returns m a m₁ := h.attempt.bind .pure

end Returns

namespace Throws

theorem throw {e : ε} : (Routine.throw e : Routine ε α).Throws m e m := fun _ => rfl

/-- After a look at the machine, it is still the same. -/
theorem look {f : Machine → α} {next : α → Routine ε β} {e : ε} (h : (next (f m)).Throws m e m₁) :
    (Routine.read f >>= next).Throws m e m₁ := h

theorem attempt {r : Routine ε α} {e : ε} (h : r.Throws m e m₁) :
    (r.attempt : Routine ε' (Except ε α)).Returns m (.error e) m₁ := by
  intro job
  rw [exec_attempt, h job]
  rfl

/-- What comes after something that throws is not run. -/
theorem bind {x : Routine ε α} {f : α → Routine ε β} {e : ε} (first : x.Throws m e m₁) : (x >>= f).Throws m e m₁ := by
  intro job
  rw [exec_bind, first job]
  rfl

theorem after {x : Routine ε α} {f : α → Routine ε β} {a : α} {e : ε} (first : x.Returns m a m₁)
    (next : (f a).Throws m₁ e m₂) : (x >>= f).Throws m e m₂ := by
  intro job
  rw [exec_bind, first job]
  exact next job

theorem settle {s : Scope} {empty : α} {r : Routine Fault α} {e : BridgeError} (h : r.Throws m (.error e) m₁) :
    (s.settle empty r).Throws m e m₁ := .after h.attempt .throw

/-- The region of a routine that throws is closed again. -/
theorem inRegion {context : Nat} {r : Routine ε α} {e : ε} (h : r.Throws (m.enterRegion context) e m₁) :
    (Routine.inRegion context r).Throws m e (m₁.closeRegion false) := by
  intro job
  change (r.ensuring .closeRegion).exec job (m.enterRegion context) = _
  rw [exec_ensuring, h job]
  rfl

end Throws

/-- The routine gives a value with a property, or it throws. Either way no job matters. -/
def Settles (r : Routine ε α) (m : Machine) (P : α → Machine → Prop) : Prop :=
  (∃ a m', r.Returns m a m' ∧ P a m') ∨ ∃ e m', r.Throws m e m'

namespace Settles

variable {P : α → Machine → Prop} {Q : β → Machine → Prop} {a : α}

theorem returns {r : Routine ε α} (returns : r.Returns m a m') (holds : P a m') : r.Settles m P :=
  .inl ⟨a, m', returns, holds⟩

theorem throws {r : Routine ε α} {e : ε} (throws : r.Throws m e m') : r.Settles m P := .inr ⟨e, m', throws⟩

/-- After a look at the machine, it is still the same. -/
theorem look {γ : Type} {f : Machine → γ} {next : γ → Routine ε α} (settles : (next (f m)).Settles m P) :
    (Routine.read f >>= next).Settles m P := settles

theorem imp {P' : α → Machine → Prop} {r : Routine ε α} (weaker : ∀ a m', P a m' → P' a m') (settles : r.Settles m P) :
    r.Settles m P' := by
  refine settles.imp_left ?_
  rintro ⟨a, m', returns, holds⟩
  exact ⟨a, m', returns, weaker a m' holds⟩

theorem bind {r : Routine ε α} {f : α → Routine ε β} (first : r.Settles m P)
    (next : ∀ a m', r.Returns m a m' → P a m' → (f a).Settles m' Q) : (r >>= f).Settles m Q := by
  rcases first with ⟨a, m₁, returns, holds⟩ | ⟨e, m₁, throws⟩
  · rcases next a m₁ returns holds with ⟨b, m₂, returns', holds'⟩ | ⟨e, m₂, throws⟩
    · exact .inl ⟨b, m₂, returns.bind returns', holds'⟩
    · exact .inr ⟨e, m₂, .after returns throws⟩
  · exact .inr ⟨e, m₁, throws.bind⟩

theorem after {r : Routine ε α} {f : α → Routine ε β} (first : r.Returns m a m') (next : (f a).Settles m' Q) :
    (r >>= f).Settles m Q :=
  .bind (P := fun b m'' => b = a ∧ m'' = m') (.returns first ⟨rfl, rfl⟩) fun _ _ _ same => same.1 ▸ same.2 ▸ next

end Settles

end Routine

/-! ## Reading and writing data -/

namespace Scope

variable {s : Scope} {m : Machine} {holder : Ref} {o : Object} {receiver v : Value} {key : String}

/-- Data that a chain has is read without a job, and handed out. -/
theorem getOrdinary_returns (found : m.heap.lookup holder key = .value v) :
    (s.getOrdinary holder receiver key).Returns m v ((Action.track v).run m).2 := by
  unfold getOrdinary
  refine .look ?_
  rw [found]
  exact .bind .perform .pure

theorem functionOf_returns {f : Value} {callee : Ref} {data : FunctionData}
    (function : m.function? f = some (callee, data)) : (s.functionOf f).Returns m (callee, data) m := by
  intro job
  unfold functionOf
  exact Routine.exec_look (f := (·.function? f)) function

/-- Under a key that names no element, a property is written. -/
theorem writeOwn_stores (ho : m.object? holder = some o) (free : (o.isArray && isElementKey key) = false) :
    (s.writeOwn holder key v).Returns m () { m with heap := m.heap.edit holder (.store key v) } := by
  have seen : m.isArray (.object holder) = o.isArray := congrArg (Option.any Object.isArray) ho
  unfold writeOwn
  refine .look ?_
  rw [seen]
  rcases Bool.and_eq_false_iff.1 free with plain | noElement
  · rw [plain]
    exact .perform
  · obtain ⟨noLength, noIndex⟩ := isElementKey_eq_false.1 noElement
    rw [if_neg noLength, noIndex]
    split <;> exact .perform

/-- What nothing guards is stored in the object itself, among its properties if the key names no element. -/
theorem setOrdinary_own (ho : m.object? holder = some o) (free : (o.isArray && isElementKey key) = false)
    (own : m.heap.writeTarget holder key = .own) :
    (s.setOrdinary holder receiver key v).Returns m () { m with heap := m.heap.edit holder (.store key v) } := by
  unfold setOrdinary
  refine .look ?_
  rw [own]
  exact writeOwn_stores ho free

/-- Without a setter to call, what is guarded is left alone. -/
theorem setOrdinary_ignored (guarded : m.heap.writeTarget holder key = .readonly ∨
    m.heap.writeTarget holder key = .setter none) : (s.setOrdinary holder receiver key v).Returns m () m := by
  unfold setOrdinary
  refine .look ?_
  rcases guarded with target | target
  · rw [target]
    exact .pure
  · rw [target]
    exact .pure

end Scope

end ScriptBridge
