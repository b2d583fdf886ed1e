import ScriptBridge.Proofs.Dispatch

/-!
# Calls of functions

A call that there is room for runs its function in a region of its own, and ends as the function does. Whatever
the function left in the heap is there after the call.

* `Scope.arguments_append`, `Scope.arguments_refused`: arguments are converted one after another, up to the first that
  is refused.
* `Scope.exec_invoke`: the parts of a call.
* `Scope.invoke_ends`, `Scope.invoke_stops_short`: a call ends as its function does, with the heap that this left.
* `Scope.invoke_undefined`: a function that does nothing and gives undefined leaves no trace of its call.

Proof-only: not reachable from `ScriptBridge.Session.Run`.
-/

namespace ScriptBridge

open Routine

namespace Machine

variable {m : Machine} {s : Scope} {f : FunctionData} {i : Invocation}

/-- A region was open already, so the end of a call's own region frees nothing. -/
theorem closeRegion_of_callStart (settled : m.Settled) (inside : m.Inside (some s)) {m' : Machine}
    (balanced : (m.callStart s f i).Balanced m') (panicking : Bool) : m'.closeRegion panicking = m'.leaveRegion := by
  refine Action.closeRegion_eq ?_
  rintro ⟨-, last, -⟩
  have last : m'.regionDepth - 1 = 0 := last
  have depth : m'.regionDepth = m.regionDepth + 1 := balanced.regionDepth
  have outer : 0 < m.regions.length := List.length_pos_of_ne_nil inside.regions_ne_nil
  have counted : m.regionDepth = m.regions.length := settled.counted.1
  omega

/-- Leaving the region and the call that have just begun gives the machine before them. -/
theorem leave_callStart : (Action.endCall.run (m.callStart s f i).leaveRegion).2 = m := rfl

end Machine

namespace Scope

/-! ## Arguments -/

section

variable {s : Scope} {objects : ObjectReading} {declared : Encoding} {before after : List Encoding} {v : Value}
  {us vs : List Value}

/-- The first arguments are converted before the others. -/
theorem arguments_append (same : before.length = us.length) : s.arguments objects (before ++ after) (us ++ vs) = do
    let first ← s.arguments objects before us
    let rest ← s.arguments objects after vs
    return first ++ rest := by
  unfold arguments
  rw [List.zip_append same, List.mapM_append]

/-- Each is held once it is converted. -/
theorem arguments_cons : s.arguments objects (declared :: after) (v :: vs) = do
    let first ← s.argumentOf objects declared v
    hold first
    let rest ← s.arguments objects after vs
    return first :: rest := by
  unfold arguments
  rw [List.zip_cons_cons, List.mapM_cons]
  simp only [bind_assoc, pure_bind]

/-- What is refused ends the conversion: those after it are not looked at. -/
theorem arguments_refused {job : Runner} {m m₁ m₂ : Machine} {converted : List NativeValue} {fault : Fault}
    (same : before.length = us.length) (first : (s.arguments objects before us).exec job m = (.done converted, m₁))
    (refused : (s.argumentOf objects declared v).exec job m₁ = (.thrown fault, m₂)) :
    (s.arguments objects (before ++ declared :: after) (us ++ v :: vs)).Runs job m
      ((s.arguments objects before us).entered job m ++ (s.argumentOf objects declared v).entered job m₁)
      (.thrown fault, m₂) := by
  rw [arguments_append same, arguments_cons]
  exact .after ⟨rfl, first⟩ (.thrown (.thrown ⟨rfl, refused⟩))

/-- A constructor with an initializer for so many arguments converts them and runs it. -/
theorem newInstance_initializer {cls : Class} {table : ExportTable} {e : ExportedMethod} {body : Program.Body}
    (found : table.initializer? vs.length = some e) (marshalable : e.signature.isMarshalable = true)
    (implements : cls.classMethod? e.selector = some body) : s.newInstance cls table vs =
      s.arguments s.objectReading e.signature.args vs >>= runNative body (.classRef cls) := by
  unfold newInstance checkSignature
  rw [found]
  dsimp only
  rw [if_pos marshalable, implements]
  rfl

end

/-! ## Calls -/

variable {s : Scope} {f : FunctionData} {i : Invocation} {m : Machine}

/-- What a call does with what its function gave. -/
def handOver (result : Except Thrown Value) : Routine Thrown Value := do
  track (endValue result)
  ofExcept result

/-- A call that there is room for: the function in its own region, and then its result for the caller's. -/
theorem exec_invoke {job : Runner} (room : m.calls.height < m.options.maxCallDepth) :
    (s.invoke i.callee f i.this i.args i.construct).exec job m =
      Outcome.closing (fun _ => .endCall)
        (Outcome.andThen
          (Outcome.closing .closeRegion
            ((Routine.job (.call f.callable (m.callContext s f) i) : Routine Thrown _).exec job (m.callStart s f i)))
          fun result m => (handOver result).exec job m) := by
  have go : decide (m.options.maxCallDepth ≤ m.calls.height) = false := by simpa using room
  unfold invoke
  rw [exec_look go]
  simp only [Bool.false_eq_true, if_false]
  rw [exec_look rfl]
  change ((inRegion (m.callContext s f) (Routine.job (.call f.callable (m.callContext s f) i)) >>=
    handOver).ensuring fun _ => .endCall).exec job _ = _
  rw [exec_ensuring, exec_bind]
  change Outcome.closing _ (Outcome.andThen (((Routine.job (.call f.callable (m.callContext s f) i) :
    Routine Thrown _).ensuring .closeRegion).exec job (m.callStart s f i)) _) = _
  rw [exec_ensuring]

/-- The job of a call is the routine of its function. -/
theorem exec_callJob {depth : Nat} {outcome : Outcome Empty (Except Thrown Value)} {m₁ : Machine}
    (ends : (f.callable.routine ⟨m.callContext s f⟩ i).exec (Job.exec Job.routine depth) (m.callStart s f i) =
      (outcome, m₁)) :
    (Routine.job (.call f.callable (m.callContext s f) i) : Routine Thrown _).exec (Job.exec Job.routine (depth + 1))
      (m.callStart s f i) = (outcome.mapError nofun, m₁) := by
  have run : Job.exec Job.routine (depth + 1) (.call f.callable (m.callContext s f) i) (m.callStart s f i) =
      (outcome, m₁) := ends
  unfold Routine.job
  rw [exec_enter, run]
  cases outcome with
  | thrown e => nomatch e
  | done | panicked | exhausted => rfl

/-- What its function gives or throws a call gives or throws, in the same heap and with the same contexts. -/
theorem invoke_ends (settled : m.Settled) (inside : m.Inside (some s)) (room : m.calls.height < m.options.maxCallDepth)
    {depth : Nat} {result : Except Thrown Value} {m₁ : Machine}
    (ends : (f.callable.routine ⟨m.callContext s f⟩ i).exec (Job.exec Job.routine depth) (m.callStart s f i) =
      (.done result, m₁)) :
    ∃ m', (s.invoke i.callee f i.this i.args i.construct).exec (Job.exec Job.routine (depth + 1)) m =
      (match result with
        | .ok v => .done v
        | .error t => .thrown t, m') ∧ m'.heap = m₁.heap ∧ m'.contexts = m₁.contexts := by
  have order := (Job.exec_orderly (depth + 1)).meets (.call f.callable (m.callContext s f) i)
    (m.callStart s f i).moment rfl ⟨settled_callStart settled inside, inside_callStart⟩
  have balanced : (m.callStart s f i).Balanced m₁ := by
    rw [show Job.exec Job.routine (depth + 1) (.call f.callable (m.callContext s f) i)
      (m.callStart s f i).moment.machine = _ from ends] at order
    exact order.2
  have closes := m.closeRegion_of_callStart settled inside balanced false
  obtain ⟨_, tracked, -⟩ := Action.run_track m₁.leaveRegion (endValue result)
  rw [exec_invoke room, exec_callJob ends]
  change ∃ m', Outcome.closing _ ((handOver result).exec _ (m₁.closeRegion false)) = _ ∧ _
  rw [closes]
  refine ⟨(Action.endCall.run ((Action.track (endValue result)).run m₁.leaveRegion).2).2, ?_, ?_⟩
  · cases result <;> rfl
  · rw [tracked]
    exact ⟨rfl, rfl⟩

/-- A call whose function does not come to an end by itself, does not either. -/
theorem invoke_stops_short (room : m.calls.height < m.options.maxCallDepth) {depth : Nat}
    {outcome : Outcome Empty (Except Thrown Value)} {m₁ : Machine} (short : outcome.given? = none)
    (ends : (f.callable.routine ⟨m.callContext s f⟩ i).exec (Job.exec Job.routine depth) (m.callStart s f i) =
      (outcome, m₁)) :
    ((s.invoke i.callee f i.this i.args i.construct).exec (Job.exec Job.routine (depth + 1)) m).1 =
      match outcome with
      | .panicked p => .panicked p
      | _ => .exhausted := by
  rw [exec_invoke room, exec_callJob ends]
  cases outcome with
  | done result => nomatch short
  | thrown e => nomatch e
  | panicked p => rfl
  | exhausted => rfl

/-- A function that gives undefined and does nothing else: its call leaves the machine as it was. -/
theorem invoke_undefined (settled : m.Settled) (inside : m.Inside (some s))
    (room : m.calls.height < m.options.maxCallDepth)
    (gives : (f.callable.routine ⟨m.callContext s f⟩ i).Returns (m.callStart s f i) (.ok .undefined)
      (m.callStart s f i)) (depth : Nat) :
    (s.invoke i.callee f i.this i.args i.construct).exec (Job.exec Job.routine (depth + 1)) m =
      (.done .undefined, m) := by
  have closes := m.closeRegion_of_callStart (f := f) (i := i) settled inside (.refl _) false
  rw [exec_invoke room, exec_callJob (gives _)]
  change (Outcome.done _, (Action.endCall.run ((m.callStart s f i).closeRegion false)).2) = _
  rw [closes, Machine.leave_callStart]

end Scope

end ScriptBridge
