import ScriptBridge.Proofs.Tidy.Operations
import ScriptBridge.Session.Run

/-!
# Sessions keep order

Every step of a session keeps order in its environment, whatever it does, and so do the bodies that it
runs. So every job does (`Job.exec_orderly`), at any depth, a session is a run of events, and every
machine that it passes can be reached (`Session.reachable_points`).

Proof-only: not reachable from `ScriptBridge.Session.Run`.
-/

namespace ScriptBridge

open Routine
open Program

namespace Session

/-- What stops a step hands out nothing. -/
instance : Carries Stop where
  value? _ := none

variable {ε α : Type} [Carries ε] {s : Scope} {o : Option Scope} {m : Machine} {Q : α → Machine → Prop}

theorem stop_gives {stop : Stop} : (Routine.throw stop : Routine Stop α).Gives o m Q := .throw fun _ h => nomatch h

theorem liftThrown_gives {r : Routine Thrown α} (h : r.Gives o m Q) : (liftM r : Routine Stop α).Gives o m Q :=
  h.mapError fun _ _ hv => nomatch hv

theorem liftError_gives {r : Routine BridgeError α} (h : r.Gives o m Q) : (liftM r : Routine Stop α).Gives o m Q :=
  h.mapError fun _ _ hv => nomatch hv

theorem changeTables_tidy {f : Tables → Tables} (contexts : ∀ t, ∀ entry ∈ (f t).contexts, entry ∈ t.contexts) :
    (changeTables f : Routine ε Unit).Tidy o m := .tables contexts

/-! ## Showing -/

theorem numberOf_tidy {r : Ref} : (numberOf r : Routine ε Nat).Tidy o m := by
  refine .tables fun t entry mem => ?_
  split at mem
  · exact mem
  · exact mem

theorem showValue_tidy {v : Value} : (showValue v : Routine ε Answer).Tidy o m := by
  unfold showValue
  cases v with
  | undefined | null | bool | number | text => exact .ret
  | object r => exact .look (.bind numberOf_tidy fun _ _ _ _ => .ret)

theorem showToken_tidy {inside : Bool} {token : ScriptToken} : (showToken inside token : Routine ε Answer).Tidy o m := by
  unfold showToken
  cases token with
  | foreign id => exact .ret
  | managed id =>
    dsimp only
    split
    · exact .ret
    · refine .bind Scope.managedValue_tidy fun v m₁ _ _ => ?_
      cases v with
      | none => exact .ret
      | some v => exact .bind showValue_tidy fun _ _ _ _ => .ret

mutual

theorem showNative_tidy (inside : Bool) (v : NativeValue) (m : Machine) :
    (showNative inside v : Routine ε Answer).Tidy o m := by
  unfold showNative
  cases v with
  | array items => exact .bind (showItems_tidy inside items [] m) fun _ _ _ _ => .ret
  | dictionary entries => exact .bind (showEntries_tidy inside entries [] m) fun _ _ _ _ => .ret
  | script token => exact showToken_tidy
  | _ => exact .ret

theorem showItems_tidy (inside : Bool) (items : List NativeValue) (done : List Answer) (m : Machine) :
    (showItems inside items done : Routine ε (List Answer)).Tidy o m := by
  unfold showItems
  cases items with
  | nil => exact .ret
  | cons v rest => exact .bind (showNative_tidy inside v m) fun _ m₁ _ _ => showItems_tidy inside rest _ m₁

theorem showEntries_tidy (inside : Bool) (entries : List (NativeValue × NativeValue)) (done : List Answer)
    (m : Machine) : (showEntries inside entries done : Routine ε (List Answer)).Tidy o m := by
  unfold showEntries
  cases entries with
  | nil => exact .ret
  | cons entry rest =>
    obtain ⟨k, v⟩ := entry
    refine .bind (showNative_tidy inside k m) fun _ m₁ _ _ => ?_
    exact .bind (showNative_tidy inside v m₁) fun _ m₂ _ _ => showEntries_tidy inside rest _ m₂

end

theorem showThrown_tidy {t : Thrown} : (showThrown s t : Routine ε Answer).Tidy (some s) m :=
  .bind showValue_tidy fun _ _ _ _ => .bind Scope.textOf_tidy fun _ _ _ _ => .ret

theorem inspect_tidy {v : Value} : (inspect s v : Routine ε Answer).Tidy (some s) m := by
  unfold inspect
  refine .look (.bind Scope.numberOf_tidy fun _ _ _ _ => .bind Scope.numberOf_tidy fun _ _ _ _ => ?_)
  refine .bind Scope.numberOf_tidy fun _ _ _ _ => .bind Scope.textOf_tidy fun _ _ _ _ => ?_
  refine .look (.look (.bind Scope.toNumber_tidy fun _ _ _ _ => ?_))
  refine .bind (showNative_tidy true _ _) fun _ _ _ _ => .bind Scope.toDate_tidy fun date _ _ _ => ?_
  dsimp only
  split
  · exact .bind .ret fun _ _ _ _ => .look (.look .ret)
  · exact .bind (showNative_tidy true _ _) fun _ _ _ _ => .look (.look .ret)

theorem dumpKeys_tidy {dump : Value → List Ref → Routine ε (Answer × List Ref)}
    (dumps : ∀ v seen m, (dump v seen).Tidy (some s) m) {v : Value} {keys : List String} {seen : List Ref}
    {done : List Answer} : (dumpKeys s dump v keys seen done).Tidy (some s) m := by
  induction keys generalizing seen done m with
  | nil => exact .ret
  | cons key rest ih =>
    unfold dumpKeys
    refine .bind Scope.get_gives.attempt fun result m₁ _ _ => ?_
    cases result with
    | ok item => exact .bind (dumps item seen m₁) fun _ _ _ _ => ih
    | error t => exact .bind showThrown_tidy fun _ _ _ _ => ih

theorem dump_tidy (n : Nat) (v : Value) (seen : List Ref) (m : Machine) :
    (dump s n v seen : Routine ε (Answer × List Ref)).Tidy (some s) m := by
  induction n generalizing v seen m with
  | zero => exact .bind showValue_tidy fun _ _ _ _ => .ret
  | succ n ih =>
    unfold dump
    refine .bind showValue_tidy fun shown m₁ _ _ => ?_
    cases v with
    | object r =>
      refine .look ?_
      split
      · exact .ret
      · refine .bind Scope.textOf_tidy fun _ _ _ _ => .bind Scope.ownKeys_tidy fun _ _ _ _ => ?_
        exact .bind (dumpKeys_tidy ih) fun _ _ _ _ => .look .ret
    | _ => exact .ret

/-! ## Operands -/

theorem inScope_gives {env : Env} : env.inScope.Gives o m fun s _ => env.scope = some s := by
  unfold Env.inScope
  split
  · rename_i h
    exact .pure h
  · exact stop_gives

theorem found_gives {a : Option α} : (found a).Gives o m fun b _ => a = some b := by
  unfold found
  cases a with
  | some a => exact .pure rfl
  | none => exact stop_gives

/-- After something was found, the machine is still the same. -/
theorem foundLook {β : Type} {a : Option β} {f : β → Routine Stop α} (h : ∀ b, (f b).Gives o m Q) :
    (found a >>= f).Gives o m Q := by
  cases a with
  | some b => exact h b
  | none => exact stop_gives

theorem foundTable_tidy {f : Tables → Option α} :
    (do found (← readTable f) : Routine Stop α).Tidy o m := .look found_gives.tidy

theorem raiseStop_tidy {a : Except NativeException α} : (raiseStop a).Tidy o m := by
  unfold raiseStop
  cases a with
  | ok a => exact .ret
  | error e => exact stop_gives

mutual

theorem evaluate_tidy (env : Env) (e : Operand) (m : Machine) : (evaluate env s e).Tidy (some s) m := by
  unfold evaluate
  cases e with
  | undefined | null | bool | number | text => exact .ret
  | array items => exact .bind (evaluateItems_tidy env items #[] m) fun _ _ _ _ => Scope.newArray_gives.tidy
  | object entries =>
    refine .bind Scope.newObject_gives fun v m₁ _ _ => ?_
    exact .bind (evaluateEntries_tidy env v entries m₁) fun _ _ _ _ => .ret
  | register name => exact .look .ret
  | global => exact Scope.global_gives.tidy
  | this | arg | callee | isNew =>
    dsimp only
    split
    · exact .ret
    · exact .ret

theorem evaluateItems_tidy (env : Env) (es : List Operand) (done : Array Value) (m : Machine) :
    (evaluateItems env s es done).Tidy (some s) m := by
  unfold evaluateItems
  cases es with
  | nil => exact .ret
  | cons e rest => exact .bind (evaluate_tidy env e m) fun v m₁ _ _ => evaluateItems_tidy env rest _ m₁

theorem evaluateEntries_tidy (env : Env) (target : Value) (entries : List (String × Operand)) (m : Machine) :
    (evaluateEntries env s target entries).Tidy (some s) m := by
  unfold evaluateEntries
  cases entries with
  | nil => exact .ret
  | cons entry rest =>
    obtain ⟨key, e⟩ := entry
    refine .bind (evaluate_tidy env e m) fun v m₁ _ _ => ?_
    exact .bind (liftThrown_gives Scope.set_tidy) fun _ m₂ _ _ => evaluateEntries_tidy env target rest m₂

end

theorem classNamed_tidy {env : Env} {name : ClassName} : (classNamed env name).Tidy o m := by
  unfold classNamed
  cases name with
  | key name => exact foundTable_tidy
  | ofReceiver =>
    dsimp only
    split
    · exact found_gives.tidy
    · exact stop_gives

theorem create_tidy {cls : Class} {cells : List (String × NativeValue)} : (create cls cells).Tidy o m :=
  .bind Scope.addNative_tidy fun _ _ _ _ => .bind .hold fun _ _ _ _ => .ret

mutual

theorem evaluateNative_tidy (env : Env) (e : NativeOperand) (m : Machine) :
    (evaluateNative env e).Tidy env.scope m := by
  unfold evaluateNative
  cases e with
  | nil | null | bool | number | text | date | data | selector | arg | argCount | receiver => exact .ret
  | array items => exact .bind (evaluateNatives_tidy env items [] m) fun _ _ _ _ => .ret
  | dictionary entries => exact .bind (evaluatePairs_tidy env entries [] m) fun _ _ _ _ => .ret
  | closure key => exact .look (.bind found_gives fun _ _ _ _ => .ret)
  | classRef name => exact .bind classNamed_tidy fun _ _ _ _ => .ret
  | create name cells =>
    refine .bind classNamed_tidy fun cls m₁ _ _ => ?_
    exact .bind (evaluateCells_tidy env cells [] m₁) fun _ _ _ _ => create_tidy
  | instantiate key =>
    refine .bind classNamed_tidy fun cls m₁ _ _ => ?_
    split
    · exact .bind Scope.make_tidy fun _ _ _ _ => .bind .hold fun _ _ _ _ => .ret
    · exact .ret
  | token value =>
    refine .bind inScope_gives fun s m₁ _ scope => ?_
    rw [scope]
    refine .bind (evaluate_tidy env value m₁) fun v m₂ _ _ => .bind Scope.addManaged_tidy fun _ _ _ _ => ?_
    exact .bind .hold fun _ _ _ _ => .ret
  | foreign => exact .bind Scope.addManaged_tidy fun _ _ _ _ => .ret
  | register name => exact .look .ret
  | extract i shape => exact raiseStop_tidy
  | cell name =>
    dsimp only
    split
    · exact .read trivial
    · exact .ret
  | add a b | mul a b =>
    refine .bind (evaluateNative_tidy env a m) fun _ m₁ _ _ => ?_
    exact .bind (evaluateNative_tidy env b m₁) fun _ _ _ _ => .ret

theorem evaluateNatives_tidy (env : Env) (es : List NativeOperand) (done : List NativeValue) (m : Machine) :
    (evaluateNatives env es done).Tidy env.scope m := by
  unfold evaluateNatives
  cases es with
  | nil => exact .ret
  | cons e rest => exact .bind (evaluateNative_tidy env e m) fun _ m₁ _ _ => evaluateNatives_tidy env rest _ m₁

theorem evaluatePairs_tidy (env : Env) (es : List (NativeOperand × NativeOperand))
    (done : List (NativeValue × NativeValue)) (m : Machine) : (evaluatePairs env es done).Tidy env.scope m := by
  unfold evaluatePairs
  cases es with
  | nil => exact .ret
  | cons entry rest =>
    obtain ⟨k, e⟩ := entry
    refine .bind (evaluateNative_tidy env k m) fun _ m₁ _ _ => ?_
    exact .bind (evaluateNative_tidy env e m₁) fun _ m₂ _ _ => evaluatePairs_tidy env rest _ m₂

theorem evaluateCells_tidy (env : Env) (es : List (String × NativeOperand)) (done : List (String × NativeValue))
    (m : Machine) : (evaluateCells env es done).Tidy env.scope m := by
  unfold evaluateCells
  cases es with
  | nil => exact .ret
  | cons entry rest =>
    obtain ⟨name, e⟩ := entry
    exact .bind (evaluateNative_tidy env e m) fun _ m₁ _ _ => evaluateCells_tidy env rest _ m₁

end

variable {env : Env}

theorem operand_tidy {e : NativeOperand} : (operand env e).Tidy env.scope m :=
  .bind (evaluateNative_tidy env e m) fun _ _ _ _ => .bind .hold fun _ _ _ _ => .ret

theorem operands_tidy {es : List NativeOperand} : (operands env es).Tidy env.scope m :=
  .mapM fun _ _ _ _ => operand_tidy

/-! ## Steps on script values -/

theorem keepScript_tidy {dest : Option String} {v : Value} : (keepScript dest v).Tidy o m := by
  unfold keepScript
  split
  · exact .bind (changeTables_tidy fun _ _ mem => mem) fun _ _ _ _ => showValue_tidy
  · exact showValue_tidy

theorem keepNative_tidy {dest : Option String} {v : NativeValue} : (keepNative env dest v).Tidy o m := by
  unfold keepNative
  split
  · exact .bind (changeTables_tidy fun _ _ mem => mem) fun _ _ _ _ => showNative_tidy _ _ _
  · exact showNative_tidy _ _ _

theorem pushLog_tidy {a : Answer} : (pushLog a : Routine ε Unit).Tidy o m := changeTables_tidy fun _ _ mem => mem

theorem done_tidy {r : Routine ε Unit} (h : r.Tidy o m) : (done r).Tidy o m := .bind h fun _ _ _ _ => .ret

theorem answerBool_tidy {r : Routine ε Bool} (h : r.Tidy o m) : (answerBool r).Tidy o m :=
  .bind h fun _ _ _ _ => .ret

/-- Another position of the innermost frame. -/
theorem position_tidy {line column : Nat} : (perform (.position line column) : Routine ε Unit).Tidy o m := by
  refine .perform ⟨trivial, trivial⟩ (Machine.Balanced.kept ?_) trivial
  exact ⟨Machine.regions_of_eq rfl, rfl, rfl, rfl, ⟨some (line, column), rfl⟩, rfl⟩

theorem showStack_tidy : showStack.Tidy o m := by
  have rest (this : Value) {args : List Value} {shownCallee : Answer} {frames : List Frame} {shownThis : Answer}
      {m : Machine} : (do
        let shownArgs ← args.mapM showValue
        return Answer.record [("len", .count frames.length), ("display", .text (Trace.text frames)),
          ("top", frames.head?.elim .null .ofFrame),
          ("script_frame", .ofText? ((Trace.scriptFrame? frames).map Frame.text)),
          ("this", shownThis), ("callee", shownCallee), ("args", .list shownArgs)] :
        Routine Stop Answer).Tidy o m :=
    .bind (.mapM fun _ _ _ _ => showValue_tidy) fun _ _ _ _ => .ret
  unfold showStack
  refine .look (.bind Scope.currentThis_tidy fun this _ _ _ => .bind Scope.currentCallee_tidy fun callee _ _ _ => ?_)
  refine .bind Scope.currentArguments_tidy fun args _ _ _ => .bind showValue_tidy fun _ _ _ _ => ?_
  dsimp only
  cases callee with
  | none => exact .bind .ret fun _ _ _ _ => rest this
  | some v => exact .bind showValue_tidy fun _ _ _ _ => rest this

theorem evaluate?_tidy {e : Option Operand} : (evaluate? env s e).Tidy (some s) m := by
  unfold evaluate?
  cases e with
  | none => exact .ret
  | some e => exact .map (evaluate_tidy env e m)

theorem evaluateTerm_tidy {term : PropertyTerm} : (evaluateTerm env s term).Tidy (some s) m := by
  unfold evaluateTerm
  cases term with
  | data value writable => exact .bind (evaluate_tidy env value m) fun _ _ _ _ => .ret
  | accessor getter setter =>
    exact .bind evaluate?_tidy fun _ _ _ _ => .bind evaluate?_tidy fun _ _ _ _ => .ret

theorem evaluateAll_tidy {es : List Operand} : (evaluateAll env s es).Tidy (some s) m :=
  .mapM fun e _ m' _ => evaluate_tidy env e m'

/-- The operand of a step, and then the rest of the step. -/
theorem evaluated {e : Operand} {f : Value → Routine Stop α} (h : ∀ v m, (f v).Tidy (some s) m) :
    (evaluate env s e >>= f).Tidy (some s) m :=
  .bind (evaluate_tidy env e m) fun v m₁ _ _ => h v m₁

theorem valueStep_tidy {op : ValueStep} {dest : Option String} : (valueStep env s op dest).Tidy (some s) m := by
  unfold valueStep
  cases op with
  | bind value => exact evaluated fun _ _ => keepScript_tidy
  | newError kind message => exact .bind Scope.newError_gives fun _ _ _ _ => keepScript_tidy
  | newDate millis => exact .bind Scope.newDate_gives fun _ _ _ _ => keepScript_tidy
  | newRegexp pattern flags => exact .bind Scope.newRegexp_gives fun _ _ _ _ => keepScript_tidy
  | newBuffer source => exact .bind Scope.newBuffer_gives fun _ _ _ _ => keepScript_tidy
  | inspect value => exact evaluated fun _ _ => inspect_tidy
  | toText value => exact evaluated fun _ _ => .bind Scope.textOf_tidy fun _ _ _ _ => .ret
  | equality a b =>
    exact evaluated fun _ _ => evaluated fun _ _ => .bind Scope.looselyEqual_tidy fun _ _ _ _ => .ret
  | dump value depth => exact evaluated fun v m => .bind (dump_tidy depth v [] m) fun _ _ _ _ => .ret
  | position line column => exact done_tidy position_tidy
  | source resource => exact .look .ret
  | stack logged =>
    refine .bind showStack_tidy fun shown m₁ _ _ => ?_
    dsimp only
    split
    · exact .bind pushLog_tidy fun _ _ _ _ => .ret
    · exact .ret
  | throwValue value => exact evaluated fun _ _ => liftThrown_gives Scope.throwValue_gives
  | throwNew kind message => exact liftThrown_gives Scope.throwNew_gives
  | log value => exact evaluated fun _ _ => .bind showValue_tidy fun _ _ _ _ => done_tidy pushLog_tidy

theorem scriptStep_tidy {op : ScriptStep} {dest : Option String} : (scriptStep env s op dest).Tidy (some s) m := by
  unfold scriptStep
  -- A result of a script operation is kept in a register.
  have kept {r : Routine Thrown Value} {m : Machine} (h : r.HandsOut (some s) m) :
      (do keepScript dest (← r) : Routine Stop Answer).Tidy (some s) m :=
    .bind (liftThrown_gives h) fun _ _ _ _ => keepScript_tidy
  cases op with
  | instanceOf value ctor =>
    exact evaluated fun _ _ => evaluated fun _ _ => answerBool_tidy (liftThrown_gives Scope.instanceOf_tidy)
  | get target key => exact evaluated fun _ _ => kept Scope.get_gives
  | set target key value =>
    exact evaluated fun _ _ => evaluated fun _ _ => done_tidy (liftThrown_gives Scope.set_tidy)
  | has target key => exact evaluated fun _ _ => answerBool_tidy (liftThrown_gives Scope.has_tidy)
  | delete target key => exact evaluated fun _ _ => answerBool_tidy (liftThrown_gives Scope.delete_tidy)
  | getIndex target index => exact evaluated fun _ _ => kept Scope.getIndex_gives
  | setIndex target index value =>
    exact evaluated fun _ _ => evaluated fun _ _ => done_tidy (liftThrown_gives Scope.setIndex_tidy)
  | hasIndex target index => exact evaluated fun _ _ => answerBool_tidy (liftThrown_gives Scope.hasIndex_tidy)
  | define target key term enumerable configurable =>
    refine .bind evaluateTerm_tidy fun d m₁ _ _ => evaluated fun _ _ => ?_
    exact done_tidy (liftThrown_gives Scope.define_tidy)
  | keys target => exact evaluated fun _ _ => .bind Scope.ownKeys_tidy fun _ _ _ _ => .ret
  | prototype target => exact evaluated fun _ _ => .bind Scope.prototypeOf_gives fun _ _ _ _ => keepScript_tidy
  | setPrototype target proto =>
    exact evaluated fun _ _ => evaluated fun _ _ => done_tidy (liftThrown_gives Scope.setPrototypeOf_tidy)
  | call f receiver args =>
    refine evaluated fun _ _ => evaluated fun _ _ => .bind evaluateAll_tidy fun _ _ _ _ => ?_
    exact kept Scope.call_gives
  | construct f args =>
    exact evaluated fun _ _ => .bind evaluateAll_tidy fun _ _ _ _ => kept Scope.construct_gives
  | evaluate source resource => exact kept Scope.evaluate_gives

theorem bridgeStep_tidy {op : BridgeStep} {dest : Option String} (scope : env.scope = some s) :
    (bridgeStep env s op dest).Tidy (some s) m := by
  unfold bridgeStep
  -- A result of a bridge operation is kept in a register.
  have kept {r : Routine BridgeError Value} {m : Machine} (h : r.HandsOut (some s) m) :
      (do keepScript dest (← r) : Routine Stop Answer).Tidy (some s) m :=
    .bind (liftError_gives h) fun _ _ _ _ => keepScript_tidy
  have native {e : NativeOperand} {m : Machine} : (operand env e).Tidy (some s) m := scope ▸ operand_tidy
  have natives {es : List NativeOperand} {m : Machine} : (operands env es).Tidy (some s) m := scope ▸ operands_tidy
  cases op with
  | isInstanceOf value ctor =>
    exact evaluated fun _ _ => evaluated fun _ _ => answerBool_tidy (liftError_gives Scope.isInstanceOf_tidy)
  | wrap value => exact .bind native fun _ _ _ _ => kept Scope.wrap_gives
  | unwrap value shape =>
    exact evaluated fun _ _ => .bind (liftError_gives Scope.unwrap_tidy) fun _ _ _ _ => keepNative_tidy
  | toObjectOfClass value key =>
    refine evaluated fun _ _ => .look (.bind found_gives fun _ _ _ _ => ?_)
    exact .bind Scope.toObjectOfClass_tidy fun _ _ _ _ => keepNative_tidy
  | property target key => exact evaluated fun _ _ => kept Scope.property_gives
  | setProperty target key value =>
    exact evaluated fun _ _ => .bind native fun _ _ _ _ => done_tidy (liftError_gives Scope.setProperty_tidy)
  | deleteProperty target key =>
    exact evaluated fun _ _ => answerBool_tidy (liftError_gives Scope.deleteProperty_tidy)
  | hasProperty target key => exact evaluated fun _ _ => answerBool_tidy (liftError_gives Scope.hasProperty_tidy)
  | valueAt target index => exact evaluated fun _ _ => kept Scope.valueAt_gives
  | setValueAt target index value =>
    exact evaluated fun _ _ => .bind native fun _ _ _ _ => done_tidy (liftError_gives Scope.setValueAt_tidy)
  | defineWith target key descriptor =>
    exact evaluated fun _ _ => .bind native fun _ _ _ _ => done_tidy (liftError_gives Scope.defineWith_tidy)
  | callWith f args => exact evaluated fun _ _ => .bind natives fun _ _ _ _ => kept Scope.callWith_gives
  | constructWith f args => exact evaluated fun _ _ => .bind natives fun _ _ _ _ => kept Scope.constructWith_gives
  | invokeMethod target name args =>
    exact evaluated fun _ _ => .bind natives fun _ _ _ _ => kept Scope.invokeMethod_gives
  | evaluateScript source resource => exact kept Scope.evaluateScript_gives
  | exception value =>
    refine evaluated fun _ _ => .bind Scope.track_tidy fun _ _ _ _ => ?_
    exact .bind Scope.capture_tidy fun _ _ _ _ => .ret

/-! ## Steps on native values -/

theorem addOwner_tidy {id : Nat} {owner : Handle} : (addOwner id owner : Routine ε Bool).Tidy o m := by
  obtain ⟨persistent, eq⟩ := Action.run_addOwner m id owner.serial
  exact .aside ⟨trivial, trivial⟩ (by rw [eq]; rfl)

theorem showManaged_tidy {id : Nat} : (showManaged id : Routine ε Answer).Tidy o m := .look (.look .ret)

theorem managedNamed_tidy {name : String} : (managedNamed name).Tidy o m := foundTable_tidy

theorem ownerOperand_tidy {e : NativeOperand} : (ownerOperand env e).Tidy env.scope m :=
  .bind operand_tidy fun _ _ _ _ => found_gives.tidy

theorem ownToken_tidy {token : NativeValue} {owner : Handle} : (ownToken token owner).Tidy o m := by
  unfold ownToken
  split
  · exact answerBool_tidy addOwner_tidy
  · exact .ret

theorem invokeClosure_tidy {c : Closure} {args : List NativeValue} : (invokeClosure c args).Tidy o m :=
  .bind (.job rfl fun _ h => nomatch h) fun _ _ _ _ => raiseStop_tidy

theorem nameManaged_tidy {name : String} {id : Nat} {owner : Option Handle} :
    (nameManaged name id owner).Tidy o m := by
  unfold nameManaged
  cases owner with
  | none => exact .bind (changeTables_tidy fun _ _ mem => mem) fun _ _ _ _ => showManaged_tidy
  | some h =>
    refine .bind addOwner_tidy fun _ _ _ _ => ?_
    exact .bind (changeTables_tidy fun _ _ mem => mem) fun _ _ _ _ => showManaged_tidy

theorem nativeStep_tidy {op : NativeStep} {dest : Option String} : (nativeStep env op dest).Tidy env.scope m := by
  unfold nativeStep
  cases op with
  | bind value => exact .bind operand_tidy fun _ _ _ _ => keepNative_tidy
  | drop name => exact .look (.bind (changeTables_tidy fun _ _ mem => mem) fun _ _ _ _ => .ret)
  | alive serial =>
    refine .look ?_
    split
    · exact answerBool_tidy (.read trivial)
    · exact .ret
  | cellSet cell value =>
    refine .bind operand_tidy fun _ m₁ _ _ => ?_
    split
    · obtain ⟨natives, eq⟩ := Action.run_setCell m₁ _ cell _
      exact done_tidy (.aside ⟨trivial, trivial⟩ (by rw [eq]; rfl))
    · exact stop_gives
  | cellGet object cell =>
    refine .bind operand_tidy fun _ m₁ _ _ => ?_
    split
    · exact .look keepNative_tidy
    · exact keepNative_tidy
  | equal a b => exact .bind operand_tidy fun _ _ _ _ => .bind operand_tidy fun _ _ _ _ => .ret
  | same a b =>
    refine .bind operand_tidy fun _ _ _ _ => .bind operand_tidy fun _ _ _ _ => ?_
    split
    · exact .ret
    · exact .ret
  | info value debug key =>
    refine .bind operand_tidy fun v m₁ _ _ => ?_
    cases key with
    | none => exact .bind .ret fun _ _ _ _ => .ret
    | some k =>
      dsimp only
      split
      · exact .bind (showNative_tidy _ _ _) fun _ _ _ _ => .bind .ret fun _ _ _ _ => .ret
      · exact .bind .ret fun _ _ _ _ => .ret
  | extract args index shape =>
    exact .bind operands_tidy fun _ _ _ _ => .bind raiseStop_tidy fun _ _ _ _ => keepNative_tidy
  | log value =>
    refine .bind operand_tidy fun _ _ _ _ => .bind (showNative_tidy _ _ _) fun _ _ _ _ => ?_
    exact done_tidy pushLog_tidy
  | raise name reason => exact stop_gives
  | panic message => exact .panic
  | invokeClosure key args =>
    refine .look (.bind found_gives fun _ _ _ _ => .bind operands_tidy fun _ _ _ _ => ?_)
    exact .bind invokeClosure_tidy fun _ _ _ _ => keepNative_tidy
  | managed name value owner =>
    refine .bind inScope_gives fun s m₁ _ scope => ?_
    have evaluates {m : Machine} : (evaluate env s value).Tidy env.scope m := scope ▸ evaluate_tidy env value m
    refine .bind evaluates fun v m₂ _ _ => ?_
    cases owner with
    | none => exact .bind .ret fun _ _ _ _ => .bind Scope.addManaged_tidy fun _ _ _ _ => nameManaged_tidy
    | some e =>
      refine .bind (.mapTidy ownerOperand_tidy) fun _ _ _ _ => ?_
      exact .bind Scope.addManaged_tidy fun _ _ _ _ => nameManaged_tidy
  | managedInfo name => exact .bind managedNamed_tidy fun _ _ _ _ => showManaged_tidy
  | managedValue name =>
    refine .bind managedNamed_tidy fun _ _ _ _ => .bind Scope.managedValue_tidy fun v _ _ _ => ?_
    cases v with
    | none => exact .ret
    | some v => exact keepScript_tidy
  | managedAdd name owner =>
    exact .bind managedNamed_tidy fun _ _ _ _ => .bind ownerOperand_tidy fun _ _ _ _ => answerBool_tidy addOwner_tidy
  | managedRemove name owner =>
    refine .bind managedNamed_tidy fun id _ _ _ => .bind ownerOperand_tidy fun h m₁ _ _ => answerBool_tidy ?_
    obtain ⟨persistent, eq⟩ := Action.run_removeOwner m₁ id h.serial
    exact .aside ⟨trivial, trivial⟩ (by rw [eq]; rfl)
  | managedDrop name => exact .look (.bind (changeTables_tidy fun _ _ mem => mem) fun _ _ _ _ => .ret)
  | tokenOwn value owner =>
    refine .bind operand_tidy fun v m₁ _ _ => ?_
    cases owner with
    | none => exact .bind found_gives fun _ _ _ _ => ownToken_tidy
    | some e => exact .bind ownerOperand_tidy fun _ _ _ _ => ownToken_tidy

/-! ## Steps on the machine -/

/-- The context of a name is alive. -/
theorem contextNamed_gives {name : String} : (contextNamed name).Gives o m fun id m' => m'.contextAlive id = true := by
  unfold contextNamed
  refine .look ?_
  unfold found
  split
  · rename_i h
    exact .pure (Machine.contextAlive_iff.2 (.inl ⟨_, Named.mem_of_get? h, rfl⟩))
  · exact stop_gives

/-- A new context that has what it needs may get a name. -/
theorem nameContext_tidy {name : String} {id : Nat} (rooted : m.Rooted id)
    (fresh : ∃ c, m.context? id = some c ∧ c.Fresh m) :
    (changeTables fun t => { t with contexts := t.contexts.insert name id } : Routine ε Unit).Tidy o m := by
  have named : ∀ entry ∈ (m.tables.contexts.insert name id), m.contextAlive entry.2 = true ∨ entry.2 = id := by
    intro entry mem
    rcases Named.mem_insert mem with mem | same
    · exact .inl (Machine.contextAlive_iff.2 (.inl ⟨entry, mem, rfl⟩))
    · exact .inr same
  refine .aside ⟨fun entry mem => ?_, fun entry mem => ?_⟩ rfl
  · exact (named entry mem).imp_right fun same : entry.2 = id => same ▸ rooted
  · exact (named entry mem).imp_right fun same : entry.2 = id => same ▸ fresh

theorem declareId_tidy : declareId.Tidy o m := .tables fun _ _ mem => mem

theorem findAll_tidy {β : Type} {l : List String} {f : String → Tables → Option β} :
    (l.mapM fun k => do found (← readTable (f k)) : Routine Stop (List β)).Tidy o m :=
  .mapM fun _ _ _ _ => foundTable_tidy

theorem declareProtocol_tidy {key name : String} {parents : List String} {exported : Bool} {decls : List DeclareItem} :
    (declareProtocol key name parents exported decls).Tidy o m := by
  unfold declareProtocol
  refine .bind findAll_tidy fun _ _ _ _ => .bind declareId_tidy fun _ _ _ _ => ?_
  split
  · exact .ret
  · exact done_tidy (changeTables_tidy fun _ _ mem => mem)

theorem declareClass_tidy {key name : String} {super : Option String} {protocols : List String}
    {instanceMethods classMethods : List (String × Body)} {factory : Bool} :
    (declareClass key name super protocols instanceMethods classMethods factory).Tidy o m := by
  unfold declareClass
  cases super with
  | none =>
    refine .bind .ret fun _ _ _ _ => .bind findAll_tidy fun _ _ _ _ => .bind declareId_tidy fun _ _ _ _ => ?_
    exact done_tidy (changeTables_tidy fun _ _ mem => mem)
  | some k =>
    refine .bind (.mapTidy foundTable_tidy) fun _ _ _ _ => .bind findAll_tidy fun _ _ _ _ => ?_
    exact .bind declareId_tidy fun _ _ _ _ => done_tidy (changeTables_tidy fun _ _ mem => mem)

theorem declareClosure_tidy {key types : String} {body : Body} : (declareClosure key types body).Tidy o m := by
  unfold declareClosure
  split
  · exact .ret
  · refine .bind declareId_tidy fun _ _ _ _ => ?_
    exact .bind (changeTables_tidy fun _ _ mem => mem) fun _ _ _ _ => .ret

theorem collect_tidy : (perform .collect : Routine ε Cycle).Tidy o m := by
  obtain ⟨_, _, _, _, eq⟩ := m.collect_eq
  have run : (Action.run .collect m).2 = m.collect.2 := rfl
  exact .aside ⟨trivial, trivial⟩ (by rw [run, eq]; rfl)

theorem machineStep_tidy {op : MachineStep} {dest : Option String} : (machineStep env op dest).Tidy env.scope m := by
  unfold machineStep
  cases op with
  | newContext name => exact .bind newContext_gives fun _ _ _ made => done_tidy (nameContext_tidy made.1 made.2)
  | dropContext name =>
    refine .look (.bind (changeTables_tidy fun t entry mem => ?_) fun _ _ _ _ => .ret)
    exact (List.mem_filter.1 mem).1
  | collect => exact .bind collect_tidy fun _ _ _ _ => .ret
  | collectorStats | heapStats | showOptions => exact .look .ret
  | setThreshold n => exact done_tidy (.aside ⟨rfl, trivial⟩ rfl)
  | setStrategy report => exact done_tidy (.aside ⟨rfl, trivial⟩ rfl)
  | secondMachine changes => exact stop_gives
  | reported => exact .bind (.tables fun _ _ mem => mem) fun _ _ _ _ => .ret
  | hasEvaluator => exact answerBool_tidy (.read trivial)
  | contextGet ctx key =>
    refine .bind contextNamed_gives fun _ _ _ alive => ?_
    exact .bind (liftError_gives (Scope.contextGet_tidy alive)) fun _ _ _ _ => keepNative_tidy
  | contextSet ctx key value =>
    refine .bind contextNamed_gives fun id _ _ alive => .holdingContext alive Scope.tidy_same ?_
    refine .bind operand_tidy fun v m₁ balanced _ => done_tidy (liftError_gives (Scope.contextSet_tidy ?_))
    refine Machine.contextAlive_hold ?_
    rw [balanced.contextHolds]
    exact List.mem_cons_self
  | contextEvaluate ctx source resource =>
    refine .bind contextNamed_gives fun _ _ _ alive => ?_
    exact .bind (liftError_gives (Scope.contextEvaluate_tidy alive)) fun _ _ _ _ => keepNative_tidy
  | contextGlobal ctx dest =>
    refine .bind contextNamed_gives fun _ _ _ alive => ?_
    refine .bind (Scope.globalObject_tidy alive fun _ => rfl) fun _ _ _ _ => ?_
    exact done_tidy (changeTables_tidy fun _ _ mem => mem)
  | setClass ctx name cls =>
    refine .bind contextNamed_gives fun _ m₁ _ alive => .look (foundLook fun _ => ?_)
    exact done_tidy (liftError_gives (Scope.setClass_tidy alive))
  | currentContext => exact .look .ret
  | scopeContext => exact .bind inScope_gives fun _ _ _ _ => .look .ret
  | sameMachine ctx => exact .bind contextNamed_gives fun _ _ _ _ => .ret
  | protocol key name parents exported decls => exact declareProtocol_tidy
  | protocolInfo key find conforms => exact .look (.bind found_gives fun _ _ _ _ => .ret)
  | classInfo key responds classResponds conforms subclassOf =>
    exact .look (.bind found_gives fun _ _ _ _ => .bind findAll_tidy fun _ _ _ _ => .ret)

/-! ## Running -/

theorem showCaught_tidy {t : Thrown} : (showCaught env t).Tidy env.scope m := by
  unfold showCaught
  split
  · rename_i scope
    rw [scope]
    exact showThrown_tidy
  · exact .ret

theorem showStop_tidy {stop : Stop} : (showStop env stop).Tidy env.scope m := by
  unfold showStop
  cases stop with
  | thrown t => exact showCaught_tidy
  | error | raised | returned | returnedNative | misplaced => exact .ret

theorem loggingErrors_tidy {r : Routine Stop Answer} (h : r.Tidy o m) : (loggingErrors env r).Tidy o m := by
  unfold loggingErrors
  split
  · refine .bind h.attempt fun result m₁ _ _ => ?_
    split
    · exact .ret
    · exact .bind pushLog_tidy fun _ _ _ _ => .ret
    · exact stop_gives
  · exact h

theorem times_tidy {r : Routine Stop Unit} (h : ∀ m, r.Tidy o m) (n : Nat) : (times r n).Tidy o m := by
  induction n generalizing m with
  | zero => exact .ret
  | succ n ih => exact .bind (h m) fun _ _ _ _ => ih

theorem takeLog_tidy {a : Answer} : (takeLog a).Tidy o m := by
  refine .bind (.tables fun _ _ mem => mem) fun log m₁ _ _ => ?_
  split
  · exact .ret
  · exact .ret

/-- Steps run in the scope of their environment. -/
theorem withScope {env : Env} {f : Scope → Routine Stop α} (h : ∀ s m, env.scope = some s → (f s).Tidy env.scope m) :
    (env.inScope >>= f).Tidy env.scope m :=
  .bind inScope_gives fun s m₁ _ scope => h s m₁ scope

mutual

theorem runStep_tidy (env : Env) (record : Bool) (step : Step) (m : Machine) :
    (runStep env record step).Tidy env.scope m := by
  unfold runStep
  refine loggingErrors_tidy ?_
  cases step with
  | value op dest =>
    exact withScope fun s m scope => .holding Scope.tidy_same fun _ _ => by rw [scope]; exact valueStep_tidy
  | script op dest =>
    exact withScope fun s m scope => .holding Scope.tidy_same fun _ _ => by rw [scope]; exact scriptStep_tidy
  | bridge op dest =>
    exact withScope fun s m scope => .holding Scope.tidy_same fun _ _ => by rw [scope]; exact bridgeStep_tidy scope
  | native op dest => exact .holding Scope.tidy_same fun _ _ => nativeStep_tidy
  | machine op dest => exact .holding Scope.tidy_same fun _ _ => machineStep_tidy
  | returnScript value => exact stop_gives
  | returnNative value => exact stop_gives
  | execute ctx steps =>
    refine .bind contextNamed_gives fun id m₁ _ alive => .inRegion alive (fun _ => rfl) ?_
    split
    · exact .mapTidy (recordSteps_tidy { env with scope := some ⟨id⟩ } steps [] _)
    · exact .bind (runSteps_tidy { env with scope := some ⟨id⟩ } steps _) fun _ _ _ _ => .ret
  | repeated n steps => exact .bind (times_tidy (runSteps_tidy env steps) n) fun _ _ _ _ => .ret
  | attempt steps dest =>
    refine .bind (runSteps_tidy env steps m).attempt fun result m₁ _ _ => ?_
    split
    · exact .ret
    · split
      · refine .bind (changeTables_tidy fun _ _ mem => mem) fun _ _ _ _ => ?_
        exact .bind showCaught_tidy fun _ _ _ _ => .ret
      · exact .bind showCaught_tidy fun _ _ _ _ => .ret
    · exact .ret
    · exact stop_gives
  | when value steps =>
    refine withScope fun s m scope => ?_
    refine .bind (scope ▸ evaluate_tidy env value m) fun v m₁ _ _ => ?_
    split
    · split
      · exact .bind (.mapTidy (recordSteps_tidy env steps [] _)) fun _ _ _ _ => .ret
      · exact .bind (runSteps_tidy env steps _) fun _ _ _ _ => .ret
    · exact .ret
  | function name body constructs dest =>
    refine withScope fun s m scope => ?_
    rw [scope]
    exact .bind (Scope.newFunction_gives fun _ h => nomatch h) fun _ _ _ _ => keepScript_tidy
  | setEvaluator programs => exact .bind (.aside ⟨trivial, trivial⟩ rfl) fun _ _ _ _ => .ret
  | declareClass => exact declareClass_tidy
  | declareClosure => exact declareClosure_tidy

theorem runSteps_tidy (env : Env) (steps : List Step) (m : Machine) : (runSteps env steps).Tidy env.scope m := by
  unfold runSteps
  cases steps with
  | nil => exact .ret
  | cons step rest => exact .bind (runStep_tidy env false step m) fun _ m₁ _ _ => runSteps_tidy env rest m₁

theorem recordSteps_tidy (env : Env) (steps : List Step) (shown : List Answer) (m : Machine) :
    (recordSteps env steps shown).Tidy env.scope m := by
  unfold recordSteps
  cases steps with
  | nil => exact .ret
  | cons step rest =>
    refine .bind (runStep_tidy env true step m).attempt fun result m₁ _ _ => ?_
    cases result with
    | ok a =>
      refine .bind .ret fun _ _ _ _ => .bind takeLog_tidy fun _ m₂ _ _ => ?_
      exact recordSteps_tidy env rest _ m₂
    | error stop =>
      refine .bind showStop_tidy fun _ _ _ _ => .bind takeLog_tidy fun _ m₂ _ _ => ?_
      exact recordSteps_tidy env rest _ m₂

end

/-! ## Bodies and jobs -/

theorem hostValue_tidy {body : Body} {role : Role} : (hostValue body ⟨role, some s⟩ s).Tidy (some s) m := by
  refine .bind (runSteps_tidy ⟨role, some s⟩ body m).attempt fun result m₁ _ _ => ?_
  split
  · exact .ret
  · exact evaluate_tidy _ _ m₁
  · exact stop_gives

theorem hostBody_tidy {body : Body} {role : Role} : (hostBody body ⟨role, some s⟩ s).Tidy (some s) m := by
  refine .bind hostValue_tidy.attempt fun result m₁ _ _ => ?_
  split
  · exact .ret
  · exact .ret
  · exact .ret

theorem exceptionOf_tidy {stop : Stop} : (exceptionOf env stop).Tidy env.scope m := by
  unfold exceptionOf
  cases stop with
  | thrown t =>
    dsimp only
    split
    · rename_i scope
      rw [scope]
      exact .bind Scope.capture_tidy fun _ _ _ _ => .ret
    · exact .ret
  | error | raised | returned | returnedNative | misplaced => exact .ret

theorem stepsValue_tidy {body : Body} : (stepsValue body env).Tidy env.scope m := by
  refine .bind (runSteps_tidy env body m).attempt fun result m₁ _ _ => ?_
  split
  · exact .ret
  · exact evaluateNative_tidy _ _ m₁
  · exact stop_gives

theorem nativeSteps_tidy {body : Body} : (nativeSteps body env).Tidy env.scope m := by
  refine .bind stepsValue_tidy.attempt fun result m₁ _ _ => ?_
  cases result with
  | ok v => exact .ret
  | error stop => exact .bind exceptionOf_tidy fun _ _ _ _ => .ret

theorem nativeBody_tidy {body : Body} {receiver : Receiver} {args : List NativeValue} :
    (nativeBody body receiver args).Tidy none m := by
  unfold nativeBody
  refine .look ?_
  split
  · rename_i context h
    exact .inRegion (Machine.contextAlive_current? h) (fun e => nomatch e) nativeSteps_tidy
  · exact nativeSteps_tidy

theorem factoryBody_tidy {body : Body} {cls : Class} : (factoryBody body cls).Tidy none m := by
  refine .bind nativeBody_tidy fun result m₁ _ _ => ?_
  split
  · exact .ret
  · exact .bind Scope.addNative_tidy fun _ _ _ _ => .ret

end Session

theorem Callable.routine_tidy {f : Callable} {s : Scope} {i : Invocation} {m : Machine} :
    (f.routine s i).Tidy (some s) m := by
  have tidy {r : Routine Thrown Value} (h : r.Tidy (some s) m) :
      (r.attempt : Routine Empty (Except Thrown Value)).Tidy (some s) m := h.attempt.tidy
  cases f with
  | builtin b => exact tidy Scope.construction_tidy
  | host body constructs => exact Session.hostBody_tidy
  | method method cls => exact tidy (Scope.raising_gives Scope.methodCall_gives.tidy)
  | classMethod method cls => exact tidy (Scope.raising_gives Scope.classMethodCall_gives.tidy)
  | constructor cls table => exact tidy (Scope.raising_gives Scope.constructorCall_gives.tidy)
  | closure c => exact tidy (Scope.raising_gives Scope.closureCall_gives.tidy)

theorem Job.routine_tidy {β : Type} (j : Job β) (m : Machine) : j.routine.Tidy j.scope? m := by
  cases j with
  | call f context i => exact Callable.routine_tidy
  | perform body receiver args => exact Session.nativeBody_tidy
  | make body cls => exact Session.factoryBody_tidy
  | evaluate body context => exact Session.hostBody_tidy

/-- Every job keeps order, however deep. -/
theorem Job.exec_orderly (depth : Nat) : orderly.Holds (Job.exec Job.routine depth) (Job.points Job.routine depth) := by
  refine Job.exec_spec (fun j m ready => ?_) depth
  refine wp_mono (j.routine_tidy m ready.1 ready.2) (Depth.le_refl _) ?_ (fun e => nomatch e) ?_
  · exact fun _ _ ends => ⟨ends.1, ends.2.1.toBalanced⟩
  · exact fun _ ends _ => ⟨ends.1, ends.2.toBalanced⟩

section

variable {ε α : Type} [Carries ε] {still : Bool} {r : Routine ε α} {s : Option Scope} {t : Moment}
  {Q : α → Machine → Prop}

/-- A routine that keeps order runs as events, and ends as it has to. -/
theorem Routine.GivesFrom.exec (h : r.GivesAs still s t.machine Q) (depth : Nat) (sound : t.Sound)
    (settled : t.finishing = []) (inside : t.machine.Inside s) :
    t.Becomes t.machine.depth (r.exec (Job.exec Job.routine depth) t.machine).2 ∧
      (Ends still t.machine Q).Meets (r.exec (Job.exec Job.routine depth) t.machine) ∧
      ∀ jobs, ∀ x ∈ r.points (Job.exec Job.routine depth) (Job.points Job.routine depth jobs) jobs t.machine,
        x.After t.machine.depth t jobs :=
  Routine.exec_spec (Job.exec_orderly depth) settled t.machine.above_depth (h (sound.settled settled) inside)

end

namespace Session

/-- The points of a run of a session. -/
def points (options : Options) (now : Int) (steps : List Step) (depth : Nat) : List Point :=
  (recordSteps {} steps []).points (Job.exec Job.routine depth) (Job.points Job.routine depth []) [] { options, now }

variable {options : Options} {now : Int} {steps : List Step} {depth : Nat} {x : Point}

theorem after_points (mem : x ∈ points options now steps depth) :
    x.After (Moment.start options now).machine.depth (.start options now) [] := by
  have tidy : (recordSteps {} steps []).Tidy none (Moment.start options now).machine := recordSteps_tidy {} steps [] _
  have inside : (Moment.start options now).machine.Inside none := ⟨nofun, fun _ => rfl⟩
  exact (tidy.exec depth (.start options now) rfl inside).2.2 [] x mem

/-- Every machine that a session passes can be reached, between collections. -/
theorem reachable_points (mem : x ∈ points options now steps depth) :
    ∃ t : Moment, (Moment.start options now).Leads t ∧ t.finishing = [] ∧ t.machine = x.machine := by
  obtain ⟨t, within, machine, settled⟩ := (after_points mem).becomes
  exact ⟨t, within.leads, settled, machine⟩

end Session

end ScriptBridge
