import ScriptBridge.Proofs.Confined.Operations
import ScriptBridge.Proofs.Tidy.Session

/-!
# Sessions are confined

Every step of a session is confined in its environment (`Session.runStep_confined`), and so is every job
(`Job.routine_yields`). Declarations put classes on the roster, each under an identity that no class has
(`Session.declareClass_confined`). So every point of every session is lawful (`Session.lawful_points`).

Proof-only: not reachable from `ScriptBridge.Session.Run`.
-/

namespace ScriptBridge

open Routine
open Program

/-- The steps of an environment may run in a job, and what native code was called on and with is known. -/
structure Session.Env.Known (o : Option AnyJob) (K : Roster) (env : Session.Env) : Prop where
  steps : ∀ j, o = some j → j.2.runsSteps = true
  receiver : ∀ receiver args, env.role = .native receiver args → K.Serves receiver
  args : ∀ receiver args, env.role = .native receiver args → ∀ v ∈ args, K.Knows v

namespace Session

variable {ε α β : Type} {s : Scope} {o : Option AnyJob} {K K' : Roster} {Q : Roster → α → Prop} {env : Env}

theorem Env.Known.mono (known : env.Known o K) (le : K ≤ K') : env.Known o K' where
  steps := known.steps
  receiver receiver args role := (known.receiver receiver args role).mono le
  args receiver args role v mem := (known.args receiver args role v mem).mono le

theorem Env.Known.nativeArgs (known : env.Known o K) : ∀ v ∈ env.nativeArgs, K.Knows v := by
  unfold Env.nativeArgs
  split
  · exact known.args _ _ ‹_›
  · exact nofun

theorem Env.Known.receiver? (known : env.Known o K) {h : Handle} (receiver : env.receiver? = some h) : K.Holds h := by
  unfold Env.receiver? at receiver
  split at receiver
  · rename_i h' args role
    obtain rfl := Option.some.inj receiver
    exact known.receiver _ args role
  · nomatch receiver

/-- Another scope makes no difference. -/
theorem Env.Known.inside (known : env.Known o K) (scope : Option Scope) : ({ env with scope } : Env).Known o K :=
  ⟨known.steps, known.receiver, known.args⟩

theorem lifted {r : Routine Thrown α} (h : r.Yields o K Q) : (liftM r : Routine Stop α).Yields o K Q := h.mapError

theorem liftedError {r : Routine BridgeError α} (h : r.Yields o K Q) : (liftM r : Routine Stop α).Yields o K Q :=
  h.mapError

theorem changeTables_confined {f : Tables → Tables} (keeps : ∀ t, t.Known K → (f t).Known K) :
    (changeTables f : Routine ε Unit).Confined o K := .perform keeps

/-! ## Showing -/

theorem numberOf_confined {r : Ref} : (numberOf r : Routine ε Nat).Confined o K := by
  refine .perform fun t known => ?_
  dsimp only
  split
  · exact known
  · exact { known with }

theorem showValue_confined {v : Value} : (showValue v : Routine ε Answer).Confined o K := by
  unfold showValue
  cases v with
  | undefined | null | bool | number | text => exact .ret
  | object r => exact .look fun _ _ => .bind numberOf_confined fun _ _ _ _ => .ret

theorem showToken_confined {inside : Bool} {token : ScriptToken} :
    (showToken inside token : Routine ε Answer).Confined o K := by
  unfold showToken
  cases token with
  | foreign id => exact .ret
  | managed id =>
    dsimp only
    split
    · exact .ret
    · refine .bind Scope.managedValue_confined fun v _ _ _ => ?_
      cases v with
      | none => exact .ret
      | some v => exact .bind showValue_confined fun _ _ _ _ => .ret

mutual

theorem showNative_confined (inside : Bool) (v : NativeValue) (K : Roster) :
    (showNative inside v : Routine ε Answer).Confined o K := by
  unfold showNative
  cases v with
  | array items => exact .bind (showItems_confined inside items [] K) fun _ _ _ _ => .ret
  | dictionary entries => exact .bind (showEntries_confined inside entries [] K) fun _ _ _ _ => .ret
  | script token => exact showToken_confined
  | _ => exact .ret

theorem showItems_confined (inside : Bool) (items : List NativeValue) (done : List Answer) (K : Roster) :
    (showItems inside items done : Routine ε (List Answer)).Confined o K := by
  unfold showItems
  cases items with
  | nil => exact .ret
  | cons v rest => exact .bind (showNative_confined inside v K) fun _ K₁ _ _ => showItems_confined inside rest _ K₁

theorem showEntries_confined (inside : Bool) (entries : List (NativeValue × NativeValue)) (done : List Answer)
    (K : Roster) : (showEntries inside entries done : Routine ε (List Answer)).Confined o K := by
  unfold showEntries
  cases entries with
  | nil => exact .ret
  | cons entry rest =>
    obtain ⟨k, v⟩ := entry
    refine .bind (showNative_confined inside k K) fun _ K₁ _ _ => ?_
    exact .bind (showNative_confined inside v K₁) fun _ K₂ _ _ => showEntries_confined inside rest _ K₂

end

theorem showThrown_confined {t : Thrown} : (showThrown s t : Routine ε Answer).Confined o K :=
  .bind showValue_confined fun _ _ _ _ => .bind Scope.textOf_confined fun _ _ _ _ => .ret

theorem inspect_confined {v : Value} : (inspect s v : Routine ε Answer).Confined o K := by
  unfold inspect
  refine .look fun _ _ => .bind Scope.numberOf_confined fun _ _ _ _ => .bind Scope.numberOf_confined fun _ _ _ _ => ?_
  refine .bind Scope.numberOf_confined fun _ _ _ _ => .bind Scope.textOf_confined fun _ _ _ _ => ?_
  refine .look fun _ _ => .look fun _ _ => .bind Scope.toNumber_confined fun _ _ _ _ => ?_
  refine .bind (showNative_confined true _ _) fun _ _ _ _ => .bind Scope.toDate_confined fun date _ _ _ => ?_
  dsimp only
  split
  · exact .bind .ret fun _ _ _ _ => .look fun _ _ => .look fun _ _ => .ret
  · exact .bind (showNative_confined true _ _) fun _ _ _ _ => .look fun _ _ => .look fun _ _ => .ret

theorem dumpKeys_confined {dump : Value → List Ref → Routine ε (Answer × List Ref)}
    (dumps : ∀ v seen K, (dump v seen).Confined o K) {v : Value} {keys : List String} {seen : List Ref}
    {done : List Answer} : (dumpKeys s dump v keys seen done).Confined o K := by
  induction keys generalizing seen done K with
  | nil => exact .ret
  | cons key rest ih =>
    unfold dumpKeys
    refine .bind Scope.get_confined.attempt fun result K₁ _ _ => ?_
    cases result with
    | ok item => exact .bind (dumps item seen K₁) fun _ _ _ _ => ih
    | error t => exact .bind showThrown_confined fun _ _ _ _ => ih

theorem dump_confined (n : Nat) (v : Value) (seen : List Ref) (K : Roster) :
    (dump s n v seen : Routine ε (Answer × List Ref)).Confined o K := by
  induction n generalizing v seen K with
  | zero => exact .bind showValue_confined fun _ _ _ _ => .ret
  | succ n ih =>
    unfold dump
    refine .bind showValue_confined fun shown _ _ _ => ?_
    cases v with
    | object r =>
      refine .look fun _ _ => ?_
      split
      · exact .ret
      · refine .bind Scope.textOf_confined fun _ _ _ _ => .bind Scope.ownKeys_confined fun _ _ _ _ => ?_
        exact .bind (dumpKeys_confined ih) fun _ _ _ _ => .look fun _ _ => .ret
    | _ => exact .ret

/-! ## Operands -/

theorem inScope_confined : env.inScope.Confined o K := by
  unfold Env.inScope
  split
  · exact .ret
  · exact .throw

theorem found_yields {a : Option α} : (found a).Yields o K fun _ b => a = some b := by
  unfold found
  cases a with
  | some a => exact .pure rfl
  | none => exact .throw

/-- What a table has under a name is as all its entries are. -/
theorem foundTable {f : Tables → Option α} (h : ∀ t, t.Known K → ∀ a, f t = some a → Q K a) :
    (do found (← readTable f) : Routine Stop α).Yields o K Q := by
  refine .look fun m known => ?_
  cases found : f m.tables with
  | some a => exact .pure (h _ known.tables a found)
  | none => exact .throw

theorem raiseStop_yields {a : Except NativeException α} : (raiseStop a).Yields o K fun _ b => a = .ok b := by
  unfold raiseStop
  cases a with
  | ok a => exact .pure rfl
  | error e => exact .throw

mutual

theorem evaluate_confined (env : Env) (e : Operand) (K : Roster) : (evaluate env s e).Confined o K := by
  unfold evaluate
  cases e with
  | undefined | null | bool | number | text => exact .ret
  | array items => exact .bind (evaluateItems_confined env items #[] K) fun _ _ _ _ => Scope.newArray_confined
  | object entries =>
    refine .bind Scope.newObject_confined fun v K₁ _ _ => ?_
    exact .bind (evaluateEntries_confined env v entries K₁) fun _ _ _ _ => .ret
  | register name => exact .look fun _ _ => .ret
  | global => exact Scope.global_confined
  | this | arg | callee | isNew =>
    dsimp only
    split
    · exact .ret
    · exact .ret

theorem evaluateItems_confined (env : Env) (es : List Operand) (done : Array Value) (K : Roster) :
    (evaluateItems env s es done).Confined o K := by
  unfold evaluateItems
  cases es with
  | nil => exact .ret
  | cons e rest => exact .bind (evaluate_confined env e K) fun v K₁ _ _ => evaluateItems_confined env rest _ K₁

theorem evaluateEntries_confined (env : Env) (target : Value) (entries : List (String × Operand)) (K : Roster) :
    (evaluateEntries env s target entries).Confined o K := by
  unfold evaluateEntries
  cases entries with
  | nil => exact .ret
  | cons entry rest =>
    obtain ⟨key, e⟩ := entry
    refine .bind (evaluate_confined env e K) fun v K₁ _ _ => ?_
    exact .bind (lifted Scope.set_confined) fun _ K₂ _ _ => evaluateEntries_confined env target rest K₂

end

theorem classNamed_yields {name : ClassName} (known : env.Known o K) : (classNamed env name).Yields o K Roster.Has := by
  unfold classNamed
  cases name with
  | key name => exact foundTable fun t known c found => known.classes _ (Named.mem_of_get? found)
  | ofReceiver =>
    dsimp only
    split
    · rename_i receiver args role
      exact found_yields.imp fun c K' le found => ((known.receiver receiver args role).has found).mono le
    · exact .throw

theorem create_yields {cls : Class} {cells : List (String × NativeValue)} (has : K.Has cls)
    (knows : ∀ e ∈ cells, K.Knows e.2) : (create cls cells).YieldsKnown o K :=
  .bind (Scope.addNative_yields has knows) fun _ _ _ holds => .bind .hold fun _ _ le _ =>
    .pure (Roster.knows_object.2 (holds.mono le))

/-- An object that the factory of a class makes. -/
theorem make_yields {cls : Class} {body : Body} (has : K.Has cls) :
    (do let h ← job (.make body cls); hold (.object h); return .object h : Routine Stop NativeValue).YieldsKnown o K :=
  .bind (.job has) fun _ _ _ gives => .bind .hold fun _ _ le _ => .pure (Roster.knows_object.2 (gives.mono le))

/-- The cells of native objects are known. -/
theorem knows_cellValue {m : Machine} (known : m.Known K) (serial : Nat) (cell : String) :
    K.Knows (cellValue m serial cell) := by
  unfold cellValue
  cases found : (m.native? serial).bind fun ob => Named.get? ob.cells cell with
  | none => exact .plain rfl
  | some v =>
    obtain ⟨ob, there, found⟩ := Option.bind_eq_some_iff.1 found
    unfold Machine.native? at there
    split at there
    · nomatch there
    · exact known.cells ob (Array.mem_of_getElem? there) _ (Named.mem_of_get? found)

mutual

/-- The native value of an operand is known. -/
theorem evaluateNative_yields (env : Env) (e : NativeOperand) (K : Roster) (known : env.Known o K) :
    (evaluateNative env e).YieldsKnown o K := by
  unfold evaluateNative
  cases e with
  | nil | null | bool | number | text | date | data | selector | argCount => exact Scope.plain rfl
  | arg i =>
    refine .pure ?_
    rw [List.getD_eq_getElem?_getD]
    cases found : env.nativeArgs[i]? with
    | none => exact .plain rfl
    | some v => exact known.nativeArgs v (List.mem_of_getElem? found)
  | receiver =>
    refine .pure ?_
    cases receiver : env.receiver? with
    | none => exact .plain rfl
    | some h => exact Roster.knows_object.2 (known.receiver? receiver)
  | array items =>
    refine .bind (evaluateNatives_yields env items [] K known nofun) fun vs K₁ _ knows => .pure ?_
    exact Roster.knows_array.2 knows
  | dictionary entries =>
    refine .bind (evaluatePairs_yields env entries [] K known nofun) fun es K₁ _ knows => .pure ?_
    exact Roster.knows_dictionary.2 knows
  | closure key => exact .look fun _ _ => .bind found_yields fun _ _ _ _ => Scope.plain rfl
  | classRef name => exact .bind (classNamed_yields known) fun _ _ _ has => .pure (Roster.knows_classRef.2 has)
  | create name cells =>
    refine .bind (classNamed_yields known) fun cls K₁ le₁ has => ?_
    refine .bind (evaluateCells_yields env cells [] K₁ (known.mono le₁) nofun) fun cells K₂ le₂ knows => ?_
    exact create_yields (has.mono le₂) knows
  | instantiate key =>
    refine .bind (classNamed_yields known) fun cls K₁ _ has => ?_
    split
    · exact make_yields has
    · exact Scope.plain rfl
  | token value =>
    refine .bind inScope_confined fun s K₁ _ _ => .bind (evaluate_confined env value K₁) fun v _ _ _ => ?_
    exact .bind (.perform trivial) fun _ _ _ _ => .bind .hold fun _ _ _ _ => Scope.plain rfl
  | foreign => exact .bind (.perform trivial) fun _ _ _ _ => Scope.plain rfl
  | register name =>
    refine .look fun m known => .pure ?_
    change K.Knows ((m.tables.natives.get? name).getD .nil)
    cases found : m.tables.natives.get? name with
    | none => exact .plain rfl
    | some v => exact known.tables.natives _ (Named.mem_of_get? found)
  | extract i shape =>
    exact raiseStop_yields.imp fun v K' le read => (Roster.Knows.argument known.nativeArgs read).mono le
  | cell name =>
    dsimp only
    split
    · exact .read fun m known => knows_cellValue known _ _
    · exact Scope.plain rfl
  | add a b | mul a b =>
    refine .bind (evaluateNative_yields env a K known) fun _ K₁ le _ => ?_
    exact .bind (evaluateNative_yields env b K₁ (known.mono le)) fun _ _ _ _ => Scope.plain rfl

theorem evaluateNatives_yields (env : Env) (es : List NativeOperand) (done : List NativeValue) (K : Roster)
    (known : env.Known o K) (knows : ∀ v ∈ done, K.Knows v) :
    (evaluateNatives env es done).Yields o K fun K' vs => ∀ v ∈ vs, K'.Knows v := by
  unfold evaluateNatives
  cases es with
  | nil => exact .pure fun v mem => knows v (List.mem_reverse.1 mem)
  | cons e rest =>
    refine .bind (evaluateNative_yields env e K known) fun v K₁ le knowsValue => ?_
    refine evaluateNatives_yields env rest (v :: done) K₁ (known.mono le) fun w mem => ?_
    rcases List.mem_cons.1 mem with rfl | mem
    · exact knowsValue
    · exact (knows w mem).mono le

theorem evaluatePairs_yields (env : Env) (es : List (NativeOperand × NativeOperand))
    (done : List (NativeValue × NativeValue)) (K : Roster) (known : env.Known o K)
    (knows : ∀ e ∈ done, K.Knows e.1 ∧ K.Knows e.2) :
    (evaluatePairs env es done).Yields o K fun K' vs => ∀ e ∈ vs, K'.Knows e.1 ∧ K'.Knows e.2 := by
  unfold evaluatePairs
  cases es with
  | nil => exact .pure fun e mem => knows e (List.mem_reverse.1 mem)
  | cons entry rest =>
    obtain ⟨k, e⟩ := entry
    refine .bind (evaluateNative_yields env k K known) fun key K₁ le₁ knowsKey => ?_
    refine .bind (evaluateNative_yields env e K₁ (known.mono le₁)) fun v K₂ le₂ knowsValue => ?_
    refine evaluatePairs_yields env rest ((key, v) :: done) K₂ ((known.mono le₁).mono le₂) fun e mem => ?_
    rcases List.mem_cons.1 mem with rfl | mem
    · exact ⟨knowsKey.mono le₂, knowsValue⟩
    · exact ⟨((knows e mem).1.mono le₁).mono le₂, ((knows e mem).2.mono le₁).mono le₂⟩

theorem evaluateCells_yields (env : Env) (es : List (String × NativeOperand)) (done : List (String × NativeValue))
    (K : Roster) (known : env.Known o K) (knows : ∀ e ∈ done, K.Knows e.2) :
    (evaluateCells env es done).Yields o K fun K' cells => ∀ e ∈ cells, K'.Knows e.2 := by
  unfold evaluateCells
  cases es with
  | nil => exact .pure knows
  | cons entry rest =>
    obtain ⟨name, e⟩ := entry
    refine .bind (evaluateNative_yields env e K known) fun v K₁ le knowsValue => ?_
    refine evaluateCells_yields env rest _ K₁ (known.mono le) fun e mem => ?_
    rcases Named.mem_insert mem with mem | rfl
    · exact (knows e mem).mono le
    · exact knowsValue

end

theorem operand_yields {e : NativeOperand} (known : env.Known o K) : (operand env e).YieldsKnown o K :=
  .bind (evaluateNative_yields env e K known) fun _ _ _ knows => .bind .hold fun _ _ le _ => .pure (knows.mono le)

theorem operands_yields {es : List NativeOperand} (known : env.Known o K) :
    (operands env es).Yields o K fun K' vs => ∀ v ∈ vs, K'.Knows v := by
  have each : (operands env es).Yields o K fun K' vs => vs.length = es.length ∧ ∀ v ∈ vs, K'.Knows v :=
    .mapM (fun _ _ _ le knows => knows.mono le) fun _ _ _ le => operand_yields (known.mono le)
  exact each.imp fun _ _ _ ends => ends.2

/-! ## Steps on script values -/

theorem keepScript_confined {dest : Option String} {v : Value} : (keepScript dest v).Confined o K := by
  unfold keepScript
  split
  · exact .bind (changeTables_confined fun _ known => { known with }) fun _ _ _ _ => showValue_confined
  · exact showValue_confined

/-- A known value may be kept. -/
theorem keepNative_confined {dest : Option String} {v : NativeValue} (knows : K.Knows v) :
    (keepNative env dest v).Confined o K := by
  unfold keepNative
  split
  · refine .bind (changeTables_confined fun t known => { known with natives := fun e mem => ?_ }) fun _ _ _ _ => ?_
    · rcases Named.mem_insert mem with mem | rfl
      · exact known.natives e mem
      · exact knows
    · exact showNative_confined _ _ _
  · exact showNative_confined _ _ _

theorem pushLog_confined {a : Answer} : (pushLog a : Routine ε Unit).Confined o K :=
  changeTables_confined fun _ known => { known with }

theorem done_confined {r : Routine ε Unit} (h : r.Confined o K) : (done r).Confined o K := .bind h fun _ _ _ _ => .ret

theorem answerBool_confined {r : Routine ε Bool} (h : r.Confined o K) : (answerBool r).Confined o K :=
  .bind h fun _ _ _ _ => .ret

theorem showStack_confined : showStack.Confined o K := by
  have rest {args : List Value} {shownCallee : Answer} {frames : List Frame} {shownThis : Answer}
      {K : Roster} : (do
        let shownArgs ← args.mapM showValue
        return Answer.record [("len", .count frames.length), ("display", .text (Trace.text frames)),
          ("top", frames.head?.elim .null .ofFrame),
          ("script_frame", .ofText? ((Trace.scriptFrame? frames).map Frame.text)),
          ("this", shownThis), ("callee", shownCallee), ("args", .list shownArgs)] :
        Routine Stop Answer).Confined o K :=
    .bind (.mapMConfined fun _ _ _ _ => showValue_confined) fun _ _ _ _ => .ret
  unfold showStack
  refine .look fun _ _ => .bind Scope.currentThis_confined fun this _ _ _ => ?_
  refine .bind Scope.currentCallee_confined fun callee _ _ _ => ?_
  refine .bind Scope.currentArguments_confined fun args _ _ _ => ?_
  refine .bind showValue_confined fun _ _ _ _ => ?_
  dsimp only
  cases callee with
  | none => exact .bind .ret fun _ _ _ _ => rest
  | some v => exact .bind showValue_confined fun _ _ _ _ => rest

theorem evaluate?_confined {e : Option Operand} : (evaluate? env s e).Confined o K := by
  unfold evaluate?
  cases e with
  | none => exact .ret
  | some e => exact .mapConfined (evaluate_confined env e K)

theorem evaluateTerm_confined {term : PropertyTerm} : (evaluateTerm env s term).Confined o K := by
  unfold evaluateTerm
  cases term with
  | data value writable => exact .bind (evaluate_confined env value K) fun _ _ _ _ => .ret
  | accessor getter setter =>
    exact .bind evaluate?_confined fun _ _ _ _ => .bind evaluate?_confined fun _ _ _ _ => .ret

theorem evaluateAll_confined {es : List Operand} : (evaluateAll env s es).Confined o K :=
  .mapMConfined fun e _ K' _ => evaluate_confined env e K'

/-- The operand of a step, and then the rest of the step. -/
theorem evaluatedOperand {e : Operand} {f : Value → Routine Stop α} (h : ∀ v K', K ≤ K' → (f v).Confined o K') :
    (evaluate env s e >>= f).Confined o K :=
  .bind (evaluate_confined env e K) fun v K₁ le _ => h v K₁ le

theorem valueStep_confined {op : ValueStep} {dest : Option String} : (valueStep env s op dest).Confined o K := by
  unfold valueStep
  cases op with
  | bind value => exact evaluatedOperand fun _ _ _ => keepScript_confined
  | newError kind message => exact .bind Scope.newError_confined fun _ _ _ _ => keepScript_confined
  | newDate millis => exact .bind Scope.newDate_confined fun _ _ _ _ => keepScript_confined
  | newRegexp pattern flags => exact .bind Scope.newRegexp_confined fun _ _ _ _ => keepScript_confined
  | newBuffer source => exact .bind Scope.newBuffer_confined fun _ _ _ _ => keepScript_confined
  | inspect value => exact evaluatedOperand fun _ _ _ => inspect_confined
  | toText value => exact evaluatedOperand fun _ _ _ => .bind Scope.textOf_confined fun _ _ _ _ => .ret
  | equality a b =>
    refine evaluatedOperand fun _ _ _ => evaluatedOperand fun _ _ _ => ?_
    exact .bind Scope.looselyEqual_confined fun _ _ _ _ => .ret
  | dump value depth => exact evaluatedOperand fun v K' _ => .bind (dump_confined depth v [] K') fun _ _ _ _ => .ret
  | position line column => exact done_confined (.perform trivial)
  | source resource => exact .look fun _ _ => .ret
  | stack logged =>
    refine .bind showStack_confined fun shown _ _ _ => ?_
    dsimp only
    split
    · exact .bind pushLog_confined fun _ _ _ _ => .ret
    · exact .ret
  | throwValue value => exact evaluatedOperand fun _ _ _ => lifted Scope.throwValue_yields
  | throwNew kind message => exact lifted Scope.throwNew_yields
  | log value =>
    exact evaluatedOperand fun _ _ _ => .bind showValue_confined fun _ _ _ _ => done_confined pushLog_confined

theorem scriptStep_confined {op : ScriptStep} {dest : Option String} : (scriptStep env s op dest).Confined o K := by
  unfold scriptStep
  -- A result of a script operation is kept in a register.
  have kept {r : Routine Thrown Value} {K : Roster} (h : r.Confined o K) :
      (do keepScript dest (← r) : Routine Stop Answer).Confined o K :=
    .bind (lifted h) fun _ _ _ _ => keepScript_confined
  cases op with
  | instanceOf value ctor =>
    exact evaluatedOperand fun _ _ _ => evaluatedOperand fun _ _ _ =>
      answerBool_confined (lifted Scope.instanceOf_confined)
  | get target key => exact evaluatedOperand fun _ _ _ => kept Scope.get_confined
  | set target key value =>
    exact evaluatedOperand fun _ _ _ => evaluatedOperand fun _ _ _ => done_confined (lifted Scope.set_confined)
  | has target key => exact evaluatedOperand fun _ _ _ => answerBool_confined (lifted Scope.has_confined)
  | delete target key => exact evaluatedOperand fun _ _ _ => answerBool_confined (lifted Scope.delete_confined)
  | getIndex target index => exact evaluatedOperand fun _ _ _ => kept Scope.getIndex_confined
  | setIndex target index value =>
    exact evaluatedOperand fun _ _ _ => evaluatedOperand fun _ _ _ => done_confined (lifted Scope.setIndex_confined)
  | hasIndex target index => exact evaluatedOperand fun _ _ _ => answerBool_confined (lifted Scope.hasIndex_confined)
  | define target key term enumerable configurable =>
    refine .bind evaluateTerm_confined fun d _ _ _ => evaluatedOperand fun _ _ _ => ?_
    exact done_confined (lifted Scope.define_confined)
  | keys target => exact evaluatedOperand fun _ _ _ => .bind Scope.ownKeys_confined fun _ _ _ _ => .ret
  | prototype target =>
    exact evaluatedOperand fun _ _ _ => .bind Scope.prototypeOf_confined fun _ _ _ _ => keepScript_confined
  | setPrototype target proto =>
    exact evaluatedOperand fun _ _ _ => evaluatedOperand fun _ _ _ =>
      done_confined (lifted Scope.setPrototypeOf_confined)
  | call f receiver args =>
    refine evaluatedOperand fun _ _ _ => evaluatedOperand fun _ _ _ => .bind evaluateAll_confined fun _ _ _ _ => ?_
    exact kept Scope.call_confined
  | construct f args =>
    exact evaluatedOperand fun _ _ _ => .bind evaluateAll_confined fun _ _ _ _ => kept Scope.construct_confined
  | evaluate source resource => exact kept Scope.evaluate_confined

theorem bridgeStep_confined {op : BridgeStep} {dest : Option String} (known : env.Known o K) :
    (bridgeStep env s op dest).Confined o K := by
  unfold bridgeStep
  -- A result of a bridge operation is kept in a register.
  have kept {r : Routine BridgeError Value} {K : Roster} (h : r.Confined o K) :
      (do keepScript dest (← r) : Routine Stop Answer).Confined o K :=
    .bind (liftedError h) fun _ _ _ _ => keepScript_confined
  -- After the target of a step, its native operands.
  have native {e : NativeOperand} {K' : Roster} {f : NativeValue → Routine Stop Answer} (le : K ≤ K')
      (h : ∀ v K'', K''.Knows v → (f v).Confined o K'') : (operand env e >>= f).Confined o K' :=
    .bind (operand_yields (known.mono le)) fun v K'' _ knows => h v K'' knows
  have natives {es : List NativeOperand} {K' : Roster} {f : List NativeValue → Routine Stop Answer} (le : K ≤ K')
      (h : ∀ vs K'', (∀ v ∈ vs, K''.Knows v) → (f vs).Confined o K'') : (operands env es >>= f).Confined o K' :=
    .bind (operands_yields (known.mono le)) fun vs K'' _ knows => h vs K'' knows
  cases op with
  | isInstanceOf value ctor =>
    exact evaluatedOperand fun _ _ _ => evaluatedOperand fun _ _ _ =>
      answerBool_confined (liftedError Scope.isInstanceOf_confined)
  | wrap value => exact native K.le_refl fun _ _ knows => kept (Scope.wrap_confined knows)
  | unwrap value shape =>
    exact evaluatedOperand fun _ _ _ => .bind (liftedError Scope.unwrap_yields) fun _ _ _ knows =>
      keepNative_confined knows
  | toObjectOfClass value key =>
    refine evaluatedOperand fun _ _ _ => .look fun _ _ => .bind found_yields fun _ _ _ _ => ?_
    exact .bind Scope.toObjectOfClass_yields fun _ _ _ knows => keepNative_confined knows
  | property target key => exact evaluatedOperand fun _ _ _ => kept Scope.property_confined
  | setProperty target key value =>
    exact evaluatedOperand fun _ _ le => native le fun _ _ knows =>
      done_confined (liftedError (Scope.setProperty_confined knows))
  | deleteProperty target key =>
    exact evaluatedOperand fun _ _ _ => answerBool_confined (liftedError Scope.deleteProperty_confined)
  | hasProperty target key =>
    exact evaluatedOperand fun _ _ _ => answerBool_confined (liftedError Scope.hasProperty_confined)
  | valueAt target index => exact evaluatedOperand fun _ _ _ => kept Scope.valueAt_confined
  | setValueAt target index value =>
    exact evaluatedOperand fun _ _ le => native le fun _ _ knows =>
      done_confined (liftedError (Scope.setValueAt_confined knows))
  | defineWith target key descriptor =>
    exact evaluatedOperand fun _ _ le => native le fun _ _ knows =>
      done_confined (liftedError (Scope.defineWith_confined knows))
  | callWith f args =>
    exact evaluatedOperand fun _ _ le => natives le fun _ _ knows => kept (Scope.callWith_confined knows)
  | constructWith f args =>
    exact evaluatedOperand fun _ _ le => natives le fun _ _ knows => kept (Scope.constructWith_confined knows)
  | invokeMethod target name args =>
    exact evaluatedOperand fun _ _ le => natives le fun _ _ knows => kept (Scope.invokeMethod_confined knows)
  | evaluateScript source resource => exact kept Scope.evaluateScript_confined
  | exception value =>
    refine evaluatedOperand fun _ _ _ => .bind Scope.track_confined fun _ _ _ _ => ?_
    exact .bind Scope.capture_confined fun _ _ _ _ => .ret

/-! ## Steps on native values -/

theorem addOwner_confined {id : Nat} {owner : Handle} : (addOwner id owner : Routine ε Bool).Confined o K :=
  .perform trivial

theorem showManaged_confined {id : Nat} : (showManaged id : Routine ε Answer).Confined o K :=
  .look fun _ _ => .look fun _ _ => .ret

theorem managedNamed_confined {name : String} : (managedNamed name).Confined o K := foundTable fun _ _ _ _ => trivial

theorem ownerOperand_confined {e : NativeOperand} (known : env.Known o K) : (ownerOperand env e).Confined o K :=
  .bind (operand_yields known) fun _ _ _ _ => found_yields.confined

theorem ownToken_confined {token : NativeValue} {owner : Handle} : (ownToken token owner).Confined o K := by
  unfold ownToken
  split
  · exact answerBool_confined addOwner_confined
  · exact .ret

/-- Native code may run a closure. -/
theorem invokeClosure_yields {c : Closure} {args : List NativeValue} (known : env.Known o K)
    (knows : ∀ v ∈ args, K.Knows v) : (invokeClosure c args).YieldsKnown o K :=
  .bind (.job ⟨.byNative known.steps, trivial, knows⟩) fun _ _ _ gives =>
    raiseStop_yields.imp fun v _ le ends => (gives v ends).mono le

theorem nameManaged_confined {name : String} {id : Nat} {owner : Option Handle} :
    (nameManaged name id owner).Confined o K := by
  unfold nameManaged
  have keep {K : Roster} : (do
      changeTables fun t => { t with managed := t.managed.insert name id }
      showManaged id : Routine Stop Answer).Confined o K :=
    .bind (changeTables_confined fun _ known => { known with }) fun _ _ _ _ => showManaged_confined
  cases owner with
  | none => exact keep
  | some h => exact .bind addOwner_confined fun _ _ _ _ => keep

/-- A native operand of a step, and then the rest of the step. -/
theorem nativeOperand {e : NativeOperand} {f : NativeValue → Routine Stop α} (known : env.Known o K)
    (h : ∀ v K', env.Known o K' → K'.Knows v → (f v).Confined o K') : (operand env e >>= f).Confined o K :=
  .bind (operand_yields known) fun v K' le knows => h v K' (known.mono le) knows

theorem nativeStep_confined {op : NativeStep} {dest : Option String} (known : env.Known o K) :
    (nativeStep env op dest).Confined o K := by
  unfold nativeStep
  cases op with
  | bind value => exact nativeOperand known fun _ _ _ knows => keepNative_confined knows
  | drop name =>
    refine .look fun _ _ => .bind (changeTables_confined fun t known => ?_) fun _ _ _ _ => .ret
    exact { known with natives := fun e mem => known.natives e (List.mem_filter.1 mem).1 }
  | alive serial =>
    refine .look fun _ _ => ?_
    split
    · exact answerBool_confined (.read fun _ _ => trivial)
    · exact .ret
  | cellSet cell value =>
    refine nativeOperand known fun v K' _ knows => ?_
    split
    · exact done_confined (.perform knows)
    · exact .throw
  | cellGet object cell =>
    refine nativeOperand known fun v K' _ knows => ?_
    split
    · exact .bind (.read fun m known => knows_cellValue known _ _) fun _ _ _ knows => keepNative_confined knows
    · exact keepNative_confined (.plain rfl)
  | equal a b => exact nativeOperand known fun _ _ known _ => nativeOperand known fun _ _ _ _ => .ret
  | same a b =>
    refine nativeOperand known fun _ _ known _ => nativeOperand known fun _ _ _ _ => ?_
    split
    · exact .ret
    · exact .ret
  | info value debug key =>
    refine nativeOperand known fun v K' _ _ => ?_
    cases key with
    | none => exact .bind .ret fun _ _ _ _ => .ret
    | some k =>
      dsimp only
      split
      · exact .bind (showNative_confined _ _ _) fun _ _ _ _ => .bind .ret fun _ _ _ _ => .ret
      · exact .bind .ret fun _ _ _ _ => .ret
  | extract args index shape =>
    refine .bind (operands_yields known) fun args K₁ _ knows => .bind raiseStop_yields fun v K₂ le read => ?_
    exact keepNative_confined ((Roster.Knows.argument knows read).mono le)
  | log value =>
    refine nativeOperand known fun _ _ _ _ => .bind (showNative_confined _ _ _) fun _ _ _ _ => ?_
    exact done_confined pushLog_confined
  | raise name reason => exact .throw
  | panic message => exact .panic
  | invokeClosure key args =>
    refine .look fun _ _ => .bind found_yields fun c K₁ le₁ _ => ?_
    refine .bind (operands_yields (known.mono le₁)) fun args K₂ le₂ knows => ?_
    refine .bind (invokeClosure_yields ((known.mono le₁).mono le₂) knows) fun v _ _ knows => ?_
    exact keepNative_confined knows
  | managed name value owner =>
    refine .bind inScope_confined fun s K₁ le₁ _ => .bind (evaluate_confined env value K₁) fun v K₂ le₂ _ => ?_
    cases owner with
    | none => exact .bind .ret fun _ _ _ _ => .bind (.perform trivial) fun _ _ _ _ => nameManaged_confined
    | some e =>
      have known₂ : env.Known o K₂ := (known.mono le₁).mono le₂
      refine .bind (.mapConfined (ownerOperand_confined known₂)) fun owner _ _ _ => ?_
      exact .bind (.perform trivial) fun _ _ _ _ => nameManaged_confined
  | managedInfo name => exact .bind managedNamed_confined fun _ _ _ _ => showManaged_confined
  | managedValue name =>
    refine .bind managedNamed_confined fun _ _ _ _ => .bind Scope.managedValue_confined fun v _ _ _ => ?_
    cases v with
    | none => exact .ret
    | some v => exact keepScript_confined
  | managedAdd name owner =>
    refine .bind managedNamed_confined fun _ K₁ le _ => ?_
    exact .bind (ownerOperand_confined (known.mono le)) fun _ _ _ _ => answerBool_confined addOwner_confined
  | managedRemove name owner =>
    refine .bind managedNamed_confined fun _ K₁ le _ => ?_
    exact .bind (ownerOperand_confined (known.mono le)) fun _ _ _ _ => answerBool_confined (.perform trivial)
  | managedDrop name =>
    exact .look fun _ _ => .bind (changeTables_confined fun _ known => { known with }) fun _ _ _ _ => .ret
  | tokenOwn value owner =>
    refine nativeOperand known fun v K' known _ => ?_
    cases owner with
    | none => exact .bind found_yields fun _ _ _ _ => ownToken_confined
    | some e => exact .bind (ownerOperand_confined known) fun _ _ _ _ => ownToken_confined

/-! ## Steps on the machine -/

theorem contextNamed_confined {name : String} : (contextNamed name).Confined o K := foundTable fun _ _ _ _ => trivial

/-- The identity that is given out is that of no class. -/
theorem declareId_yields : declareId.Yields o K fun K' id => K'.class? id = none ∧ id < K'.declared := by
  intro m known
  have declared : m.tables.declared = K.declared := known.tables.declared
  have le : K ≤ K.reserve := ⟨fun _ has => has, fun _ _ made => made⟩
  have reserved : Tables.Known K.reserve { m.tables with declared := m.tables.declared + 1 } :=
    ⟨fun e mem => (known.tables.natives e mem).mono le, fun e mem => (known.tables.classes e mem).mono le,
      known.tables.protocols, congrArg (· + 1) declared⟩
  refine ⟨K.reserve, le, known.mono_of_tables le rfl _ reserved, ?_, ?_⟩
  · exact K.fresh _ (Nat.le_of_eq declared.symm)
  · exact Nat.lt_succ_of_le (Nat.le_of_eq declared)

/-- What a table has under some names is as all its entries are. -/
theorem findAll {l : List String} {f : String → Tables → Option α} {P : α → Prop}
    (h : ∀ k K t, t.Known K → ∀ a, f k t = some a → P a) :
    (l.mapM fun k => do found (← readTable (f k)) : Routine Stop (List α)).Yields o K fun _ as => ∀ a ∈ as, P a := by
  have each : (l.mapM fun k => do found (← readTable (f k)) : Routine Stop (List α)).Yields o K
      fun _ as => as.length = l.length ∧ ∀ a ∈ as, P a :=
    .mapM (fun _ _ _ _ ha => ha) fun k _ K' _ => foundTable fun t known a found => h k K' t known a found
  exact each.imp fun _ _ _ ends => ends.2

/-- Declared protocols fit. -/
theorem findProtocols {names : List String} :
    (names.mapM fun p => do found (← readTable (·.protocols.get? p)) : Routine Stop (List Protocol)).Yields o K
      fun _ ps => ∀ p ∈ ps, p.Fits :=
  findAll fun _ _ _ known _ found => known.protocols _ (Named.mem_of_get? found)

theorem declareProtocol_confined {key name : String} {parents : List String} {exported : Bool}
    {decls : List DeclareItem} : (declareProtocol key name parents exported decls).Confined o K := by
  unfold declareProtocol
  refine .bind findProtocols fun parents K₁ _ above => .bind declareId_yields fun id K₂ _ _ => ?_
  split
  · exact .ret
  · rename_i declared
    refine done_confined (changeTables_confined fun t known => { known with protocols := fun e mem => ?_ })
    rcases Named.mem_insert mem with mem | rfl
    · exact known.protocols e mem
    · exact Protocol.fits_declare above declared

/-- A new class joins the roster. -/
theorem addClass_confined {key : String} {cls : Class} (given : cls.id < K.declared) (unused : K.class? cls.id = none)
    (super : ∀ s, cls.superclass = some s → K.Has s) (own : ∀ p ∈ cls.protocols, p.Fits) :
    (changeTables fun t => { t with classes := t.classes.insert key cls } : Routine ε Unit).Confined o K := by
  intro m known
  have fits : cls.Fits := Class.fits_of_super own fun s hs => K.fits s (super s hs)
  have le : K ≤ K.add cls given unused super fits := Roster.le_add given unused super fits
  have joined : Tables.Known (K.add cls given unused super fits)
      { m.tables with classes := m.tables.classes.insert key cls } :=
    { natives := fun e mem => (known.tables.natives e mem).mono le
      classes := fun e mem => by
        rcases Named.mem_insert mem with mem | rfl
        · exact (known.tables.classes e mem).mono le
        · exact Roster.has_add given unused super fits
      protocols := known.tables.protocols
      declared := known.tables.declared }
  exact ⟨_, le, known.mono_of_tables le rfl _ joined, trivial⟩

theorem declareClass_confined {key name : String} {super : Option String} {protocols : List String}
    {instanceMethods classMethods : List (String × Body)} {factory : Bool} :
    (declareClass key name super protocols instanceMethods classMethods factory).Confined o K := by
  unfold declareClass
  -- Once the superclass is found.
  have declare {superclass : Option Class} {K : Roster} (has : ∀ s, superclass = some s → K.Has s) : (do
      let protocols ← protocols.mapM fun p => do found (← readTable (·.protocols.get? p))
      let id ← declareId
      done (changeTables fun t => { t with
        classes := t.classes.insert key ⟨id, key, name, superclass, protocols,
          .ofList (instanceMethods.map fun m => (⟨m.1⟩, m.2)), .ofList (classMethods.map fun m => (⟨m.1⟩, m.2)),
          if factory then some [] else none⟩ }) : Routine Stop Answer).Confined o K := by
    refine .bind findProtocols fun ps K₁ le₁ fits => .bind declareId_yields fun id K₂ le₂ new => ?_
    exact done_confined (addClass_confined new.2 new.1 (fun s hs => ((has s hs).mono le₁).mono le₂) fits)
  cases super with
  | none => exact .bind (.pure nofun) fun _ _ _ has => declare has
  | some k =>
    have named : (do found (← readTable (·.classes.get? k)) : Routine Stop Class).Yields o K Roster.Has :=
      foundTable fun t known c found => known.classes _ (Named.mem_of_get? found)
    refine .bind (.map (named.imp fun c K' _ has s same => Option.some.inj same ▸ has)) fun _ _ _ has => declare has

theorem declareClosure_confined {key types : String} {body : Body} : (declareClosure key types body).Confined o K := by
  unfold declareClosure
  split
  · exact .ret
  · refine .bind declareId_yields fun _ _ _ _ => ?_
    exact .bind (changeTables_confined fun _ known => { known with }) fun _ _ _ _ => .ret

theorem machineStep_confined {op : MachineStep} {dest : Option String} (known : env.Known o K) :
    (machineStep env op dest).Confined o K := by
  unfold machineStep
  cases op with
  | newContext name =>
    exact .bind newContext_confined fun _ _ _ _ => done_confined (changeTables_confined fun _ known => { known with })
  | dropContext name =>
    exact .look fun _ _ => .bind (changeTables_confined fun _ known => { known with }) fun _ _ _ _ => .ret
  | collect => exact .bind (.perform trivial) fun _ _ _ _ => .ret
  | collectorStats | heapStats | showOptions => exact .look fun _ _ => .ret
  | setThreshold n => exact done_confined (.perform trivial)
  | setStrategy report => exact done_confined (.perform trivial)
  | secondMachine changes => exact .throw
  | reported => exact .bind (.perform fun _ known => { known with }) fun _ _ _ _ => .ret
  | hasEvaluator => exact answerBool_confined (.read fun _ _ => trivial)
  | contextGet ctx key =>
    refine .bind contextNamed_confined fun _ _ _ _ => .bind (liftedError Scope.contextGet_yields) fun _ _ _ knows => ?_
    exact keepNative_confined knows
  | contextSet ctx key value =>
    refine .bind contextNamed_confined fun id K₁ le _ => .holdingContext ?_
    refine nativeOperand (known.mono le) fun v _ _ knows => ?_
    exact done_confined (liftedError (Scope.contextSet_confined knows))
  | contextEvaluate ctx source resource =>
    refine .bind contextNamed_confined fun _ _ _ _ => ?_
    exact .bind (liftedError Scope.contextEvaluate_yields) fun _ _ _ knows => keepNative_confined knows
  | contextGlobal ctx dest =>
    refine .bind contextNamed_confined fun _ _ _ _ => .bind Scope.globalObject_confined fun _ _ _ _ => ?_
    exact done_confined (changeTables_confined fun _ known => { known with })
  | setClass ctx name cls =>
    refine .bind contextNamed_confined fun id K₁ _ _ => ?_
    have named : (do found (← readTable (·.classes.get? cls)) : Routine Stop Class).Yields o K₁ Roster.Has :=
      foundTable fun t known c found => known.classes _ (Named.mem_of_get? found)
    exact named.bind fun c K₂ _ has => done_confined (liftedError (Scope.setClass_confined has))
  | currentContext => exact .look fun _ _ => .ret
  | scopeContext => exact .bind inScope_confined fun _ _ _ _ => .look fun _ _ => .ret
  | sameMachine ctx => exact .bind contextNamed_confined fun _ _ _ _ => .ret
  | protocol key name parents exported decls => exact declareProtocol_confined
  | protocolInfo key find conforms => exact .look fun _ _ => .bind found_yields fun _ _ _ _ => .ret
  | classInfo key responds classResponds conforms subclassOf =>
    refine .look fun _ _ => .bind found_yields fun _ _ _ _ => ?_
    exact .bind (findAll fun _ _ _ _ _ _ => trivial) fun _ _ _ _ => .ret

/-! ## Running -/

theorem showCaught_confined {t : Thrown} : (showCaught env t).Confined o K := by
  unfold showCaught
  split
  · exact showThrown_confined
  · exact .ret

theorem showStop_confined {stop : Stop} : (showStop env stop).Confined o K := by
  unfold showStop
  cases stop with
  | thrown t => exact showCaught_confined
  | error | raised | returned | returnedNative | misplaced => exact .ret

theorem loggingErrors_confined {r : Routine Stop Answer} (h : r.Confined o K) : (loggingErrors env r).Confined o K := by
  unfold loggingErrors
  split
  · refine .bind h.attempt fun result _ _ _ => ?_
    split
    · exact .ret
    · exact .bind pushLog_confined fun _ _ _ _ => .ret
    · exact .throw
  · exact h

theorem times_confined {r : Routine Stop Unit} (h : ∀ K', K ≤ K' → r.Confined o K') (n : Nat) :
    (times r n).Confined o K := by
  induction n generalizing K with
  | zero => exact .ret
  | succ n ih => exact .bind (h K K.le_refl) fun _ K₁ le _ => ih fun K' le' => h K' (Roster.le_trans le le')

theorem takeLog_confined {a : Answer} : (takeLog a).Confined o K := by
  refine .bind (.perform fun _ known => { known with }) fun log _ _ _ => ?_
  split
  · exact .ret
  · exact .ret

mutual

/-- A step does what its environment allows. -/
theorem runStep_confined (env : Env) (record : Bool) (step : Step) (K : Roster) (known : env.Known o K) :
    (runStep env record step).Confined o K := by
  unfold runStep
  refine loggingErrors_confined ?_
  cases step with
  | value op dest => exact .bind inScope_confined fun _ _ _ _ => .holding valueStep_confined
  | script op dest => exact .bind inScope_confined fun _ _ _ _ => .holding scriptStep_confined
  | bridge op dest =>
    exact .bind inScope_confined fun _ _ le _ => .holding (bridgeStep_confined (known.mono le))
  | native op dest => exact .holding (nativeStep_confined known)
  | machine op dest => exact .holding (machineStep_confined known)
  | returnScript value => exact .throw
  | returnNative value => exact .throw
  | execute ctx steps =>
    refine .bind contextNamed_confined fun id K₁ le _ => .inRegion ?_
    have inside : ({ env with scope := some ⟨id⟩ } : Env).Known o K₁ := (known.mono le).inside _
    split
    · exact .mapConfined (recordSteps_confined _ steps [] K₁ inside)
    · exact .bind (runSteps_confined _ steps K₁ inside) fun _ _ _ _ => .ret
  | repeated n steps =>
    exact .bind (times_confined (fun K' le => runSteps_confined env steps K' (known.mono le)) n) fun _ _ _ _ => .ret
  | attempt steps dest =>
    refine .bind (runSteps_confined env steps K known).attempt fun result K₁ _ _ => ?_
    split
    · exact .ret
    · split
      · refine .bind (changeTables_confined fun _ known => { known with }) fun _ _ _ _ => ?_
        exact .bind showCaught_confined fun _ _ _ _ => .ret
      · exact .bind showCaught_confined fun _ _ _ _ => .ret
    · exact .ret
    · exact .throw
  | when value steps =>
    refine .bind inScope_confined fun s K₁ le₁ _ => .bind (evaluate_confined env value K₁) fun v K₂ le₂ _ => ?_
    have known₂ : env.Known o K₂ := (known.mono le₁).mono le₂
    split
    · split
      · exact .bind (.mapConfined (recordSteps_confined env steps [] K₂ known₂)) fun _ _ _ _ => .ret
      · exact .bind (runSteps_confined env steps K₂ known₂) fun _ _ _ _ => .ret
    · exact .ret
  | function name body constructs dest =>
    refine .bind inScope_confined fun s K₁ _ _ => ?_
    exact .bind (Scope.newFunction_confined trivial) fun _ _ _ _ => keepScript_confined
  | setEvaluator programs => exact .bind (.perform trivial) fun _ _ _ _ => .ret
  | declareClass => exact declareClass_confined
  | declareClosure => exact declareClosure_confined

theorem runSteps_confined (env : Env) (steps : List Step) (K : Roster) (known : env.Known o K) :
    (runSteps env steps).Confined o K := by
  unfold runSteps
  cases steps with
  | nil => exact .ret
  | cons step rest =>
    refine .bind (runStep_confined env false step K known) fun _ K₁ le _ => ?_
    exact runSteps_confined env rest K₁ (known.mono le)

theorem recordSteps_confined (env : Env) (steps : List Step) (shown : List Answer) (K : Roster)
    (known : env.Known o K) : (recordSteps env steps shown).Confined o K := by
  unfold recordSteps
  cases steps with
  | nil => exact .ret
  | cons step rest =>
    refine .bind (runStep_confined env true step K known).attempt fun result K₁ le₁ _ => ?_
    cases result with
    | ok a =>
      refine .bind .ret fun _ K₂ le₂ _ => .bind takeLog_confined fun _ K₃ le₃ _ => ?_
      exact recordSteps_confined env rest _ K₃ (((known.mono le₁).mono le₂).mono le₃)
    | error stop =>
      refine .bind showStop_confined fun _ K₂ le₂ _ => .bind takeLog_confined fun _ K₃ le₃ _ => ?_
      exact recordSteps_confined env rest _ K₃ (((known.mono le₁).mono le₂).mono le₃)

end

/-! ## Bodies and jobs -/

theorem hostBody_confined {body : Body} (known : env.Known o K) : (hostBody body env s).Confined o K := by
  have value : (hostValue body env s).Confined o K := by
    refine .bind (runSteps_confined env body K known).attempt fun result K₁ _ _ => ?_
    split
    · exact .ret
    · exact evaluate_confined _ _ K₁
    · exact .throw
  refine .bind value.attempt fun result _ _ _ => ?_
  split
  · exact .ret
  · exact .ret
  · exact .ret

theorem exceptionOf_confined {stop : Stop} : (exceptionOf env stop).Confined o K := by
  unfold exceptionOf
  cases stop with
  | thrown t =>
    dsimp only
    split
    · exact .bind Scope.capture_confined fun _ _ _ _ => .ret
    · exact .ret
  | error | raised | returned | returnedNative | misplaced => exact .ret

/-- What a native body returns is known. -/
theorem stepsValue_yields {body : Body} (known : env.Known o K) : (stepsValue body env).YieldsKnown o K := by
  refine .bind (runSteps_confined env body K known).attempt fun result K₁ le _ => ?_
  split
  · exact Scope.plain rfl
  · exact evaluateNative_yields _ _ K₁ (known.mono le)
  · exact .throw

theorem nativeSteps_yields {body : Body} (known : env.Known o K) :
    (nativeSteps body env).Yields o K fun K' result => ∀ v, result = .ok v → K'.Knows v := by
  refine .bind (stepsValue_yields known).attempt fun result K₁ _ ends => ?_
  cases result with
  | ok v => exact .pure fun v' same => Except.ok.inj same ▸ ends v rfl
  | error stop => exact .bind exceptionOf_confined fun _ _ _ _ => .pure nofun

theorem nativeBody_yields {body : Body} {receiver : Receiver} {args : List NativeValue}
    (steps : ∀ j, o = some j → j.2.runsSteps = true) (serves : K.Serves receiver) (knows : ∀ v ∈ args, K.Knows v) :
    (nativeBody body receiver args).Yields o K fun K' result => ∀ v, result = .ok v → K'.Knows v := by
  have known (scope : Option Scope) : Env.Known o K ⟨.native receiver args, scope⟩ := by
    refine ⟨steps, fun receiver' args' role => ?_, fun receiver' args' role => ?_⟩
    · obtain ⟨rfl, -⟩ := Role.native.inj role
      exact serves
    · obtain ⟨-, rfl⟩ := Role.native.inj role
      exact knows
  unfold nativeBody
  refine .look fun _ _ => ?_
  split
  · exact .inRegion (nativeSteps_yields (known _))
  · exact nativeSteps_yields (known _)

/-- A factory makes objects of known classes. -/
theorem factoryBody_yields {body : Body} {cls : Class} (steps : ∀ j, o = some j → j.2.runsSteps = true)
    (has : K.Has cls) : (factoryBody body cls).Yields o K fun K' h => K'.Holds h := by
  have serves : K.Serves (.classRef cls) := has
  refine .bind (nativeBody_yields steps serves nofun) fun result K₁ le ends => ?_
  split
  · exact .pure (Roster.knows_object.1 (ends _ rfl))
  · exact .bind (Scope.addNative_yields (has.mono le) nofun) fun _ _ _ holds => .pure holds

/-- A function of the host, or a source, has nothing of native code at hand. -/
theorem known_hostEnv {this callee : Value} {args : List Value} {construct : Bool}
    (steps : ∀ j, o = some j → j.2.runsSteps = true) : Env.Known o K ⟨.host this callee args construct, some s⟩ :=
  ⟨steps, nofun, nofun⟩

end Session

/-- A function that is known does what it may. -/
theorem Callable.routine_confined {f : Callable} {context : Nat} {i : Invocation} {K : Roster} (known : f.Known K) :
    (f.routine ⟨context⟩ i).Confined (some ⟨_, .call f context i⟩) K := by
  cases f with
  | builtin b => exact Scope.construction_confined.attempt.confined
  | host body constructs =>
    exact Session.hostBody_confined (Session.known_hostEnv fun j same => Option.some.inj same ▸ rfl)
  | method method cls =>
    exact (Scope.raising_yields (Scope.methodCall_confined known.1 known.2)).attempt.confined
  | classMethod method cls =>
    exact (Scope.raising_yields (Scope.classMethodCall_confined known.1 known.2)).attempt.confined
  | constructor cls table =>
    exact (Scope.raising_yields (Scope.constructorCall_confined known.1 known.2)).attempt.confined
  | closure c => exact (Scope.raising_yields Scope.closureCall_confined).attempt.confined

/-- A job that is ready does what it may. -/
theorem Job.routine_yields {β : Type} (j : Job β) (o : Option AnyJob) (K : Roster) (ready : j.Ready o K) :
    j.routine.Yields (some ⟨β, j⟩) K fun K' b => j.Gives K' b := by
  have steps {β : Type} {j : Job β} (runs : j.runsSteps = true) :
      ∀ j', some (⟨β, j⟩ : AnyJob) = some j' → j'.2.runsSteps = true := fun j' same => Option.some.inj same ▸ runs
  cases j with
  | call f context i => exact Callable.routine_confined ready
  | perform body receiver args => exact Session.nativeBody_yields (steps rfl) ready.2.1 ready.2.2
  | make body cls => exact Session.factoryBody_yields (steps rfl) ready
  | evaluate body context => exact Session.hostBody_confined (Session.known_hostEnv (steps rfl))

namespace Session

variable {options : Options} {now : Int} {steps : List Step} {depth : Nat} {x : Point}

/-- A new machine knows nothing. -/
theorem known_start (options : Options) (now : Int) : Machine.Known .empty { options, now } where
  heap := Heap.Sound.empty
  objects r ob ho := nomatch ho
  templates id c hc := nomatch hc
  natives := Array.map_empty.symm
  cells ob ho := by simp at ho
  tables := ⟨nofun, nofun, nofun, rfl⟩

/-- At every point of a session the machine is known, and each native body may be run by the job below it. -/
theorem lawful_points (mem : x ∈ points options now steps depth) : x.Lawful := by
  have known := known_start options now
  have confined : (recordSteps {} steps []).Confined (List.head? ([] : List AnyJob)) .empty :=
    recordSteps_confined {} steps [] .empty ⟨nofun, nofun, nofun⟩
  exact (confined _ known).lawful (Job.confining Job.routine_yields depth) known trivial x mem

end Session

end ScriptBridge
