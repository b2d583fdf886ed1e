import ScriptBridge.Bridge.Callback
import ScriptBridge.Proofs.Contained
import ScriptBridge.Scope.Assign

/-!
# Entries into native code

Scripts enter native code through exported methods, constructors, the functions of closures, exported properties
and subscripts. Each of these contains what the native body fails with: the operation ends with an error that
records the exception, and no panic of a native body goes through the frames of scripts.

* Conversions run functions and exported getters, so they contain failures as well: `Scope.argumentOf_contains`,
  `Scope.naturalAt_contains`, `Scope.toScriptAt_contains`.
* `Callable.routine_of_bridged`, `Access.routine_contains`: the entries.
* `Scope.constructorCall_panics`: the factory of a class is no native body here, and its panic goes on.
* `Moment.Reachable.contains_failures`: calls and accesses at every moment.

Proof-only: not reachable from `ScriptBridge.Session.Run`.
-/

namespace ScriptBridge

open Routine
open Program (UnwrapShape)

/-- Reading objects contains what native bodies fail with. -/
structure ObjectReading.Contains (objects : ObjectReading) : Prop where
  natural : ∀ r, (objects.natural r).Contains false
  array : ∀ r, (objects.array r).Contains false
  dictionary : ∀ r, (objects.dictionary r).Contains false

theorem ObjectReading.primitive_contains : ObjectReading.primitive.Contains :=
  ⟨fun _ => .pure, fun _ => .pure, fun _ => .pure⟩

namespace Scope

variable {ε α : Type} [Fails ε] {hosted : Bool} {s : Scope}

/-! ## Making values -/

theorem allocate_contains {o : Object} : (allocate o : Routine ε Value).Contains hosted :=
  .bind .perform fun _ => .pure

theorem newObject_contains : (s.newObject : Routine ε Value).Contains hosted :=
  .bind .read fun _ => allocate_contains

theorem newArray_contains {items : Array Value} : (s.newArray items : Routine ε Value).Contains hosted :=
  .bind .read fun _ => allocate_contains

theorem newError_contains {kind : Program.ErrorKind} {message : String} :
    (s.newError kind message : Routine ε Value).Contains hosted :=
  .bind .read fun _ => .bind .read fun _ => allocate_contains

theorem newDate_contains {millis : Double} {nanos : Nat} : (s.newDate millis nanos : Routine ε Value).Contains hosted :=
  .bind .read fun _ => allocate_contains

theorem newBuffer_contains {bytes : ByteArray} : (s.newBuffer bytes : Routine ε Value).Contains hosted :=
  .bind .read fun _ => allocate_contains

theorem newFunctionWith_contains {name : String} {f : Callable} {prototype above : Option Ref} :
    (s.newFunctionWith name f prototype above : Routine ε Ref).Contains hosted := by
  unfold newFunctionWith
  refine .bind .read fun _ => .bind .perform fun r => ?_
  split
  · exact .bind .perform fun _ => .pure
  · exact .pure

theorem newFunction_contains {name : String} {f : Callable} :
    (s.newFunction name f : Routine ε Value).Contains hosted := by
  unfold newFunction
  split
  · exact .bind .read fun _ => .bind .perform fun _ => .bind newFunctionWith_contains fun _ => .pure
  · exact .bind newFunctionWith_contains fun _ => .pure

theorem throwNew_contains {kind : Program.ErrorKind} {message : String} :
    (s.throwNew kind message : Routine Thrown α).Contains hosted := .bind newError_contains fun _ => .throw

theorem throwType_contains {message : String} : (s.throwType message : Routine Thrown α).Contains hosted :=
  throwNew_contains

theorem throwRange_contains {message : String} : (s.throwRange message : Routine Thrown α).Contains hosted :=
  throwNew_contains

/-! ## Calls -/

/-- A call enters the function alone. -/
theorem invoke_contains {callee : Ref} {f : FunctionData} {this : Value} {args : List Value} {construct : Bool} :
    (s.invoke callee f this args construct).Contains hosted := by
  unfold invoke
  refine .bind .read fun full => ?_
  split
  · exact throwRange_contains
  · refine .bind .read fun _ => .inCall (.bind (.inRegion (.job rfl)) fun result => .bind .perform fun _ => ?_)
    cases result with
    | ok v => exact .pure
    | error t => exact .throw

theorem callAccessor_contains {r : Ref} {this : Value} {args : List Value} :
    (s.callAccessor r this args).Contains hosted := by
  unfold callAccessor
  refine .bind .read fun found => ?_
  split
  · exact invoke_contains
  · exact throwType_contains

theorem getOrdinary_contains {holder : Ref} {receiver : Value} {key : String} :
    (s.getOrdinary holder receiver key).Contains hosted := by
  unfold getOrdinary
  refine .bind .read fun found => ?_
  split
  · exact .bind .perform fun _ => .pure
  · exact callAccessor_contains
  · exact .pure
  · exact .pure

/-! ## Coercions -/

theorem errorField_contains {r : Ref} {key : String} : (s.errorField r key : Routine ε String).Contains hosted := by
  refine .bind getOrdinary_contains.attempt fun result => ?_
  cases result with
  | ok v => exact .pure
  | error t => exact .pure

theorem textAt_contains {room : Nat} {v : Value} : (s.textAt room v : Routine ε String).Contains hosted := by
  induction room generalizing v with
  | zero =>
    unfold textAt
    split
    · refine .bind .read fun payload => ?_
      split <;> try exact .pure
      exact .bind errorField_contains fun _ => .bind errorField_contains fun _ => .pure
    · exact .pure
  | succ n ih =>
    unfold textAt
    split
    · refine .bind .read fun payload => ?_
      split <;> try exact .pure
      · refine .bind (.mapM fun item _ => ?_) fun _ => .pure
        split
        · exact .pure
        · exact ih
      · exact .bind errorField_contains fun _ => .bind errorField_contains fun _ => .pure
    · exact .pure

theorem textOf_contains {v : Value} : (s.textOf v : Routine ε String).Contains hosted := textAt_contains

theorem numberOf_contains {v : Value} : (s.numberOf v : Routine ε Double).Contains hosted := by
  unfold numberOf
  split
  · exact .pure
  · refine .bind .read fun millis => ?_
    split
    · exact .pure
    · exact .bind textOf_contains fun _ => .pure

/-! ## Ordinary properties -/

theorem writeOwn_contains {holder : Ref} {key : String} {v : Value} :
    (s.writeOwn holder key v).Contains hosted := by
  unfold writeOwn
  refine .bind .read fun isArray => ?_
  split
  · split
    · refine .bind numberOf_contains fun length => ?_
      split
      · exact .perform
      · exact throwRange_contains
    · split
      · split
        · exact throwRange_contains
        · exact .perform
      · exact .perform
  · exact .perform

theorem setOrdinary_contains {holder : Ref} {receiver : Value} {key : String} {v : Value} :
    (s.setOrdinary holder receiver key v).Contains hosted := by
  unfold setOrdinary
  refine .bind .read fun target => ?_
  split
  · exact writeOwn_contains
  · exact .bind callAccessor_contains fun _ => .pure
  · exact .pure
  · exact .pure

/-! ## Native values as script values -/

theorem defineMethods_contains {on : Ref} {methods : List ExportedMethod} {callable : ExportedMethod → Callable} :
    (s.defineMethods on methods callable).Contains hosted :=
  .forM fun _ => .bind newFunction_contains fun _ => .perform

theorem buildTemplate_contains {cls : Class} {table : ExportTable} {parent : Option Template} :
    (s.buildTemplate cls table parent).Contains hosted := by
  unfold buildTemplate
  refine .bind .read fun _ => .bind .perform fun prototype => .bind defineMethods_contains fun _ => ?_
  refine .bind newFunctionWith_contains fun constructor => ?_
  exact .bind defineMethods_contains fun _ => .bind .perform fun _ => .pure

theorem templateFor_contains (cls : Class) : (s.templateFor cls).Contains hosted := by
  have exports {cls : Class} {parent : Option Template} : (s.exportTemplate cls parent).Contains hosted := by
    unfold exportTemplate
    split
    · exact .throw
    · exact buildTemplate_contains
  obtain ⟨id, key, name, superclass, protocols, instanceMethods, classMethods, factory⟩ := cls
  unfold templateFor
  refine .bind .read fun found => ?_
  split
  · exact .pure
  · cases superclass with
    | none => exact exports
    | some superclass => exact .bind (templateFor_contains superclass) fun _ => exports
termination_by structural cls

theorem wrapperFor_contains {h : Handle} : (s.wrapperFor h).Contains hosted := by
  unfold wrapperFor
  refine .bind .read fun found => ?_
  split
  · exact .bind .perform fun _ => .pure
  · exact .bind (templateFor_contains h.cls) fun _ => .bind .perform fun _ => .pure

theorem functionFor_contains {c : Closure} : (s.functionFor c).Contains hosted := by
  unfold functionFor
  refine .bind .read fun found => ?_
  split
  · exact .bind .perform fun _ => .pure
  · split
    · exact .throw
    · exact .bind .read fun _ => .bind .perform fun _ => .pure

theorem managedValue_contains {id : Nat} : (managedValue id : Routine ε (Option Value)).Contains hosted := by
  unfold managedValue
  refine .bind .read fun found => ?_
  split
  · exact .bind .perform fun _ => .pure
  · exact .pure

mutual

theorem toScriptAt_contains (v : NativeValue) (depth : Nat) : (s.toScriptAt depth v).Contains hosted := by
  unfold toScriptAt
  refine .bind .read fun options => ?_
  split
  · exact .throw
  · cases v with
    | nil | null | bool | number | text | selector => exact .pure
    | array items => exact .bind (itemsToScript_contains items depth #[]) fun _ => newArray_contains
    | dictionary entries =>
      refine .bind newObject_contains fun object => ?_
      split
      · exact .bind (entriesToScript_contains entries depth _) fun _ => .pure
      · exact .pure
    | date t => exact newDate_contains
    | data bytes =>
      dsimp only
      split
      · exact newBuffer_contains
      · exact .throw
    | closure c => exact functionFor_contains
    | object h => exact wrapperFor_contains
    | classRef c => exact .bind (templateFor_contains c) fun _ => .bind .perform fun _ => .pure
    | script token =>
      cases token with
      | managed id => exact .bind managedValue_contains fun _ => .pure
      | foreign id => exact .throw

theorem itemsToScript_contains (items : List NativeValue) (depth : Nat) (done : Array Value) :
    (s.itemsToScript depth done items).Contains hosted := by
  unfold itemsToScript
  cases items with
  | nil => exact .pure
  | cons item rest =>
    exact .bind (toScriptAt_contains item (depth + 1)) fun _ => itemsToScript_contains rest depth _

theorem entriesToScript_contains (entries : List (NativeValue × NativeValue)) (depth : Nat) (r : Ref) :
    (s.entriesToScript depth r entries).Contains hosted := by
  unfold entriesToScript
  cases entries with
  | nil => exact .pure
  | cons entry rest =>
    obtain ⟨key, item⟩ := entry
    cases key with
    | text key =>
      refine .bind (toScriptAt_contains item (depth + 1)) fun _ => .bind (.lift setOrdinary_contains) fun _ => ?_
      exact entriesToScript_contains rest depth r
    | _ => exact entriesToScript_contains rest depth r

end

theorem resultOf_contains {declared : Encoding} {v : NativeValue} : (s.resultOf declared v).Contains hosted := by
  unfold resultOf
  split
  · exact .pure
  · exact .pure
  · split
    · exact .pure
    · exact toScriptAt_contains _ 0
  · exact toScriptAt_contains _ 0

/-! ## Arguments -/

theorem mismatch_contains {expected : String} {v : Value} :
    (mismatch expected v : Routine Fault α).Contains hosted := .bind .read fun _ => .throw

theorem notAnObject_contains {target : String} {v : Value} :
    (notAnObject target v : Routine Fault α).Contains hosted := .bind .read fun _ => .throw

variable {objects : ObjectReading}

theorem naturally_contains (reading : objects.Contains) {v : Value} : (naturally objects v).Contains false := by
  cases v with
  | undefined | null | bool | number | text => exact .pure
  | object r => exact reading.natural r

theorem nativeAs_contains (reading : objects.Contains) {shape : UnwrapShape} {v : Value} :
    (s.nativeAs objects shape v).Contains false := by
  unfold nativeAs
  cases shape with
  | any | object => exact naturally_contains reading
  | bool => exact .pure
  | number | double | int32 | uint32 => exact .bind numberOf_contains fun _ => .pure
  | string =>
    dsimp only
    split
    · exact .pure
    · exact .bind textOf_contains fun _ => .pure
  | date =>
    refine .bind .read fun payload => ?_
    split <;> first | exact .pure | exact mismatch_contains
  | array =>
    cases v with
    | undefined | null => exact .pure
    | object r => exact reading.array r
    | bool | number | text => exact notAnObject_contains
  | dictionary =>
    cases v with
    | undefined | null => exact .pure
    | object r => exact reading.dictionary r
    | bool | number | text => exact notAnObject_contains
  | data =>
    refine .bind .read fun bytes => ?_
    split
    · exact .pure
    · exact .pure
    · refine .bind .read fun allowed => ?_
      split
      · exact .pure
      · exact .throw
    · exact mismatch_contains
  | closure =>
    refine .bind .read fun closure => ?_
    split <;> first | exact .pure | exact mismatch_contains

theorem objectArgument_contains (reading : objects.Contains) {className : String} {v : Value} :
    (s.objectArgument objects className v).Contains false := by
  unfold objectArgument
  split
  · exact nativeAs_contains reading
  · refine .bind (naturally_contains reading) fun converted => ?_
    split
    · split
      · exact .pure
      · exact mismatch_contains
    · exact .pure

theorem argumentOf_contains (reading : objects.Contains) {declared : Encoding} {v : Value} :
    (s.argumentOf objects declared v).Contains false := by
  unfold argumentOf
  cases declared with
  | void | bool => exact .pure
  | float | double => exact .bind numberOf_contains fun _ => .pure
  | longLong | ulongLong =>
    refine .bind numberOf_contains fun x => ?_
    dsimp only
    split
    all_goals
      split
      · exact mismatch_contains
      · exact .pure
  | uchar | ushort | uint | ulong | char | short | int | long | cstring | closure => exact nativeAs_contains reading
  | object className =>
    cases className with
    | none => exact naturally_contains reading
    | some className => exact objectArgument_contains reading
  | classRef =>
    refine .bind .read fun found => ?_
    split
    · exact .pure
    · split
      · exact .pure
      · exact mismatch_contains
  | selector =>
    dsimp only
    split
    · exact .pure
    · exact .bind textOf_contains fun _ => .pure
  | scriptValue => exact .bind .perform fun _ => .pure
  | pointer | struct | carray | unknown => exact .throw

theorem arguments_contains (reading : objects.Contains) {declared : List Encoding} {vs : List Value} :
    (s.arguments objects declared vs).Contains false :=
  .mapM fun _ _ => .bind (argumentOf_contains reading) fun _ => .bind .hold fun _ => .pure

/-! ## Exported properties and subscripts -/

theorem send_contains {h : Handle} {selector : Selector} {args : List NativeValue} :
    (send h selector args).Contains false := by
  unfold send
  split
  · exact .throw
  · exact .holding .runNative

theorem checkSignature_contains {m : ExportedMethod} : (checkSignature m).Contains hosted := by
  unfold checkSignature
  split
  · exact .pure
  · exact .throw

theorem checkEncoding_contains {p : PropertyDeclaration} : (checkEncoding p).Contains hosted := by
  unfold checkEncoding
  split
  · exact .pure
  · exact .throw

theorem exportedGet_contains {holder : Ref} {p : PropertyDeclaration} : (s.exportedGet holder p).Contains false := by
  refine .bind checkEncoding_contains fun _ => .bind .read fun found => ?_
  split
  · exact .pure
  · exact .holding (.bind send_contains fun _ => .bind .hold fun _ => resultOf_contains)

theorem exportedSubscript_contains (reading : objects.Contains) {holder : Ref} {m : ExportedMethod}
    {value : Option Value} {index : Nat} : (s.exportedSubscript objects holder m value index).Contains false := by
  refine .bind checkSignature_contains fun _ => .bind .read fun found => ?_
  split
  · exact .pure
  · refine .holding (.bind (.holding (arguments_contains reading)) fun args => .bind (.forM fun _ => .hold) fun _ => ?_)
    exact .bind send_contains fun _ => .bind .hold fun _ => resultOf_contains

theorem get_contains {target : Value} {key : String} : (s.get target key).Contains false := by
  unfold get
  cases target with
  | object r =>
    refine .bind .read fun wrapper => ?_
    split
    · exact .bind (.raising exportedGet_contains) fun _ => .bind .perform fun _ => .pure
    · exact getOrdinary_contains
  | undefined | null => exact throwType_contains
  | text t =>
    dsimp only
    split
    · exact .pure
    · split
      · exact .pure
      · exact .bind .read fun _ => getOrdinary_contains
  | bool | number => exact .bind .read fun _ => getOrdinary_contains

theorem getIndex_contains {target : Value} {index : Nat} : (s.getIndex target index).Contains false := by
  unfold getIndex
  refine .bind .read fun wrapper => ?_
  split
  · refine .bind (.raising (exportedSubscript_contains ObjectReading.primitive_contains)) fun _ => ?_
    exact .bind .perform fun _ => .pure
  · refine .bind .read fun items => ?_
    split
    · exact .bind .perform fun _ => .pure
    · exact get_contains

/-! ## Script values as native values -/

variable {item : Value → Visited → Conversion}

theorem visiting_contains {r : Ref} {seen : Visited} {convert : Visited → Conversion}
    (converts : ∀ seen, (convert seen).Contains false) : (visiting r seen convert).Contains false := by
  unfold visiting
  split
  · exact .pure
  · exact .pure
  · exact .bind (converts _) fun _ => .pure

theorem arrayItems_contains (items : ∀ v seen, (item v seen).Contains false) {source : Value} {count index : Nat}
    {seen : Visited} {done : List NativeValue} :
    (s.arrayItems item source count index seen done).Contains false := by
  induction count generalizing index seen done with
  | zero => exact .pure
  | succ n ih => exact .bind (.lift getIndex_contains) fun v => .bind (items v seen) fun _ => ih

theorem arrayWith_contains (items : ∀ v seen, (item v seen).Contains false) {r : Ref} {seen : Visited} :
    (s.arrayWith item r seen).Contains false := by
  refine visiting_contains fun seen => .bind (.lift get_contains) fun v => .bind numberOf_contains fun x => ?_
  dsimp only
  split
  · exact .throw
  · exact .bind (arrayItems_contains items) fun _ => .pure

theorem dictionaryEntries_contains (items : ∀ v seen, (item v seen).Contains false) {source : Value}
    {keys : List String} {seen : Visited} {done : List (NativeValue × NativeValue)} :
    (s.dictionaryEntries item source keys seen done).Contains false := by
  induction keys generalizing seen done with
  | nil => exact .pure
  | cons key rest ih => exact .bind (.lift get_contains) fun v => .bind (items v seen) fun _ => ih

theorem dictionaryWith_contains (items : ∀ v seen, (item v seen).Contains false) {r : Ref} {seen : Visited} :
    (s.dictionaryWith item r seen).Contains false :=
  visiting_contains fun _ => .bind .read fun _ => .bind (dictionaryEntries_contains items) fun _ => .pure

theorem unwrapped_contains {v : Value} : (unwrapped v).Contains hosted := by
  unfold unwrapped
  refine .bind .read fun found => ?_
  split
  · exact .bind .hold fun _ => .pure
  · exact .pure

theorem naturalAt_contains (room : Nat) (v : Value) (seen : Visited) : (s.naturalAt room v seen).Contains false := by
  induction room generalizing v seen with
  | zero => exact .bind .read fun _ => .throw
  | succ n ih =>
    unfold naturalAt
    cases v with
    | undefined | null | bool | number | text => exact .pure
    | object r =>
      refine .bind .read fun payload => ?_
      split
      · exact .pure
      · exact arrayWith_contains ih
      · exact .pure
      · refine .bind .read fun allowed => ?_
        split
        · exact .pure
        · exact .throw
      · split
        · exact .pure
        · exact .pure
        · exact dictionaryWith_contains ih
      · exact .bind unwrapped_contains fun _ => .pure
      · exact dictionaryWith_contains ih
      · exact dictionaryWith_contains ih
      · exact dictionaryWith_contains ih

theorem objectReading_contains : s.objectReading.Contains where
  natural _ := .bind .read fun _ => .bind (naturalAt_contains _ _ _) fun _ => .pure
  array _ := .bind .read fun _ => .bind (arrayWith_contains (naturalAt_contains _)) fun _ => .pure
  dictionary _ := .bind .read fun _ => .bind (dictionaryWith_contains (naturalAt_contains _)) fun _ => .pure

theorem exportedSet_contains {holder : Ref} {p : PropertyDeclaration} {setter : Selector} {v : Value} :
    (s.exportedSet holder p setter v).Contains false := by
  refine .bind checkEncoding_contains fun _ => .bind .read fun found => ?_
  split
  · exact .pure
  · exact .holding (.bind (argumentOf_contains objectReading_contains) fun _ => .bind send_contains fun _ => .pure)

theorem set_contains {target : Value} {key : String} {v : Value} : (s.set target key v).Contains false := by
  unfold set
  cases target with
  | object r =>
    refine .bind .read fun wrapper => ?_
    split
    · split
      · exact .pure
      · exact .raising exportedSet_contains
    · exact setOrdinary_contains
  | undefined | null => exact throwType_contains
  | bool | number | text => exact .pure

theorem setIndex_contains {target : Value} {index : Nat} {v : Value} : (s.setIndex target index v).Contains false := by
  unfold setIndex
  refine .bind .read fun wrapper => ?_
  split
  · exact .bind (.raising (exportedSubscript_contains objectReading_contains)) fun _ => .pure
  · exact set_contains

/-! ## Bridged functions -/

theorem checkArity_contains {name : String} {expected got : Nat} : (checkArity name expected got).Contains hosted := by
  unfold checkArity
  split
  · exact .pure
  · exact .throw

theorem instanceReceiver_contains {m : ExportedMethod} {cls : Class} {this : Value} :
    (instanceReceiver m cls this).Contains hosted := by
  refine .bind .read fun state => ?_
  split
  · exact .pure
  · split
    · exact .pure
    · exact .throw
  · exact .throw

theorem classReceiver_contains {cls : Class} {this : Value} : (s.classReceiver cls this).Contains hosted := by
  refine .bind .read fun found => ?_
  split
  · exact .pure
  · exact .pure

theorem implemented_contains {cls : Class} {selector : Selector} {body : Option Program.Body} :
    (implemented cls selector body).Contains hosted := by
  cases body with
  | none => exact .throw
  | some body => exact .pure

theorem dispatch_contains {signature : Signature} {body : Program.Body} {receiver : Receiver} {args : List Value} :
    (s.dispatch signature body receiver args).Contains false :=
  .bind (arguments_contains objectReading_contains) fun _ => .bind .runNative fun _ => .bind .hold fun _ =>
    resultOf_contains

theorem methodCall_contains {m : ExportedMethod} {cls : Class} {i : Invocation} :
    (s.methodCall m cls i).Contains false := by
  refine .bind checkArity_contains fun _ => .bind checkSignature_contains fun _ => ?_
  refine .bind instanceReceiver_contains fun receiver => ?_
  cases receiver with
  | none => exact .pure
  | some h => exact .bind implemented_contains fun _ => .holding dispatch_contains

theorem classMethodCall_contains {m : ExportedMethod} {cls : Class} {i : Invocation} :
    (s.classMethodCall m cls i).Contains false :=
  .bind checkArity_contains fun _ => .bind checkSignature_contains fun _ => .bind classReceiver_contains fun _ =>
    .bind implemented_contains fun _ => .holding dispatch_contains

theorem closureCall_contains {c : Closure} {i : Invocation} : (s.closureCall c i).Contains false :=
  .bind checkArity_contains fun _ => .holding dispatch_contains

theorem instantiate_contains {cls : Class} : (instantiate cls).Contains hosted := by
  unfold instantiate
  split
  · exact .bind (.job rfl) fun _ => .pure
  · exact .pure

theorem newInstance_contains {cls : Class} {table : ExportTable} {args : List Value} :
    (s.newInstance cls table args).Contains false := by
  have made {made : Option Handle} : (selfMade cls args.length made).Contains false := by
    cases made with
    | none => exact .throw
    | some h => exact .pure
  unfold newInstance
  split
  · refine .bind checkSignature_contains fun _ => .bind implemented_contains fun _ => ?_
    exact .bind (arguments_contains objectReading_contains) fun _ => .runNative
  · split
    · exact .bind instantiate_contains fun _ => made
    · exact .bind .pure fun _ => made

theorem constructorCall_contains {cls : Class} {table : ExportTable} {i : Invocation} :
    (s.constructorCall cls table i).Contains false := by
  unfold constructorCall
  split
  · exact .throw
  · refine .bind (.holding newInstance_contains) fun v => ?_
    split
    · exact wrapperFor_contains
    · exact .throw

/-- The factory of a class has no guard: its panic goes through the call of the constructor. -/
theorem constructorCall_panics {job : Runner} {cls : Class} {table : ExportTable} {i : Invocation} {body : Program.Body}
    {m m' : Machine} {p : Panic} (construct : i.construct = true) (noArgs : i.args = [])
    (noInitializer : table.initializer? 0 = none) (factory : cls.factory = some body)
    (panics : job (.make body cls) { m with holds := [] :: m.holds } = (.panicked p, m')) :
    ∃ m'', (s.raising (s.constructorCall cls table i)).exec job m = (.panicked p, m'') := by
  have makes : (Routine.job (.make body cls) : Routine Fault Handle).exec job { m with holds := [] :: m.holds } =
      (.panicked p, m') := by
    unfold Routine.job
    rw [exec_enter, panics]
    rfl
  have made : (s.newInstance cls table i.args).exec job { m with holds := [] :: m.holds } = (.panicked p, m') := by
    unfold newInstance instantiate
    simp only [noArgs, List.length_nil, noInitializer, List.isEmpty_nil, if_true, factory]
    exact exec_bind_of_panicked (exec_bind_of_panicked makes)
  have held : (Routine.holding [] (s.newInstance cls table i.args)).exec job m =
      (.panicked p, (Action.closeHold.run m').2) := by
    change ((s.newInstance cls table i.args).ensuring fun _ => .closeHold).exec job _ = _
    rw [exec_ensuring]
    exact congrArg (Outcome.closing _) made
  have called : (s.constructorCall cls table i).exec job m = (.panicked p, (Action.closeHold.run m').2) := by
    unfold constructorCall
    simp only [construct, Bool.not_true, Bool.false_eq_true, if_false]
    exact exec_bind_of_panicked held
  refine ⟨(Action.closeHold.run m').2, ?_⟩
  unfold raising
  refine exec_bind_of_panicked ?_
  rw [exec_attempt, called]
  rfl

end Scope

/-! ## Functions -/

/-- A function that stands for native code raises what the bridge fails with. -/
theorem Callable.routine_of_bridged {f : Callable} (bridged : f.isBridged = true) (s : Scope) (i : Invocation) :
    ∃ r : Routine Thrown Value, f.routine s i = r.attempt ∧ r.Contains false := by
  cases f with
  | method m cls => exact ⟨_, rfl, .raising Scope.methodCall_contains⟩
  | classMethod m cls => exact ⟨_, rfl, .raising Scope.classMethodCall_contains⟩
  | constructor cls table => exact ⟨_, rfl, .raising Scope.constructorCall_contains⟩
  | closure c => exact ⟨_, rfl, .raising Scope.closureCall_contains⟩
  | builtin | host => nomatch bridged

/-- A call that there is room for enters the function. -/
theorem Scope.entered_invoke {job : Runner} {s : Scope} {f : FunctionData} {i : Invocation} {m : Machine}
    (room : m.calls.height < m.options.maxCallDepth) :
    (s.invoke i.callee f i.this i.args i.construct).entered job m =
      [⟨.call f.callable (m.callContext s f) i, (job (.call f.callable (m.callContext s f) i) (m.callStart s f i)).1⟩] := by
  have go : decide (m.options.maxCallDepth ≤ m.calls.height) = false := by simpa using room
  have last (result : Except Thrown Value) (m : Machine) : (do
      track (endValue result)
      ofExcept result : Routine Thrown Value).entered job m = [] := by
    cases result <;> rfl
  unfold invoke
  rw [entered_look go]
  simp only [Bool.false_eq_true, if_false]
  rw [entered_look rfl]
  change ((inRegion (m.callContext s f) (Routine.job (.call f.callable (m.callContext s f) i)) >>= fun result => do
    track (endValue result)
    ofExcept result : Routine Thrown Value).ensuring fun _ => .endCall).entered job _ = _
  rw [entered_ensuring, entered_bind_of_none last]
  change ((Routine.job (.call f.callable (m.callContext s f) i) : Routine Thrown _).ensuring _).entered job _ = _
  rw [entered_ensuring, entered_job]
  rfl

/-- A call that there is room for panics only as its function does. -/
theorem Scope.panicked_of_invoke {depth : Nat} {s : Scope} {f : FunctionData} {i : Invocation} {m : Machine} {p : Panic}
    (room : m.calls.height < m.options.maxCallDepth) (heap : m.heap.Sound)
    (panicked : ((s.invoke i.callee f i.this i.args i.construct).exec (Job.exec Job.routine (depth + 1)) m).1 =
      .panicked p) :
    ((f.callable.routine ⟨m.callContext s f⟩ i).exec (Job.exec Job.routine depth) (m.callStart s f i)).1 =
      .panicked p := by
  have contains : (s.invoke i.callee f i.this i.args i.construct).Contains false := invoke_contains
  obtain ⟨x, mem, -, ended⟩ := (contains _ (Job.exec_keeps (depth + 1)) m heap).panics p panicked
  rw [entered_invoke room] at mem
  obtain rfl := List.mem_singleton.1 mem
  exact ended

/-- A call of a function that stands for native code contains what the function enters. -/
theorem Scope.contained_invoke {depth : Nat} {s : Scope} {f : FunctionData} {i : Invocation} {m : Machine}
    (settled : m.Settled) (inside : m.Inside (some s)) (bridged : f.callable.isBridged = true)
    (room : m.calls.height < m.options.maxCallDepth) :
    Contained
      ((f.callable.routine ⟨m.callContext s f⟩ i).entered (Job.exec Job.routine depth) (m.callStart s f i))
      ((s.invoke i.callee f i.this i.args i.construct).exec (Job.exec Job.routine (depth + 1)) m) := by
  obtain ⟨r, does, contains⟩ := Callable.routine_of_bridged bridged ⟨m.callContext s f⟩ i
  have start : (m.callStart s f i).Settled := settled_callStart settled inside
  obtain ⟨fails, panics⟩ := (contains _ (Job.exec_keeps depth) _ start.heap).toContained
  rw [does, entered_attempt]
  refine ⟨fun x mem e failed => ?_, fun p panicked => ?_⟩
  · obtain ⟨thrown, ended, bears⟩ := fails x mem e failed
    rcases run : r.exec (Job.exec Job.routine depth) (m.callStart s f i) with ⟨outcome, m₁⟩
    rw [run] at ended bears
    cases ended
    have rethrown : (f.callable.routine ⟨m.callContext s f⟩ i).rethrow.Stops depth (m.callStart s f i) thrown m₁ := by
      rw [Stops.rethrow_iff, does]
      exact Stops.attempt run
    obtain ⟨m', stops, heap⟩ := invoke_stops settled inside room rethrown
    rw [show (s.invoke i.callee f i.this i.args i.construct).exec _ m = _ from stops]
    exact ⟨thrown, rfl, bears.of_heap heap⟩
  · have ended := panicked_of_invoke room settled.heap panicked
    rw [does, exec_attempt] at ended
    exact panics p (Outcome.attempt_eq_panicked.1 ended)

/-- Reading and writing properties and elements. -/
inductive Access where
  | get (target : Value) (key : String)
  | set (target : Value) (key : String) (v : Value)
  | getIndex (target : Value) (index : Nat)
  | setIndex (target : Value) (index : Nat) (v : Value)

/-- What reading or writing does; writing gives undefined. -/
def Access.routine (s : Scope) : Access → Routine Thrown Value
  | .get target key => s.get target key
  | .set target key v => do
    s.set target key v
    return .undefined
  | .getIndex target index => s.getIndex target index
  | .setIndex target index v => do
    s.setIndex target index v
    return .undefined

theorem Access.routine_contains (access : Access) {s : Scope} : (access.routine s).Contains false := by
  cases access with
  | get target key => exact Scope.get_contains
  | set target key v => exact .bind Scope.set_contains fun _ => .pure
  | getIndex target index => exact Scope.getIndex_contains
  | setIndex target index v => exact .bind Scope.setIndex_contains fun _ => .pure

namespace Moment

variable {t : Moment} {s : Scope}

/-- At every moment, reading and writing contain what native bodies fail with, and so does every call of a function
that stands for native code, with the native bodies that the function enters. -/
theorem Reachable.contains_failures (reachable : t.Reachable) (settled : t.finishing = [])
    (inside : t.machine.Inside (some s)) (depth : Nat) :
    (∀ access : Access, Contained ((access.routine s).entered (Job.exec Job.routine depth) t.machine)
      ((access.routine s).exec (Job.exec Job.routine depth) t.machine)) ∧
    ∀ callee (f : FunctionData) this args construct, f.callable.isBridged = true →
      t.machine.calls.height < t.machine.options.maxCallDepth →
      let i : Invocation := ⟨this, callee, args, construct⟩
      Contained
        ((f.callable.routine ⟨t.machine.callContext s f⟩ i).entered (Job.exec Job.routine depth)
          (t.machine.callStart s f i))
        ((s.invoke callee f this args construct).exec (Job.exec Job.routine (depth + 1)) t.machine) := by
  have settled := reachable.sound.settled settled
  refine ⟨fun access => (access.routine_contains _ (Job.exec_keeps depth) _ settled.heap).toContained, ?_⟩
  intro callee f this args construct bridged room i
  exact Scope.contained_invoke settled inside bridged room

/-- A closure whose body panics. -/
def burstingClosure : FunctionData :=
  ⟨"", .closure ⟨0, "c", ⟨.void, []⟩, [.native (.panic "boom") none]⟩, 0⟩

/-- The call of its function throws an error that records the panic. -/
theorem contains_bursting :
    let out := (Scope.invoke ⟨0⟩ ⟨0, 0⟩ burstingClosure .undefined [] false).exec (Job.exec Job.routine 3) opened.machine
    ∃ thrown, out.1 = .thrown thrown ∧ (Origin.native ⟨"Panic", "boom"⟩).Bears out.2 (failure thrown) := by
  intro out
  have inside : opened.machine.Inside (some ⟨0⟩) := Machine.inside_of_mem ⟨0, []⟩ (List.mem_singleton_self _)
  have contained := (reachable_opened.contains_failures rfl inside 2).2 ⟨0, 0⟩ burstingClosure .undefined [] false
    rfl (by decide)
  exact contained.fails ⟨.perform [.native (.panic "boom") none] .nothing [], .panicked ⟨some "boom"⟩⟩
    (List.mem_singleton_self _) ⟨"Panic", "boom"⟩ rfl

/-- The constructor of a class whose initializer gives nothing. -/
def idleConstructor : FunctionData :=
  ⟨"K", .constructor ⟨0, "K", "K", none, [], [], [(⟨"init"⟩, [])], none⟩
    { className := "K", initializers := [⟨"init", ⟨"init"⟩, ⟨.object none, []⟩⟩] }, 0⟩

/-- The initializer is entered and does not fail, but the construction throws an error of the bridge. -/
theorem initializer_gives_nothing :
    let i : Invocation := ⟨.undefined, ⟨0, 0⟩, [], true⟩
    let jobs := (idleConstructor.callable.routine ⟨0⟩ i).entered (Job.exec Job.routine 2)
      (opened.machine.callStart ⟨0⟩ idleConstructor i)
    let out := (Scope.invoke ⟨0⟩ ⟨0, 0⟩ idleConstructor .undefined [] true).exec (Job.exec Job.routine 3) opened.machine
    (∃ x ∈ jobs, x.job.isNative = true) ∧ (∀ x ∈ jobs, x.job.failure? x.outcome = none) ∧
      ∃ thrown, out.1 = .thrown thrown ∧ ∀ e, ¬(Origin.native e).Bears out.2 (failure thrown) := by
  intro i jobs out
  obtain ⟨j, native, entered, quiet⟩ : ∃ x : Entered, x.job.isNative = true ∧ jobs = [x] ∧
      x.job.failure? x.outcome = none := ⟨_, rfl, rfl, rfl⟩
  refine ⟨⟨j, entered ▸ List.mem_singleton_self j, native⟩, fun x mem => ?_, ⟨.object ⟨1, 0⟩⟩, rfl, ?_⟩
  · rw [entered] at mem
    cases List.mem_singleton.1 mem
    exact quiet
  · rintro e ⟨r, frames, cause, value, payload, remembered, -⟩
    obtain rfl : (⟨1, 0⟩ : Ref) = r := Value.object.inj value
    obtain ⟨frames, none⟩ : ∃ frames, out.2.payload? (.object ⟨1, 0⟩) = some (.error frames none) := ⟨_, rfl⟩
    cases none.symm.trans payload
    nomatch remembered

end Moment

end ScriptBridge
