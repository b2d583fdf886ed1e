import ScriptBridge.Bridge.Operation
import ScriptBridge.Proofs.Discreet.Rules

/-!
# Operations are discreet

Whatever scopes and the bridge do, they take note of no exception by themselves. On its way out to native code an
operation fails with what scripts throw, or with an ordinary fault of the bridge.

* `Fault.Ordinary`: what an operation fails with. `Fault.Inner`: what reading the inside of a value fails with.
* `Scope.toScriptAt_discreet`, `Scope.naturalAt_discreet`: conversions fail with nothing else.
* `Scope.capture_discreet`: describing an exception does not fail at all.

Proof-only: not reachable from `ScriptBridge.Session.Run`.
-/

namespace ScriptBridge

/-! ## Faults -/

/-- A fault of the bridge itself: of a conversion, of a dispatch or of the configuration. -/
def BridgeError.OfBridge : BridgeError → Prop
  | .conversion _ | .dispatch _ | .config _ => True
  | .script _ | .native _ | .alreadyRunning => False

namespace Fault

/-- What an operation fails with on its way out to native code. What native bodies raise was thrown into a script
before. -/
def Ordinary : Fault → Prop
  | .thrown _ => True
  | .error e => e.OfBridge

/-- What reading the inside of a value fails with: what its scripts throw, or the limits of conversions. -/
def Inner : Fault → Prop
  | .thrown _ => True
  | .error (.conversion e) =>
    match e with
    | .depthExceeded _ | .lengthExceeded .. | .buffersDisabled => True
    | .notAnObject .. | .foreignToken | .mismatch .. => False
  | .error _ => False

theorem Inner.ordinary (e : Fault) (inner : e.Inner) : e.Ordinary := by
  cases e with
  | thrown t => trivial
  | error e =>
    cases e with
    | conversion e => trivial
    | dispatch | script | native | alreadyRunning | config => exact inner.elim

end Fault

namespace Scope

open Routine
open Program (UnwrapShape)

variable {ε α : Type} {P : ε → Prop} {broken : Bool} {s : Scope}

/-- What scripts throw, an operation of the bridge throws on. -/
theorem lift_inner {r : Routine Thrown α} {R : Thrown → Prop} (h : r.Discreet R broken) :
    (liftM r : Routine Fault α).Discreet Fault.Inner broken := h.mapError fun _ _ => trivial

theorem lift_discreet {r : Routine Thrown α} {R : Thrown → Prop} (h : r.Discreet R broken) :
    (liftM r : Routine Fault α).Discreet Fault.Ordinary broken := (lift_inner h).mono Fault.Inner.ordinary

/-! ## Making values -/

theorem allocate_discreet {o : Object} : (allocate o : Routine ε Value).Discreet P broken :=
  .bind (.perform rfl) fun _ => .pure

theorem newObject_discreet : (s.newObject : Routine ε Value).Discreet P broken :=
  .bind .read fun _ => allocate_discreet

theorem newArray_discreet {items : Array Value} : (s.newArray items : Routine ε Value).Discreet P broken :=
  .bind .read fun _ => allocate_discreet

theorem newError_discreet {kind : Program.ErrorKind} {message : String} :
    (s.newError kind message : Routine ε Value).Discreet P broken :=
  .bind .read fun _ => .bind .read fun _ => allocate_discreet

theorem newNativeError_discreet {e : NativeException} : (s.newNativeError e : Routine ε Value).Discreet P broken :=
  .bind .read fun _ => .bind .read fun _ => allocate_discreet

theorem newDate_discreet {millis : Double} {nanos : Nat} :
    (s.newDate millis nanos : Routine ε Value).Discreet P broken := .bind .read fun _ => allocate_discreet

theorem newBuffer_discreet {bytes : ByteArray} : (s.newBuffer bytes : Routine ε Value).Discreet P broken :=
  .bind .read fun _ => allocate_discreet

theorem newFunctionWith_discreet {name : String} {f : Callable} {prototype above : Option Ref} :
    (s.newFunctionWith name f prototype above : Routine ε Ref).Discreet P broken := by
  unfold newFunctionWith
  refine .bind .read fun _ => .bind (.perform rfl) fun r => ?_
  split
  · exact .bind (.perform rfl) fun _ => .pure
  · exact .pure

theorem newFunction_discreet {name : String} {f : Callable} :
    (s.newFunction name f : Routine ε Value).Discreet P broken := by
  unfold newFunction
  split
  · exact .bind .read fun _ => .bind (.perform rfl) fun _ => .bind newFunctionWith_discreet fun _ => .pure
  · exact .bind newFunctionWith_discreet fun _ => .pure

theorem throwNew_discreet {kind : Program.ErrorKind} {message : String} :
    (s.throwNew kind message : Routine Thrown α).Discreet (fun _ => True) broken :=
  .bind newError_discreet fun _ => .throw trivial

theorem throwType_discreet {message : String} :
    (s.throwType message : Routine Thrown α).Discreet (fun _ => True) broken := throwNew_discreet

theorem throwRange_discreet {message : String} :
    (s.throwRange message : Routine Thrown α).Discreet (fun _ => True) broken := throwNew_discreet

theorem raising_discreet {r : Routine Fault α} {R : Fault → Prop} (h : r.Discreet R broken) :
    (s.raising r).Discreet (fun _ => True) broken := by
  refine .bind h.attempt fun result => ?_
  cases result with
  | ok a => exact .pure
  | error fault =>
    refine .bind ?_ fun _ => .throw trivial
    unfold raise
    split
    · exact .pure
    · exact .bind newNativeError_discreet fun _ => .pure
    · split
      · exact .bind newNativeError_discreet fun _ => .pure
      · exact .bind newError_discreet fun _ => .pure
    · exact .bind newError_discreet fun _ => .pure

/-! ## Calls and ordinary properties -/

theorem ofExcept_discreet {result : Except Thrown α} :
    (ofExcept result : Routine Thrown α).Discreet (fun _ => True) broken := by
  cases result with
  | ok a => exact .pure
  | error t => exact .throw trivial

theorem invoke_discreet {callee : Ref} {f : FunctionData} {this : Value} {args : List Value} {construct : Bool} :
    (s.invoke callee f this args construct).Discreet (fun _ => True) broken := by
  unfold invoke
  refine .bind .read fun full => ?_
  split
  · exact throwRange_discreet
  · refine .bind .read fun _ => .inCall (.bind (.inRegion (.job rfl)) fun result => ?_)
    exact .bind (.perform rfl) fun _ => ofExcept_discreet

theorem callAccessor_discreet {r : Ref} {this : Value} {args : List Value} :
    (s.callAccessor r this args).Discreet (fun _ => True) broken := by
  unfold callAccessor
  refine .bind .read fun found => ?_
  split
  · exact invoke_discreet
  · exact throwType_discreet

theorem getOrdinary_discreet {holder : Ref} {receiver : Value} {key : String} :
    (s.getOrdinary holder receiver key).Discreet (fun _ => True) broken := by
  unfold getOrdinary
  refine .bind .read fun found => ?_
  split
  · exact .bind (.perform rfl) fun _ => .pure
  · exact callAccessor_discreet
  · exact .pure
  · exact .pure

theorem errorField_discreet {r : Ref} {key : String} :
    (s.errorField r key : Routine ε String).Discreet P broken := by
  refine .bind (getOrdinary_discreet.attempt) fun result => ?_
  cases result with
  | ok v => exact .pure
  | error t => exact .pure

theorem textAt_discreet {room : Nat} {v : Value} : (s.textAt room v : Routine ε String).Discreet P broken := by
  induction room generalizing v with
  | zero =>
    unfold textAt
    split
    · refine .bind .read fun payload => ?_
      split <;> try exact .pure
      exact .bind errorField_discreet fun _ => .bind errorField_discreet fun _ => .pure
    · exact .pure
  | succ n ih =>
    unfold textAt
    split
    · refine .bind .read fun payload => ?_
      split <;> try exact .pure
      · refine .bind (.mapM fun item => ?_) fun _ => .pure
        split
        · exact .pure
        · exact ih
      · exact .bind errorField_discreet fun _ => .bind errorField_discreet fun _ => .pure
    · exact .pure

theorem textOf_discreet {v : Value} : (s.textOf v : Routine ε String).Discreet P broken := textAt_discreet

theorem numberOf_discreet {v : Value} : (s.numberOf v : Routine ε Double).Discreet P broken := by
  unfold numberOf
  split
  · exact .pure
  · refine .bind .read fun millis => ?_
    split
    · exact .pure
    · exact .bind textOf_discreet fun _ => .pure

/-- An exception is described, whatever its name and its message do. -/
theorem capture_discreet {t : Thrown} : (s.capture t : Routine ε BridgeException).Discreet P broken := by
  have field {r : Ref} {key : String} : (s.exceptionField r key : Routine ε String).Discreet P broken := by
    refine .bind getOrdinary_discreet.attempt fun result => ?_
    split
    · exact .pure
    · exact .pure
    · exact textOf_discreet
  unfold capture
  refine .bind .read fun payload => ?_
  split
  · exact .bind field fun _ => .bind field fun _ => .read
  · exact .bind textOf_discreet fun _ => .read

theorem writeOwn_discreet {holder : Ref} {key : String} {v : Value} :
    (s.writeOwn holder key v).Discreet (fun _ => True) broken := by
  unfold writeOwn
  refine .bind .read fun isArray => ?_
  split
  · split
    · refine .bind numberOf_discreet fun length => ?_
      split
      · exact .perform rfl
      · exact throwRange_discreet
    · split
      · split
        · exact throwRange_discreet
        · exact .perform rfl
      · exact .perform rfl
  · exact .perform rfl

theorem setOrdinary_discreet {holder : Ref} {receiver : Value} {key : String} {v : Value} :
    (s.setOrdinary holder receiver key v).Discreet (fun _ => True) broken := by
  unfold setOrdinary
  refine .bind .read fun target => ?_
  split
  · exact writeOwn_discreet
  · exact .bind callAccessor_discreet fun _ => .pure
  · exact .pure
  · exact .pure

theorem functionOf_discreet {f : Value} : (s.functionOf f).Discreet (fun _ => True) broken := by
  unfold functionOf
  refine .bind .read fun found => ?_
  split
  · exact .pure
  · exact .bind textOf_discreet fun _ => throwType_discreet

theorem call_discreet {f this : Value} {args : List Value} : (s.call f this args).Discreet (fun _ => True) broken :=
  .bind functionOf_discreet fun _ => invoke_discreet

theorem construct_discreet {f : Value} {args : List Value} : (s.construct f args).Discreet (fun _ => True) broken := by
  unfold construct
  refine .bind functionOf_discreet fun found => ?_
  obtain ⟨callee, data⟩ := found
  dsimp only
  split
  · exact throwType_discreet
  · refine .bind getOrdinary_discreet fun prototype => ?_
    have make {prototype : Ref} : (do
        let this ← allocate ⟨.ordinary, [], some prototype⟩
        let result ← s.invoke callee data this args true
        return if result.isObject then result else this : Routine Thrown Value).Discreet (fun _ => True) broken :=
      .bind allocate_discreet fun _ => .bind invoke_discreet fun _ => .pure
    split
    · exact make
    · exact .bind .read fun _ => make

theorem instanceOf_discreet {v ctor : Value} : (s.instanceOf v ctor).Discreet (fun _ => True) broken := by
  unfold instanceOf
  refine .bind .read fun found => ?_
  split
  · exact throwType_discreet
  · refine .bind getOrdinary_discreet fun prototype => ?_
    split
    · split
      · exact .read
      · exact .pure
    · exact throwType_discreet

theorem evaluate_discreet {source resource : String} :
    (s.evaluate source resource).Discreet (fun _ => True) broken := by
  unfold evaluate
  refine .bind .read fun evaluator => ?_
  split
  · exact throwNew_discreet
  · refine .bind .read fun full => ?_
    split
    · exact throwRange_discreet
    · have ends {result : Except Thrown Value} :
          (do track (endValue result); ofExcept result : Routine Thrown Value).Discreet (fun _ => True) broken :=
        .bind (.perform rfl) fun _ => ofExcept_discreet
      refine .bind (.perform rfl) fun _ => .inFrame ?_
      split
      · exact .bind (.job rfl) fun _ => ends
      · exact .bind .pure fun _ => ends

/-! ## Native values as script values -/

theorem defineMethods_discreet {on : Ref} {methods : List ExportedMethod} {callable : ExportedMethod → Callable}
    {P : Fault → Prop} : (s.defineMethods on methods callable).Discreet P broken :=
  .forM fun _ => .bind newFunction_discreet fun _ => .perform rfl

theorem exportTemplate_discreet {cls : Class} {parent : Option Template} :
    (s.exportTemplate cls parent).Discreet Fault.Ordinary broken := by
  unfold exportTemplate
  split
  · exact .throw trivial
  · refine .bind .read fun _ => .bind (.perform rfl) fun prototype => .bind defineMethods_discreet fun _ => ?_
    refine .bind newFunctionWith_discreet fun constructor => ?_
    exact .bind defineMethods_discreet fun _ => .bind (.perform rfl) fun _ => .pure

theorem templateFor_discreet (cls : Class) : (s.templateFor cls).Discreet Fault.Ordinary broken := by
  obtain ⟨id, key, name, superclass, protocols, instanceMethods, classMethods, factory⟩ := cls
  unfold templateFor
  refine .bind .read fun found => ?_
  split
  · exact .pure
  · cases superclass with
    | none => exact exportTemplate_discreet
    | some superclass => exact .bind (templateFor_discreet superclass) fun _ => exportTemplate_discreet
termination_by structural cls

theorem wrapperFor_discreet {h : Handle} : (s.wrapperFor h).Discreet Fault.Ordinary broken := by
  unfold wrapperFor
  refine .bind .read fun found => ?_
  split
  · exact .bind (.perform rfl) fun _ => .pure
  · exact .bind (templateFor_discreet h.cls) fun _ => .bind (.perform rfl) fun _ => .pure

theorem functionFor_discreet {c : Closure} : (s.functionFor c).Discreet Fault.Ordinary broken := by
  unfold functionFor
  refine .bind .read fun found => ?_
  split
  · exact .bind (.perform rfl) fun _ => .pure
  · split
    · exact .throw trivial
    · exact .bind .read fun _ => .bind (.perform rfl) fun _ => .pure

theorem managedValue_discreet {id : Nat} : (managedValue id : Routine ε (Option Value)).Discreet P broken := by
  unfold managedValue
  refine .bind .read fun found => ?_
  split
  · exact .bind (.perform rfl) fun _ => .pure
  · exact .pure

mutual

theorem toScriptAt_discreet (v : NativeValue) (depth : Nat) :
    (s.toScriptAt depth v).Discreet Fault.Ordinary broken := by
  unfold toScriptAt
  refine .bind .read fun options => ?_
  split
  · exact .throw trivial
  · cases v with
    | nil | null | bool | number | text | selector => exact .pure
    | array items => exact .bind (itemsToScript_discreet items depth #[]) fun _ => newArray_discreet
    | dictionary entries =>
      refine .bind newObject_discreet fun object => ?_
      split
      · exact .bind (entriesToScript_discreet entries depth _) fun _ => .pure
      · exact .pure
    | date t => exact newDate_discreet
    | data bytes =>
      dsimp only
      split
      · exact newBuffer_discreet
      · exact .throw trivial
    | closure c => exact functionFor_discreet
    | object h => exact wrapperFor_discreet
    | classRef c => exact .bind (templateFor_discreet c) fun _ => .bind (.perform rfl) fun _ => .pure
    | script token =>
      cases token with
      | managed id => exact .bind managedValue_discreet fun _ => .pure
      | foreign id => exact .throw trivial

theorem itemsToScript_discreet (items : List NativeValue) (depth : Nat) (done : Array Value) :
    (s.itemsToScript depth done items).Discreet Fault.Ordinary broken := by
  unfold itemsToScript
  cases items with
  | nil => exact .pure
  | cons item rest =>
    exact .bind (toScriptAt_discreet item (depth + 1)) fun _ => itemsToScript_discreet rest depth _

theorem entriesToScript_discreet (entries : List (NativeValue × NativeValue)) (depth : Nat) (r : Ref) :
    (s.entriesToScript depth r entries).Discreet Fault.Ordinary broken := by
  unfold entriesToScript
  cases entries with
  | nil => exact .pure
  | cons entry rest =>
    obtain ⟨key, item⟩ := entry
    cases key with
    | text key =>
      refine .bind (toScriptAt_discreet item (depth + 1)) fun _ => ?_
      exact .bind (lift_discreet setOrdinary_discreet) fun _ => entriesToScript_discreet rest depth r
    | _ => exact entriesToScript_discreet rest depth r

end

theorem toScript_discreet {v : NativeValue} : (s.toScript v).Discreet Fault.Ordinary broken := toScriptAt_discreet v 0

theorem resultOf_discreet {declared : Encoding} {v : NativeValue} :
    (s.resultOf declared v).Discreet Fault.Ordinary broken := by
  unfold resultOf
  split
  · exact .pure
  · exact .pure
  · split
    · exact .pure
    · exact toScript_discreet
  · exact toScript_discreet

/-! ## Arguments -/

theorem mismatch_discreet {expected : String} {v : Value} :
    (mismatch expected v : Routine Fault α).Discreet Fault.Ordinary broken := .bind .read fun _ => .throw trivial

theorem notAnObject_discreet {target : String} {v : Value} :
    (notAnObject target v : Routine Fault α).Discreet Fault.Ordinary broken := .bind .read fun _ => .throw trivial

end Scope

/-- Reading objects fails only with what is said. -/
structure ObjectReading.Discreet (objects : ObjectReading) (P : Fault → Prop) (broken : Bool) : Prop where
  natural : ∀ r, (objects.natural r).Discreet P broken
  array : ∀ r, (objects.array r).Discreet P broken
  dictionary : ∀ r, (objects.dictionary r).Discreet P broken

theorem ObjectReading.primitive_discreet {P : Fault → Prop} {broken : Bool} :
    ObjectReading.primitive.Discreet P broken := ⟨fun _ => .pure, fun _ => .pure, fun _ => .pure⟩

namespace Scope

open Routine
open Program (UnwrapShape)

variable {ε α : Type} {P : ε → Prop} {broken : Bool} {s : Scope} {objects : ObjectReading}

theorem naturally_discreet {P : Fault → Prop} (reading : objects.Discreet P broken) {v : Value} :
    (naturally objects v).Discreet P broken := by
  cases v with
  | undefined | null | bool | number | text => exact .pure
  | object r => exact reading.natural r

theorem nativeAs_discreet (reading : objects.Discreet Fault.Ordinary broken) {shape : UnwrapShape} {v : Value} :
    (s.nativeAs objects shape v).Discreet Fault.Ordinary broken := by
  unfold nativeAs
  cases shape with
  | any | object => exact naturally_discreet reading
  | bool => exact .pure
  | number | double | int32 | uint32 => exact .bind numberOf_discreet fun _ => .pure
  | string =>
    dsimp only
    split
    · exact .pure
    · exact .bind textOf_discreet fun _ => .pure
  | date =>
    refine .bind .read fun payload => ?_
    split <;> first | exact .pure | exact mismatch_discreet
  | array =>
    cases v with
    | undefined | null => exact .pure
    | object r => exact reading.array r
    | bool | number | text => exact notAnObject_discreet
  | dictionary =>
    cases v with
    | undefined | null => exact .pure
    | object r => exact reading.dictionary r
    | bool | number | text => exact notAnObject_discreet
  | data =>
    refine .bind .read fun bytes => ?_
    split
    · exact .pure
    · exact .pure
    · refine .bind .read fun allowed => ?_
      split
      · exact .pure
      · exact .throw trivial
    · exact mismatch_discreet
  | closure =>
    refine .bind .read fun closure => ?_
    split <;> first | exact .pure | exact mismatch_discreet

theorem argumentOf_discreet (reading : objects.Discreet Fault.Ordinary broken) {declared : Encoding} {v : Value} :
    (s.argumentOf objects declared v).Discreet Fault.Ordinary broken := by
  unfold argumentOf
  cases declared with
  | void | bool => exact .pure
  | float | double => exact .bind numberOf_discreet fun _ => .pure
  | longLong | ulongLong =>
    refine .bind numberOf_discreet fun x => ?_
    dsimp only
    split
    all_goals
      split
      · exact mismatch_discreet
      · exact .pure
  | uchar | ushort | uint | ulong | char | short | int | long | cstring | closure => exact nativeAs_discreet reading
  | object className =>
    cases className with
    | none => exact naturally_discreet reading
    | some className =>
      dsimp only
      unfold objectArgument
      split
      · exact nativeAs_discreet reading
      · refine .bind (naturally_discreet reading) fun converted => ?_
        split
        · split
          · exact .pure
          · exact mismatch_discreet
        · exact .pure
  | classRef =>
    refine .bind .read fun found => ?_
    split
    · exact .pure
    · split
      · exact .pure
      · exact mismatch_discreet
  | selector =>
    dsimp only
    split
    · exact .pure
    · exact .bind textOf_discreet fun _ => .pure
  | scriptValue => exact .bind (.perform rfl) fun _ => .pure
  | pointer | struct | carray | unknown => exact .throw trivial

theorem arguments_discreet (reading : objects.Discreet Fault.Ordinary broken) {declared : List Encoding} {vs : List Value} :
    (s.arguments objects declared vs).Discreet Fault.Ordinary broken :=
  .mapM fun _ => .bind (argumentOf_discreet reading) fun _ => .bind .hold fun _ => .pure

/-! ## Exported properties and subscripts -/

/-- A native body may fail with an exception, which is no ordinary fault. -/
theorem send_discreet {h : Handle} {selector : Selector} {args : List NativeValue} :
    (send h selector args).Discreet (fun _ => True) broken := by
  unfold send
  split
  · exact .throw trivial
  · refine .holding ⟨rfl, fun result => ?_, fun _ => trivial⟩
    cases result with
    | ok v => exact .pure
    | error e => exact .throw trivial

theorem checkSignature_discreet {m : ExportedMethod} : (checkSignature m).Discreet Fault.Ordinary broken := by
  unfold checkSignature
  split
  · exact .pure
  · exact .throw trivial

theorem checkEncoding_discreet {p : PropertyDeclaration} : (checkEncoding p).Discreet Fault.Ordinary broken := by
  unfold checkEncoding
  split
  · exact .pure
  · exact .throw trivial

theorem exportedGet_discreet {holder : Ref} {p : PropertyDeclaration} :
    (s.exportedGet holder p).Discreet (fun _ => True) broken := by
  refine .bind checkEncoding_discreet.any fun _ => .bind .read fun found => ?_
  split
  · exact .pure
  · exact .holding (.bind send_discreet fun _ => .bind .hold fun _ => resultOf_discreet.any)

theorem exportedSubscript_discreet (reading : objects.Discreet Fault.Ordinary broken) {holder : Ref} {m : ExportedMethod}
    {value : Option Value} {index : Nat} :
    (s.exportedSubscript objects holder m value index).Discreet (fun _ => True) broken := by
  refine .bind checkSignature_discreet.any fun _ => .bind .read fun found => ?_
  split
  · exact .pure
  · refine .holding (.bind (.holding (arguments_discreet reading).any) fun args => ?_)
    refine .bind (.forM fun _ => .hold) fun _ => .bind send_discreet fun _ => ?_
    exact .bind .hold fun _ => resultOf_discreet.any

theorem get_discreet {target : Value} {key : String} : (s.get target key).Discreet (fun _ => True) broken := by
  unfold get
  cases target with
  | object r =>
    refine .bind .read fun wrapper => ?_
    split
    · exact .bind (raising_discreet exportedGet_discreet) fun _ => .bind (.perform rfl) fun _ => .pure
    · exact getOrdinary_discreet
  | undefined | null => exact throwType_discreet
  | text t =>
    dsimp only
    split
    · exact .pure
    · split
      · exact .pure
      · exact .bind .read fun _ => getOrdinary_discreet
  | bool | number => exact .bind .read fun _ => getOrdinary_discreet

theorem getIndex_discreet {target : Value} {index : Nat} :
    (s.getIndex target index).Discreet (fun _ => True) broken := by
  unfold getIndex
  refine .bind .read fun wrapper => ?_
  split
  · refine .bind (raising_discreet (exportedSubscript_discreet ObjectReading.primitive_discreet)) fun _ => ?_
    exact .bind (.perform rfl) fun _ => .pure
  · refine .bind .read fun items => ?_
    split
    · exact .bind (.perform rfl) fun _ => .pure
    · exact get_discreet

/-! ## Script values as native values -/

variable {item : Value → Visited → Conversion}

theorem visiting_discreet {r : Ref} {seen : Visited} {convert : Visited → Conversion}
    (converts : ∀ seen, (convert seen).Discreet Fault.Inner broken) :
    (visiting r seen convert).Discreet Fault.Inner broken := by
  unfold visiting
  split
  · exact .pure
  · exact .pure
  · exact .bind (converts _) fun _ => .pure

theorem arrayItems_discreet (items : ∀ v seen, (item v seen).Discreet Fault.Inner broken) {source : Value}
    {count index : Nat} {seen : Visited} {done : List NativeValue} :
    (s.arrayItems item source count index seen done).Discreet Fault.Inner broken := by
  induction count generalizing index seen done with
  | zero => exact .pure
  | succ n ih => exact .bind (lift_inner getIndex_discreet) fun v => .bind (items v seen) fun _ => ih

theorem arrayWith_discreet (items : ∀ v seen, (item v seen).Discreet Fault.Inner broken) {r : Ref}
    {seen : Visited} : (s.arrayWith item r seen).Discreet Fault.Inner broken := by
  refine visiting_discreet fun seen => .bind (lift_inner get_discreet) fun v => .bind numberOf_discreet fun x => ?_
  dsimp only
  split
  · exact .throw trivial
  · exact .bind (arrayItems_discreet items) fun _ => .pure

theorem dictionaryEntries_discreet (items : ∀ v seen, (item v seen).Discreet Fault.Inner broken) {source : Value}
    {keys : List String} {seen : Visited} {done : List (NativeValue × NativeValue)} :
    (s.dictionaryEntries item source keys seen done).Discreet Fault.Inner broken := by
  induction keys generalizing seen done with
  | nil => exact .pure
  | cons key rest ih => exact .bind (lift_inner get_discreet) fun v => .bind (items v seen) fun _ => ih

theorem dictionaryWith_discreet (items : ∀ v seen, (item v seen).Discreet Fault.Inner broken) {r : Ref}
    {seen : Visited} : (s.dictionaryWith item r seen).Discreet Fault.Inner broken :=
  visiting_discreet fun _ => .bind .read fun _ => .bind (dictionaryEntries_discreet items) fun _ => .pure

theorem naturalAt_discreet (room : Nat) (v : Value) (seen : Visited) :
    (s.naturalAt room v seen).Discreet Fault.Inner broken := by
  induction room generalizing v seen with
  | zero => exact .bind .read fun _ => .throw trivial
  | succ n ih =>
    unfold naturalAt
    cases v with
    | undefined | null | bool | number | text => exact .pure
    | object r =>
      refine .bind .read fun payload => ?_
      split
      · exact .pure
      · exact arrayWith_discreet ih
      · exact .pure
      · refine .bind .read fun allowed => ?_
        split
        · exact .pure
        · exact .throw trivial
      · split
        · exact .pure
        · exact .pure
        · exact dictionaryWith_discreet ih
      · refine .bind (.bind .read fun found => ?_) fun _ => .pure
        split
        · exact .bind .hold fun _ => .pure
        · exact .pure
      · exact dictionaryWith_discreet ih
      · exact dictionaryWith_discreet ih
      · exact dictionaryWith_discreet ih

theorem objectReading_inner : s.objectReading.Discreet Fault.Inner broken where
  natural _ := .bind .read fun _ => .bind (naturalAt_discreet _ _ _) fun _ => .pure
  array _ := .bind .read fun _ => .bind (arrayWith_discreet (naturalAt_discreet _)) fun _ => .pure
  dictionary _ := .bind .read fun _ => .bind (dictionaryWith_discreet (naturalAt_discreet _)) fun _ => .pure

theorem objectReading_discreet : s.objectReading.Discreet Fault.Ordinary broken where
  natural r := (objectReading_inner.natural r).mono Fault.Inner.ordinary
  array r := (objectReading_inner.array r).mono Fault.Inner.ordinary
  dictionary r := (objectReading_inner.dictionary r).mono Fault.Inner.ordinary

theorem toNativeAs_discreet {shape : UnwrapShape} {v : Value} :
    (s.toNativeAs shape v).Discreet Fault.Ordinary broken := nativeAs_discreet objectReading_discreet

/-! ## Changing properties -/

theorem set_discreet {target : Value} {key : String} {v : Value} :
    (s.set target key v).Discreet (fun _ => True) broken := by
  have exported {r : Ref} {p : PropertyDeclaration} {setter : Selector} :
      (s.exportedSet r p setter v).Discreet (fun _ => True) broken := by
    refine .bind checkEncoding_discreet.any fun _ => .bind .read fun found => ?_
    split
    · exact .pure
    · refine .holding (.bind (argumentOf_discreet objectReading_discreet).any fun _ => ?_)
      exact .bind send_discreet fun _ => .pure
  unfold set
  cases target with
  | object r =>
    refine .bind .read fun wrapper => ?_
    split
    · split
      · exact .pure
      · exact raising_discreet exported
    · exact setOrdinary_discreet
  | undefined | null => exact throwType_discreet
  | bool | number | text => exact .pure

theorem setIndex_discreet {target : Value} {index : Nat} {v : Value} :
    (s.setIndex target index v).Discreet (fun _ => True) broken := by
  unfold setIndex
  refine .bind .read fun wrapper => ?_
  split
  · exact .bind (raising_discreet (exportedSubscript_discreet objectReading_discreet)) fun _ => .pure
  · exact set_discreet

theorem has_discreet {target : Value} {key : String} : (s.has target key).Discreet (fun _ => True) broken := by
  unfold has
  cases target with
  | object r =>
    refine .bind .read fun wrapper => ?_
    split
    · exact .pure
    · exact .read
  | undefined | null | bool | number | text => exact .bind textOf_discreet fun _ => throwType_discreet

theorem delete_discreet {target : Value} {key : String} : (s.delete target key).Discreet (fun _ => True) broken := by
  unfold delete
  cases target with
  | object r =>
    refine .bind .read fun wrapper => ?_
    split
    · exact .pure
    · refine .bind .read fun found => ?_
      split
      · exact .pure
      · split
        · exact .bind (.perform rfl) fun _ => .pure
        · exact .pure
  | undefined | null => exact throwType_discreet
  | bool | number | text => exact .pure

theorem define_discreet {target : Value} {key : String} {d : Descriptor} {enumerable configurable : Bool} :
    (s.define target key d enumerable configurable).Discreet (fun _ => True) broken := by
  have redefines {r : Ref} {p : Property} : (s.redefine r key p).Discreet (fun _ => True) broken := by
    refine .bind .read fun fixed => ?_
    split
    · exact throwType_discreet
    · exact .perform rfl
  have side {side : String} {f : Option Value} : (s.accessorFunction side f).Discreet (fun _ => True) broken := by
    unfold accessorFunction
    split
    · exact .pure
    · exact .pure
    · refine .bind .read fun found => ?_
      split
      · exact .pure
      · exact .bind textOf_discreet fun _ => throwType_discreet
  unfold define
  cases target with
  | object r =>
    cases d with
    | data v writable =>
      refine .bind .read fun isArray => ?_
      split
      · exact writeOwn_discreet
      · exact redefines
    | accessor getter setter => exact .bind side fun _ => .bind side fun _ => redefines
  | undefined | null | bool | number | text => exact throwType_discreet

end Scope

end ScriptBridge
