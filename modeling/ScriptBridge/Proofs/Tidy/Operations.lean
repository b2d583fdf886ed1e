import ScriptBridge.Bridge.Operation
import ScriptBridge.Proofs.Tidy.Conversions
import ScriptBridge.Scope.Builtin

/-!
# Operations of scopes and of the bridge

Changing properties, evaluating source text, the calls of bridged and built-in functions, and what native
code does with script values: each keeps order, and each hands out recorded values only.

Proof-only: not reachable from `ScriptBridge.Session.Run`.
-/

namespace ScriptBridge

open Routine
open Program (UnwrapShape)

namespace Scope

variable {ε α : Type} [Carries ε] {s : Scope} {o : Option Scope} {m : Machine} {Q : α → Machine → Prop}

/-! ## Changing properties -/

theorem exportedSet_tidy {holder : Ref} {p : PropertyDeclaration} {setter : Selector} {v : Value} :
    (s.exportedSet holder p setter v).Tidy (some s) m := by
  unfold exportedSet
  refine .bind checkEncoding_tidy fun _ m₁ _ _ => .look ?_
  split
  · exact .pure trivial
  · refine .holding tidy_same fun m₂ _ => ?_
    exact .bind (argumentOf_tidy objectReading_tidy) fun _ _ _ _ => .bind send_tidy fun _ _ _ _ => .pure trivial

theorem set_tidy {target : Value} {key : String} {v : Value} : (s.set target key v).Tidy (some s) m := by
  unfold set
  cases target with
  | object r =>
    refine .look ?_
    split
    · split
      · exact .pure trivial
      · exact raising_gives exportedSet_tidy
    · exact setOrdinary_tidy
  | undefined | null => exact throwType_gives
  | bool | number | text => exact .pure trivial

theorem setIndex_tidy {target : Value} {index : Nat} {v : Value} : (s.setIndex target index v).Tidy (some s) m := by
  unfold setIndex
  refine .look ?_
  split
  · exact .bind (raising_gives (exportedSubscript_gives objectReading_tidy)) fun _ _ _ _ => .pure trivial
  · exact set_tidy

theorem has_tidy {target : Value} {key : String} : (s.has target key).Tidy (some s) m := by
  unfold has
  split
  · refine .look ?_
    split
    · exact .pure trivial
    · exact .read trivial
  · exact .bind textOf_tidy fun _ _ _ _ => throwType_gives

theorem hasIndex_tidy {target : Value} {index : Nat} : (s.hasIndex target index).Tidy (some s) m := has_tidy

/-- What is removed may be. -/
theorem respects_deletion {r : Ref} {ob : Object} {key : String} {e : Edit} (there : m.object? r = some ob)
    (change : (deletion ob key).1 = some e) : m.Respects r e := by
  unfold deletion at change
  split at change
  · nomatch change
  · split at change
    · exact Machine.respects_of_key? (Option.some.inj change ▸ rfl)
    · split at change
      · nomatch change
      · rename_i p found
        split at change
        · rename_i configurable
          obtain rfl := Option.some.inj change
          intro ob' k q there' stored found'
          obtain rfl : ob = ob' := Option.some.inj (there.symm.trans there')
          obtain rfl : key = k := Option.some.inj stored
          obtain rfl : p = q := Option.some.inj (found.symm.trans found')
          exact p.isFixed_of_configurable configurable
        · nomatch change

/-- A deletion stores nothing. -/
theorem fits_deletion {r : Ref} {ob : Object} {key : String} {e : Edit} (change : (deletion ob key).1 = some e) :
    m.Fits r e := by
  unfold deletion at change
  split at change
  · nomatch change
  · split at change
    · exact Option.some.inj change ▸ trivial
    · split at change
      · nomatch change
      · split at change
        · exact Option.some.inj change ▸ trivial
        · nomatch change

theorem delete_tidy {target : Value} {key : String} : (s.delete target key).Tidy (some s) m := by
  unfold delete
  split
  · refine .look ?_
    split
    · exact .pure trivial
    · refine .look ?_
      split
      · exact .pure trivial
      · rename_i change gone deleted
        obtain ⟨ob, there, removal⟩ := Option.map_eq_some_iff.1 deleted
        split
        · have removes := congrArg Prod.fst removal
          exact .bind (edit_tidy (respects_deletion there removes) (fits_deletion removes)) fun _ _ _ _ => .pure trivial
        · exact .pure trivial
  · exact throwType_gives
  · exact throwType_gives
  · exact .pure trivial

/-- A side of an accessor that is given is a function. -/
theorem accessorFunction_gives {side : String} {f : Option Value} :
    (s.accessorFunction side f).Gives (some s) m fun side m' =>
      m' = m ∧ ∀ r ∈ side, m.isFunction (.object r) = true := by
  unfold accessorFunction
  split
  · exact .pure ⟨rfl, nofun⟩
  · exact .pure ⟨rfl, nofun⟩
  · refine .look ?_
    split
    · rename_i found
      obtain ⟨rfl, -⟩ := Machine.function?_eq_some.1 found
      refine .pure ⟨rfl, fun q is => ?_⟩
      obtain rfl := Option.some.inj is
      exact Option.isSome_of_eq_some found
    · exact .bind textOf_tidy fun _ _ _ _ => throwType_gives

theorem redefine_tidy {r : Ref} {key : String} {p : Property} (fits : m.Fits r (.define key p)) :
    (s.redefine r key p).Tidy (some s) m := by
  unfold redefine
  refine .look ?_
  split
  · exact throwType_gives
  · rename_i free
    refine edit_tidy (fun ob k q there stored found => q.isFixed_of_configurable ?_) fits
    obtain rfl : key = k := Option.some.inj stored
    simpa [there, found] using free

theorem define_tidy {target : Value} {key : String} {d : Descriptor} {enumerable configurable : Bool} :
    (s.define target key d enumerable configurable).Tidy (some s) m := by
  unfold define
  split
  · cases d with
    | data v writable =>
      refine .look ?_
      split
      · rename_i element
        exact writeOwn_tidy fun plain => absurd (plain.symm.trans element) Bool.false_ne_true
      · rename_i noElement
        exact redefine_tidy ⟨fun array element _ => absurd (by simp [array, element]) noElement,
          fun accessor => absurd accessor Bool.false_ne_true⟩
    | accessor getter setter =>
      refine .bind accessorFunction_gives fun getter _ _ reads => .bind accessorFunction_gives fun setter _ _ writes => ?_
      obtain ⟨rfl, reads⟩ := reads
      obtain ⟨rfl, writes⟩ := writes
      refine redefine_tidy ⟨fun _ _ _ => rfl, fun _ f mem => ?_⟩
      exact (List.mem_append.1 mem).elim (reads f <| Option.mem_toList.1 ·) (writes f <| Option.mem_toList.1 ·)
  · exact throwType_gives

theorem ownKeys_tidy {v : Value} : (ownKeys v : Routine ε (List String)).Tidy o m := .read trivial

theorem prototypeOf_gives {v : Value} : (prototypeOf v : Routine ε Value).HandsOut (some s) m := by
  unfold prototypeOf
  refine .look ?_
  split
  · exact tracked fun _ recorded => recorded
  · exact .pure (Machine.recorded_of_not_object rfl)

theorem setPrototypeOf_tidy {target prototype : Value} : (s.setPrototypeOf target prototype).Tidy (some s) m := by
  have link {r : Ref} {p : Option Ref} (fits : m.Fits r (.setPrototype p)) :
      (edit r (.setPrototype p) : Routine Thrown Unit).Tidy (some s) m := edit_tidy (Machine.respects_of_key? rfl) fits
  unfold setPrototypeOf
  split
  · split
    · refine .look ?_
      split
      · exact throwType_gives
      · rename_i off
        exact link (Bool.eq_false_iff.2 off)
    · exact link trivial
    · exact throwType_gives
  · exact throwType_gives

/-! ## Evaluating -/

theorem evaluate_gives {still : Bool} {source resource : String} :
    (s.evaluate source resource).HandsOutAs still (some s) m := by
  unfold evaluate
  refine .look ?_
  split
  · exact throwNew_gives
  · refine .look ?_
    split
    · exact throwRange_gives
    · rename_i room
      have room : m.frames.height < m.options.maxCallDepth := by simpa using room
      have source : (perform (.addSource resource source) : Routine Thrown Unit).GivesAs still (some s) m
          fun _ m₁ => m₁.frames.height < m₁.options.maxCallDepth := .perform ⟨trivial, trivial⟩ (.of_order rfl) room
      refine .bind source fun _ m₁ _ room => .inFrame recorded_same ⟨rfl, room⟩ ?_
      split
      · exact .bind (.job rfl fun _ h => h) fun _ _ _ _ => trackEnd_gives
      · exact .bind .ret fun _ _ _ _ => trackEnd_gives

/-! ## Bridged functions -/

theorem checkArity_tidy {name : String} {expected got : Nat} : (checkArity name expected got).Tidy o m := by
  unfold checkArity
  split
  · exact .pure trivial
  · exact dispatch_gives

theorem instanceReceiver_tidy {method : ExportedMethod} {cls : Class} {this : Value} :
    (instanceReceiver method cls this).Tidy o m := by
  unfold instanceReceiver
  refine .look ?_
  split
  · exact .pure trivial
  · split
    · exact .pure trivial
    · exact dispatch_gives
  · exact dispatch_gives

theorem classReceiver_tidy {cls : Class} {this : Value} : (s.classReceiver cls this).Tidy o m := by
  unfold classReceiver
  refine .look ?_
  split
  · exact .pure trivial
  · exact .pure trivial

theorem implemented_tidy {cls : Class} {selector : Selector} {body : Option Program.Body} :
    (implemented cls selector body).Tidy o m := by
  unfold implemented
  split
  · exact .pure trivial
  · exact dispatch_gives

theorem dispatch_handsOut {signature : Signature} {body : Program.Body} {receiver : Receiver} {args : List Value} :
    (s.dispatch signature body receiver args).HandsOut (some s) m := by
  refine .bind (arguments_tidy objectReading_tidy) fun _ _ _ _ => ?_
  exact .bind runNative_tidy fun _ _ _ _ => .bind .hold fun _ _ _ _ => resultOf_gives

theorem methodCall_gives {method : ExportedMethod} {cls : Class} {i : Invocation} :
    (s.methodCall method cls i).HandsOut (some s) m := by
  refine .bind checkArity_tidy fun _ _ _ _ => .bind checkSignature_tidy fun _ _ _ _ => ?_
  refine .bind instanceReceiver_tidy fun receiver m₁ _ _ => ?_
  cases receiver with
  | none => exact .pure (Machine.recorded_of_not_object rfl)
  | some h =>
    exact .bind implemented_tidy fun _ _ _ _ => .holding recorded_same fun _ _ => dispatch_handsOut

theorem classMethodCall_gives {method : ExportedMethod} {cls : Class} {i : Invocation} :
    (s.classMethodCall method cls i).HandsOut (some s) m := by
  refine .bind checkArity_tidy fun _ _ _ _ => .bind checkSignature_tidy fun _ _ _ _ => ?_
  refine .bind classReceiver_tidy fun _ _ _ _ => .bind implemented_tidy fun _ _ _ _ => ?_
  exact .holding recorded_same fun _ _ => dispatch_handsOut

theorem closureCall_gives {c : Closure} {i : Invocation} : (s.closureCall c i).HandsOut (some s) m :=
  .bind checkArity_tidy fun _ _ _ _ => .holding recorded_same fun _ _ => dispatch_handsOut

theorem addNative_tidy {native : NativeObject} : (perform (.addNative native) : Routine ε Nat).Tidy o m :=
  .aside ⟨trivial, trivial⟩ rfl

/-- The factory of a class runs wherever its object is wanted. -/
theorem make_tidy {body : Program.Body} {cls : Class} : (job (.make body cls) : Routine ε Handle).Tidy o m :=
  .job rfl nofun

theorem instantiate_tidy {cls : Class} : (instantiate cls).Tidy o m := by
  unfold instantiate
  split
  · exact .bind make_tidy fun _ _ _ _ => .pure trivial
  · exact .pure trivial

theorem selfMade_tidy {cls : Class} {arity : Nat} {made : Option Handle} : (selfMade cls arity made).Tidy o m := by
  cases made with
  | none => exact dispatch_gives
  | some h => exact .ret

theorem newInstance_tidy {cls : Class} {table : ExportTable} {args : List Value} :
    (s.newInstance cls table args).Tidy (some s) m := by
  unfold newInstance
  split
  · refine .bind checkSignature_tidy fun _ _ _ _ => .bind implemented_tidy fun _ _ _ _ => ?_
    exact .bind (arguments_tidy objectReading_tidy) fun _ _ _ _ => runNative_tidy
  · split
    · exact .bind instantiate_tidy fun _ _ _ _ => selfMade_tidy
    · exact .bind .ret fun _ _ _ _ => selfMade_tidy

theorem constructorCall_gives {cls : Class} {table : ExportTable} {i : Invocation} :
    (s.constructorCall cls table i).HandsOut (some s) m := by
  unfold constructorCall
  split
  · exact dispatch_gives
  · refine .bind (.holding tidy_same fun _ _ => newInstance_tidy) fun v m₁ _ _ => ?_
    split
    · exact wrapperFor_gives
    · exact dispatch_gives

/-! ## Built-in functions -/

theorem fieldOr_tidy {fields : List Value} {i default : Nat} : (s.fieldOr fields i default).Tidy (some s) m := by
  unfold fieldOr
  split
  · exact numberOf_tidy
  · exact .pure trivial

theorem fieldsTime_tidy {fields : List Value} : (s.fieldsTime fields).Tidy (some s) m := by
  unfold fieldsTime
  refine .bind numberOf_tidy fun _ _ _ _ => ?_
  refine .bind fieldOr_tidy fun _ _ _ _ => .bind fieldOr_tidy fun _ _ _ _ => .bind fieldOr_tidy fun _ _ _ _ => ?_
  refine .bind fieldOr_tidy fun _ _ _ _ => .bind fieldOr_tidy fun _ _ _ _ => .bind fieldOr_tidy fun _ _ _ _ => ?_
  dsimp only
  split
  · exact .pure trivial
  · split
    · exact .pure trivial
    · exact .pure trivial

theorem dateTime_tidy {args : List Value} : (s.dateTime args).Tidy (some s) m := by
  unfold dateTime
  split
  · exact .look (.pure trivial)
  · exact .pure trivial
  · exact numberOf_tidy
  · exact fieldsTime_tidy

theorem textOr_tidy {default : String} {v : Value} : (s.textOr default v).Tidy (some s) m := by
  unfold textOr
  split
  · exact .pure trivial
  · exact textOf_tidy

theorem construction_tidy {b : Builtin} {i : Invocation} : (s.construction b i).Tidy (some s) m := by
  unfold construction
  cases b with
  | object =>
    dsimp only
    split
    · exact .pure trivial
    · exact newObject_gives.tidy
  | array =>
    dsimp only
    split
    · split
      · exact newArray_gives.tidy
      · exact throwRange_gives
    · exact newArray_gives.tidy
  | error kind => exact .bind textOr_tidy fun _ _ _ _ => newError_gives.tidy
  | date => exact .bind dateTime_tidy fun _ _ _ _ => newDate_gives.tidy
  | regexp =>
    exact .bind textOr_tidy fun _ _ _ _ => .bind textOr_tidy fun _ _ _ _ => newRegexp_gives.tidy
  | buffer =>
    refine .bind numberOf_tidy fun x m₁ _ _ => ?_
    split
    · exact newBuffer_gives.tidy
    · exact throwRange_gives

/-! ## Operations of native code -/

theorem recorded_undefined (m : Machine) : m.Recorded .undefined := Machine.recorded_of_not_object rfl

theorem wrap_gives {v : NativeValue} : (s.wrap v).HandsOut (some s) m := settle_gives toScript_gives recorded_undefined

theorem unwrap_tidy {v : Value} {shape : UnwrapShape} : (s.unwrap v shape).Tidy (some s) m :=
  settle_gives (.holding tidy_same fun _ _ => toNativeAs_tidy) fun _ => trivial

theorem toObjectOfClass_tidy {v : Value} {cls : Class} : (toObjectOfClass v cls : Routine ε NativeValue).Tidy o m := by
  unfold toObjectOfClass
  refine .look ?_
  split
  · exact .pure trivial
  · exact .pure trivial

theorem toNumber_tidy {v : Value} : (s.toNumber v : Routine ε NativeValue).Tidy (some s) m := by
  unfold toNumber
  split
  · exact .pure trivial
  · exact .bind numberOf_tidy fun _ _ _ _ => .pure trivial

theorem toDate_tidy {v : Value} : (toDate v : Routine ε NativeValue).Tidy o m := by
  unfold toDate
  refine .look ?_
  split
  · exact .pure trivial
  · exact .pure trivial
  · exact .pure trivial

theorem property_gives {target : Value} {key : String} : (s.property target key).HandsOut (some s) m :=
  settle_gives (lift_gives get_gives) recorded_undefined

theorem setProperty_tidy {target : Value} {key : String} {v : NativeValue} :
    (s.setProperty target key v).Tidy (some s) m :=
  settle_gives (.bind toScript_gives fun _ _ _ _ => lift_gives set_tidy) fun _ => trivial

theorem deleteProperty_tidy {target : Value} {key : String} : (s.deleteProperty target key).Tidy (some s) m :=
  settle_gives (lift_gives delete_tidy) fun _ => trivial

theorem hasProperty_tidy {target : Value} {key : String} : (s.hasProperty target key).Tidy (some s) m :=
  settle_gives (lift_gives has_tidy) fun _ => trivial

theorem valueAt_gives {target : Value} {index : Nat} : (s.valueAt target index).HandsOut (some s) m :=
  settle_gives (lift_gives getIndex_gives) recorded_undefined

theorem setValueAt_tidy {target : Value} {index : Nat} {v : NativeValue} :
    (s.setValueAt target index v).Tidy (some s) m :=
  settle_gives (.bind toScript_gives fun _ _ _ _ => lift_gives setIndex_tidy) fun _ => trivial

theorem descriptorEntry_tidy {d : NativeValue} {name : String} : (s.descriptorEntry d name).Tidy (some s) m := by
  unfold descriptorEntry
  split
  · exact .map toScript_gives.tidy
  · exact .pure trivial

theorem defineWith_tidy {target : Value} {key : String} {d : NativeValue} :
    (s.defineWith target key d).Tidy (some s) m := by
  refine settle_gives ?_ fun _ => trivial
  dsimp only
  split
  · refine .bind descriptorEntry_tidy fun _ _ _ _ => .bind descriptorEntry_tidy fun _ _ _ _ => ?_
    exact .bind .ret fun _ _ _ _ => lift_gives define_tidy
  · refine .bind descriptorEntry_tidy fun _ _ _ _ => ?_
    exact .bind .ret fun _ _ _ _ => lift_gives define_tidy

theorem toScripts_tidy {vs : List NativeValue} : (s.toScripts vs).Tidy (some s) m :=
  .mapM fun _ _ _ _ => toScript_gives.tidy

theorem callWith_gives {f : Value} {args : List NativeValue} : (s.callWith f args).HandsOut (some s) m :=
  settle_gives (.bind toScripts_tidy fun _ _ _ _ => lift_gives call_gives) recorded_undefined

theorem constructWith_gives {f : Value} {args : List NativeValue} : (s.constructWith f args).HandsOut (some s) m :=
  settle_gives (.bind toScripts_tidy fun _ _ _ _ => lift_gives construct_gives) recorded_undefined

theorem invokeMethod_gives {target : Value} {name : String} {args : List NativeValue} :
    (s.invokeMethod target name args).HandsOut (some s) m := by
  refine settle_gives ?_ recorded_undefined
  refine .bind toScripts_tidy fun _ _ _ _ => .bind (lift_gives get_gives) fun _ _ _ _ => ?_
  exact lift_gives call_gives

theorem evaluateScript_gives {source resource : String} : (s.evaluateScript source resource).HandsOut (some s) m := by
  unfold evaluateScript
  refine .look ?_
  split
  · exact .throw fun _ h => nomatch h
  · exact settle_gives (lift_gives evaluate_gives) recorded_undefined

theorem isInstanceOf_tidy {v ctor : Value} : (s.isInstanceOf v ctor).Tidy (some s) m := by
  unfold isInstanceOf
  refine .look (.look ?_)
  split
  · exact .pure trivial
  · exact settle_gives (lift_gives instanceOf_tidy) fun _ => trivial

/-! ## Operations on contexts -/

section

variable {context : Nat}

theorem unwrapInRegion_tidy {r : Scope → Routine BridgeError Value} (alive : m.contextAlive context = true)
    (h : ∀ m, (r ⟨context⟩).Tidy (some ⟨context⟩) m) : (unwrapInRegion context r).Tidy o m := by
  refine .holdingNone tidy_same (.inRegion alive (fun _ => rfl) ?_)
  refine .bind (h _) fun _ _ _ _ => .bind unwrap_tidy fun _ _ _ _ => ?_
  exact .bind .hold fun _ _ _ _ => .pure trivial

theorem contextGet_tidy {key : String} (alive : m.contextAlive context = true) :
    (contextGet context key).Tidy o m :=
  unwrapInRegion_tidy alive fun _ => .bind global_gives fun _ _ _ _ => property_gives.tidy

theorem contextSet_tidy {key : String} {v : NativeValue} (alive : m.contextAlive context = true) :
    (contextSet context key v).Tidy o m :=
  .inRegion alive (fun _ => rfl) (.bind global_gives fun _ _ _ _ => setProperty_tidy)

theorem contextEvaluate_tidy {source resource : String} (alive : m.contextAlive context = true) :
    (contextEvaluate context source resource).Tidy o m :=
  unwrapInRegion_tidy alive fun _ => evaluateScript_gives.tidy

theorem globalObject_tidy (alive : m.contextAlive context = true) (empty : ∀ e : ε, Carries.value? e = none) :
    (globalObject context : Routine ε Nat).Tidy o m :=
  .inRegion alive empty (.bind global_gives fun _ _ _ _ => addManaged_tidy)

theorem setClass_tidy {name : String} {cls : Class} (alive : m.contextAlive context = true) :
    (setClass context name cls).Tidy o m := by
  refine .inRegion alive (fun _ => rfl) (settle_gives ?_ fun _ => trivial)
  refine .bind (templateFor_builds cls _) fun t m₁ _ built => withContext fun c alive there _ => .look ?_
  have scope := scopeContext_of_context? (s := ⟨context⟩) there
  rw [scope]
  exact .aside ⟨trivial, .inr (.setClass alive there (scope ▸ built.mem)), Machine.fits_hidden⟩ rfl

end

end Scope

/-! ## New contexts -/

section

variable {ε : Type} [Carries ε] {o : Option Scope} {m : Machine} {live : List (Ref × Option Ref)}

/-- Objects of a new context, with their prototypes, while nothing but hidden properties is defined on them. -/
def Machine.AllBare (m : Machine) (live : List (Ref × Option Ref)) : Prop :=
  ∀ q ∈ live, m.Bare q.1 q.2

theorem newOrdinary_bare {prototype : Option Ref} (bare : m.AllBare live) :
    (newOrdinary prototype : Routine ε Ref).Gives o m fun r m' => m'.AllBare ((r, prototype) :: live) := by
  refine .imp (Scope.store_builds rfl rfl nofun) fun r m' _ stores q hq => ?_
  rcases List.mem_cons.1 hq with rfl | hq
  · exact stores.bare
  · exact (bare q hq).gains stores.gains

theorem define_bare {r : Ref} {prototype : Option Ref} {name : String} {v : Value} (bare : m.AllBare live)
    (mem : (r, prototype) ∈ live) :
    (perform (.edit r (.define name (.hidden v))) : Routine ε Unit).Gives o m fun _ m' => m'.AllBare live :=
  have careful : (Action.edit r (.define name (.hidden v))).Careful m :=
    ⟨.inl (bare _ mem).respects, Machine.fits_hidden⟩
  (Scope.define_gains (fun _ _ => True) trivial careful).imp fun _ _ _ defined q hq => (bare q hq).gains defined.1

theorem forM_bare {β : Type} {l : List β} {f : β → Routine ε PUnit}
    (h : ∀ b ∈ l, ∀ m : Machine, m.AllBare live → (f b).Gives o m fun _ m' => m'.AllBare live) (bare : m.AllBare live) :
    (l.forM f).Gives o m fun _ m' => m'.AllBare live := by
  induction l generalizing m with
  | nil => exact .pure bare
  | cons b l ih =>
    exact .bind (h b List.mem_cons_self m bare) fun _ m₁ _ bare =>
      ih (fun b mem => h b (List.mem_cons_of_mem _ mem)) bare

theorem installBuiltin_bare {context : Nat} {i : Intrinsics} {global : Ref} {b : Builtin} {prototype : Ref}
    {p q : Option Ref} (bare : m.AllBare live) (mem : (prototype, p) ∈ live) (mem' : (global, q) ∈ live) :
    (installBuiltin context i global b prototype : Routine ε Unit).Gives o m fun _ m' => m'.AllBare live := by
  refine .bind (Scope.store_builds rfl rfl nofun) fun ctor m₁ _ stores => ?_
  have bare : m₁.AllBare live := fun q hq => (bare q hq).gains stores.gains
  exact .bind (define_bare bare mem) fun _ m₂ _ bare => define_bare bare mem'

theorem ofError_mem_all (i : Intrinsics) (kind : Program.ErrorKind) : i.ofError kind ∈ i.all := by
  cases kind <;> simp [Intrinsics.ofError, Intrinsics.all]

theorem mem_all_of_mem_builtins {i : Intrinsics} {b : Builtin × Ref} (mem : b ∈ builtins i) : b.2 ∈ i.all := by
  simp only [builtins, List.mem_cons, List.not_mem_nil, or_false] at mem
  rcases mem with rfl | rfl | rfl | rfl | rfl | rfl | rfl | rfl <;> simp [Intrinsics.all]

/-- A new context has what it needs. -/
theorem newContext_gives : (newContext : Routine ε Nat).Gives o m fun id m' =>
    m'.Rooted id ∧ ∃ c, m'.context? id = some c ∧ c.Fresh m' := by
  unfold newContext
  have bare : m.AllBare [] := fun _ h => nomatch h
  refine .look (.bind (newOrdinary_bare bare) fun object m₁ _ bare => ?_)
  refine .bind (newOrdinary_bare bare) fun function m₁ _ bare => ?_
  refine .bind (newOrdinary_bare bare) fun array m₁ _ bare => ?_
  refine .bind (newOrdinary_bare bare) fun error m₁ _ bare => ?_
  refine .bind (newOrdinary_bare bare) fun typeError m₁ _ bare => ?_
  refine .bind (newOrdinary_bare bare) fun rangeError m₁ _ bare => ?_
  refine .bind (newOrdinary_bare bare) fun date m₁ _ bare => ?_
  refine .bind (newOrdinary_bare bare) fun regexp m₁ _ bare => ?_
  refine .bind (newOrdinary_bare bare) fun buffer m₁ _ bare => ?_
  refine .bind (newOrdinary_bare bare) fun global m₁ _ bare => ?_
  let i : Intrinsics := ⟨object, function, array, error, typeError, rangeError, date, regexp, buffer⟩
  let made := [(global, some object), (buffer, some object), (regexp, some object), (date, some object),
    (rangeError, some error), (typeError, some error), (error, some object), (array, some object),
    (function, some object), (object, none)]
  have global_mem : (global, some object) ∈ made := List.mem_cons_self
  have object_mem : (object, none) ∈ made := by simp [made]
  have intrinsic_mem : ∀ r ∈ i.all, ∃ p, (r, p) ∈ made := fun r hr => by
    have fst : i.all ⊆ made.map Prod.fst := by simp [made, Intrinsics.all, i]
    obtain ⟨q, mem, rfl⟩ := List.mem_map.1 (fst hr)
    exact ⟨q.2, mem⟩
  have bare : m₁.AllBare made := bare
  refine .bind (forM_bare (fun kind _ m bare => ?_) bare) fun _ m₁ _ bare => ?_
  · obtain ⟨p, mem⟩ := intrinsic_mem _ (ofError_mem_all i kind)
    exact .bind (define_bare bare mem) fun _ _ _ bare => define_bare bare mem
  refine .bind (forM_bare (fun b hb m bare => ?_) bare) fun _ m₁ _ bare => ?_
  · obtain ⟨p, mem⟩ := intrinsic_mem _ (mem_all_of_mem_builtins hb)
    exact installBuiltin_bare bare mem global_mem
  refine .bind (define_bare bare global_mem) fun _ m₁ _ bare => ?_
  refine .perform ⟨⟨rfl, rfl⟩, trivial⟩ (.of_order rfl) ⟨⟨_, Array.getElem?_push_size, ?_⟩, ?_⟩
  · refine ⟨(bare _ global_mem).isLive, fun r hr => ?_, fun t ht => (nomatch ht), fun t ht => nomatch ht⟩
    obtain ⟨p, mem⟩ := intrinsic_mem r hr
    exact (bare _ mem).isLive
  · obtain ⟨ob, there, kind, -⟩ := bare _ global_mem
    obtain ⟨ob', there', -, -, top⟩ := bare _ object_mem
    exact ⟨_, Array.getElem?_push_size, rfl, rfl, ⟨ob, there, by rw [Object.function?, kind]⟩, ob', there', top⟩

end

end ScriptBridge
