import ScriptBridge.Bridge.Operation
import ScriptBridge.Proofs.Confined.Conversions
import ScriptBridge.Scope.Builtin

/-!
# Operations of scopes and of the bridge

The functions of the bridge check what `Invoked` asks for. A method runs on objects of its class only, with
as many arguments as its selector takes (`Scope.methodCall_confined`); a class method runs on its class or
one below it, and a constructor on its own class, each by its own function.

Proof-only: not reachable from `ScriptBridge.Session.Run`.
-/

namespace ScriptBridge

open Routine
open Program (UnwrapShape)

namespace Scope

variable {ε α : Type} {s : Scope} {o : Option AnyJob} {K : Roster} {Q : Roster → α → Prop} {m : Machine}
  {w : WrapperData} {holder : Ref}

/-! ## Changing properties -/

/-- The setter of a property that the wrapper at hand exports. -/
theorem exportedSet_confined {p : PropertyDeclaration} {setter : Selector} {v : Value} (known : m.Known K)
    (found : m.wrapper? (.object holder) = some w) (listed : p ∈ w.table.properties) (sets : p.setter = some setter) :
    (s.exportedSet holder p setter v).YieldsFrom o m K fun _ _ => True := by
  obtain ⟨has, of⟩ := known.wrapper found
  unfold exportedSet
  refine .check (.look known ?_)
  split
  · trivial
  · rename_i behind
    obtain rfl := Machine.native_of_nativeBehind found behind
    refine Yields.holding (.bind (argumentOf_yields objectReading_yields) fun arg K₁ le knows => ?_) m known
    have sent : (send w.native setter [arg]).YieldsKnown o K₁ :=
      send_yields (has.mono le) ((of.properties p listed).setter sets) fun v mem => List.mem_singleton.1 mem ▸ knows
    exact .bind sent fun _ _ _ _ => .ret

theorem set_confined {target : Value} {key : String} {v : Value} : (s.set target key v).Confined o K := by
  unfold set
  cases target with
  | object r =>
    refine .lookAt fun m known => ?_
    split
    · rename_i found
      obtain ⟨w, hw, listed⟩ := wrapper_of_property found
      split
      · trivial
      · rename_i sets
        exact raising_confined known (exportedSet_confined known hw listed sets)
    · exact setOrdinary_confined m known
  | undefined | null => exact throwType_yields
  | bool | number | text => exact .ret

theorem setIndex_confined {target : Value} {index : Nat} {v : Value} : (s.setIndex target index v).Confined o K := by
  unfold setIndex
  refine .lookAt fun m known => ?_
  split
  · rename_i method r found
    obtain ⟨w, hw, setter⟩ := Option.bind_eq_some_iff.1 found
    obtain ⟨offers, selector⟩ := (known.wrapper hw).2.indexSetter method setter
    have arity : method.selector.arity = 2 := by
      rw [selector]
      decide
    have run : (s.exportedSubscript s.objectReading r method (some v) index).YieldsFrom o m K fun _ _ => True :=
      exportedSubscript_confined objectReading_yields known hw offers arity
    exact .bind known (raising_confined known run) fun _ _ _ _ => .ret
  · exact set_confined m known

theorem has_confined {target : Value} {key : String} : (s.has target key).Confined o K := by
  unfold has
  split
  · refine .look fun _ _ => ?_
    split
    · exact .ret
    · exact .read fun _ _ => trivial
  · exact .bind textOf_confined fun _ _ _ _ => throwType_yields

theorem hasIndex_confined {target : Value} {index : Nat} : (s.hasIndex target index).Confined o K := has_confined

theorem delete_confined {target : Value} {key : String} : (s.delete target key).Confined o K := by
  unfold delete
  split
  · refine .look fun _ _ => ?_
    split
    · exact .ret
    · refine .look fun _ _ => ?_
      split
      · exact .ret
      · split
        · exact .bind edit_confined fun _ _ _ _ => .ret
        · exact .ret
  · exact throwType_yields
  · exact throwType_yields
  · exact .ret

theorem accessorFunction_confined {side : String} {f : Option Value} : (s.accessorFunction side f).Confined o K := by
  unfold accessorFunction
  split
  · exact .ret
  · exact .ret
  · refine .look fun _ _ => ?_
    split
    · exact .ret
    · exact .bind textOf_confined fun _ _ _ _ => throwType_yields

theorem redefine_confined {r : Ref} {key : String} {p : Property} : (s.redefine r key p).Confined o K := by
  unfold redefine
  refine .look fun _ _ => ?_
  split
  · exact throwType_yields
  · exact edit_confined

theorem define_confined {target : Value} {key : String} {d : Descriptor} {enumerable configurable : Bool} :
    (s.define target key d enumerable configurable).Confined o K := by
  unfold define
  split
  · cases d with
    | data v writable =>
      refine .look fun _ _ => ?_
      split
      · exact writeOwn_confined
      · exact redefine_confined
    | accessor getter setter =>
      refine .bind accessorFunction_confined fun _ _ _ _ => .bind accessorFunction_confined fun _ _ _ _ => ?_
      exact redefine_confined
  · exact throwType_yields

theorem ownKeys_confined {v : Value} : (ownKeys v : Routine ε (List String)).Confined o K := .read fun _ _ => trivial

theorem prototypeOf_confined {v : Value} : (prototypeOf v : Routine ε Value).Confined o K := by
  unfold prototypeOf
  refine .look fun _ _ => ?_
  split
  · exact tracked_confined
  · exact .ret

theorem setPrototypeOf_confined {target prototype : Value} : (s.setPrototypeOf target prototype).Confined o K := by
  unfold setPrototypeOf
  split
  · split
    · refine .look fun _ _ => ?_
      split
      · exact throwType_yields
      · exact edit_confined
    · exact edit_confined
    · exact throwType_yields
  · exact throwType_yields

theorem evaluate_confined {source resource : String} : (s.evaluate source resource).Confined o K := by
  unfold evaluate
  refine .look fun _ _ => ?_
  split
  · exact throwNew_yields
  · refine .look fun _ _ => ?_
    split
    · exact throwRange_yields
    · have ends {result : Except Thrown Value} {K' : Roster} :
          (do track (endValue result); ofExcept result : Routine Thrown Value).Confined o K' :=
        .bind track_confined fun _ _ _ _ => ofExcept_confined
      refine .bind (.perform trivial) fun _ _ _ _ => .inFrame ?_
      split
      · exact .bind (.job trivial) fun _ _ _ _ => ends
      · exact .bind .ret fun _ _ _ _ => ends

/-! ## Bridged functions -/

theorem checkArity_yields {name : String} {expected got : Nat} :
    (checkArity name expected got).Yields o K fun _ _ => expected = got := by
  unfold checkArity
  split
  · exact .pure ‹_›
  · exact .throw

/-- A method runs on objects of its class. -/
theorem instanceReceiver_yields {method : ExportedMethod} {cls : Class} {this : Value} (has : K.Has cls) :
    (instanceReceiver method cls this).Yields o K fun K' receiver =>
      ∀ h, receiver = some h → K'.Holds h ∧ cls ∈ h.cls.ancestors := by
  unfold instanceReceiver
  refine .look fun m known => ?_
  split
  · exact .pure nofun
  · rename_i live
    split
    · rename_i sub
      refine .pure fun h' same => ?_
      obtain rfl := Option.some.inj same
      exact ⟨known.live live, (known.live live).has.mem_ancestors has sub⟩
    · exact .throw
  · exact .throw

/-- A class method runs on its class, or on one below it. -/
theorem classReceiver_yields {cls : Class} {this : Value} (has : K.Has cls) :
    (s.classReceiver cls this).Yields o K fun K' c => K'.Has c ∧ cls ∈ c.ancestors := by
  unfold classReceiver
  refine .look fun m known => ?_
  split
  · rename_i c found
    obtain ⟨r, -, found⟩ := Option.bind_eq_some_iff.1 found
    obtain ⟨t, listed, found⟩ := Option.bind_eq_some_iff.1 found
    obtain rfl := Option.some.inj found
    have below : K.Has t.cls := (known.template (List.mem_of_find?_eq_some listed)).has
    refine .pure ?_
    split
    · rename_i sub
      exact ⟨below, below.mem_ancestors has sub⟩
    · exact ⟨has, cls.mem_ancestors_self⟩
  · exact .pure ⟨has, cls.mem_ancestors_self⟩

theorem implemented_yields {cls : Class} {selector : Selector} {found : Option Program.Body} :
    (implemented cls selector found).Yields o K fun _ body => found = some body := by
  unfold implemented
  split
  · exact .pure rfl
  · exact .throw

/-- A body that may be run with so many arguments as there are. -/
theorem dispatch_confined {signature : Signature} {body : Program.Body} {receiver : Receiver} {args : List Value}
    (count : signature.arity = args.length) (serves : K.Serves receiver)
    (invoked : ∀ converted : List NativeValue, converted.length = args.length → Invoked body converted o receiver) :
    (s.dispatch signature body receiver args).Confined o K := by
  refine .bind (arguments_yields objectReading_yields) fun converted K₁ le ends => ?_
  have length : converted.length = args.length := by
    have length := ends.1
    rw [show signature.args.length = args.length from count, Nat.min_self] at length
    exact length
  refine .bind (runNative_yields (invoked _ length) (serves.mono le) ends.2) fun v K₂ _ knows => ?_
  exact .bind .hold fun _ K₃ le _ => resultOf_confined (knows.mono le)

/-- An offered operation takes as many arguments as its selector says. -/
theorem offered_arity {c : Class} {method : ExportedMethod} {kind : MethodKind} {count : Nat} (has : K.Has c)
    (offers : c.Offers kind method) (arity : method.signature.arity = count) : method.selector.arity = count :=
  ((K.fits c has).arity offers).symm.trans arity

theorem methodCall_confined {method : ExportedMethod} {cls : Class} {i : Invocation} (has : K.Has cls)
    (offers : cls.Offers .onInstance method) : (s.methodCall method cls i).Confined o K := by
  refine .bind checkArity_yields fun _ K₁ le₁ count => .bind checkSignature_confined fun _ K₂ le₂ _ => ?_
  refine .bind (instanceReceiver_yields ((has.mono le₁).mono le₂)) fun receiver K₃ _ ends => ?_
  cases receiver with
  | none => exact .ret
  | some h =>
    obtain ⟨holds, below⟩ := ends h rfl
    have offers : h.cls.Offers .onInstance method := offers.mono below
    refine .bind implemented_yields fun body K₄ le₄ runs => .holding ?_
    refine dispatch_confined count (holds.mono le₄) fun converted length => .onInstance runs ?_
    rw [length, ← offered_arity holds.has offers count]
    exact offers.grants

theorem classMethodCall_confined {method : ExportedMethod} {cls : Class} {context : Nat} {i : Invocation}
    (has : K.Has cls) (offers : cls.Offers .onClass method) :
    (s.classMethodCall method cls i).Confined (some ⟨_, .call (.classMethod method cls) context i⟩) K := by
  refine .bind checkArity_yields fun _ K₁ le₁ count => .bind checkSignature_confined fun _ K₂ le₂ _ => ?_
  refine .bind (classReceiver_yields ((has.mono le₁).mono le₂)) fun c K₃ _ ends => ?_
  have offers : c.Offers .onClass method := offers.mono ends.2
  refine .bind implemented_yields fun body K₄ le₄ runs => .holding ?_
  refine dispatch_confined count (ends.1.mono le₄) fun converted length => .onClass runs ?_
  rw [length, ← offered_arity ends.1 offers count]
  exact offers.grants

theorem closureCall_confined {c : Closure} {context : Nat} {i : Invocation} :
    (s.closureCall c i).Confined (some ⟨_, .call (.closure c) context i⟩) K :=
  .bind checkArity_yields fun _ _ _ count =>
    .holding (dispatch_confined count trivial fun _ length => .closure rfl (length.trans count.symm))

/-- A new native object joins the roster. -/
theorem addNative_yields {native : NativeObject} (has : K.Has native.cls) (knows : ∀ e ∈ native.cells, K.Knows e.2) :
    (perform (.addNative native) : Routine ε Nat).Yields o K fun K' serial => K'.Holds ⟨serial, native.cls⟩ :=
  fun _ known => ⟨K.enlist native.cls, Roster.le_enlist, known.addNative knows, known.holds_addNative has⟩

theorem instantiate_yields {cls : Class} (has : K.Has cls) :
    (instantiate cls).Yields o K fun K' made => ∀ h, made = some h → K'.Holds h := by
  unfold instantiate
  split
  · exact .bind (.job has) fun h K₁ _ gives => .pure fun h' same => Option.some.inj same ▸ gives
  · exact .pure nofun

theorem selfMade_yields {cls : Class} {arity : Nat} {made : Option Handle} (holds : ∀ h, made = some h → K.Holds h) :
    (selfMade cls arity made).YieldsKnown o K := by
  cases made with
  | none => exact .throw
  | some h => exact .pure (Roster.knows_object.2 (holds h rfl))

theorem newInstance_yields {cls : Class} {table : ExportTable} {context : Nat} {i : Invocation} {args : List Value}
    (has : K.Has cls) (of : table.Of cls) :
    (s.newInstance cls table args).YieldsKnown (some ⟨_, .call (.constructor cls table) context i⟩) K := by
  unfold newInstance
  split
  · rename_i method found
    have count : method.signature.arity = args.length := by simpa using List.find?_some found
    have offers := of.initializers method (List.mem_of_find?_eq_some found)
    refine .bind checkSignature_confined fun _ K₁ le₁ _ => .bind implemented_yields fun body K₂ le₂ runs => ?_
    refine .bind (arguments_yields objectReading_yields) fun converted K₃ le₃ ends => ?_
    have has₃ : K₃.Has cls := ((has.mono le₁).mono le₂).mono le₃
    refine runNative_yields (.initializer runs ?_) has₃ ends.2
    rw [ends.1, show method.signature.args.length = args.length from count, Nat.min_self,
      ← offered_arity has offers count]
    exact offers.grants
  · split
    · exact .bind (instantiate_yields has) fun _ _ _ made => selfMade_yields made
    · exact .bind (.pure nofun) fun _ _ _ made => selfMade_yields made

theorem constructorCall_confined {cls : Class} {table : ExportTable} {context : Nat} {i : Invocation} (has : K.Has cls)
    (of : table.Of cls) :
    (s.constructorCall cls table i).Confined (some ⟨_, .call (.constructor cls table) context i⟩) K := by
  unfold constructorCall
  split
  · exact .throw
  · refine .bind (.holding (newInstance_yields has of)) fun v K₁ _ knows => ?_
    split
    · exact wrapperFor_confined (Roster.knows_object.1 knows)
    · exact .throw

/-! ## Built-in functions -/

theorem fieldOr_confined {fields : List Value} {i default : Nat} : (s.fieldOr fields i default).Confined o K := by
  unfold fieldOr
  split
  · exact numberOf_confined
  · exact .ret

theorem fieldsTime_confined {fields : List Value} : (s.fieldsTime fields).Confined o K := by
  unfold fieldsTime
  refine .bind numberOf_confined fun _ _ _ _ => .bind fieldOr_confined fun _ _ _ _ => ?_
  refine .bind fieldOr_confined fun _ _ _ _ => .bind fieldOr_confined fun _ _ _ _ => ?_
  refine .bind fieldOr_confined fun _ _ _ _ => .bind fieldOr_confined fun _ _ _ _ => ?_
  refine .bind fieldOr_confined fun _ _ _ _ => ?_
  dsimp only
  split
  · exact .ret
  · split
    · exact .ret
    · exact .ret

theorem dateTime_confined {args : List Value} : (s.dateTime args).Confined o K := by
  unfold dateTime
  split
  · exact .look fun _ _ => .ret
  · exact .ret
  · exact numberOf_confined
  · exact fieldsTime_confined

theorem textOr_confined {default : String} {v : Value} : (s.textOr default v).Confined o K := by
  unfold textOr
  split
  · exact .ret
  · exact textOf_confined

theorem construction_confined {b : Builtin} {i : Invocation} : (s.construction b i).Confined o K := by
  unfold construction
  cases b with
  | object =>
    dsimp only
    split
    · exact .ret
    · exact newObject_confined
  | array =>
    dsimp only
    split
    · split
      · exact newArray_confined
      · exact throwRange_yields
    · exact newArray_confined
  | error kind => exact .bind textOr_confined fun _ _ _ _ => newError_confined
  | date => exact .bind dateTime_confined fun _ _ _ _ => newDate_confined
  | regexp => exact .bind textOr_confined fun _ _ _ _ => .bind textOr_confined fun _ _ _ _ => newRegexp_confined
  | buffer =>
    refine .bind numberOf_confined fun x _ _ _ => ?_
    split
    · exact newBuffer_confined
    · exact throwRange_yields

/-! ## Operations of native code -/

/-- An operation whose result is not known to be anything. -/
theorem settled {empty : α} {r : Routine Fault α} (h : r.Confined o K) : (s.settle empty r).Confined o K :=
  settle_yields h fun _ => trivial

theorem wrap_confined {v : NativeValue} (knows : K.Knows v) : (s.wrap v).Confined o K :=
  settled (toScript_confined knows)

theorem unwrap_yields {v : Value} {shape : UnwrapShape} : (s.unwrap v shape).YieldsKnown o K :=
  settle_yields (.holding toNativeAs_yields) fun _ => .plain rfl

theorem toObjectOfClass_yields {v : Value} {cls : Class} :
    (toObjectOfClass v cls : Routine ε NativeValue).YieldsKnown o K := by
  unfold toObjectOfClass
  refine .look fun m known => ?_
  split
  · rename_i behind
    refine .pure ?_
    split
    · exact Roster.knows_object.2 (known.nativeBehind behind)
    · exact .plain rfl
  · exact plain rfl

theorem toNumber_confined {v : Value} : (s.toNumber v : Routine ε NativeValue).Confined o K := by
  unfold toNumber
  split
  · exact .ret
  · exact .bind numberOf_confined fun _ _ _ _ => .ret

theorem toDate_confined {v : Value} : (toDate v : Routine ε NativeValue).Confined o K := by
  unfold toDate
  refine .look fun _ _ => ?_
  split
  · exact .ret
  · exact .ret
  · exact .ret

theorem property_confined {target : Value} {key : String} : (s.property target key).Confined o K :=
  settled (lift_yields get_confined)

theorem setProperty_confined {target : Value} {key : String} {v : NativeValue} (knows : K.Knows v) :
    (s.setProperty target key v).Confined o K :=
  settled (.bind (toScript_confined knows) fun _ _ _ _ => lift_yields set_confined)

theorem deleteProperty_confined {target : Value} {key : String} : (s.deleteProperty target key).Confined o K :=
  settled (lift_yields delete_confined)

theorem hasProperty_confined {target : Value} {key : String} : (s.hasProperty target key).Confined o K :=
  settled (lift_yields has_confined)

theorem valueAt_confined {target : Value} {index : Nat} : (s.valueAt target index).Confined o K :=
  settled (lift_yields getIndex_confined)

theorem setValueAt_confined {target : Value} {index : Nat} {v : NativeValue} (knows : K.Knows v) :
    (s.setValueAt target index v).Confined o K :=
  settled (.bind (toScript_confined knows) fun _ _ _ _ => lift_yields setIndex_confined)

theorem descriptorEntry_confined {d : NativeValue} {name : String} (knows : K.Knows d) :
    (s.descriptorEntry d name).Confined o K := by
  unfold descriptorEntry
  split
  · rename_i found
    exact .map (toScript_confined (knows.get? found))
  · exact .ret

theorem defineWith_confined {target : Value} {key : String} {d : NativeValue} (knows : K.Knows d) :
    (s.defineWith target key d).Confined o K := by
  refine settled ?_
  dsimp only
  split
  · refine .bind (descriptorEntry_confined knows) fun _ K₁ le _ => ?_
    refine .bind (descriptorEntry_confined (knows.mono le)) fun _ _ _ _ => ?_
    exact .bind .ret fun _ _ _ _ => lift_yields define_confined
  · refine .bind (descriptorEntry_confined knows) fun _ _ _ _ => ?_
    exact .bind .ret fun _ _ _ _ => lift_yields define_confined

theorem toScripts_confined {vs : List NativeValue} (knows : ∀ v ∈ vs, K.Knows v) : (s.toScripts vs).Confined o K :=
  .mapMConfined fun v mem _ le => toScript_confined ((knows v mem).mono le)

theorem callWith_confined {f : Value} {args : List NativeValue} (knows : ∀ v ∈ args, K.Knows v) :
    (s.callWith f args).Confined o K :=
  settled (.bind (toScripts_confined knows) fun _ _ _ _ => lift_yields call_confined)

theorem constructWith_confined {f : Value} {args : List NativeValue} (knows : ∀ v ∈ args, K.Knows v) :
    (s.constructWith f args).Confined o K :=
  settled (.bind (toScripts_confined knows) fun _ _ _ _ => lift_yields construct_confined)

theorem invokeMethod_confined {target : Value} {name : String} {args : List NativeValue}
    (knows : ∀ v ∈ args, K.Knows v) : (s.invokeMethod target name args).Confined o K := by
  refine settled (.bind (toScripts_confined knows) fun _ _ _ _ => .bind (lift_yields get_confined) fun _ _ _ _ => ?_)
  exact lift_yields call_confined

theorem evaluateScript_confined {source resource : String} : (s.evaluateScript source resource).Confined o K := by
  unfold evaluateScript
  refine .look fun _ _ => ?_
  split
  · exact .throw
  · exact settled (lift_yields evaluate_confined)

theorem isInstanceOf_confined {v ctor : Value} : (s.isInstanceOf v ctor).Confined o K := by
  unfold isInstanceOf
  refine .look fun _ _ => .look fun _ _ => ?_
  split
  · exact .ret
  · exact settled (lift_yields instanceOf_confined)

/-! ## Operations on contexts -/

section

variable {context : Nat}

theorem unwrapInRegion_yields {r : Scope → Routine BridgeError Value} (h : (r ⟨context⟩).Confined o K) :
    (unwrapInRegion context r).YieldsKnown o K := by
  refine .holding (.inRegion (.bind h fun _ _ _ _ => .bind unwrap_yields fun v K₁ _ knows => ?_))
  exact .bind .hold fun _ _ le _ => .pure (knows.mono le)

theorem contextGet_yields {key : String} : (contextGet context key).YieldsKnown o K :=
  unwrapInRegion_yields (.bind global_confined fun _ _ _ _ => property_confined)

theorem contextSet_confined {key : String} {v : NativeValue} (knows : K.Knows v) :
    (contextSet context key v).Confined o K :=
  .inRegion (.bind global_confined fun _ _ le _ => setProperty_confined (knows.mono le))

theorem contextEvaluate_yields {source resource : String} : (contextEvaluate context source resource).YieldsKnown o K :=
  unwrapInRegion_yields evaluateScript_confined

theorem globalObject_confined : (globalObject context : Routine ε Nat).Confined o K :=
  .inRegion (.bind global_confined fun _ _ _ _ => .perform trivial)

theorem setClass_confined {name : String} {cls : Class} (has : K.Has cls) : (setClass context name cls).Confined o K :=
  .inRegion (settled (.bind (templateFor_yields cls K has) fun _ _ _ _ => .look fun _ _ => edit_confined))

end

end Scope

/-! ## New contexts -/

section

variable {ε : Type} {o : Option AnyJob} {K : Roster}

theorem newOrdinary_confined {prototype : Option Ref} : (newOrdinary prototype : Routine ε Ref).Confined o K :=
  Scope.store_confined List.nodup_nil rfl rfl

theorem installBuiltin_confined {context : Nat} {i : Intrinsics} {global : Ref} {b : Builtin} {prototype : Ref} :
    (installBuiltin context i global b prototype : Routine ε Unit).Confined o K := by
  have builtin : Object.Known K ⟨.function ⟨b.name, .builtin b, context⟩, [("prototype", .fixed (.object prototype))],
      some i.function⟩ :=
    ⟨List.nodup_singleton _, fun f hf => Option.some.inj hf ▸ trivial, nofun, nofun⟩
  refine .bind (.perform builtin) fun ctor _ _ _ => ?_
  exact .bind Scope.edit_confined fun _ _ _ _ => Scope.edit_confined

theorem newContext_confined : (newContext : Routine ε Nat).Confined o K := by
  unfold newContext
  refine .look fun _ _ => .bind newOrdinary_confined fun object _ _ _ => ?_
  refine .bind newOrdinary_confined fun function _ _ _ => .bind newOrdinary_confined fun array _ _ _ => ?_
  refine .bind newOrdinary_confined fun error _ _ _ => .bind newOrdinary_confined fun typeError _ _ _ => ?_
  refine .bind newOrdinary_confined fun rangeError _ _ _ => .bind newOrdinary_confined fun date _ _ _ => ?_
  refine .bind newOrdinary_confined fun regexp _ _ _ => .bind newOrdinary_confined fun buffer _ _ _ => ?_
  refine .bind newOrdinary_confined fun global _ _ _ => ?_
  refine .bind (.forM fun kind _ _ _ => ?_) fun _ _ _ _ => ?_
  · exact .bind Scope.edit_confined fun _ _ _ _ => Scope.edit_confined
  refine .bind (.forM fun b _ _ _ => installBuiltin_confined) fun _ _ _ _ => ?_
  exact .bind Scope.edit_confined fun _ _ _ _ => .perform rfl

end

end ScriptBridge
