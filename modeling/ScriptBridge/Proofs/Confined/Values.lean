import ScriptBridge.Proofs.Confined.Rules
import ScriptBridge.Scope.Write

/-!
# Making, calling and reading values

Functions are made for what is known, and what a machine calls is known (`Machine.Known.callable`). So
making, calling and reading values is confined, whatever runs on the way.

Proof-only: not reachable from `ScriptBridge.Session.Run`.
-/

namespace ScriptBridge

/-- What a function of a known machine does is known. -/
theorem Machine.Known.callable {m : Machine} {K : Roster} {v : Value} {found : Ref × FunctionData} (known : m.Known K)
    (function : m.function? v = some found) : found.2.callable.Known K := by
  obtain ⟨r, ref, function⟩ := Option.bind_eq_some_iff.1 function
  obtain ⟨o, ho, function⟩ := Option.bind_eq_some_iff.1 function
  obtain ⟨f, hf, pair⟩ := Option.bind_eq_some_iff.1 function
  obtain rfl := Option.some.inj pair
  exact (known.objects r o ho).function f hf

namespace Scope

open Routine

variable {ε α : Type} {s : Scope} {o : Option AnyJob} {K : Roster} {Q : Roster → α → Prop}

/-! ## Factories -/

theorem track_confined {v : Value} : (track v : Routine ε Unit).Confined o K := .perform trivial

theorem edit_confined {r : Ref} {e : Edit} : (edit r e : Routine ε Unit).Confined o K := .perform trivial

/-- Hands out a value after recording it. -/
theorem tracked_confined {v : Value} {a : α} : (do track v; return a : Routine ε α).Confined o K :=
  .bind track_confined fun _ _ _ _ => .ret

/-- An object that is no function and no wrapper. -/
theorem store_confined {ob : Object} (keys : (ob.properties.map (·.1)).Nodup) (function : ob.function? = none)
    (wrapper : ob.wrapper? = none) : (perform (.allocate ob) : Routine ε Ref).Confined o K :=
  .perform (Object.Known.plain keys function wrapper)

theorem allocate_confined {ob : Object} (keys : (ob.properties.map (·.1)).Nodup) (function : ob.function? = none)
    (wrapper : ob.wrapper? = none) : (allocate ob : Routine ε Value).Confined o K :=
  .bind (store_confined keys function wrapper) fun _ _ _ _ => .ret

/-- An object without properties. -/
theorem allocate_bare {p : Payload} {prototype : Option Ref} (function : (⟨p, [], prototype⟩ : Object).function? = none)
    (wrapper : (⟨p, [], prototype⟩ : Object).wrapper? = none) :
    (allocate ⟨p, [], prototype⟩ : Routine ε Value).Confined o K := allocate_confined List.nodup_nil function wrapper

theorem global_confined : (s.global : Routine ε Value).Confined o K := .look fun _ _ => tracked_confined

theorem newObject_confined : (s.newObject : Routine ε Value).Confined o K := .look fun _ _ => allocate_bare rfl rfl

theorem newArray_confined {items : Array Value} : (s.newArray items : Routine ε Value).Confined o K :=
  .look fun _ _ => allocate_bare rfl rfl

theorem newError_confined {kind : Program.ErrorKind} {message : String} :
    (s.newError kind message : Routine ε Value).Confined o K :=
  .look fun _ _ => .look fun _ _ => allocate_confined (List.nodup_singleton _) rfl rfl

theorem newNativeError_confined {e : NativeException} : (s.newNativeError e : Routine ε Value).Confined o K :=
  .look fun _ _ => .look fun _ _ => allocate_confined (by simp) rfl rfl

theorem newDate_confined {millis : Double} {nanos : Nat} : (s.newDate millis nanos : Routine ε Value).Confined o K := by
  unfold newDate
  dsimp only
  split
  · exact .look fun _ _ => allocate_bare rfl rfl
  · exact .look fun _ _ => allocate_bare rfl rfl

theorem newRegexp_confined {pattern flags : String} : (s.newRegexp pattern flags : Routine ε Value).Confined o K :=
  .look fun _ _ => allocate_bare rfl rfl

theorem newBuffer_confined {bytes : ByteArray} : (s.newBuffer bytes : Routine ε Value).Confined o K :=
  .look fun _ _ => allocate_bare rfl rfl

/-- A function object is known if what it does is. -/
theorem known_functionObject {above : Ref} {f : FunctionData} {prototype : Option Ref} (known : f.callable.Known K) :
    (functionObject above f prototype).Known K where
  keys := by cases prototype <;> simp [functionObject]
  function f' hf := Option.some.inj hf ▸ known
  wrapper := nofun
  exports := nofun

theorem newFunctionWith_confined {name : String} {f : Callable} {prototype above : Option Ref} (known : f.Known K) :
    (s.newFunctionWith name f prototype above : Routine ε Ref).Confined o K := by
  unfold newFunctionWith
  refine .look fun _ _ => .bind (.perform (known_functionObject known)) fun r _ _ _ => ?_
  split
  · exact .bind edit_confined fun _ _ _ _ => .ret
  · exact .ret

theorem newFunction_confined {name : String} {f : Callable} (known : f.Known K) :
    (s.newFunction name f : Routine ε Value).Confined o K := by
  unfold newFunction
  split
  · refine .look fun _ _ => .bind (store_confined List.nodup_nil rfl rfl) fun p K₁ le _ => ?_
    exact .bind (newFunctionWith_confined (known.mono le)) fun _ _ _ _ => .ret
  · exact .bind (newFunctionWith_confined known) fun _ _ _ _ => .ret

/-! ## Throwing -/

theorem throwNew_yields {kind : Program.ErrorKind} {message : String} :
    (s.throwNew kind message : Routine Thrown α).Yields o K Q := .bind newError_confined fun _ _ _ _ => .throw

theorem throwType_yields {message : String} : (s.throwType message : Routine Thrown α).Yields o K Q := throwNew_yields

theorem throwRange_yields {message : String} : (s.throwRange message : Routine Thrown α).Yields o K Q := throwNew_yields

theorem throwValue_yields {v : Value} : (throwValue v : Routine Thrown α).Yields o K Q :=
  .bind track_confined fun _ _ _ _ => .throw

/-! ## Calls -/

theorem ofExcept_confined {result : Except ε α} : (ofExcept result).Confined o K := by
  cases result with
  | ok a => exact .ret
  | error e => exact .throw

/-- A call of what is known. -/
theorem invoke_confined {callee : Ref} {f : FunctionData} {this : Value} {args : List Value} {construct : Bool}
    (known : f.callable.Known K) : (s.invoke callee f this args construct).Confined o K := by
  unfold invoke
  refine .look fun _ _ => ?_
  split
  · exact throwRange_yields
  · refine .look fun _ _ => .inCall (.bind (.inRegion (.job known)) fun result _ _ _ => ?_)
    exact .bind track_confined fun _ _ _ _ => ofExcept_confined

theorem currentThis_confined : (currentThis : Routine ε Value).Confined o K := .look fun _ _ => tracked_confined

theorem currentCallee_confined : (currentCallee : Routine ε (Option Value)).Confined o K := by
  unfold currentCallee
  refine .look fun _ _ => ?_
  split
  · exact tracked_confined
  · exact .ret

theorem currentArguments_confined : (currentArguments : Routine ε (List Value)).Confined o K :=
  .look fun _ _ => .bind (.forM fun _ _ _ _ => track_confined) fun _ _ _ _ => .ret

theorem callAccessor_confined {r : Ref} {this : Value} {args : List Value} :
    (s.callAccessor r this args).Confined o K := by
  unfold callAccessor
  refine .look fun m known => ?_
  split
  · rename_i found
    exact invoke_confined (known.callable found)
  · exact throwType_yields

theorem getOrdinary_confined {holder : Ref} {receiver : Value} {key : String} :
    (s.getOrdinary holder receiver key).Confined o K := by
  unfold getOrdinary
  refine .look fun _ _ => ?_
  split
  · exact tracked_confined
  · exact callAccessor_confined
  · exact .ret
  · exact .ret

/-! ## Coercions -/

theorem errorField_confined {r : Ref} {key : String} : (s.errorField r key : Routine ε String).Confined o K := by
  unfold errorField
  refine .bind getOrdinary_confined.attempt fun result _ _ _ => ?_
  cases result with
  | ok v => exact .ret
  | error t => exact .ret

theorem textAt_confined {room : Nat} {v : Value} : (s.textAt room v : Routine ε String).Confined o K := by
  induction room generalizing K v with
  | zero =>
    unfold textAt
    split
    · refine .look fun _ _ => ?_
      split <;> try exact .ret
      exact .bind errorField_confined fun _ _ _ _ => .bind errorField_confined fun _ _ _ _ => .ret
    · exact .ret
  | succ n ih =>
    unfold textAt
    split
    · refine .look fun _ _ => ?_
      split <;> try exact .ret
      · refine .bind (.mapMConfined fun item _ _ _ => ?_) fun _ _ _ _ => .ret
        split
        · exact .ret
        · exact ih
      · exact .bind errorField_confined fun _ _ _ _ => .bind errorField_confined fun _ _ _ _ => .ret
    · exact .ret

theorem textOf_confined {v : Value} : (s.textOf v : Routine ε String).Confined o K := textAt_confined

theorem numberOf_confined {v : Value} : (s.numberOf v : Routine ε Double).Confined o K := by
  unfold numberOf
  split
  · exact .ret
  · refine .look fun _ _ => ?_
    split
    · exact .ret
    · exact .bind textOf_confined fun _ _ _ _ => .ret

theorem primitiveOf_confined {v : Value} : (s.primitiveOf v : Routine ε Value).Confined o K := by
  unfold primitiveOf
  refine .look fun _ _ => ?_
  split
  · exact .bind numberOf_confined fun _ _ _ _ => .ret
  · exact .bind textOf_confined fun _ _ _ _ => .ret

theorem looselyEqual_confined {a b : Value} : (s.looselyEqual a b : Routine ε Bool).Confined o K := by
  unfold looselyEqual
  split
  · exact .ret
  · split
    · exact .ret
    · exact .bind primitiveOf_confined fun _ _ _ _ => .ret
    · exact .bind primitiveOf_confined fun _ _ _ _ => .ret
    · exact .ret

/-! ## Writing and calling -/

theorem writeOwn_confined {holder : Ref} {key : String} {v : Value} : (s.writeOwn holder key v).Confined o K := by
  unfold writeOwn
  refine .look fun _ _ => ?_
  split
  · split
    · refine .bind numberOf_confined fun _ _ _ _ => ?_
      split
      · exact edit_confined
      · exact throwRange_yields
    · split
      · split
        · exact throwRange_yields
        · exact edit_confined
      · exact edit_confined
  · exact edit_confined

theorem setOrdinary_confined {holder : Ref} {receiver : Value} {key : String} {v : Value} :
    (s.setOrdinary holder receiver key v).Confined o K := by
  unfold setOrdinary
  refine .look fun _ _ => ?_
  split
  · exact writeOwn_confined
  · exact .bind callAccessor_confined fun _ _ _ _ => .ret
  · exact .ret
  · exact .ret

theorem functionOf_yields {f : Value} : (s.functionOf f).Yields o K fun K' found => found.2.callable.Known K' := by
  unfold functionOf
  refine .look fun m known => ?_
  split
  · rename_i found
    exact .pure (known.callable found)
  · exact .bind textOf_confined fun _ _ _ _ => throwType_yields

theorem call_confined {f this : Value} {args : List Value} : (s.call f this args).Confined o K :=
  .bind functionOf_yields fun _ _ _ known => invoke_confined known

theorem construct_confined {f : Value} {args : List Value} : (s.construct f args).Confined o K := by
  unfold construct
  refine .bind functionOf_yields fun found K₁ _ known => ?_
  obtain ⟨callee, data⟩ := found
  dsimp only
  split
  · exact throwType_yields
  · refine .bind getOrdinary_confined fun prototype K₂ le _ => ?_
    have make {prototype : Ref} : (do
        let this ← allocate ⟨.ordinary, [], some prototype⟩
        let result ← s.invoke callee data this args true
        return if result.isObject then result else this : Routine Thrown Value).Confined o K₂ := by
      refine .bind (allocate_bare rfl rfl) fun this K₃ le' _ => ?_
      exact .bind (invoke_confined ((known.mono le).mono le')) fun _ _ _ _ => .ret
    split
    · exact make
    · exact .look fun _ _ => make

theorem instanceOf_confined {v ctor : Value} : (s.instanceOf v ctor).Confined o K := by
  unfold instanceOf
  refine .look fun _ _ => ?_
  split
  · exact throwType_yields
  · refine .bind getOrdinary_confined fun prototype _ _ _ => ?_
    split
    · split
      · exact .read fun _ _ => trivial
      · exact .ret
    · exact throwType_yields

end Scope

end ScriptBridge
