import ScriptBridge.Proofs.Tidy.Rules
import ScriptBridge.Scope.Write

/-!
# Making, calling and reading values

The factories of a scope hand out recorded objects, and so do calls and reads: `Scope.invoke` records
what a function gives or throws in the region of the caller, once the region of the function is closed.

Proof-only: not reachable from `ScriptBridge.Session.Run`.
-/

namespace ScriptBridge

/-- In a scope the routine keeps order from the machine on, perhaps with the position of the innermost frame,
and its result is recorded. -/
abbrev Routine.HandsOutAs {ε : Type} [Carries ε] (still : Bool) (r : Routine ε Value) (s : Option Scope)
    (m : Machine) : Prop := r.GivesAs still s m fun v m' => m'.Recorded v

/-- In a scope the routine keeps order from the machine on, and its result is recorded. -/
abbrev Routine.HandsOut {ε : Type} [Carries ε] (r : Routine ε Value) (s : Option Scope) (m : Machine) : Prop :=
  r.HandsOutAs false s m

/-- A new function was stored. Its prototype leads back to it, and nothing else became of objects and contexts. -/
structure Machine.StoresFunction (m : Machine) (f : FunctionData) (prototype : Option Ref) (r : Ref) (m' : Machine) :
    Prop where
  new : m.object? r = none
  there : ∃ above, m'.object? r = some (Scope.functionObject above f prototype)
  gains : m.Gains (fun q name => prototype = some q ∧ name = "constructor") m'

theorem Machine.StoresFunction.does {m m' : Machine} {f : FunctionData} {prototype : Option Ref} {r : Ref}
    (stores : m.StoresFunction f prototype r m') : m'.Does (.object r) f.callable := by
  obtain ⟨above, there⟩ := stores.there
  exact ⟨r, _, f, rfl, there, rfl, rfl⟩

namespace Scope

open Routine

variable {ε : Type} [Carries ε] {still : Bool} {s : Scope} {o : Option Scope} {m : Machine}

theorem recorded_same (v : Value) (m m' : Machine) (regions : m'.regions = m.regions) (h : m.Recorded v) :
    m'.Recorded v := h.of_regions regions

/-! ## Factories -/

/-- What is recorded in an open region is kept by it. -/
theorem recorded_keep {r : Ref} (inside : m.Inside (some s)) {m' : Machine}
    (regions : m'.regions = m.regions.modifyHead (Region.keep [r])) : m'.Recorded (.object r) := by
  rintro q ⟨⟩
  obtain ⟨_, mem, -⟩ := inside.1 s rfl
  rw [regions]
  cases hm : m.regions with
  | nil => simp [hm] at mem
  | cons region rest => exact ⟨_, rfl, List.mem_cons_self⟩

theorem track_gives {v : Value} : (track v : Routine ε Unit).GivesAs still (some s) m fun _ m' => m'.Recorded v := by
  cases v with
  | undefined | null | bool | number | text =>
    exact .perform ⟨trivial, trivial⟩ (.refl m) (Machine.recorded_of_not_object rfl)
  | object r =>
    have run : (Action.run (.track (.object r)) m).2 = m.record r := rfl
    intro settled inside
    refine GivesAs.perform (s := some s) ⟨trivial, trivial⟩ (m.kept_record r) ?_ settled inside
    rw [run, Machine.record_eq]
    exact recorded_keep inside rfl

theorem track_tidy {v : Value} : (track v : Routine ε Unit).TidyAs still o m := by
  cases v with
  | undefined | null | bool | number | text => exact .perform ⟨trivial, trivial⟩ (.refl m) trivial
  | object r => exact .perform ⟨trivial, trivial⟩ (m.kept_record r) trivial

/-- Hands out a value after recording it. -/
theorem tracked {v : Value} {α : Type} {a : α} {Q : α → Machine → Prop} (h : ∀ m', m'.Recorded v → Q a m') :
    (do track v; return a : Routine ε α).GivesAs still (some s) m Q :=
  .bind track_gives fun _ m₁ _ recorded => .pure (h m₁ recorded)

theorem edit_tidy {r : Ref} {e : Edit} (respects : m.Respects r e) (fits : m.Fits r e) :
    (edit r e : Routine ε Unit).TidyAs still o m :=
  .aside ⟨trivial, .inl respects, fits⟩ rfl

/-- A new object that stands for nothing. -/
theorem store_builds {ob : Object} (plain : ob.twin? = none) (blank : ob.isBlank = true) (framed : ob.FramedIn m) :
    (perform (.allocate ob) : Routine ε Ref).GivesAs still o m fun r m' => m.Stores r ob m' :=
  fun settled => GivesAs.perform (s := o) ⟨plain, blank, framed⟩ (m.kept_allocate ob)
    (Machine.stores_allocate settled.heap ob) settled

/-- The reference of a new object that stands for nothing is recorded. -/
theorem store_gives {ob : Object} (plain : ob.twin? = none) (blank : ob.isBlank = true) (framed : ob.FramedIn m) :
    (perform (.allocate ob) : Routine ε Ref).GivesAs still (some s) m fun r m' =>
      m'.Recorded (.object r) ∧ m.Stores r ob m' := by
  have run : Action.run (.allocate ob) m = m.allocate ob := rfl
  intro settled inside
  have stores := Machine.stores_allocate settled.heap ob
  refine GivesAs.perform (s := some s) ⟨plain, blank, framed⟩ (m.kept_allocate ob) ⟨?_, stores⟩ settled inside
  rw [run, Machine.allocate_eq]
  exact recorded_keep inside rfl

theorem allocate_gives {ob : Object} (plain : ob.twin? = none) (blank : ob.isBlank = true) (framed : ob.FramedIn m) :
    (allocate ob : Routine ε Value).HandsOutAs still (some s) m :=
  .bind (store_gives plain blank framed) fun _ _ _ stored => .pure stored.1

theorem global_gives : (s.global : Routine ε Value).HandsOutAs still (some s) m :=
  .look (tracked fun _ h => h)

theorem newObject_gives : (s.newObject : Routine ε Value).HandsOutAs still (some s) m :=
  .look (allocate_gives rfl rfl nofun)

theorem newArray_gives {items : Array Value} : (s.newArray items : Routine ε Value).HandsOutAs still (some s) m :=
  .look (allocate_gives rfl rfl nofun)

theorem newError_gives {kind : Program.ErrorKind} {message : String} :
    (s.newError kind message : Routine ε Value).HandsOutAs still (some s) m :=
  .look (.look (allocate_gives rfl rfl fun _ same => (Option.some.inj same).symm))

theorem newNativeError_gives {e : NativeException} :
    (s.newNativeError e : Routine ε Value).HandsOutAs still (some s) m :=
  .look (.look (allocate_gives rfl rfl fun _ same => (Option.some.inj same).symm))

theorem newDate_gives {millis : Double} {nanos : Nat} :
    (s.newDate millis nanos : Routine ε Value).HandsOutAs still (some s) m := by
  unfold newDate
  dsimp only
  split
  · exact .look (allocate_gives rfl rfl nofun)
  · exact .look (allocate_gives rfl rfl nofun)

theorem newRegexp_gives {pattern flags : String} :
    (s.newRegexp pattern flags : Routine ε Value).HandsOutAs still (some s) m :=
  .look (allocate_gives rfl rfl nofun)

theorem newBuffer_gives {bytes : ByteArray} : (s.newBuffer bytes : Routine ε Value).HandsOutAs still (some s) m :=
  .look (allocate_gives rfl rfl nofun)

/-- Only the function of a closure stands for something. -/
theorem twin?_functionObject {above : Ref} {f : FunctionData} {prototype : Option Ref}
    (plain : ∀ c, f.callable ≠ .closure c) : (functionObject above f prototype).twin? = none := by
  obtain ⟨name, callable, context⟩ := f
  cases callable with
  | closure c => exact absurd rfl (plain c)
  | builtin | host | method | classMethod | constructor => rfl

theorem isBlank_functionObject {above : Ref} {f : FunctionData} {prototype : Option Ref} :
    (functionObject above f prototype).isBlank = true := by cases prototype <;> rfl

theorem newFunctionWith_gives {name : String} {f : Callable} {prototype above : Option Ref}
    (plain : ∀ c, f ≠ .closure c) (bare : ∀ p, prototype = some p → ∃ above, m.Bare p above) :
    (s.newFunctionWith name f prototype above : Routine ε Ref).GivesAs still (some s) m fun r m' =>
      m'.Recorded (.object r) ∧ m.StoresFunction ⟨name, f, s.context⟩ prototype r m' := by
  unfold newFunctionWith
  refine .look (.bind (store_gives (twin?_functionObject plain) isBlank_functionObject nofun) fun r m₁ _ stored => ?_)
  obtain ⟨recorded, stores⟩ := stored
  have there := stores.there
  have gains {names : Ref → String → Prop} : m.Gains names m₁ := stores.gains.mono fun _ _ => False.elim
  split
  · rename_i p
    obtain ⟨above, bare⟩ := bare p rfl
    have defines : (edit p (.define "constructor" (.hidden (.object r))) : Routine ε Unit).GivesAs still (some s) m₁
        fun _ m₂ => m₂ = { m₁ with heap := m₁.heap.edit p (.define "constructor" (.hidden (.object r))) } :=
      .perform ⟨trivial, .inl (bare.gains stores.gains).respects, Machine.fits_hidden⟩ (.of_order rfl) rfl
    refine .bind defines fun _ m₂ balanced same => .pure ⟨recorded.mono balanced, stores.new, ?_, ?_⟩
    · -- The function is new, so it is not its own prototype.
      have other : r ≠ p := by
        rintro rfl
        obtain ⟨_, there, -⟩ := bare
        exact absurd (stores.new.symm.trans there) nofun
      have stays : m₂.object? r = m₁.object? r := by
        rw [same, Machine.object?, Heap.get?_edit, if_neg other]
        rfl
      exact ⟨_, stays.trans there⟩
    · rw [same]
      exact gains.trans (Machine.gains_define _ ⟨rfl, rfl⟩)
  · exact .pure ⟨recorded, stores.new, ⟨_, there⟩, gains⟩

/-- A function that stands for nothing. What was there before stays as it is. -/
theorem newFunction_gives {name : String} {f : Callable} (plain : ∀ c, f ≠ .closure c) :
    (s.newFunction name f : Routine ε Value).GivesAs still (some s) m fun v m' =>
      m'.Recorded v ∧ m'.Does v f ∧ m.Gains (fun _ _ => False) m' := by
  unfold newFunction
  split
  · refine .look (.bind (store_gives rfl rfl nofun) fun p m₁ _ stored => ?_)
    obtain ⟨-, stores⟩ := stored
    have bare : ∀ q, some p = some q → ∃ above, m₁.Bare q above := fun q same => ⟨_, Option.some.inj same ▸ stores.bare⟩
    refine .bind (newFunctionWith_gives plain bare) fun r m₂ _ made => .pure ⟨made.1, made.2.does, ?_⟩
    refine ⟨made.2.gains.contexts.trans stores.gains.contexts, fun q ob there => ⟨ob, ?_, .none⟩⟩
    refine made.2.gains.object? (stores.gains.object? there fun _ => id) fun key gained => ?_
    obtain rfl := Option.some.inj gained.1
    exact absurd (stores.new.symm.trans there) nofun
  · refine .bind (newFunctionWith_gives plain nofun) fun r m₁ _ made => .pure ⟨made.1, made.2.does, ?_⟩
    exact made.2.gains.mono fun _ _ gained => nomatch gained.1

/-! ## Throwing -/

variable {α : Type} {Q : α → Machine → Prop}

theorem throw_gives {v : Value} (recorded : m.Recorded v) : (Routine.throw ⟨v⟩ : Routine Thrown α).GivesAs still o m Q :=
  .throw fun _ hw => Option.some.inj hw ▸ recorded

theorem throwNew_gives {kind : Program.ErrorKind} {message : String} :
    (s.throwNew kind message : Routine Thrown α).GivesAs still (some s) m Q :=
  .bind newError_gives fun _ _ _ recorded => throw_gives recorded

theorem throwType_gives {message : String} : (s.throwType message : Routine Thrown α).GivesAs still (some s) m Q :=
  throwNew_gives

theorem throwRange_gives {message : String} : (s.throwRange message : Routine Thrown α).GivesAs still (some s) m Q :=
  throwNew_gives

theorem throwValue_gives {v : Value} : (throwValue v : Routine Thrown α).GivesAs still (some s) m Q :=
  .bind track_gives fun _ _ _ recorded => throw_gives recorded

/-! ## Calls -/

/-- Hands out what a function gave, or throws what it threw, after recording it. -/
theorem trackEnd_gives {result : Except Thrown Value} :
    (do track (endValue result); ofExcept result : Routine Thrown Value).HandsOutAs still (some s) m := by
  refine .bind track_gives fun _ m₁ _ recorded => ?_
  cases result with
  | ok v => exact .pure recorded
  | error t => exact throw_gives recorded

theorem invoke_gives {callee : Ref} {f : FunctionData} {this : Value} {args : List Value} {construct : Bool} :
    (s.invoke callee f this args construct).HandsOutAs still (some s) m := by
  unfold invoke
  refine .look ?_
  split
  · exact throwRange_gives
  · rename_i room
    refine .look ?_
    intro settled inside
    -- The callee runs in its own context while that lives, else in that of the scope.
    have alive : m.contextAlive (if m.contextAlive f.context = true then f.context else s.context) = true := by
      split
      · assumption
      · exact inside.contextAlive
    have room : m.calls.height < m.options.maxCallDepth := by simpa using room
    exact GivesAs.inCall recorded_same alive ⟨rfl, room⟩ (fun _ _ => trackEnd_gives) settled inside

theorem currentThis_gives : (currentThis : Routine ε Value).HandsOutAs still (some s) m :=
  .look (tracked fun _ h => h)

theorem currentThis_tidy : (currentThis : Routine ε Value).TidyAs still o m :=
  .look (.bind track_tidy fun _ _ _ _ => .pure trivial)

theorem currentCallee_gives : (currentCallee : Routine ε (Option Value)).GivesAs still (some s) m
    fun v m' => ∀ w, v = some w → m'.Recorded w := by
  unfold currentCallee
  refine .look ?_
  split
  · exact tracked fun m' recorded w hw => Option.some.inj hw ▸ recorded
  · exact .pure fun w hw => nomatch hw

theorem currentCallee_tidy : (currentCallee : Routine ε (Option Value)).TidyAs still o m := by
  unfold currentCallee
  refine .look ?_
  split
  · exact .bind track_tidy fun _ _ _ _ => .ret
  · exact .ret

theorem trackAll_gives {vs : List Value} : (vs.forM track : Routine ε Unit).GivesAs still (some s) m
    fun _ m' => ∀ v ∈ vs, m'.Recorded v := by
  induction vs generalizing m with
  | nil => exact .pure fun v hv => nomatch hv
  | cons v vs ih =>
    refine .bind track_gives fun _ m₁ _ recorded => ih.imp fun _ m₂ balanced rest w hw => ?_
    rcases List.mem_cons.1 hw with rfl | hw
    · exact recorded.mono balanced
    · exact rest w hw

theorem currentArguments_gives : (currentArguments : Routine ε (List Value)).GivesAs still (some s) m
    fun vs m' => ∀ v ∈ vs, m'.Recorded v :=
  .look (.bind trackAll_gives fun _ _ _ recorded => .pure recorded)

theorem currentArguments_tidy : (currentArguments : Routine ε (List Value)).TidyAs still o m :=
  .look (.bind (.forM fun _ _ _ _ => track_tidy) fun _ _ _ _ => .ret)

theorem callAccessor_gives {r : Ref} {this : Value} {args : List Value} :
    (s.callAccessor r this args).HandsOutAs still (some s) m := by
  unfold callAccessor
  refine .look ?_
  split
  · exact invoke_gives
  · exact throwType_gives

theorem getOrdinary_gives {holder : Ref} {receiver : Value} {key : String} :
    (s.getOrdinary holder receiver key).HandsOutAs still (some s) m := by
  unfold getOrdinary
  refine .look ?_
  split
  · exact tracked fun _ h => h
  · exact callAccessor_gives
  · exact .pure (Machine.recorded_of_not_object rfl)
  · exact .pure (Machine.recorded_of_not_object rfl)

/-! ## Coercions -/

theorem errorField_tidy {r : Ref} {key : String} : (s.errorField r key : Routine ε String).TidyAs still (some s) m := by
  unfold errorField
  refine .bind (getOrdinary_gives.attempt) fun result _ _ _ => ?_
  cases result with
  | ok v => exact .pure trivial
  | error t => exact .pure trivial

theorem textAt_tidy {room : Nat} {v : Value} : (s.textAt room v : Routine ε String).TidyAs still (some s) m := by
  induction room generalizing m v with
  | zero =>
    unfold textAt
    split
    · refine .look ?_
      split <;> try exact .pure trivial
      exact .bind errorField_tidy fun _ _ _ _ => .bind errorField_tidy fun _ _ _ _ => .pure trivial
    · exact .pure trivial
  | succ n ih =>
    unfold textAt
    split
    · refine .look ?_
      split <;> try exact .pure trivial
      · refine .bind (.mapM fun item _ m' _ => ?_) fun _ _ _ _ => .pure trivial
        split
        · exact .pure trivial
        · exact ih
      · exact .bind errorField_tidy fun _ _ _ _ => .bind errorField_tidy fun _ _ _ _ => .pure trivial
    · exact .pure trivial

theorem textOf_tidy {v : Value} : (s.textOf v : Routine ε String).TidyAs still (some s) m := textAt_tidy

theorem numberOf_tidy {v : Value} : (s.numberOf v : Routine ε Double).TidyAs still (some s) m := by
  unfold numberOf
  split
  · exact .pure trivial
  · refine .look ?_
    split
    · exact .pure trivial
    · exact .bind textOf_tidy fun _ _ _ _ => .pure trivial

theorem primitiveOf_tidy {v : Value} : (s.primitiveOf v : Routine ε Value).TidyAs still (some s) m := by
  unfold primitiveOf
  refine .look ?_
  split
  · exact .bind numberOf_tidy fun _ _ _ _ => .pure trivial
  · exact .bind textOf_tidy fun _ _ _ _ => .pure trivial

theorem looselyEqual_tidy {a b : Value} : (s.looselyEqual a b : Routine ε Bool).TidyAs still (some s) m := by
  unfold looselyEqual
  split
  · exact .pure trivial
  · split
    · exact .pure trivial
    · exact .bind primitiveOf_tidy fun _ _ _ _ => .pure trivial
    · exact .bind primitiveOf_tidy fun _ _ _ _ => .pure trivial
    · exact .pure trivial

/-! ## Writing and calling -/

/-- What an assignment stores into an object itself is not fixed. -/
theorem respects_store {holder : Ref} {key : String} {v : Value}
    (plain : (m.isArray (.object holder) && isElementKey key) = false)
    (target : m.heap.writeTarget holder key = .own) : m.Respects holder (.store key v) := by
  intro ob k p there stored found
  obtain rfl : key = k := Option.some.inj stored
  have there : m.heap.get? holder = some ob := there
  have plain : (ob.isArray && isElementKey key) = false := by
    have isArray : m.isArray (.object holder) = ob.isArray := by
      change (m.heap.get? holder).any _ = _
      rw [there, Option.any_some]
    rwa [isArray] at plain
  unfold Heap.writeTarget at target
  simp only [there, plain, Bool.false_eq_true, if_false, Heap.writeTargetFrom, found, Option.map_some] at target
  obtain ⟨slot, enumerable, configurable⟩ := p
  cases slot with
  | data w writable =>
    cases writable with
    | true => rfl
    | false => nomatch target
  | accessor getter setter => rfl

theorem writeOwn_tidy {holder : Ref} {key : String} {v : Value}
    (respects : (m.isArray (.object holder) && isElementKey key) = false → m.Respects holder (.store key v)) :
    (s.writeOwn holder key v).TidyAs still (some s) m := by
  have items {e : Edit} {m : Machine} (plain : e.key? = none) (fits : m.Fits holder e) :
      (edit holder e : Routine Thrown Unit).TidyAs still (some s) m := edit_tidy (Machine.respects_of_key? plain) fits
  unfold writeOwn
  refine .look ?_
  split
  · split
    · refine .bind numberOf_tidy fun _ _ _ _ => ?_
      split
      · exact items rfl trivial
      · exact throwRange_gives
    · split
      · split
        · exact throwRange_gives
        · exact items rfl trivial
      · rename_i notLength _ notIndex
        have noElement : isElementKey key = false := by simp [isElementKey, notLength, notIndex]
        exact edit_tidy (respects (by simp [noElement])) fun _ => noElement
  · rename_i notArray
    exact edit_tidy (respects (by simp [notArray])) fun array => absurd array notArray

theorem setOrdinary_tidy {holder : Ref} {receiver : Value} {key : String} {v : Value} :
    (s.setOrdinary holder receiver key v).TidyAs still (some s) m := by
  unfold setOrdinary
  refine .look ?_
  split
  · rename_i target
    exact writeOwn_tidy fun plain => respects_store plain target
  · exact .bind callAccessor_gives fun _ _ _ _ => .pure trivial
  · exact .pure trivial
  · exact .pure trivial

theorem functionOf_tidy {f : Value} : (s.functionOf f).TidyAs still (some s) m := by
  unfold functionOf
  refine .look ?_
  split
  · exact .pure trivial
  · exact .bind textOf_tidy fun _ _ _ _ => throwType_gives

theorem call_gives {f this : Value} {args : List Value} : (s.call f this args).HandsOutAs still (some s) m :=
  .bind functionOf_tidy fun _ _ _ _ => invoke_gives

theorem construct_gives {f : Value} {args : List Value} : (s.construct f args).HandsOutAs still (some s) m := by
  unfold construct
  refine .bind functionOf_tidy fun found m₁ _ _ => ?_
  obtain ⟨callee, data⟩ := found
  dsimp only
  split
  · exact throwType_gives
  · refine .bind getOrdinary_gives fun prototype m₂ _ _ => ?_
    have make {prototype : Ref} {m₂ : Machine} : (do
        let this ← allocate ⟨.ordinary, [], some prototype⟩
        let result ← s.invoke callee data this args true
        return if result.isObject then result else this : Routine Thrown Value).HandsOutAs still (some s) m₂ := by
      refine .bind (allocate_gives rfl rfl nofun) fun this m₃ _ recorded => ?_
      refine .bind invoke_gives fun result m₄ balanced recorded' => .pure ?_
      split
      · exact recorded'
      · exact recorded.mono balanced
    split
    · exact make
    · exact .look make

theorem instanceOf_tidy {v ctor : Value} : (s.instanceOf v ctor).TidyAs still (some s) m := by
  unfold instanceOf
  refine .look ?_
  split
  · exact throwType_gives
  · refine .bind getOrdinary_gives fun prototype m₁ _ _ => ?_
    split
    · split
      · exact .read trivial
      · exact .pure trivial
    · exact throwType_gives

end Scope

end ScriptBridge
