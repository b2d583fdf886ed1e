import ScriptBridge.Proofs.CallDepth
import ScriptBridge.Proofs.Calls
import ScriptBridge.Proofs.Members
import ScriptBridge.Proofs.OrderedMap
import ScriptBridge.Proofs.Release

/-!
# Released wrappers

When a context is dropped its tables hold nothing any more, and native objects that nothing else holds are gone.
Their wrappers stay where other contexts have kept them. Operations on such a wrapper neither fail nor run
anything: exported properties, subscripts and methods give undefined, writes are ignored, and the wrapper converts
to nil. What scripts have stored in it themselves is as it was.

* `Routine.Idle`: a routine that gives a value and enters no job.
* `Machine.Muted`: what the operations on a released wrapper do.
* `Session.mutes_released`: at every point of a session every released wrapper is muted.
* `Session.refused_beyond_depth`: a call that the options do not allow is refused before the wrapper is looked at.

Proof-only: not reachable from `ScriptBridge.Session.Run`.
-/

namespace ScriptBridge

open Routine

/-! ## Runs that enter nothing -/

/-- The routine gives a value and leaves a machine. It enters no job: neither a script nor native code runs. -/
structure Routine.Idle {ε α : Type} (r : Routine ε α) (m : Machine) (a : α) (m' : Machine) : Prop where
  returns : r.Returns m a m'
  enters : ∀ job : {β : Type} → Job β → Machine → Outcome Empty β × Machine, r.entered job m = []

theorem Routine.Returns.idle {ε α : Type} {r : Routine ε α} {m m' : Machine} {a : α} (returns : r.Returns m a m') :
    r.Idle m a m' := ⟨returns, fun job => returns.enters_nothing job⟩

/-! ## Operations on a released wrapper -/

namespace Machine

variable {m : Machine} {s : Scope} {r : Ref} {o : Object} {w : WrapperData} {key : String}

theorem nativeBehind?_of_released {v : Value} {name : String} (released : m.wrapperState v = .released name) :
    m.nativeBehind? v = none := by
  unfold nativeBehind?
  rw [released]

/-- A released wrapper is the wrapper of an object that is gone. -/
theorem of_released {v : Value} {name : String} (released : m.wrapperState v = .released name) :
    ∃ w, m.wrapper? v = some w ∧ m.nativeAlive w.native.serial = false := by
  unfold wrapperState at released
  split at released
  · nomatch released
  · rename_i w wrapper
    split at released
    · nomatch released
    · rename_i gone
      exact ⟨w, wrapper, Bool.eq_false_iff.2 gone⟩

end Machine

namespace Scope

variable {s : Scope} {m : Machine} {r : Ref} {o : Object} {w : WrapperData} {key name : String}

section

variable (released : m.wrapperState (.object r) = .released name)

include released

theorem exportedGet_released {p : PropertyDeclaration} (marshalable : p.encoding.isMarshalable = true) :
    (s.exportedGet r p).Returns m .undefined m := by
  unfold exportedGet checkEncoding
  rw [if_pos marshalable]
  refine .bind .pure (.look ?_)
  rw [Machine.nativeBehind?_of_released released]
  exact .pure

theorem exportedSet_released {p : PropertyDeclaration} {setter : Selector} {v : Value}
    (marshalable : p.encoding.isMarshalable = true) : (s.exportedSet r p setter v).Returns m () m := by
  unfold exportedSet checkEncoding
  rw [if_pos marshalable]
  refine .bind .pure (.look ?_)
  rw [Machine.nativeBehind?_of_released released]
  exact .pure

theorem exportedSubscript_released {objects : ObjectReading} {e : ExportedMethod} {value : Option Value} {index : Nat}
    (marshalable : e.signature.isMarshalable = true) :
    (s.exportedSubscript objects r e value index).Returns m .undefined m := by
  unfold exportedSubscript checkSignature
  rw [if_pos marshalable]
  refine .bind .pure (.look ?_)
  rw [Machine.nativeBehind?_of_released released]
  exact .pure

theorem unwrapped_released : (unwrapped (.object r)).Returns m .nil m := by
  unfold unwrapped
  refine .look ?_
  rw [Machine.nativeBehind?_of_released released]
  exact .pure

end

theorem raising_returns {α : Type} {x : Routine Fault α} {a : α} {m' : Machine} (returns : x.Returns m a m') :
    (s.raising x).Returns m a m' := returns.attempt.bind .pure

section

variable (released : m.wrapperState (.object r) = .released name) (wrapper : m.wrapper? (.object r) = some w)

include released wrapper

/-! ### Properties and elements -/

theorem get_released {p : PropertyDeclaration} (listed : w.table.property? key = some p)
    (marshalable : p.encoding.isMarshalable = true) : (s.get (.object r) key).Returns m .undefined m := by
  unfold get
  refine .look ?_
  rw [wrapper, Option.bind_some, listed]
  exact .bind (raising_returns (exportedGet_released released marshalable)) (.bind .perform .pure)

theorem set_released {p : PropertyDeclaration} {v : Value} (listed : w.table.property? key = some p)
    (marshalable : p.encoding.isMarshalable = true) : (s.set (.object r) key v).Returns m () m := by
  unfold set
  refine .look ?_
  rw [wrapper, Option.bind_some, listed]
  dsimp only
  split
  · exact .pure
  · exact raising_returns (exportedSet_released released marshalable)

theorem getIndex_released {e : ExportedMethod} {index : Nat} (listed : w.table.indexGetter = some e)
    (marshalable : e.signature.isMarshalable = true) : (s.getIndex (.object r) index).Returns m .undefined m := by
  unfold getIndex
  refine .look ?_
  rw [wrapper, Option.bind_some, listed]
  exact .bind (raising_returns (exportedSubscript_released released marshalable)) (.bind .perform .pure)

theorem setIndex_released {e : ExportedMethod} {index : Nat} {v : Value} (listed : w.table.indexSetter = some e)
    (marshalable : e.signature.isMarshalable = true) : (s.setIndex (.object r) index v).Returns m () m := by
  unfold setIndex
  refine .look ?_
  rw [wrapper, Option.bind_some, listed]
  exact .bind (raising_returns (exportedSubscript_released released marshalable)) .pure

/-! ### Conversions -/

theorem naturalAt_released (room : Nat) (seen : Visited) :
    (s.naturalAt (room + 1) (.object r) seen).Returns m (.nil, seen) m := by
  obtain ⟨o, there, payload⟩ := Machine.object_of_wrapper? wrapper
  have behind : m.payload? (.object r) = some (.wrapper w) := (congrArg (Option.map Object.payload) there).trans
    (congrArg some payload)
  unfold naturalAt
  refine .look ?_
  rw [behind]
  exact .bind (unwrapped_released released) .pure

theorem toNative_released : (s.toNative (.object r)).Returns m .nil m :=
  .look (.bind (naturalAt_released released wrapper _ []) .pure)

end

/-! ### Calls -/

/-- A method called on a released object gives undefined, wherever the function comes from. -/
theorem methodCall_released {e : ExportedMethod} {cls : Class} {i : Invocation}
    (released : m.wrapperState i.this = .released name) (arity : i.args.length = e.signature.arity)
    (marshalable : e.signature.isMarshalable = true) : (s.methodCall e cls i).Returns m .undefined m := by
  have receives : (instanceReceiver e cls i.this).Returns m none m := by
    unfold instanceReceiver
    refine .look ?_
    rw [released]
    exact .pure
  unfold methodCall checkArity checkSignature
  rw [if_pos arity.symm, if_pos marshalable]
  exact .bind .pure (.bind .pure (.bind receives .pure))

/-! ### What scripts have stored -/

section

variable (there : m.object? r = some o) (payload : o.payload = .wrapper w) (unexported : w.table.property? key = none)

include there payload unexported

/-- What a wrapper does not export, no exported property comes before. -/
theorem free_of_unexported : ((m.wrapper? (.object r)).bind (·.table.property? key)) = none := by
  have wrapper : m.wrapper? (.object r) = some w := by
    have behind : o.wrapper? = some w := by rw [Object.wrapper?, payload]
    exact (congrArg (Option.bind · Object.wrapper?) there).trans behind
  rw [wrapper]
  exact unexported

theorem get_stored {p : Property} {v : Value} {writable : Bool} (own : o.properties.get? key = some p)
    (slot : p.slot = .data v writable) : (s.get (.object r) key).Returns m v ((Action.track v).run m).2 := by
  have plain : o.isArray = false := by rw [Object.isArray, Object.items?, payload]; rfl
  have found : o.own? key = some (.data v writable) := by
    rw [Object.own?_of_plain plain, own]
    exact congrArg some slot
  exact get_returns there (free_of_unexported there payload unexported) found

end

end Scope

namespace Machine

/-- What operations on a released wrapper do in a scope. -/
structure Muted (m : Machine) (s : Scope) (r : Ref) (w : WrapperData) : Prop where
  /-- The context that it was made in was dropped. -/
  dropped : m.contextAlive w.context = false
  /-- Exported properties and subscripts are undefined, and writing them changes nothing. -/
  get : ∀ key p, w.table.property? key = some p → p.encoding.isMarshalable = true →
    (s.get (.object r) key).Idle m .undefined m
  set : ∀ key p v, w.table.property? key = some p → p.encoding.isMarshalable = true →
    (s.set (.object r) key v).Idle m () m
  getIndex : ∀ index e, w.table.indexGetter = some e → e.signature.isMarshalable = true →
    (s.getIndex (.object r) index).Idle m .undefined m
  setIndex : ∀ index e v, w.table.indexSetter = some e → e.signature.isMarshalable = true →
    (s.setIndex (.object r) index v).Idle m () m
  /-- Methods give undefined, of whatever class and context their functions are, also of a dropped one. Their calls
  leave no trace. -/
  call : ∀ callee (f : FunctionData) e cls args construct, f.callable = .method e cls → args.length = e.signature.arity →
    e.signature.isMarshalable = true → m.calls.height < m.options.maxCallDepth →
      let i : Invocation := ⟨.object r, callee, args, construct⟩
      (f.callable.routine ⟨m.callContext s f⟩ i).Idle (m.callStart s f i) (.ok .undefined) (m.callStart s f i) ∧
        ∀ depth, (s.invoke callee f (.object r) args construct).exec (Job.exec Job.routine (depth + 1)) m =
          (.done .undefined, m)
  /-- A call for which there is no room fails like every other. -/
  refused : m.options.maxCallDepth ≤ m.calls.height → ∀ callee f args construct,
    s.Overflows (s.invoke callee f (.object r) args construct) m
  /-- It converts to nil: by itself, as part of a value, and as an argument for an object of any class. -/
  native : (s.toNative (.object r)).Idle m .nil m
  part : ∀ room seen, (s.naturalAt (room + 1) (.object r) seen).Idle m (.nil, seen) m
  argument : ∀ declared, (declared = .object none ∨ ∃ name, declared = .object (some name) ∧
    Scope.shapeOfClassName? name = none) → (s.argumentOf s.objectReading declared (.object r)).Idle m .nil m
  /-- Data of its own reads as it is stored, and is written where it may be. -/
  own : ∀ o key p v writable, m.object? r = some o → w.table.property? key = none →
    o.properties.get? key = some p → p.slot = .data v writable →
      (s.get (.object r) key).Idle m v ((Action.track v).run m).2 ∧
        m.heap.writeTarget r key = if writable then .own else .readonly
  stores : ∀ o key v, m.object? r = some o → w.table.property? key = none → m.heap.writeTarget r key = .own →
    ∃ m' ps, (s.set (.object r) key v).Idle m () m' ∧ m.Rewrites m' r ps ∧
      o.properties.Stores ps key (.assigned v (o.properties.get? key)) ∧
      (s.get (.object r) key).Idle m' v ((Action.track v).run m').2
  ignores : ∀ o key v, m.object? r = some o → w.table.property? key = none → m.heap.writeTarget r key = .readonly →
    (s.set (.object r) key v).Idle m () m
  /-- Wrappers of living contexts have their entries and their native objects. -/
  others : ∀ q o u, m.object? q = some o → o.payload = .wrapper u → m.contextAlive u.context = true →
    m.wrapperState (.object q) = .live u.native ∧
      ∃ c, m.context? u.context = some c ∧ (.object u.native.serial, q) ∈ c.wrappers

variable {m : Machine} {s : Scope} {r : Ref} {w : WrapperData} {name : String}

/-- Native objects live by what values, tables of living contexts and cells hold. -/
theorem nativeAlive_congr {m' : Machine} (values : m'.heldValues = m.heldValues) (natives : m'.natives = m.natives)
    (contexts : m'.contexts = m.contexts) (alive : ∀ id, m'.contextAlive id = m.contextAlive id) (n : Nat) :
    m'.nativeAlive n = m.nativeAlive n := by
  rw [Bool.eq_iff_iff, nativeAlive_iff, nativeAlive_iff]
  unfold NativeLives HeldByValue HeldByRegistry HeldByCell native? context?
  simp only [values, natives, contexts, alive]

/-- A call opens a region of a context that lived. -/
theorem contextAlive_callStart {f : FunctionData} {i : Invocation} (inside : m.Inside (some s)) (id : Nat) :
    (m.callStart s f i).contextAlive id = m.contextAlive id := by
  have own : m.contextAlive (m.callContext s f) = true := Scope.contextAlive_callContext inside
  rw [Bool.eq_iff_iff]
  constructor
  · intro alive
    rcases contextAlive_iff.1 alive with named | ⟨region, mem, rfl⟩ | held
    · exact contextAlive_iff.2 (.inl named)
    · rcases List.mem_cons.1 mem with rfl | mem
      · exact own
      · exact contextAlive_region mem
    · exact contextAlive_hold held
  · intro alive
    refine contextAlive_iff.2 ((contextAlive_iff.1 alive).imp_right (.imp_left ?_))
    rintro ⟨region, mem, is⟩
    exact ⟨region, List.mem_cons_of_mem _ mem, is⟩

/-- So the beginning of a call neither releases objects nor brings any back. -/
theorem wrapperState_callStart {f : FunctionData} {i : Invocation} (inside : m.Inside (some s)) {v : Value} :
    (m.callStart s f i).wrapperState v = m.wrapperState v := by
  have alive : ∀ n, (m.callStart s f i).nativeAlive n = m.nativeAlive n :=
    nativeAlive_congr rfl rfl rfl (contextAlive_callStart inside)
  unfold wrapperState
  simp only [alive]
  rfl

/-- A wrapper of a living context is not released. -/
theorem Sound.dropped_of_released (settled : m.Settled) (released : m.wrapperState (.object r) = .released name)
    (wrapper : m.wrapper? (.object r) = some w) : m.contextAlive w.context = false := by
  obtain ⟨o, there, payload⟩ := object_of_wrapper? wrapper
  rw [← Bool.not_eq_true]
  intro alive
  nomatch (settled.wrapperState there payload alive).symm.trans released

theorem muted (settled : m.Settled) (inside : m.Inside (some s))
    (released : m.wrapperState (.object r) = .released name) (wrapper : m.wrapper? (.object r) = some w) :
    m.Muted s r w where
  dropped := settled.dropped_of_released released wrapper
  get _ _ listed marshalable := (Scope.get_released released wrapper listed marshalable).idle
  set _ _ _ listed marshalable := (Scope.set_released released wrapper listed marshalable).idle
  getIndex _ _ listed marshalable := (Scope.getIndex_released released wrapper listed marshalable).idle
  setIndex _ _ _ listed marshalable := (Scope.setIndex_released released wrapper listed marshalable).idle
  call := by
    intro callee f e cls args construct is arity marshalable room i
    -- The call's own region and record do not bring the object back.
    have started : (m.callStart s f i).wrapperState (.object r) = .released name :=
      (wrapperState_callStart inside).trans released
    have gives : (f.callable.routine ⟨m.callContext s f⟩ i).Returns (m.callStart s f i) (.ok .undefined)
        (m.callStart s f i) := by
      rw [is]
      exact (Scope.raising_returns (Scope.methodCall_released started arity marshalable)).attempt
    exact ⟨gives.idle, Scope.invoke_undefined (i := i) settled inside room gives⟩
  refused full _ _ _ _ := Scope.invoke_overflows settled full
  native := (Scope.toNative_released released wrapper).idle
  part room seen := (Scope.naturalAt_released released wrapper room seen).idle
  argument := by
    have natural : (Scope.naturally s.objectReading (.object r)).Returns m .nil m :=
      Scope.toNative_released released wrapper
    rintro _ (rfl | ⟨name, rfl, other⟩)
    · exact natural.idle
    · refine Returns.idle ?_
      change (s.objectArgument s.objectReading name (.object r)).Returns m .nil m
      unfold Scope.objectArgument
      rw [other]
      exact natural.bind .pure
  own := by
    intro o key p v writable there unexported own slot
    obtain ⟨_, there', payload⟩ := object_of_wrapper? wrapper
    obtain rfl := Option.some.inj (there.symm.trans there')
    have plain : o.isArray = false := by rw [Object.isArray, Object.items?, payload]; rfl
    refine ⟨(Scope.get_stored there payload unexported own slot).idle, ?_⟩
    rw [Heap.writeTarget_of_free there (Object.free_of_plain plain key), own, Option.map_some, slot]
    rfl
  stores := by
    intro o key v there unexported target
    obtain ⟨_, there', payload⟩ := object_of_wrapper? wrapper
    obtain rfl := Option.some.inj (there.symm.trans there')
    have plain : o.isArray = false := by rw [Object.isArray, Object.items?, payload]; rfl
    obtain ⟨m', ps, sets, rewrites, stores, reads⟩ := Scope.set_stored (s := s) there (Object.free_of_plain plain key)
      (Scope.free_of_unexported there payload unexported) target v
    exact ⟨m', ps, sets.idle, rewrites, stores, (reads s).idle⟩
  ignores := by
    intro o key v there unexported target
    obtain ⟨_, there', payload⟩ := object_of_wrapper? wrapper
    obtain rfl := Option.some.inj (there.symm.trans there')
    have free := Scope.free_of_unexported there payload unexported
    exact (Scope.set_of_setOrdinary free (Scope.setOrdinary_ignored (.inl target))).idle
  others q o u there payload alive :=
    ⟨settled.wrapperState there payload alive,
      settled.registered q u.context _ ⟨o, there, Object.twin?_eq_some.2 (.inl ⟨u, payload, rfl, rfl⟩)⟩⟩

end Machine

namespace Session

open Program (Step)

variable {options : Options} {now : Int} {steps : List Step} {depth : Nat} {x : Point} {s : Scope} {r : Ref}
  {name : String}

/-- At every point of every session every released wrapper is muted. -/
theorem mutes_released (mem : x ∈ points options now steps depth) (inside : x.machine.Inside (some s))
    (released : x.machine.wrapperState (.object r) = .released name) :
    ∃ w, x.machine.wrapper? (.object r) = some w ∧ x.machine.Muted s r w := by
  obtain ⟨w, wrapper, -⟩ := Machine.of_released released
  exact ⟨w, wrapper, Machine.muted (settled_points mem) inside released wrapper⟩

/-- An object is wrapped in a context that is dropped then. Another context has kept the wrapper and calls a method on
it, within a function. -/
def outlived : List Step :=
  [.machine (.newContext "a") none, .machine (.newContext "b") none,
    .machine (.protocol "P" "P" [] true [.method "run" "d@:", .property "p" "d"]) none,
    .declareClass "K" "K" none ["P"] [("run", []), ("p", []), ("setP:", [])] [] false,
    .native (.bind (.create (.key "K") [])) (some "o"),
    .execute "a" [.bridge (.wrap (.register "o")) (some "w")],
    .execute "b" [.script (.set .global "kept" (.register "w")) none, .script (.get (.register "w") "run") (some "run")],
    .native (.drop "o") none, .machine (.dropContext "a") none,
    .execute "b" [.function "f" [.script (.call (.register "run") (.register "w") []) none] false (some "f"),
      .script (.call (.register "f") .undefined []) none]]

/-- In the second context, a released wrapper and a function of its class are in registers. -/
def isOutlived (calls : Nat) (x : Point) : Bool :=
  x.machine.regions.any (·.context == 1) && x.machine.calls.height == calls &&
    ((x.machine.tables.scripts.get? "w").bind Value.ref?).any fun r =>
      (match x.machine.wrapperState (.object r) with
        | .released name => name == "K"
        | _ => false) &&
      (x.machine.tables.scripts.get? "run").any fun v => (x.machine.function? v).any fun f =>
        match f.2.callable with
        | .method e _ => e.signature.arity == 0 && e.signature.isMarshalable
        | _ => false

theorem of_isOutlived {calls : Nat} (is : isOutlived calls x = true) : x.machine.Inside (some ⟨1⟩) ∧
    x.machine.calls.height = calls ∧ ∃ r v callee f e cls, x.machine.wrapperState (.object r) = .released "K" ∧
      x.machine.function? v = some (callee, f) ∧ f.callable = .method e cls ∧ e.signature.arity = 0 ∧
      e.signature.isMarshalable = true := by
  simp only [isOutlived, Bool.and_eq_true, List.any_eq_true, beq_iff_eq, Option.any_eq_true] at is
  obtain ⟨⟨⟨⟨context, handles⟩, mem, rfl⟩, height⟩, r, -, released, v, -, ⟨callee, f⟩, function, does⟩ := is
  split at released
  · rename_i name state
    obtain rfl : name = "K" := beq_iff_eq.1 released
    split at does
    · rename_i e cls callable
      obtain ⟨arity, marshalable⟩ := Bool.and_eq_true_iff.1 does
      exact ⟨Machine.inside_of_mem _ mem, height, r, v, callee, f, e, cls, state, function, callable,
        beq_iff_eq.1 arity, marshalable⟩
    · nomatch does
  · nomatch released

/-- The wrapper is muted in the second context. -/
theorem mutes_released_outlived : ∃ x ∈ points { maxCallDepth := 1 } 0 outlived 3, ∃ r w,
    x.machine.Inside (some ⟨1⟩) ∧ x.machine.wrapperState (.object r) = .released "K" ∧
      x.machine.wrapper? (.object r) = some w ∧ x.machine.Muted ⟨1⟩ r w := by
  obtain ⟨x, mem, is⟩ : ∃ x ∈ points { maxCallDepth := 1 } 0 outlived 3, isOutlived 0 x = true := by decide +kernel
  obtain ⟨inside, -, r, -, -, -, -, -, released, -⟩ := of_isOutlived is
  obtain ⟨w, wrapper, muted⟩ := mutes_released mem inside released
  exact ⟨x, mem, r, w, inside, released, wrapper, muted⟩

/-- Within the function there is no room for the call of the method: it does not give undefined. -/
theorem refused_beyond_depth : ∃ x ∈ points { maxCallDepth := 1 } 0 outlived 3, ∃ r v callee f e cls,
    x.machine.wrapperState (.object r) = .released "K" ∧ x.machine.function? v = some (callee, f) ∧
      f.callable = .method e cls ∧ e.signature.arity = 0 ∧ e.signature.isMarshalable = true ∧
      Scope.Overflows ⟨1⟩ (Scope.call ⟨1⟩ v (.object r) []) x.machine ∧
      ∀ depth m', (Scope.call ⟨1⟩ v (.object r) []).exec (Job.exec Job.routine depth) x.machine ≠
        (.done .undefined, m') := by
  obtain ⟨x, mem, is⟩ : ∃ x ∈ points { maxCallDepth := 1 } 0 outlived 3, isOutlived 1 x = true ∧
      x.machine.options.maxCallDepth = 1 := by decide +kernel
  obtain ⟨is, limit⟩ := is
  obtain ⟨-, height, r, v, callee, f, e, cls, released, function, callable, arity, marshalable⟩ := of_isOutlived is
  have full : x.machine.options.maxCallDepth ≤ x.machine.calls.height := by rw [limit, height]
  have refused : Scope.Overflows ⟨1⟩ (Scope.call ⟨1⟩ v (.object r) []) x.machine :=
    Scope.call_overflows (settled_points mem) full (Option.isSome_of_eq_some function)
  refine ⟨x, mem, r, v, callee, f, e, cls, released, function, callable, arity, marshalable, refused, ?_⟩
  intro depth m' gives
  obtain ⟨error, m₁, throws, -⟩ := refused
  nomatch gives.symm.trans (throws (Job.exec Job.routine depth))

end Session

end ScriptBridge
