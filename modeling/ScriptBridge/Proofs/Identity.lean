import ScriptBridge.Bridge.Operation
import ScriptBridge.Bridge.ToNative
import ScriptBridge.Proofs.Exec

/-!
# One script object for each native thing

At every moment at most one live object that a context made stands for a native object or a closure, and
the table of the context has it under the key. So bridging a thing whose script object lives gives that
object, and bridging a live wrapper, function or constructor there and back gives what it was.

* `Scope.wrap_returns`, `Scope.toNative_returns`: bridging in each direction.
* `Machine.Identifies`, `Moment.Reachable.bridge_identifies`: what holds at every moment.

Proof-only: not reachable from `ScriptBridge.Session.Run`.
-/

namespace ScriptBridge

/-! ## Bridging -/

/-- What an object stands for that does: a wrapper, or the function of a closure. -/
theorem Object.twin?_eq_some {o : Object} {id : Nat} {key : NativeKey} : o.twin? = some (id, key) ↔
    (∃ w, o.payload = .wrapper w ∧ w.context = id ∧ .object w.native.serial = key) ∨
      ∃ name c, o.payload = .function ⟨name, .closure c, id⟩ ∧ .closure c.id = key := by
  obtain ⟨payload, properties, prototype⟩ := o
  unfold Object.twin?
  cases payload with
  | wrapper w => simp
  | function f =>
    obtain ⟨name, callable, context⟩ := f
    cases callable <;> simp [and_assoc]
  | ordinary | array | error | date | regexp | buffer => simp

theorem Machine.object_of_wrapper? {m : Machine} {r : Ref} {w : WrapperData} (wrapper : m.wrapper? (.object r) = some w) :
    ∃ o, m.object? r = some o ∧ o.payload = .wrapper w := by
  obtain ⟨o, there, is⟩ := Option.bind_eq_some_iff.1 wrapper
  exact ⟨o, there, Object.payload_of_wrapper? is⟩

theorem Machine.wrapperState_of_nativeBehind {m : Machine} {v : Value} {h : Handle} (behind : m.nativeBehind? v = some h) :
    m.wrapperState v = .live h := by
  unfold nativeBehind? at behind
  split at behind
  · rename_i h' live
    obtain rfl := Option.some.inj behind
    exact live
  · nomatch behind

namespace Scope

variable {s : Scope} {m m' : Machine} {r x : Ref} {h : Handle} {c : Closure}

theorem wrapperFor_returns (found : m.registered? s (.object h.serial) = some r) :
    (s.wrapperFor h).Returns m (.object r) (m.record r) := by
  unfold wrapperFor
  refine .look ?_
  rw [found]
  exact .bind .perform .pure

theorem functionFor_returns (found : m.registered? s (.closure c.id) = some r) :
    (s.functionFor c).Returns m (.object r) (m.record r) := by
  unfold functionFor
  refine .look ?_
  rw [found]
  exact .bind .perform .pure

theorem templateFor_returns {cls : Class} {t : Template}
    (found : (m.scopeContext s).templates.find? (·.cls.id == cls.id) = some t) :
    (s.templateFor cls).Returns m t m := by
  cases cls
  unfold templateFor
  refine .look ?_
  rw [found]
  exact .pure

/-- No value lies too deep that lies inside no other. -/
theorem toScript_object (h' : (s.wrapperFor h).Returns m (.object r) m') :
    (s.toScript (.object h)).Returns m (.object r) m' := by
  unfold toScript toScriptAt
  refine .look ?_
  rw [if_neg (Nat.not_lt_zero _)]
  exact h'

theorem toScript_closure (h' : (s.functionFor c).Returns m (.object r) m') :
    (s.toScript (.closure c)).Returns m (.object r) m' := by
  unfold toScript toScriptAt
  refine .look ?_
  rw [if_neg (Nat.not_lt_zero _)]
  exact h'

theorem toScript_classRef {cls : Class} {t : Template} (h' : (s.templateFor cls).Returns m t m) :
    (s.toScript (.classRef cls)).Returns m (.object t.constructor) (m.record t.constructor) := by
  unfold toScript toScriptAt
  refine .look ?_
  rw [if_neg (Nat.not_lt_zero _)]
  exact .bind h' (.bind .perform .pure)

/-- The natural conversion of an object starts at the top. -/
theorem toNative_returns {v : NativeValue} (seen : Visited)
    (h : (s.naturalAt (m.options.maxConversionDepth + 1) (.object x) []).Returns m (v, seen) m') :
    (s.toNative (.object x)).Returns m v m' := by
  unfold toNative naturally objectReading
  exact .look (.bind h .pure)

theorem payload?_of_object? {o : Object} (ho : m.object? x = some o) : m.payload? (.object x) = some o.payload :=
  congrArg (Option.map _) ho

/-- A wrapper reads as live while its native object does. -/
theorem wrapperState_of_object? {o : Object} {w : WrapperData} (ho : m.object? x = some o)
    (payload : o.payload = .wrapper w) (alive : m.nativeAlive w.native.serial = true) :
    m.wrapperState (.object x) = .live w.native := by
  have wrapper : m.wrapper? (.object x) = some w := by
    have own : o.wrapper? = some w := by rw [Object.wrapper?, payload]
    rw [← own]
    exact congrArg (Option.bind · Object.wrapper?) ho
  unfold Machine.wrapperState
  rw [wrapper]
  exact if_pos alive

/-- A wrapper is read as its native object, held from now on. -/
theorem toNative_behind {v : Value} (behind : m.nativeBehind? v = some h) :
    ∃ holds, (s.toNative v).Returns m (.object h) { m with holds } := by
  cases v with
  | undefined | null | bool | number | text => nomatch behind
  | object r =>
    rcases wrapper : m.wrapper? (.object r) with _ | w
    · unfold Machine.nativeBehind? Machine.wrapperState at behind
      rw [wrapper] at behind
      nomatch behind
    · obtain ⟨o, ho, payload⟩ := Machine.object_of_wrapper? wrapper
      obtain ⟨holds, eq⟩ := Action.run_hold m (.object h)
      refine ⟨holds, toNative_returns [] ?_⟩
      rw [← eq]
      unfold naturalAt
      refine .look ?_
      rw [payload?_of_object? ho, payload]
      refine .bind (.look ?_) .pure
      rw [behind]
      exact .bind .perform .pure

theorem toNative_wrapper {o : Object} {w : WrapperData} (ho : m.object? x = some o) (payload : o.payload = .wrapper w)
    (alive : m.nativeAlive w.native.serial = true) :
    ∃ holds, (s.toNative (.object x)).Returns m (.object w.native) { m with holds } := by
  refine toNative_behind ?_
  unfold Machine.nativeBehind?
  rw [wrapperState_of_object? ho payload alive]

theorem toNative_closure {o : Object} {name : String} {id : Nat} (ho : m.object? x = some o)
    (payload : o.payload = .function ⟨name, .closure c, id⟩) : (s.toNative (.object x)).Returns m (.closure c) m := by
  refine toNative_returns [] ?_
  unfold naturalAt
  refine .look ?_
  rw [payload?_of_object? ho, payload]
  exact .pure

theorem toNative_constructor {o : Object} {name : String} {id : Nat} {cls : Class} {table : ExportTable}
    (ho : m.object? x = some o) (payload : o.payload = .function ⟨name, .constructor cls table, id⟩) :
    (s.toNative (.object x)).Returns m (.classRef cls) m := by
  refine toNative_returns [] ?_
  unfold naturalAt
  refine .look ?_
  rw [payload?_of_object? ho, payload]
  exact .pure

end Scope

/-! ## Identity -/

namespace Machine

variable {m : Machine} {waiting : List WeakEntry} {s : Scope} {r x : Ref} {id : Nat} {key : NativeKey}

/-- A live object is the script side of something native in a context: a wrapper, the function of a
closure, or the constructor of a class. -/
inductive Bridges (m : Machine) (id : Nat) (x : Ref) : Prop
  | twin {key : NativeKey} (stands : m.Stands x id key)
  | constructor {c : Context} {t : Template} (hc : m.context? id = some c) (mem : t ∈ c.templates)
    (h : t.constructor = x)

/-- Native things have one script object each in a context. -/
structure Identifies (m : Machine) : Prop where
  /-- At most one live object stands for a native thing. -/
  unique : ∀ id key r r', m.Stands r id key → m.Stands r' id key → r' = r
  /-- It is what the table of its context has under the key. -/
  entered : ∀ id key r, m.Stands r id key → ∃ c, m.context? id = some c ∧ ∀ r', (key, r') ∈ c.wrappers ↔ r' = r
  /-- Bridging a native object whose wrapper lives gives the wrapper. -/
  object : ∀ (s : Scope) (h : Handle) r, m.Stands r s.context (.object h.serial) →
    (s.wrap (.object h)).Returns m (.object r) (m.record r)
  /-- Bridging a closure whose function lives gives the function. -/
  closure : ∀ (s : Scope) (c : Closure) r, m.Stands r s.context (.closure c.id) →
    (s.wrap (.closure c)).Returns m (.object r) (m.record r)
  /-- Bridging there and back gives the same value. -/
  back : ∀ (s : Scope) x, m.contextAlive s.context = true → m.Bridges s.context x →
    ∃ y m', (do s.toScript (← s.toNative (.object x)) : Routine Fault Value).Returns m y m' ∧
      y.strictEquals (.object x) = true

/-- A live wrapper of a living context has its native object. -/
theorem Sound.nativeAlive (sound : m.Sound waiting) {n : Nat} (alive : m.contextAlive id = true)
    (stands : m.Stands r id (.object n)) : m.nativeAlive n = true := by
  obtain ⟨c, hc, mem⟩ := sound.registered r id _ stands
  exact (nativeAlive_iff m n).2 (.inr (.inl ⟨id, c, r, alive, hc, mem⟩))

theorem Sound.back (sound : m.Sound waiting) (alive : m.contextAlive s.context = true)
    (bridges : m.Bridges s.context x) :
    ∃ m', (do s.toScript (← s.toNative (.object x)) : Routine Fault Value).Returns m (.object x) m' := by
  cases bridges with
  | @twin key stands =>
    have found := sound.registered? stands
    obtain ⟨o, ho, twin⟩ := stands
    rcases Object.twin?_eq_some.1 twin with ⟨w, payload, -, rfl⟩ | ⟨name, c, payload, rfl⟩
    · obtain ⟨holds, reads⟩ := Scope.toNative_wrapper (s := s) ho payload (sound.nativeAlive alive ⟨o, ho, twin⟩)
      have found : ({ m with holds } : Machine).registered? s (.object w.native.serial) = some x := found
      exact ⟨_, reads.bind (Scope.toScript_object (Scope.wrapperFor_returns found))⟩
    · exact ⟨_, (Scope.toNative_closure ho payload).bind (Scope.toScript_closure (Scope.functionFor_returns found))⟩
  | @constructor c t hc mem h =>
    obtain ⟨d, hd, rooted⟩ := sound.rooted s.context alive
    obtain rfl : d = c := Option.some.inj (hd.symm.trans hc)
    obtain ⟨o, name, ho, function⟩ := rooted.constructors t mem
    have payload := Object.payload_of_function? function
    have found : (m.scopeContext s).templates.find? (·.cls.id == t.cls.id) = some t := by
      have scope : m.scopeContext s = d := by rw [scopeContext, hd, Option.getD_some]
      rw [scope]
      exact find?_of_nodup (f := fun t : Template => t.cls.id) (sound.classes _ d hd) mem
    subst h
    exact ⟨_, (Scope.toNative_constructor ho payload).bind (Scope.toScript_classRef (Scope.templateFor_returns found))⟩

theorem Sound.identifies (sound : m.Sound waiting) : m.Identifies where
  unique id key r r' stands stands' := by
    have found := sound.registered? stands
    rw [sound.registered? stands', Option.some.injEq] at found
    exact found
  entered id key r stands := by
    obtain ⟨c, hc, mem⟩ := sound.registered r id key stands
    refine ⟨c, hc, fun r' => ⟨fun mem' => ?_, fun same => same ▸ mem⟩⟩
    have first := find?_of_nodup (sound.keys id c hc) mem
    have second := find?_of_nodup (sound.keys id c hc) mem'
    rw [first, Option.some.injEq, Prod.mk.injEq] at second
    exact second.2.symm
  object s h r stands := .settle (Scope.toScript_object (Scope.wrapperFor_returns (sound.registered? stands)))
  closure s c r stands := .settle (Scope.toScript_closure (Scope.functionFor_returns (sound.registered? stands)))
  back s x alive bridges := by
    obtain ⟨m', returns⟩ := sound.back alive bridges
    exact ⟨_, m', returns, beq_self_eq_true x⟩

end Machine

namespace Moment

variable {t : Moment}

/-- Whatever happened, also between the sweep of a collection and the callbacks of freed wrappers, native
things have one script object each. -/
theorem Reachable.bridge_identifies (reachable : t.Reachable) : t.machine.Identifies := reachable.sound.machine.identifies

/-- The wrapper is found again, from either side. -/
theorem wrap_bridged : (Scope.wrap ⟨0⟩ (.object ⟨1, default⟩)).Returns bridged.machine (.object ⟨1, 0⟩)
      (bridged.machine.record ⟨1, 0⟩) ∧
    ∃ y m', (do Scope.toScript ⟨0⟩ (← Scope.toNative ⟨0⟩ (.object ⟨1, 0⟩)) : Routine Fault Value).Returns
      bridged.machine y m' ∧ y.strictEquals (.object ⟨1, 0⟩) = true := by
  have identifies := reachable_bridged.bridge_identifies
  exact ⟨identifies.object ⟨0⟩ ⟨1, default⟩ _ stands_bridged, identifies.back ⟨0⟩ _ rfl (.twin stands_bridged)⟩

end Moment

end ScriptBridge
