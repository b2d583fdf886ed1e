import ScriptBridge.Proofs.Furnish
import ScriptBridge.Proofs.Handles
import ScriptBridge.Proofs.Targets

/-!
# Two routes to one object

Scripts get at what native code returns by two routes: they read an exported property, or they call the function of an
exported method. What the getter of a property returns is converted for the scope that reads it; what a method returns,
for the context that its function was made in, while that lives. So the same native object arrives as the same wrapper
if these contexts are one, and otherwise as different wrappers of it.

* `Machine.Brings`: what a native object has become that was returned. `Machine.Brings.strictEquals_iff`: when it has
  become the same value twice.
* `Scope.holding_brings`: the end that both routes have in common.
* `Route`, `Route.Yields`: the routes, and when native code at their end returns an object.
* `Route.Yields.brings`: what comes of each route.
* `Moment.Reachable.results_agree`: whether one route gives what another one gave.

Proof-only: not reachable from `ScriptBridge.Session.Run`.
-/

namespace ScriptBridge

open Routine

/-! ## What was returned -/

/-- The context whose wrapper a returned object becomes where a result is wanted in a context. A result of no type has
none. -/
def Encoding.place (declared : Encoding) (id : Nat) : Option Nat :=
  match declared with
  | .void => none
  | _ => some id

namespace Machine

variable {m m' : Machine} {waiting : List WeakEntry} {serial : Nat} {place place' : Option Nat} {x y : Value}

/-- What a native object has become that was returned: its wrapper in a context, or undefined if there is none to
bring it to. -/
def Brings (m : Machine) (serial : Nat) (place : Option Nat) (v : Value) : Prop :=
  match place with
  | none => v = .undefined
  | some id => ∃ r, v = .object r ∧ m.Stands r id (.object serial)

theorem Brings.of_heap_eq (brings : m.Brings serial place x) (heap : m'.heap = m.heap) : m'.Brings serial place x := by
  cases place with
  | none => exact brings
  | some id =>
    obtain ⟨r, is, stands⟩ := brings
    exact ⟨r, is, (Stands.of_heap_eq heap).2 stands⟩

/-- A context has one wrapper of the object, and a wrapper belongs to one context. -/
theorem Brings.strictEquals_iff (sound : m.Sound waiting) (first : m.Brings serial place x)
    (second : m.Brings serial place' y) : x.strictEquals y = true ↔ place = place' := by
  cases place with
  | none =>
    obtain rfl : x = .undefined := first
    cases place' with
    | none =>
      obtain rfl : y = .undefined := second
      exact iff_of_true rfl rfl
    | some id =>
      obtain ⟨q, rfl, -⟩ := second
      exact iff_of_false Bool.false_ne_true (Option.some_ne_none id).symm
  | some id =>
    obtain ⟨r, rfl, stands⟩ := first
    cases place' with
    | none =>
      obtain rfl : y = .undefined := second
      exact iff_of_false Bool.false_ne_true (Option.some_ne_none id)
    | some id' =>
      obtain ⟨q, rfl, stands'⟩ := second
      constructor
      · intro same
        obtain rfl : r = q := beq_iff_eq.1 same
        exact congrArg some (stands'.unique stands).1
      · intro same
        obtain rfl := Option.some.inj same
        exact beq_iff_eq.2 (sound.identifies.unique _ _ _ _ stands stands').symm

end Machine

/-- Changes do not make an object stand for something else. -/
theorem Object.Evolves.twin? {o o' : Object} (evolves : o.Evolves o') : o'.twin? = o.twin? := by
  obtain ⟨edits, rfl⟩ := evolves
  induction edits generalizing o with
  | nil => rfl
  | cons e rest ih => exact ih.trans (o.twin?_edit e)

/-- What was handed out is still the same wrapper as long as it is kept. -/
theorem Moment.Within.brings {t u : Moment} {serial : Nat} {place : Option Nat} {x : Value}
    (within : Within ⟨t.machine.regions.length, 0⟩ t u) (sound : t.Sound) (recorded : t.machine.Recorded x)
    (brings : t.machine.Brings serial place x) : u.machine.Brings serial place x := by
  cases place with
  | none => exact brings
  | some id =>
    obtain ⟨r, rfl, o, there, twin⟩ := brings
    obtain ⟨-, o', there', evolves⟩ := Within.stays within sound recorded.pins there
    exact ⟨r, rfl, o', there', evolves.twin?.trans twin⟩

/-! ## The end of both routes -/

namespace Scope

variable {s : Scope} {m m₁ : Machine} {declared : Encoding} {n : Handle} {depth : Nat}

/-- An object that was returned gets its wrapper in the scope's context, unless the result has no type. -/
theorem resultOf_brings (declared : Encoding) (steady : m.Steady) (alive : m.contextAlive s.context = true) (exports : n.cls.Exports) :
    ∃ x m', (s.resultOf declared (.object n)).Returns m x m' ∧ m'.Brings n.serial (declared.place s.context) x := by
  have converted (same : s.resultOf declared (.object n) = s.toScript (.object n))
      (place : declared.place s.context = some s.context) :
      ∃ x m', (s.resultOf declared (.object n)).Returns m x m' ∧ m'.Brings n.serial (declared.place s.context) x := by
    obtain ⟨r, m', returns, -, stands⟩ := wrapperFor_extends steady alive exports
    rw [same, place]
    exact ⟨.object r, m', toScript_object returns, r, rfl, stands⟩
  cases declared with
  | void => exact ⟨.undefined, m, .pure, rfl⟩
  | _ => exact converted rfl rfl

/-- What native code returns is converted while it is held. -/
theorem holding_brings {r : Routine Fault NativeValue} {vs : List NativeValue} (settled : m.Settled)
    (inside : m.Inside (some s)) (tidy : r.Tidy (some s) (m.holding vs))
    (returned : r.exec (Job.exec Job.routine depth) (m.holding vs) = (.done (.object n), m₁))
    (exports : n.cls.Exports) :
    ∃ x m', (holding vs (do
        let result ← r
        hold result
        s.resultOf declared result)).exec (Job.exec Job.routine depth) m = (.done x, m') ∧
      m'.Brings n.serial (declared.place s.context) x := by
  obtain ⟨holds, held⟩ := m.holding_eq vs
  have settled' : (m.holding vs).Settled := by
    rw [held]
    exact settled.of_same rfl rfl rfl settled.rooted settled.counted
  have inside' : (m.holding vs).Inside (some s) := by
    rw [held]
    exact inside
  obtain ⟨-, ends, -⟩ := tidy.exec (t := (m.holding vs).moment) depth (.of_settled settled') rfl inside'
  rw [show r.exec _ (m.holding vs).moment.machine = _ from returned] at ends
  obtain ⟨settled₁, kept, -⟩ := ends
  -- Native code keeps the scope's context, and holding what it returned changes nothing else.
  obtain ⟨holds', held'⟩ := Action.run_hold m₁ (.object n)
  have settled₂ : ((Action.hold (.object n)).run m₁).2.Settled := Action.settled_run trivial settled₁
  have alive : ((Action.hold (.object n)).run m₁).2.contextAlive s.context = true := by
    rw [held']
    exact (kept.toBalanced.inside inside').contextAlive
  obtain ⟨x, m₃, converts, brings⟩ := resultOf_brings declared ⟨[], settled₂, nofun⟩ alive exports
  have body : (do
      let result ← r
      hold result
      s.resultOf declared result).exec (Job.exec Job.routine depth) (m.holding vs) = (.done x, m₃) :=
    exec_bind_of_done returned (converts _)
  exact ⟨x, (Action.closeHold.run m₃).2, (Runs.holding ⟨rfl, body⟩).ends, brings.of_heap_eq rfl⟩

/-- A native body gives what it returns. -/
theorem runNative_done {job : Runner} {body : Program.Body} {receiver : Receiver} {args : List NativeValue}
    {v : NativeValue} (returns : (job (.perform body receiver args) m).1 = .done (.ok v)) :
    ∃ m₁, (runNative body receiver args).exec job m = (.done v, m₁) := by
  unfold runNative
  rw [exec_enter]
  rcases ran : job (.perform body receiver args) m with ⟨outcome, m₁⟩
  rw [ran] at returns
  subst returns
  exact ⟨m₁, rfl⟩

/-- So does a method that is sent to an object whose class has a body for it. -/
theorem send_done {job : Runner} {body : Program.Body} {h : Handle} {selector : Selector} {args : List NativeValue}
    {v : NativeValue} (implements : h.cls.instanceMethod? selector = some body)
    (returns : (job (.perform body (.object h) args) (m.holding (.object h :: args))).1 = .done (.ok v)) :
    ∃ m₁, (send h selector args).exec job m = (.done v, m₁) := by
  obtain ⟨m₁, ran⟩ := runNative_done returns
  refine ⟨(Action.closeHold.run m₁).2, ?_⟩
  unfold send
  rw [implements]
  exact (Runs.holding ⟨rfl, ran⟩).ends

/-- What the getter of an exported property returns. -/
theorem exportedGet_brings {w : Ref} {p : PropertyDeclaration} {h : Handle} {body : Program.Body} (settled : m.Settled)
    (inside : m.Inside (some s)) (marshalable : p.encoding.isMarshalable = true)
    (behind : m.nativeBehind? (.object w) = some h) (implements : h.cls.instanceMethod? p.getter = some body)
    (returns : (Job.exec Job.routine depth (.perform body (.object h) [])
      ((m.holding []).holding [.object h])).1 = .done (.ok (.object n))) (exports : n.cls.Exports) :
    ∃ x m', (s.exportedGet w p).exec (Job.exec Job.routine depth) m = (.done x, m') ∧
      m'.Brings n.serial (p.encoding.place s.context) x := by
  obtain ⟨_, sent⟩ := send_done implements returns
  obtain ⟨x, m', converted, brings⟩ := holding_brings settled inside send_tidy sent exports
  refine ⟨x, m', ?_, brings⟩
  unfold exportedGet checkEncoding
  rw [if_pos marshalable]
  refine exec_bind_of_done rfl ((exec_look (f := (·.nativeBehind? (.object w))) behind).trans ?_)
  exact converted

/-- What an exported method returns. -/
theorem methodCall_brings {e : ExportedMethod} {cls : Class} {i : Invocation} {h : Handle} {body : Program.Body}
    {converted : List NativeValue} (settled : m.Settled) (inside : m.Inside (some s))
    (arity : i.args.length = e.signature.arity) (marshalable : e.signature.isMarshalable = true)
    (live : m.wrapperState i.this = .live h) (below : h.cls.isSubclassOf cls = true)
    (implements : h.cls.instanceMethod? e.selector = some body)
    (converts : (s.arguments s.objectReading e.signature.args i.args).exec (Job.exec Job.routine depth)
      (m.holding [.object h]) = (.done converted, m₁))
    (returns : (Job.exec Job.routine depth (.perform body (.object h) converted) m₁).1 = .done (.ok (.object n)))
    (exports : n.cls.Exports) :
    ∃ x m', (s.methodCall e cls i).exec (Job.exec Job.routine depth) m = (.done x, m') ∧
      m'.Brings n.serial (e.signature.result.place s.context) x := by
  let answers : Routine Fault NativeValue :=
    s.arguments s.objectReading e.signature.args i.args >>= runNative body (.object h)
  have tidy : answers.Tidy (some s) (m.holding [.object h]) :=
    .bind (arguments_tidy objectReading_tidy) fun _ _ _ _ => runNative_tidy
  obtain ⟨m₂, ran⟩ := runNative_done returns
  have answered : answers.exec (Job.exec Job.routine depth) (m.holding [.object h]) = (.done (.object n), m₂) :=
    exec_bind_of_done converts ran
  obtain ⟨x, m', result, brings⟩ := holding_brings settled inside tidy answered exports
  rw [bind_assoc] at result
  refine ⟨x, m', (checked_runs arity marshalable ⟨rfl, ?_⟩).ends, brings⟩
  refine exec_bind_of_done (instanceReceiver_live live below _) ?_
  dsimp only
  rw [implements]
  exact result

theorem done_raising {α : Type} {job : Runner} {r : Routine Fault α} {a : α} (done : r.exec job m = (.done a, m₁)) :
    (s.raising r).exec job m = (.done a, m₁) := by
  rw [exec_raising, done]

end Scope

/-! ## The routes -/

/-- A route by which scripts get at what native code returns: reading a property, or calling a function. -/
inductive Route where
  | property (target : Ref) (key : String)
  | method (f this : Value) (args : List Value)

namespace Route

variable {a : Route} {s : Scope} {m : Machine} {depth serial : Nat} {place : Option Nat}

/-- What scripts do to take it. -/
def routine (s : Scope) : Route → Routine Thrown Value
  | .property target key => s.get (.object target) key
  | .method f this args => s.call f this args

/-- If the route is taken now in a scope, while native bodies that functions enter may nest so deep, it leads to an
exported property or to a method for whose call there is room, and the native body there returns an object whose class
can be bridged. The place is where its wrapper is wanted. -/
inductive Yields (m : Machine) (s : Scope) (depth : Nat) : Route → Nat → Option Nat → Prop
  | property {w : Ref} {key : String} {p : PropertyDeclaration} {h n : Handle} {body : Program.Body}
    (exported : (m.wrapper? (.object w)).bind (·.table.property? key) = some p)
    (marshalable : p.encoding.isMarshalable = true) (behind : m.nativeBehind? (.object w) = some h)
    (implements : h.cls.instanceMethod? p.getter = some body)
    (returns : (Job.exec Job.routine (depth + 1) (.perform body (.object h) [])
      ((m.holding []).holding [.object h])).1 = .done (.ok (.object n)))
    (exports : n.cls.Exports) : Yields m s depth (.property w key) n.serial (p.encoding.place s.context)
  | method {f this : Value} {args : List Value} {callee : Ref} {data : FunctionData} {e : ExportedMethod} {cls : Class}
    {h n : Handle} {body : Program.Body} {converted : List NativeValue} {m₁ : Machine}
    (function : m.function? f = some (callee, data)) (method : data.callable = .method e cls)
    (room : m.calls.height < m.options.maxCallDepth) (arity : args.length = e.signature.arity)
    (marshalable : e.signature.isMarshalable = true) (behind : m.nativeBehind? this = some h)
    (below : h.cls.isSubclassOf cls = true) (implements : h.cls.instanceMethod? e.selector = some body)
    (converts : m.convertEnd s data ⟨this, callee, args, false⟩ depth ⟨e.signature.args, body, .object h⟩ =
      (.done converted, m₁))
    (returns : (Job.exec Job.routine depth (.perform body (.object h) converted) m₁).1 = .done (.ok (.object n)))
    (exports : n.cls.Exports) :
    Yields m s depth (.method f this args) n.serial (e.signature.result.place (m.callContext s data))

theorem routine_gives : (a.routine s).HandsOut (some s) m := by
  cases a with
  | property target key => exact (Scope.get_gives : (s.get (.object target) key).HandsOut (some s) m)
  | method f this args => exact (Scope.call_gives : (s.call f this args).HandsOut (some s) m)

/-- Each route brings what native code at its end returns. -/
theorem Yields.brings (yields : a.Yields m s depth serial place) (settled : m.Settled) (inside : m.Inside (some s)) :
    ∃ x m', (a.routine s).exec (Job.exec Job.routine (depth + 1)) m = (.done x, m') ∧ m'.Brings serial place x := by
  cases yields with
  | @property w key p h n body exported marshalable behind implements returns exports =>
    obtain ⟨x, m₁, read, brings⟩ :=
      Scope.exportedGet_brings settled inside marshalable behind implements returns exports
    obtain ⟨regions, tracked, -⟩ := Action.run_track m₁ x
    refine ⟨x, ((Action.track x).run m₁).2, ?_, brings.of_heap_eq (by rw [tracked])⟩
    change (s.get (.object w) key).exec _ m = _
    unfold Scope.get
    refine (exec_look (f := (·.wrapper? (.object w))) rfl).trans ?_
    rw [exported]
    exact exec_bind_of_done (Scope.done_raising read) rfl
  | @method f this args callee data e cls h n body converted m₁ function method room arity marshalable behind below
    implements converts returns exports =>
    let i : Invocation := ⟨this, callee, args, false⟩
    let own : Scope := ⟨m.callContext s data⟩
    have live : (m.callStart s data i).wrapperState i.this = .live h :=
      (m.wrapperState_callStart inside).trans (Machine.wrapperState_of_nativeBehind behind)
    obtain ⟨x, m₂, called, brings⟩ := Scope.methodCall_brings (s := own)
      (Scope.settled_callStart settled inside) Scope.inside_callStart arity marshalable live below implements converts
      returns exports
    have ends : (data.callable.routine own i).exec (Job.exec Job.routine depth) (m.callStart s data i) =
        (.done (.ok x), m₂) := by
      rw [method]
      change ((own.raising (own.methodCall e cls i)).attempt : Routine Empty _).exec _ _ = _
      rw [exec_attempt, Scope.done_raising called]
      rfl
    obtain ⟨m', ended, heap, -⟩ := Scope.invoke_ends settled inside room ends
    exact ⟨x, m', exec_bind_of_done (Scope.functionOf_returns function _) ended, brings.of_heap_eq heap⟩

/-- Taken in a scope from a moment on, the route gives a value and leads to another moment between collections, where
the scope is still open. -/
structure Gives (a : Route) (s : Scope) (depth : Nat) (t : Moment) (x : Value) (u : Moment) : Prop where
  ends : (a.routine s).exec (Job.exec Job.routine (depth + 1)) t.machine = (.done x, u.machine)
  within : Moment.Within t.machine.depth t u
  settled : u.finishing = []
  inside : u.machine.Inside (some s)

theorem Yields.gives {t : Moment} (yields : a.Yields t.machine s depth serial place) (sound : t.Sound)
    (settled : t.finishing = []) (inside : t.machine.Inside (some s)) :
    ∃ x u, a.Gives s depth t x u ∧ u.machine.Brings serial place x ∧ u.machine.Recorded x := by
  obtain ⟨x, m', ends, brings⟩ := yields.brings (sound.settled settled) inside
  obtain ⟨⟨u, within, machine, settled'⟩, meets, -⟩ := routine_gives.exec (depth + 1) sound settled inside
  rw [ends] at machine meets
  obtain rfl : u.machine = m' := machine
  obtain ⟨-, kept, recorded⟩ := meets
  exact ⟨x, u, ⟨ends, within, settled', kept.toBalanced.inside inside⟩, brings, recorded⟩

end Route

/-! ## Agreement -/

namespace Moment

variable {t : Moment} {s : Scope} {a : Route} {depth serial : Nat} {place : Option Nat}

/-- Two routes are taken one after the other from the same place, the second one while what the first one gave is kept,
and native code at the end of both returns the same object. Each gives the wrapper of the object in the context where it
is wanted, or undefined where the result has no type. So they give strictly equal values if and only if it is wanted
in the same context, or by neither. -/
theorem Reachable.results_agree (reachable : t.Reachable) (settled : t.finishing = [])
    (inside : t.machine.Inside (some s)) (first : a.Yields t.machine s depth serial place) :
    ∃ x u, a.Gives s depth t x u ∧ ∀ v, Within ⟨u.machine.regions.length, 0⟩ u v → v.finishing = [] →
      v.machine.Inside (some s) → ∀ (b : Route) depth' place', b.Yields v.machine s depth' serial place' →
        ∃ y w, b.Gives s depth' v y w ∧ w.machine.Brings serial place x ∧ w.machine.Brings serial place' y ∧
          (x.strictEquals y = true ↔ place = place') := by
  obtain ⟨x, u, gives, brings, recorded⟩ := first.gives reachable.sound settled inside
  have sound := reachable.sound.leads gives.within.leads
  refine ⟨x, u, gives, fun v later settled' inside' b depth' place' second => ?_⟩
  have sound' := sound.leads later.leads
  obtain ⟨y, w, gives', brings', -⟩ := second.gives sound' settled' inside'
  -- The region that keeps the first value is open until the end of the second route.
  have above : v.machine.Above ⟨u.machine.regions.length, 0⟩ := later.above ⟨Nat.le_refl _, Nat.zero_le _⟩
  have whole : Within ⟨u.machine.regions.length, 0⟩ u w :=
    later.trans (Relation.ReflTransGen.mono (fun _ _ step => ⟨step.1, step.2.of_depth above⟩) _ _ gives'.within)
  have stays := whole.brings sound recorded brings
  exact ⟨y, w, gives', stays, brings', stays.strictEquals_iff (sound'.leads gives'.within.leads).machine brings'⟩

end Moment

/-! ## In one context, and in two -/

/-- The object that a native body returns, if its class can be bridged. -/
def Outcome.object? : Outcome Empty (Except NativeException NativeValue) → Option Handle
  | .done (.ok (.object n)) => if n.cls.ancestors.all fun c => (ExportTable.build c).isOk then some n else none
  | _ => none

theorem Outcome.of_object? {out : Outcome Empty (Except NativeException NativeValue)} {n : Handle}
    (returned : out.object? = some n) : out = .done (.ok (.object n)) ∧ n.cls.Exports := by
  unfold object? at returned
  split at returned
  · split at returned
    · rename_i exports
      cases returned
      exact ⟨rfl, fun c mem => List.all_eq_true.1 exports c mem⟩
    · nomatch returned
  · nomatch returned

namespace Route

variable {a b : Route} {s : Scope} {m : Machine} {depth serial : Nat} {place : Option Nat}

/-- The object that native code at the end of a route returns, and where its wrapper is wanted. -/
def object? (m : Machine) (s : Scope) (depth : Nat) : Route → Option (Nat × Option Nat)
  | .property w key => do
    let p ← (m.wrapper? (.object w)).bind (·.table.property? key)
    let h ← m.nativeBehind? (.object w)
    let body ← h.cls.instanceMethod? p.getter
    let n ← (Job.exec Job.routine (depth + 1) (.perform body (.object h) [])
      ((m.holding []).holding [.object h])).1.object?
    if p.encoding.isMarshalable then some (n.serial, p.encoding.place s.context) else none
  | .method f this args => do
    let (callee, data) ← m.function? f
    let h ← m.nativeBehind? this
    match data.callable with
    | .method e cls =>
      let body ← h.cls.instanceMethod? e.selector
      match m.convertEnd s data ⟨this, callee, args, false⟩ depth ⟨e.signature.args, body, .object h⟩ with
      | (.done converted, m₁) =>
        let n ← (Job.exec Job.routine depth (.perform body (.object h) converted) m₁).1.object?
        if m.calls.height < m.options.maxCallDepth ∧ args.length = e.signature.arity ∧ e.signature.isMarshalable ∧
            h.cls.isSubclassOf cls then
          some (n.serial, e.signature.result.place (m.callContext s data))
        else none
      | _ => none
    | _ => none

theorem yields_of_object? (found : a.object? m s depth = some (serial, place)) : a.Yields m s depth serial place := by
  cases a with
  | property w key =>
    obtain ⟨p, exported, found⟩ := Option.bind_eq_some_iff.1 found
    obtain ⟨h, behind, found⟩ := Option.bind_eq_some_iff.1 found
    obtain ⟨body, implements, found⟩ := Option.bind_eq_some_iff.1 found
    obtain ⟨n, returned, found⟩ := Option.bind_eq_some_iff.1 found
    obtain ⟨returns, exports⟩ := Outcome.of_object? returned
    split at found
    · rename_i marshalable
      cases found
      exact .property exported marshalable behind implements returns exports
    · nomatch found
  | method f this args =>
    obtain ⟨⟨callee, data⟩, function, found⟩ := Option.bind_eq_some_iff.1 found
    obtain ⟨h, behind, found⟩ := Option.bind_eq_some_iff.1 found
    split at found
    · rename_i e cls method
      obtain ⟨body, implements, found⟩ := Option.bind_eq_some_iff.1 found
      split at found
      · rename_i converted m₁ converts
        obtain ⟨n, returned, found⟩ := Option.bind_eq_some_iff.1 found
        obtain ⟨returns, exports⟩ := Outcome.of_object? returned
        split at found
        · rename_i fits
          obtain ⟨room, arity, marshalable, below⟩ := fits
          cases found
          exact .method function method room arity marshalable behind below implements converts returns exports
        · nomatch found
      · nomatch found
    · nomatch found

/-- One route is taken after the other, and the same object comes from native code: whether what they give is strictly
equal. -/
def agree? (a b : Route) (m : Machine) (s : Scope) (depth : Nat) : Option Bool :=
  match (a.routine s).exec (Job.exec Job.routine (depth + 1)) m with
  | (.done x, m') => do
    let first ← a.object? m s depth
    let second ← b.object? m' s depth
    match (b.routine s).exec (Job.exec Job.routine (depth + 1)) m' with
    | (.done y, _) => if first.1 = second.1 then some (x.strictEquals y) else none
    | _ => none
  | _ => none

theorem of_agree? {equal : Bool} (agree : a.agree? b m s depth = some equal) :
    ∃ serial place place' x m' y m'', a.Yields m s depth serial place ∧ b.Yields m' s depth serial place' ∧
      (a.routine s).exec (Job.exec Job.routine (depth + 1)) m = (.done x, m') ∧
      (b.routine s).exec (Job.exec Job.routine (depth + 1)) m' = (.done y, m'') ∧ x.strictEquals y = equal := by
  unfold agree? at agree
  split at agree
  · rename_i x m' ends
    obtain ⟨⟨serial, place⟩, first, agree⟩ := Option.bind_eq_some_iff.1 agree
    obtain ⟨⟨serial', place'⟩, second, agree⟩ := Option.bind_eq_some_iff.1 agree
    split at agree
    · rename_i y m'' ends'
      split at agree
      · rename_i same
        obtain rfl : serial = serial' := same
        exact ⟨serial, place, place', x, m', y, m'', yields_of_object? first, yields_of_object? second, ends, ends',
          Option.some.inj agree⟩
      · nomatch agree
    · nomatch agree
  · nomatch agree

end Route

namespace Session

open Program (Step)

/-- An object has a property and a method that return it itself. Its wrapper is made in one context, where the method is
looked up, and then the method is looked up in another one. -/
def asked : List Step :=
  [.machine (.newContext "a") none, .machine (.newContext "b") none,
    .machine (.protocol "P" "P" [] true [.readonly "p" "@", .method "m" "@@:"]) none,
    .declareClass "K" "K" none ["P"] [("p", self), ("m", self)] [] false,
    .native (.bind (.create (.key "K") [])) (some "o"),
    .execute "a" [.bridge (.wrap (.register "o")) (some "w"), .script (.get (.register "w") "m") (some "f")],
    .execute "b" [.script (.get (.register "w") "m") (some "f")]]
where
  self : Program.Body := [.returnNative .receiver]

/-- In a context, the wrapper and the function are in registers: whether property and method give strictly equal
values. -/
def isAsked (id : Nat) (equal : Bool) (x : Point) : Bool :=
  x.machine.regions.any (·.context == id) && ((x.machine.tables.scripts.get? "w").bind Value.ref?).any fun w =>
    (x.machine.tables.scripts.get? "f").any fun f =>
      (Route.property w "p").agree? (.method f (.object w) []) x.machine ⟨id⟩ 1 == some equal

theorem of_isAsked {id : Nat} {equal : Bool} {x : Point} (is : isAsked id equal x = true) :
    x.machine.Inside (some ⟨id⟩) ∧ ∃ w f,
      (Route.property w "p").agree? (.method f (.object w) []) x.machine ⟨id⟩ 1 = some equal := by
  simp only [isAsked, Bool.and_eq_true, List.any_eq_true, Option.any_eq_true, beq_iff_eq] at is
  obtain ⟨⟨⟨context, handles⟩, mem, rfl⟩, w, -, f, -, agree⟩ := is
  exact ⟨Machine.inside_of_mem _ mem, w, f, agree⟩

/-- In the context of the wrapper, property and method give the same value. -/
theorem results_agree_asked : ∃ x ∈ points {} 0 asked 3, ∃ (t u v : Moment) (w : Ref) (f y z : Value) (serial : Nat)
    (place : Option Nat), t.machine = x.machine ∧
      (Route.property w "p").Yields t.machine ⟨0⟩ 1 serial place ∧ (Route.property w "p").Gives ⟨0⟩ 1 t y u ∧
      (Route.method f (.object w) []).Yields u.machine ⟨0⟩ 1 serial place ∧
      (Route.method f (.object w) []).Gives ⟨0⟩ 1 u z v ∧ y.strictEquals z = true := by
  obtain ⟨x, mem, is⟩ : ∃ x ∈ points {} 0 asked 3, isAsked 0 true x = true := by decide +kernel
  obtain ⟨inside, w, f, agree⟩ := of_isAsked is
  obtain ⟨serial, place, place', y, m', z, m'', first, second, ends, ends', equal⟩ := Route.of_agree? agree
  obtain ⟨t, leads, settled, machine⟩ := reachable_points mem
  rw [← machine] at inside first ends
  have reachable : t.Reachable := ⟨{}, 0, leads⟩
  obtain ⟨y', u, gives, agrees⟩ := reachable.results_agree settled inside first
  obtain ⟨rfl, rfl⟩ : y' = y ∧ u.machine = m' := by
    have same := gives.ends.symm.trans ends
    exact ⟨Outcome.done.inj (congrArg Prod.fst same), congrArg Prod.snd same⟩
  obtain ⟨z', v, gives', -, -, equal_iff⟩ := agrees u .refl gives.settled gives.inside _ _ _ second
  obtain rfl : z' = z := Outcome.done.inj (congrArg Prod.fst (gives'.ends.symm.trans ends'))
  obtain rfl : place = place' := equal_iff.1 equal
  exact ⟨x, mem, t, u, v, w, f, y', z', serial, place, machine, first, gives, second, gives', equal⟩

/-- In the other one they do not, though native code returns the same object. -/
theorem results_differ_asked : ∃ x ∈ points {} 0 asked 3, ∃ w f serial place place' y m' z m'',
    x.machine.Inside (some ⟨1⟩) ∧ (Route.property w "p").Yields x.machine ⟨1⟩ 1 serial place ∧
    (Route.method f (.object w) []).Yields m' ⟨1⟩ 1 serial place' ∧
    ((Route.property w "p").routine ⟨1⟩).exec (Job.exec Job.routine 2) x.machine = (.done y, m') ∧
    ((Route.method f (.object w) []).routine ⟨1⟩).exec (Job.exec Job.routine 2) m' = (.done z, m'') ∧
    y.strictEquals z = false := by
  obtain ⟨x, mem, is⟩ : ∃ x ∈ points {} 0 asked 3, isAsked 1 false x = true := by decide +kernel
  obtain ⟨inside, w, f, agree⟩ := of_isAsked is
  obtain ⟨serial, place, place', y, m', z, m'', differs⟩ := Route.of_agree? agree
  exact ⟨x, mem, w, f, serial, place, place', y, m', z, m'', inside, differs⟩

end Session

end ScriptBridge
