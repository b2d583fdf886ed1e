import ScriptBridge.Proofs.Discreet.Operations
import ScriptBridge.Proofs.Released
import ScriptBridge.Proofs.Steps

/-!
# What a call runs

A function of the bridge has a native body to run, its target, if the call is of the right form: the number of
arguments, the types, the receiver, and a class that implements the method. The target runs once the arguments are
converted, and at most once; a call of another form runs nothing, and neither does one whose arguments are refused.

* `Target`, `Callable.Targets`, `Callable.Makes`, `Callable.Releases`: the forms of calls.
* `Machine.Marshals`: no function stands for a closure whose types cannot cross the bridge.
* `Machine.Dispatches`: what a call enters, and how it ends where no target runs.
* `Session.dispatches_calls`: every call at every point of a session.
* `Session.unreached_beyond_depth`: a call that the options do not allow runs nothing, whatever its form.

Proof-only: not reachable from `ScriptBridge.Session.Run`.
-/

namespace ScriptBridge

open Routine

/-! ## Forms of calls -/

/-- A native body that a call is to run: on what, and with arguments of which types. -/
structure Target where
  types : List Encoding
  body : Program.Body
  receiver : Receiver

/-- The target of a call of a function, in a scope. -/
inductive Callable.Targets (m : Machine) (s : Scope) (i : Invocation) : Callable → Target → Prop
  /-- A method runs on a live object of its class or of a subclass, with the body of the nearest class. -/
  | method {e : ExportedMethod} {cls : Class} {h : Handle} {body : Program.Body}
    (arity : i.args.length = e.signature.arity) (marshalable : e.signature.isMarshalable = true)
    (live : m.wrapperState i.this = .live h) (below : h.cls.isSubclassOf cls = true)
    (implements : h.cls.instanceMethod? e.selector = some body) :
    Targets m s i (.method e cls) ⟨e.signature.args, body, .object h⟩
  /-- A class method runs on its class, or on the subclass whose constructor it is called on. -/
  | classMethod {e : ExportedMethod} {cls : Class} {body : Program.Body}
    (arity : i.args.length = e.signature.arity) (marshalable : e.signature.isMarshalable = true)
    (implements : (m.classReceiver s cls i.this).classMethod? e.selector = some body) :
    Targets m s i (.classMethod e cls) ⟨e.signature.args, body, .classRef (m.classReceiver s cls i.this)⟩
  /-- A constructor runs the first initializer for the number of its arguments. -/
  | initializer {cls : Class} {table : ExportTable} {e : ExportedMethod} {body : Program.Body}
    (new : i.construct = true) (first : table.initializer? i.args.length = some e)
    (marshalable : e.signature.isMarshalable = true) (implements : cls.classMethod? e.selector = some body) :
    Targets m s i (.constructor cls table) ⟨e.signature.args, body, .classRef cls⟩
  | closure {c : Closure} (arity : i.args.length = c.signature.arity) (marshalable : c.signature.isMarshalable = true) :
    Targets m s i (.closure c) ⟨c.signature.args, c.body, .nothing⟩

/-- A call is one of a constructor without arguments, which lets the class make an object by itself. -/
inductive Callable.Makes (i : Invocation) : Callable → Program.Body → Class → Prop
  | constructor {cls : Class} {table : ExportTable} {body : Program.Body} (new : i.construct = true)
    (bare : i.args = []) (none : table.initializer? 0 = none) (factory : cls.factory = some body) :
    Makes i (.constructor cls table) body cls

/-- A call is one of a method, of the right form but for its receiver, whose object is gone. -/
inductive Callable.Releases (m : Machine) (i : Invocation) : Callable → Prop
  | method {e : ExportedMethod} {cls : Class} {name : String} (arity : i.args.length = e.signature.arity)
    (marshalable : e.signature.isMarshalable = true) (released : m.wrapperState i.this = .released name) :
    Releases m i (.method e cls)

/-- Such a call gives undefined. -/
theorem Callable.Releases.returns {m : Machine} {s : Scope} {i : Invocation} {f : Callable} (releases : f.Releases m i) :
    (f.routine s i).Returns m (.ok .undefined) m := by
  obtain ⟨arity, marshalable, released⟩ := releases
  exact (Scope.raising_returns (Scope.methodCall_released released arity marshalable)).attempt

theorem Callable.Releases.of_same {m m' : Machine} {i : Invocation} {f : Callable}
    (state : m'.wrapperState i.this = m.wrapperState i.this) (releases : f.Releases m i) : f.Releases m' i := by
  obtain ⟨arity, marshalable, released⟩ := releases
  exact .method arity marshalable (state.trans released)

/-- Nothing else of a machine matters for a target. -/
theorem Callable.Targets.of_same {m m' : Machine} {s : Scope} {i : Invocation} {f : Callable} {T : Target}
    (state : m'.wrapperState i.this = m.wrapperState i.this)
    (receiver : ∀ cls, m'.classReceiver s cls i.this = m.classReceiver s cls i.this) (targets : f.Targets m s i T) :
    f.Targets m' s i T := by
  cases targets with
  | method arity marshalable live below implements =>
    exact .method arity marshalable (state.trans live) below implements
  | @classMethod e cls body arity marshalable implements =>
    rw [← receiver] at implements ⊢
    exact .classMethod arity marshalable implements
  | initializer new first marshalable implements => exact .initializer new first marshalable implements
  | closure arity marshalable => exact .closure arity marshalable

/-! ## Closures with functions -/

/-- The types of closures that have functions can cross the bridge. -/
def Machine.Marshals (m : Machine) : Prop := ∀ r o, m.object? r = some o → o.Marshals

theorem Action.Proper.marshals {β : Type} {a : Action β} {m : Machine} {o : Object} (proper : a.Proper m)
    (stores : a.stores? = some o) : o.Marshals := by
  intro f c function closure
  cases a with
  | allocate p =>
    obtain rfl : p = o := Option.some.inj stores
    obtain ⟨name, callable, id⟩ := f
    obtain rfl : callable = .closure c := closure
    have twin := Object.twin?_eq_some.2 (.inr ⟨name, c, Object.payload_of_function? function, rfl⟩)
    exact (Option.some_ne_none _ (twin.symm.trans proper.legal)).elim
  | addWrapper id key p =>
    obtain rfl : p = o := Option.some.inj stores
    exact proper.careful.2.1 f c function closure
  | _ => exact (Option.some_ne_none _ stores.symm).elim

theorem Point.Step.marshals {x y : Point} (step : x.Step y) (marshals : x.machine.Marshals) : y.machine.Marshals := by
  intro r o' after
  -- An object is the one that it was before but for an edit, which makes no function, or it is new.
  rcases step.object? after with ⟨o, there, rfl | ⟨e, -, -, rfl⟩⟩ | ⟨-, β, a, -, proper, stores⟩
  · exact marshals r o' there
  · exact fun f c function => marshals r o there f c (o.function?_edit e ▸ function)
  · exact proper.marshals stores

theorem Session.marshals_points {options : Options} {now : Int} {steps : List Program.Step} {depth : Nat} {x : Point}
    (mem : x ∈ points options now steps depth) : x.machine.Marshals := by
  obtain ⟨before, after, split⟩ := List.append_of_mem mem
  refine points_induct (P := fun _ m => m.Marshals) (fun r o there => ?_) (fun _ _ _ _ _ step => step.marshals) split
  simp [Machine.object?, Heap.get?] at there

/-! ## Runs of functions of the bridge -/

/-- A machine that holds a group of native values from now on. -/
def Machine.holding (m : Machine) (vs : List NativeValue) : Machine :=
  vs.foldl (fun m v => ((Action.hold v).run m).2) (Action.openHold.run m).2

/-- Holding values changes nothing but what is held. -/
theorem Machine.holding_eq (m : Machine) (vs : List NativeValue) : ∃ holds, m.holding vs = { m with holds } := by
  suffices held : ∀ m' : Machine, ∃ holds, vs.foldl (fun m v => ((Action.hold v).run m).2) m' = { m' with holds } from
    held { m with holds := [] :: m.holds }
  induction vs with
  | nil => exact fun m' => ⟨m'.holds, rfl⟩
  | cons v vs ih =>
    intro m'
    obtain ⟨holds, held⟩ := Action.run_hold m' v
    obtain ⟨holds', eq⟩ := ih { m' with holds }
    exact ⟨holds', by rw [List.foldl_cons, held, eq]⟩

section

variable {ε α : Type} {r : Routine ε α} {vs : List NativeValue} {job : Runner} {m : Machine} {jobs : List Entered}
  {out : Outcome ε α × Machine}

theorem Routine.Runs.held (run : r.Runs job (vs.foldl (fun m v => ((Action.hold v).run m).2) m) jobs out) :
    (vs.foldr (fun v rest => Routine.act (.hold v) fun _ => rest) r).Runs job m jobs out := by
  induction vs generalizing m with
  | nil => exact run
  | cons v vs ih => exact ⟨(ih run).entered, (ih run).ends⟩

/-- A routine runs while a group of values is held. -/
theorem Routine.Runs.holding (run : r.Runs job (m.holding vs) jobs out) :
    (Routine.holding vs r).Runs job m jobs (Outcome.closing (fun _ => .closeHold) out) := by
  have closed : ((vs.foldr (fun v rest => Routine.act (.hold v) fun _ => rest) r).ensuring fun _ => .closeHold).Runs
      job _ jobs (Outcome.closing (fun _ => .closeHold) out) := (held run).ensuring
  exact ⟨closed.entered, closed.ends⟩

end

/-- The routine runs no native code: neither a body nor a factory. -/
structure Routine.Quiet {ε α : Type} [Fails ε] (r : Routine ε α) : Prop where
  contains : r.Contains true
  discreet : r.Discreet (fun _ => True) true

/-- Neither a native body nor a factory. -/
def Entered.IsQuiet (x : Entered) : Prop := x.job.isNative = false ∧ x.job.isFactory = false

section

variable {ε α β : Type} [Fails ε] {job : Runner} {m m₁ : Machine}

theorem Routine.Quiet.pure {a : α} : (Pure.pure a : Routine ε α).Quiet := ⟨.pure, .pure⟩

theorem Routine.Quiet.entered {r : Routine ε α} (quiet : r.Quiet) (keeps : Runner.Keeps job) (heap : m.heap.Sound) :
    ∀ x ∈ r.entered job m, x.IsQuiet := fun x mem =>
  ⟨(quiet.contains job keeps m heap).hosts rfl x mem, quiet.discreet.makes_nothing job m x mem⟩

/-- What comes next may add quiet jobs. -/
theorem Routine.Runs.andQuiet {r : Routine ε α} {next : α → Routine ε β} {jobs : List Entered}
    {out : Outcome ε α × Machine} (keeps : Runner.Keeps job) (heap : m.heap.Sound) (run : r.Runs job m jobs out)
    (quiet : ∀ a, (next a).Quiet) :
    ∃ after out', (r >>= next).Runs job m (jobs ++ after) out' ∧ ∀ x ∈ after, x.IsQuiet := by
  have heap' := r.exec_heap keeps heap
  rw [run.ends] at heap'
  obtain ⟨outcome, m₁⟩ := out
  cases outcome with
  | done a =>
    exact ⟨_, _, run.after (.self (next a) job m₁), (quiet a).entered keeps heap'⟩
  | thrown e => exact ⟨[], _, (List.append_nil jobs).symm ▸ run.thrown, fun _ mem => absurd mem List.not_mem_nil⟩
  | panicked p => exact ⟨[], _, (List.append_nil jobs).symm ▸ run.panicked, fun _ mem => absurd mem List.not_mem_nil⟩
  | exhausted => exact ⟨[], _, (List.append_nil jobs).symm ▸ run.exhausted, fun _ mem => absurd mem List.not_mem_nil⟩

end

namespace Scope

variable {α : Type} {s : Scope} {job : Runner} {m m₁ : Machine} {r : Routine Fault α} {jobs : List Entered}

/-- Raising a fault enters nothing. -/
theorem runs_raising {out : Outcome Fault α × Machine} (run : r.Runs job m jobs out) :
    (s.raising r).Runs job m jobs ((s.raising r).exec job m) := by
  refine ⟨?_, rfl⟩
  unfold raising
  refine (entered_bind_of_none fun result m => ?_).trans run.attempt.entered
  cases result with
  | ok a => rfl
  | error fault => exact (Contains.raise_throws job s fault m).1

/-- A native body is entered once. -/
theorem runs_runNative {body : Program.Body} {receiver : Receiver} {args : List NativeValue} :
    (runNative body receiver args).Runs job m [⟨.perform body receiver args, (job (.perform body receiver args) m).1⟩]
      ((runNative body receiver args).exec job m) := by
  refine ⟨?_, rfl⟩
  unfold runNative
  rw [entered_enter]
  rcases job (.perform body receiver args) m with ⟨outcome, m₁⟩
  cases outcome with
  | done result => cases result <;> rfl
  | thrown e => nomatch e
  | panicked p => rfl
  | exhausted => rfl

end Scope

/-! ## Targets -/

namespace Target

open Scope (runNative)

variable {T : Target} {s : Scope} {args : List Value} {job : Runner} {m m₁ : Machine} {x : Routine Fault Value}

/-- What is held while a target runs. -/
def held (T : Target) : List NativeValue :=
  match T.receiver with
  | .object h => [.object h]
  | .classRef _ | .nothing => []

/-- The conversion of the arguments for a target. -/
def converts (T : Target) (s : Scope) (args : List Value) : Routine Fault (List NativeValue) :=
  s.arguments s.objectReading T.types args

/-- A routine converts the arguments for a target and runs it. What it does then runs no native code. -/
def Leads (T : Target) (s : Scope) (args : List Value) (m : Machine) (x : Routine Fault Value) : Prop :=
  -- `rest` is done while the receiver is held, `last` afterwards: a constructor makes the wrapper only then.
  ∃ (γ : Type) (rest : NativeValue → Routine Fault γ) (last : γ → Routine Fault Value),
    (∀ v, (rest v).Quiet) ∧ (∀ c, (last c).Quiet) ∧ ∀ (job : Runner) jobs out,
      (holding T.held (T.converts s args >>= fun converted => runNative T.body T.receiver converted >>= rest) >>=
        last).Runs job m jobs out → x.Runs job m jobs out

/-- Once the arguments are converted the target runs, and no other native code after that. -/
theorem Leads.runs {converted : List NativeValue} (leads : T.Leads s args m x) (keeps : Runner.Keeps job)
    (heap : m.heap.Sound) (done : (T.converts s args).exec job (m.holding T.held) = (.done converted, m₁)) :
    ∃ after out, x.Runs job m ((T.converts s args).entered job (m.holding T.held) ++
      ⟨.perform T.body T.receiver converted, (job (.perform T.body T.receiver converted) m₁).1⟩ :: after) out ∧
      ∀ y ∈ after, y.IsQuiet := by
  obtain ⟨γ, rest, last, restQuiet, lastQuiet, leads⟩ := leads
  have heap₀ : (m.holding T.held).heap.Sound := by
    obtain ⟨_, same⟩ := m.holding_eq T.held
    rwa [same]
  have heap₁ : m₁.heap.Sound := by
    have sound := (T.converts s args).exec_heap keeps heap₀
    rwa [done] at sound
  have native : (runNative T.body T.receiver converted).Runs job m₁ _ _ := Scope.runs_runNative
  obtain ⟨after, out, ran, quiet⟩ := native.andQuiet keeps heap₁ restQuiet
  have inner := Runs.holding (Runs.after (f := fun converted => runNative T.body T.receiver converted >>= rest)
    ⟨rfl, done⟩ ran)
  obtain ⟨more, out', whole, quiet'⟩ := inner.andQuiet keeps heap lastQuiet
  refine ⟨after ++ more, out', ?_, fun y mem => (List.mem_append.1 mem).elim (quiet y) (quiet' y)⟩
  have whole := leads job _ _ whole
  rwa [List.append_assoc] at whole

/-- Arguments that are refused end it. -/
theorem Leads.refused {fault : Fault} (leads : T.Leads s args m x)
    (refused : (T.converts s args).exec job (m.holding T.held) = (.thrown fault, m₁)) :
    x.Runs job m ((T.converts s args).entered job (m.holding T.held)) (.thrown fault, (Action.closeHold.run m₁).2) := by
  obtain ⟨γ, rest, last, -, -, leads⟩ := leads
  exact leads job _ _ (Runs.thrown (Runs.holding (.thrown ⟨rfl, refused⟩)))

theorem Leads.panicked {p : Panic} (leads : T.Leads s args m x)
    (panicked : (T.converts s args).exec job (m.holding T.held) = (.panicked p, m₁)) :
    x.Runs job m ((T.converts s args).entered job (m.holding T.held)) (.panicked p, (Action.closeHold.run m₁).2) := by
  obtain ⟨γ, rest, last, -, -, leads⟩ := leads
  exact leads job _ _ (Runs.panicked (Runs.holding (.panicked ⟨rfl, panicked⟩)))

theorem Leads.exhausted (leads : T.Leads s args m x)
    (exhausted : (T.converts s args).exec job (m.holding T.held) = (.exhausted, m₁)) :
    x.Runs job m ((T.converts s args).entered job (m.holding T.held)) (.exhausted, m₁) := by
  obtain ⟨γ, rest, last, -, -, leads⟩ := leads
  exact leads job _ _ (Runs.exhausted (Runs.holding (.exhausted ⟨rfl, exhausted⟩)))

end Target

/-! ## What functions do -/

namespace Scope

theorem instanceReceiver_live {m : Machine} {e : ExportedMethod} {cls : Class} {this : Value} {h : Handle}
    (live : m.wrapperState this = .live h) (below : h.cls.isSubclassOf cls = true) :
    (instanceReceiver e cls this).Returns m (some h) m := by
  unfold instanceReceiver
  refine .look ?_
  simp only [live, below, if_true]
  exact .pure

/-- A method is called on a released wrapper or an object of its class, or the receiver is refused. -/
theorem instanceReceiver_cases (m : Machine) (e : ExportedMethod) (cls : Class) (this : Value) :
    (∃ name, m.wrapperState this = .released name) ∨
      (∃ h, m.wrapperState this = .live h ∧ h.cls.isSubclassOf cls = true) ∨
      ∃ e', (instanceReceiver e cls this).Throws m (.dispatch e') m := by
  rcases state : m.wrapperState this with _ | name | h
  · refine .inr (.inr ⟨.invalidReceiver e.selector, .look ?_⟩)
    rw [state]
    exact .throw
  · exact .inl ⟨name, rfl⟩
  · rcases below : h.cls.isSubclassOf cls with _ | _
    · refine .inr (.inr ⟨.invalidReceiver e.selector, .look ?_⟩)
      simp only [state, below, Bool.false_eq_true, if_false]
      exact .throw
    · exact .inr (.inl ⟨h, rfl, below⟩)

variable {s : Scope} {cls : Class} {table : ExportTable} {i : Invocation} {body : Program.Body}

/-- What passes the checks of the number and the types of the arguments goes on. -/
theorem checked_runs {job : Runner} {m : Machine} {jobs : List Entered} {out : Outcome Fault Value × Machine}
    {e : ExportedMethod} {got : Nat} {rest : Routine Fault Value} (arity : got = e.signature.arity)
    (marshalable : e.signature.isMarshalable = true) (run : rest.Runs job m jobs out) :
    (do
      checkArity e.name e.signature.arity got
      checkSignature e
      rest : Routine Fault Value).Runs job m jobs out := by
  unfold checkArity checkSignature
  rw [if_pos arity.symm, if_pos marshalable]
  exact Runs.after (.of_returns .pure) (Runs.after (.of_returns .pure) run)

/-- What a constructor makes of what its initializer gave for so many arguments. -/
def constructed (s : Scope) (cls : Class) (table : ExportTable) (arity : Nat) : NativeValue → Routine Fault Value
  | .object h => s.wrapperFor h
  | _ => .throw (.dispatch (.initializerFailed cls.name ((table.initializer? arity).elim "new" (·.selector.name))))

theorem constructed_quiet {arity : Nat} (v : NativeValue) : (s.constructed cls table arity v).Quiet := by
  cases v with
  | object h => exact ⟨wrapperFor_contains, wrapperFor_discreet.any⟩
  | _ => exact ⟨.throw, .throw trivial⟩

theorem constructorCall_of_new (new : i.construct = true) : s.constructorCall cls table i =
    holding [] (s.newInstance cls table i.args) >>= s.constructed cls table i.args.length := by
  unfold constructorCall
  simp only [new, Bool.not_true, Bool.false_eq_true, if_false]
  refine congrArg (holding [] (s.newInstance cls table i.args) >>= ·) (funext fun v => ?_)
  cases v <;> rfl

/-- Without arguments and an initializer for that, the class makes an object by itself. -/
theorem newInstance_makes (none : table.initializer? 0 = none) (factory : cls.factory = some body) :
    s.newInstance cls table [] = Routine.job (.make body cls) >>= fun h => pure (.object h) := by
  unfold newInstance instantiate
  simp only [List.length_nil, none, List.isEmpty_nil, if_true, factory, bind_assoc, pure_bind]
  rfl

end Scope

/-- A call that has a target leads to it. -/
theorem Callable.Targets.leads {f : Callable} {T : Target} {m : Machine} {s : Scope} {i : Invocation}
    (targets : f.Targets m s i T) : ∃ x, f.routine s i = (s.raising x).attempt ∧ T.Leads s i.args m x := by
  have result (declared : Encoding) (v : NativeValue) : (do hold v; s.resultOf declared v : Routine Fault Value).Quiet :=
    ⟨.bind .hold fun _ => Scope.resultOf_contains, .bind .hold fun _ => Scope.resultOf_discreet.any⟩
  cases targets with
  | @method e cls h body arity marshalable live below implements =>
    refine ⟨s.methodCall e cls i, rfl, _, _, pure, result e.signature.result, fun _ => .pure, fun job jobs out run => ?_⟩
    have receiver := Scope.instanceReceiver_live (e := e) live below
    rw [bind_pure] at run
    refine Scope.checked_runs arity marshalable (Runs.after (.of_returns receiver) ?_)
    dsimp only
    rw [implements]
    exact run
  | @classMethod e cls body arity marshalable implements =>
    refine ⟨s.classMethodCall e cls i, rfl, _, _, pure, result e.signature.result, fun _ => .pure, fun job jobs out run => ?_⟩
    rw [bind_pure] at run
    have receiver : (s.classReceiver cls i.this).Returns m _ m := Scope.classReceiver_returns
    refine Scope.checked_runs arity marshalable (Runs.after (.of_returns receiver) ?_)
    rw [implements]
    exact run
  | @initializer cls table e body new first marshalable implements =>
    refine ⟨s.constructorCall cls table i, rfl, _, pure, s.constructed cls table i.args.length, fun _ => .pure,
      Scope.constructed_quiet, fun job jobs out run => ?_⟩
    rw [Scope.constructorCall_of_new new, Scope.newInstance_initializer first marshalable implements]
    simp only [bind_pure] at run
    exact run
  | @closure c arity marshalable =>
    refine ⟨s.closureCall c i, rfl, _, _, pure, result c.signature.result, fun _ => .pure, fun job jobs out run => ?_⟩
    rw [bind_pure] at run
    unfold Scope.closureCall Scope.checkArity
    rw [if_pos arity.symm]
    exact Runs.after (.of_returns .pure) run

/-- A call that lets a class make an object enters the factory, and nothing native after that. -/
theorem Callable.Makes.runs {f : Callable} {body : Program.Body} {cls : Class} {job : Runner} {m : Machine} {s : Scope}
    {i : Invocation} (makes : f.Makes i body cls) (keeps : Runner.Keeps job) (heap : m.heap.Sound) :
    ∃ x, f.routine s i = (s.raising x).attempt ∧ ∃ after out,
      x.Runs job m (⟨.make body cls, (job (.make body cls) (m.holding [])).1⟩ :: after) out ∧
        ∀ y ∈ after, y.IsQuiet := by
  cases makes with
  | @constructor cls table body new bare none factory =>
    refine ⟨s.constructorCall cls table i, rfl, ?_⟩
    rw [Scope.constructorCall_of_new new, bare, Scope.newInstance_makes none factory]
    have entered : (Routine.job (.make body cls) : Routine Fault Handle).Runs job (m.holding [])
        [⟨.make body cls, (job (.make body cls) (m.holding [])).1⟩] _ := ⟨entered_job job _ _, rfl⟩
    -- The factory runs while a group is held, and the object is wrapped after that.
    have heap' : (m.holding []).heap.Sound := heap
    obtain ⟨after, out, made, quiet⟩ := entered.andQuiet keeps heap' fun h => .pure (a := NativeValue.object h)
    obtain ⟨more, out', wrapped, quiet'⟩ := made.holding.andQuiet keeps heap (Scope.constructed_quiet (s := s))
    refine ⟨after ++ more, out', ?_, fun y mem => (List.mem_append.1 mem).elim (quiet y) (quiet' y)⟩
    rwa [List.append_assoc] at wrapped

/-! ## What functions refuse -/

namespace Scope

variable {m : Machine} {s : Scope} {i : Invocation} {e : ExportedMethod} {cls : Class}

/-- What is refused after the number and the types of the arguments were checked, is refused. -/
theorem checked_refuses {got : Nat} {rest : Routine Fault Value}
    (refuses : got = e.signature.arity → e.signature.isMarshalable = true → ∃ e', rest.Throws m (.dispatch e') m) :
    ∃ e', (do
      checkArity e.name e.signature.arity got
      checkSignature e
      rest : Routine Fault Value).Throws m (.dispatch e') m := by
  unfold checkArity checkSignature
  split
  · rename_i arity
    split
    · rename_i marshalable
      obtain ⟨e', throws⟩ := refuses arity.symm marshalable
      exact ⟨e', .after .pure (.after .pure throws)⟩
    · exact ⟨_, .after .pure (.bind .throw)⟩
  · exact ⟨_, .bind .throw⟩

theorem methodCall_refuses (noTarget : ∀ T, ¬(Callable.method e cls).Targets m s i T)
    (kept : ¬(Callable.method e cls).Releases m i) : ∃ e', (s.methodCall e cls i).Throws m (.dispatch e') m := by
  refine checked_refuses fun arity marshalable => ?_
  obtain ⟨name, released⟩ | ⟨h, live, below⟩ | ⟨e', throws⟩ := instanceReceiver_cases m e cls i.this
  · exact absurd (.method arity marshalable released) kept
  · rcases implements : h.cls.instanceMethod? e.selector with _ | body
    · refine ⟨.missingImplementation h.cls.name e.selector, .after (instanceReceiver_live live below) ?_⟩
      dsimp only
      rw [implements]
      exact .bind .throw
    · exact absurd (.method arity marshalable live below implements) (noTarget _)
  · exact ⟨e', throws.bind⟩

theorem classMethodCall_refuses (noTarget : ∀ T, ¬(Callable.classMethod e cls).Targets m s i T) :
    ∃ e', (s.classMethodCall e cls i).Throws m (.dispatch e') m := by
  refine checked_refuses fun arity marshalable => ?_
  rcases implements : (m.classReceiver s cls i.this).classMethod? e.selector with _ | body
  · refine ⟨.missingImplementation (m.classReceiver s cls i.this).name e.selector, .after classReceiver_returns ?_⟩
    rw [implements]
    exact .bind .throw
  · exact absurd (.classMethod arity marshalable implements) (noTarget _)

theorem closureCall_refuses {c : Closure} (marshalable : c.signature.isMarshalable = true)
    (noTarget : ∀ T, ¬(Callable.closure c).Targets m s i T) :
    ∃ e', (s.closureCall c i).Throws m (.dispatch e') m := by
  unfold closureCall checkArity
  split
  · rename_i arity
    exact absurd (.closure arity.symm marshalable) (noTarget _)
  · exact ⟨_, Throws.throw.bind⟩

theorem newInstance_refuses {table : ExportTable} (new : i.construct = true)
    (noTarget : ∀ T, ¬(Callable.constructor cls table).Targets m s i T)
    (noFactory : ∀ body c, ¬(Callable.constructor cls table).Makes i body c) (m' : Machine) :
    ∃ e', (s.newInstance cls table i.args).Throws m' (.dispatch e') m' := by
  unfold newInstance checkSignature
  rcases found : table.initializer? i.args.length with _ | e
  · -- Nothing is made: there are arguments, or the class has no factory.
    have none (args : List Value) : (pure none >>= selfMade cls args.length : Routine Fault NativeValue).Throws m'
      (.dispatch (.noInitializer cls.name args.length)) m' := .after .pure .throw
    rcases bare : i.args with _ | ⟨v, vs⟩
    · rcases factory : cls.factory with _ | body
      · unfold instantiate
        simp only [List.isEmpty_nil, if_true, factory]
        exact ⟨_, none []⟩
      · exact absurd (.constructor new bare (by rw [bare] at found; exact found) factory) (noFactory _ _)
    · exact ⟨_, none (v :: vs)⟩
  · dsimp only
    split
    · rename_i marshalable
      rcases implements : cls.classMethod? e.selector with _ | body
      · exact ⟨_, .after .pure (.bind .throw)⟩
      · exact absurd (.initializer new found marshalable implements) (noTarget _)
    · exact ⟨_, .bind .throw⟩

theorem constructorCall_refuses {table : ExportTable}
    (noTarget : ∀ T, ¬(Callable.constructor cls table).Targets m s i T)
    (noFactory : ∀ body c, ¬(Callable.constructor cls table).Makes i body c) :
    ∃ e', (s.constructorCall cls table i).Throws m (.dispatch e') m := by
  rcases new : i.construct with _ | _
  · refine ⟨.constructorWithoutNew cls.name, ?_⟩
    unfold constructorCall
    rw [new]
    exact .throw
  · obtain ⟨e', throws⟩ := newInstance_refuses new noTarget noFactory (m.holding [])
    rw [constructorCall_of_new new]
    exact ⟨e', .bind fun job => (Runs.holding (.of_throws throws)).ends⟩

end Scope

/-- A call of no form is refused as it is, and changes nothing. -/
theorem Callable.refuses {f : Callable} {m : Machine} {s : Scope} {i : Invocation} (bridged : f.isBridged = true)
    (closures : ∀ c, f = .closure c → c.signature.isMarshalable = true) (noTarget : ∀ T, ¬f.Targets m s i T)
    (noFactory : ∀ body cls, ¬f.Makes i body cls) (kept : ¬f.Releases m i) :
    ∃ x, f.routine s i = (s.raising x).attempt ∧ ∃ e, x.Throws m (.dispatch e) m := by
  cases f with
  | builtin | host => nomatch bridged
  | method e cls => exact ⟨s.methodCall e cls i, rfl, Scope.methodCall_refuses noTarget kept⟩
  | classMethod e cls => exact ⟨s.classMethodCall e cls i, rfl, Scope.classMethodCall_refuses noTarget⟩
  | constructor cls table =>
    exact ⟨s.constructorCall cls table i, rfl, Scope.constructorCall_refuses noTarget noFactory⟩
  | closure c => exact ⟨s.closureCall c i, rfl, Scope.closureCall_refuses (closures c rfl) noTarget⟩

/-! ## Calls -/

namespace Scope

variable {α : Type} {s : Scope} {job : Runner} {m : Machine} {x : Routine Fault α}

/-- An operation that raises what it fails with ends as the operation does otherwise. -/
theorem exec_raising : (s.raising x).exec job m =
    match x.exec job m with
    | (.done a, m) => (.done a, m)
    | (.thrown fault, m) => (s.raise fault >>= .throw : Routine Thrown α).exec job m
    | (.panicked p, m) => (.panicked p, m)
    | (.exhausted, m) => (.exhausted, m) := by
  unfold raising
  rw [exec_bind, exec_attempt]
  rcases x.exec job m with ⟨outcome, m₁⟩
  cases outcome <;> rfl

/-- What the bridge fails with is raised as a new `TypeError`. -/
theorem exec_raise_error {e : BridgeError} (own : e.OfBridge) :
    (s.raise (.error e) >>= .throw : Routine Thrown α).exec job m = s.raised e.message m := by
  cases e with
  | conversion | dispatch | config => rfl
  | script | native | alreadyRunning => exact own.elim

/-- A call throws a new `TypeError` of the scope's context, with a message. -/
def ThrowsTypeError (s : Scope) (message : String) (out : Outcome Thrown Value × Machine) : Prop :=
  ∃ r frames, out.1 = .thrown ⟨.object r⟩ ∧ out.2.object? r = some ⟨.error frames none,
    [("message", .hidden (.text message))], some ((out.2.scopeContext s).intrinsics.ofError .typeError)⟩

end Scope

namespace Machine

variable {m : Machine} {s : Scope} {f : FunctionData} {i : Invocation} {depth : Nat}

/-- The jobs that the function of a call enters, and how they end. -/
def callJobs (m : Machine) (s : Scope) (f : FunctionData) (i : Invocation) (depth : Nat) : List Entered :=
  (f.callable.routine ⟨m.callContext s f⟩ i).entered (Job.exec Job.routine depth) (m.callStart s f i)

/-- How the call itself ends. -/
def callEnd (m : Machine) (s : Scope) (f : FunctionData) (i : Invocation) (depth : Nat) : Outcome Thrown Value × Machine :=
  (s.invoke i.callee f i.this i.args i.construct).exec (Job.exec Job.routine (depth + 1)) m

/-- The jobs that the conversion of the arguments for a target enters. -/
def convertJobs (m : Machine) (s : Scope) (f : FunctionData) (i : Invocation) (depth : Nat) (T : Target) : List Entered :=
  (T.converts ⟨m.callContext s f⟩ i.args).entered (Job.exec Job.routine depth) ((m.callStart s f i).holding T.held)

/-- How that ends. -/
def convertEnd (m : Machine) (s : Scope) (f : FunctionData) (i : Invocation) (depth : Nat) (T : Target) :
    Outcome Fault (List NativeValue) × Machine :=
  (T.converts ⟨m.callContext s f⟩ i.args).exec (Job.exec Job.routine depth) ((m.callStart s f i).holding T.held)

/-- What a call runs that has a target. -/
structure DispatchesTarget (m : Machine) (s : Scope) (f : FunctionData) (i : Invocation) (depth : Nat) (T : Target) :
    Prop where
  /-- Arguments are converted without a class making an object. -/
  converts : ∀ y ∈ m.convertJobs s f i depth T, y.job.isFactory = false
  /-- Once all of them are converted the target runs, and nothing native after it. -/
  runs : ∀ converted m₁, m.convertEnd s f i depth T = (.done converted, m₁) →
    ∃ after, m.callJobs s f i depth = m.convertJobs s f i depth T ++
      ⟨.perform T.body T.receiver converted, (Job.exec Job.routine depth (.perform T.body T.receiver converted) m₁).1⟩ ::
        after ∧ ∀ y ∈ after, y.IsQuiet
  /-- If scripts throw while an argument is converted, that is what the call throws, and the target does not run. -/
  throws : ∀ t m₁, m.convertEnd s f i depth T = (.thrown (.thrown t), m₁) →
    m.callJobs s f i depth = m.convertJobs s f i depth T ∧ (m.callEnd s f i depth).1 = .thrown t
  /-- If an argument cannot be converted, the call throws a `TypeError`. -/
  mismatches : ∀ e m₁, m.convertEnd s f i depth T = (.thrown (.error e), m₁) →
    m.callJobs s f i depth = m.convertJobs s f i depth T ∧
      Scope.ThrowsTypeError ⟨m.callContext s f⟩ e.message (m.callEnd s f i depth)
  /-- If a job that a conversion enters stops short, so does the call. -/
  panics : ∀ p m₁, m.convertEnd s f i depth T = (.panicked p, m₁) →
    m.callJobs s f i depth = m.convertJobs s f i depth T ∧ (m.callEnd s f i depth).1 = .panicked p
  exhausts : ∀ m₁, m.convertEnd s f i depth T = (.exhausted, m₁) →
    m.callJobs s f i depth = m.convertJobs s f i depth T ∧ (m.callEnd s f i depth).1 = .exhausted

/-- What a call of a function of the bridge runs, when there is room for it. -/
structure Dispatches (m : Machine) (s : Scope) (f : FunctionData) (i : Invocation) (depth : Nat) : Prop where
  /-- It enters its function, and nothing else by itself. -/
  enters : ∃ outcome, (s.invoke i.callee f i.this i.args i.construct).entered (Job.exec Job.routine (depth + 1)) m =
    [⟨.call f.callable (m.callContext s f) i, outcome⟩]
  target : ∀ T, f.callable.Targets m ⟨m.callContext s f⟩ i T → m.DispatchesTarget s f i depth T
  /-- A class makes an object by itself only in such a call. Nothing native runs but its factory, once. -/
  factory : (∃ y ∈ m.callJobs s f i depth, y.job.isFactory = true) ↔ ∃ body cls, f.callable.Makes i body cls
  makes : ∀ body cls, f.callable.Makes i body cls →
    ∃ after, m.callJobs s f i depth =
      ⟨.make body cls, (Job.exec Job.routine depth (.make body cls) ((m.callStart s f i).holding [])).1⟩ :: after ∧
        ∀ y ∈ after, y.IsQuiet
  /-- On a released object the call gives undefined and leaves no trace. -/
  released : f.callable.Releases m i → m.callJobs s f i depth = [] ∧ m.callEnd s f i depth = (.done .undefined, m)
  /-- Every other call throws a `TypeError` and enters nothing. -/
  refused : (∀ T, ¬f.callable.Targets m ⟨m.callContext s f⟩ i T) → (∀ body cls, ¬f.callable.Makes i body cls) →
    ¬f.callable.Releases m i → m.callJobs s f i depth = [] ∧
      ∃ e : DispatchError, Scope.ThrowsTypeError ⟨m.callContext s f⟩ e.message (m.callEnd s f i depth)

/-- A fault of the bridge that stops a function makes the call throw a `TypeError`. -/
theorem callEnd_throwsTypeError {x : Routine Fault Value} {e : BridgeError} {m₁ : Machine} (settled : m.Settled)
    (inside : m.Inside (some s)) (room : m.calls.height < m.options.maxCallDepth)
    (does : f.callable.routine ⟨m.callContext s f⟩ i = (Scope.raising ⟨m.callContext s f⟩ x).attempt) (own : e.OfBridge)
    (fails : x.exec (Job.exec Job.routine depth) (m.callStart s f i) = (.thrown (.error e), m₁)) :
    Scope.ThrowsTypeError ⟨m.callContext s f⟩ e.message (m.callEnd s f i depth) := by
  let error := m₁.errorObject ⟨m.callContext s f⟩ .typeError e.message
  have heap : m₁.heap.Sound := by
    have sound := x.exec_heap (Job.exec_keeps depth) (Scope.settled_callStart (f := f) (i := i) settled inside).heap
    rwa [fails] at sound
  have ends : (f.callable.routine ⟨m.callContext s f⟩ i).exec (Job.exec Job.routine depth) (m.callStart s f i) =
      (.done (.error ⟨.object (m₁.allocate error).1⟩), (m₁.allocate error).2) := by
    rw [does, exec_attempt, Scope.exec_raising, fails]
    dsimp only
    rw [Scope.exec_raise_error own]
    rfl
  obtain ⟨m', call, same, contexts⟩ := Scope.invoke_ends settled inside room ends
  refine ⟨(m₁.allocate error).1, m₁.frames.items, ?_, ?_⟩
  · rw [callEnd, call]
  · have there := object?_allocate_self heap error
    have context : m'.scopeContext ⟨m.callContext s f⟩ = m₁.scopeContext ⟨m.callContext s f⟩ := by
      unfold scopeContext context?
      rw [contexts, allocate_eq]
    rw [callEnd, call, context]
    unfold object? at there ⊢
    rw [same]
    exact there

/-- The jobs of a call are those of its function. -/
theorem callJobs_of_runs {x : Routine Fault Value} {jobs : List Entered} {out : Outcome Fault Value × Machine}
    (does : f.callable.routine ⟨m.callContext s f⟩ i = (Scope.raising ⟨m.callContext s f⟩ x).attempt)
    (runs : x.Runs (Job.exec Job.routine depth) (m.callStart s f i) jobs out) : m.callJobs s f i depth = jobs := by
  unfold callJobs
  rw [does]
  exact (Scope.runs_raising runs).attempt.entered

/-- What a function throws its call throws. -/
theorem callEnd_throws {x : Routine Fault Value} {t : Thrown} {m₁ : Machine} (settled : m.Settled)
    (inside : m.Inside (some s)) (room : m.calls.height < m.options.maxCallDepth)
    (does : f.callable.routine ⟨m.callContext s f⟩ i = (Scope.raising ⟨m.callContext s f⟩ x).attempt)
    (fails : x.exec (Job.exec Job.routine depth) (m.callStart s f i) = (.thrown (.thrown t), m₁)) :
    (m.callEnd s f i depth).1 = .thrown t := by
  have ends : (f.callable.routine ⟨m.callContext s f⟩ i).exec (Job.exec Job.routine depth) (m.callStart s f i) =
      (.done (.error t), m₁) := by
    rw [does, exec_attempt, Scope.exec_raising, fails]
    rfl
  obtain ⟨m', call, -⟩ := Scope.invoke_ends settled inside room ends
  rw [callEnd, call]

/-- A function that stops short makes its call do so. -/
theorem callEnd_panics {x : Routine Fault Value} {p : Panic} {m₁ : Machine}
    (room : m.calls.height < m.options.maxCallDepth)
    (does : f.callable.routine ⟨m.callContext s f⟩ i = (Scope.raising ⟨m.callContext s f⟩ x).attempt)
    (panics : x.exec (Job.exec Job.routine depth) (m.callStart s f i) = (.panicked p, m₁)) :
    (m.callEnd s f i depth).1 = .panicked p := by
  have ends : (f.callable.routine ⟨m.callContext s f⟩ i).exec (Job.exec Job.routine depth) (m.callStart s f i) =
      (.panicked p, m₁) := by
    rw [does, exec_attempt, Scope.exec_raising, panics]
    rfl
  exact Scope.invoke_stops_short room rfl ends

theorem callEnd_exhausts {x : Routine Fault Value} {m₁ : Machine} (room : m.calls.height < m.options.maxCallDepth)
    (does : f.callable.routine ⟨m.callContext s f⟩ i = (Scope.raising ⟨m.callContext s f⟩ x).attempt)
    (exhausts : x.exec (Job.exec Job.routine depth) (m.callStart s f i) = (.exhausted, m₁)) :
    (m.callEnd s f i depth).1 = .exhausted := by
  have ends : (f.callable.routine ⟨m.callContext s f⟩ i).exec (Job.exec Job.routine depth) (m.callStart s f i) =
      (.exhausted, m₁) := by
    rw [does, exec_attempt, Scope.exec_raising, exhausts]
    rfl
  exact Scope.invoke_stops_short room rfl ends

/-! ### What a call runs -/

theorem targets_callStart (inside : m.Inside (some s)) {T : Target} :
    f.callable.Targets (m.callStart s f i) ⟨m.callContext s f⟩ i T ↔ f.callable.Targets m ⟨m.callContext s f⟩ i T := by
  have states := m.wrapperState_callStart (f := f) (i := i) inside (v := i.this)
  exact ⟨.of_same states.symm fun _ => rfl, .of_same states fun _ => rfl⟩

/-- What the function of a call does that has a target. -/
theorem leads_of_targets {T : Target} (inside : m.Inside (some s))
    (targets : f.callable.Targets m ⟨m.callContext s f⟩ i T) :
    ∃ x, f.callable.routine ⟨m.callContext s f⟩ i = (Scope.raising ⟨m.callContext s f⟩ x).attempt ∧
      T.Leads ⟨m.callContext s f⟩ i.args (m.callStart s f i) x :=
  ((targets_callStart inside).2 targets).leads

/-- Each way in which the conversion of the arguments ends. -/
theorem dispatches_target {T : Target} (settled : m.Settled) (inside : m.Inside (some s))
    (room : m.calls.height < m.options.maxCallDepth) (targets : f.callable.Targets m ⟨m.callContext s f⟩ i T) :
    m.DispatchesTarget s f i depth T := by
  obtain ⟨x, does, leads⟩ := leads_of_targets inside targets
  have start : (m.callStart s f i).Settled := Scope.settled_callStart settled inside
  have discreet : (T.converts ⟨m.callContext s f⟩ i.args).Discreet Fault.Ordinary false :=
    Scope.arguments_discreet Scope.objectReading_discreet
  exact {
    converts := discreet.makes_nothing _ _
    runs := fun converted m₁ done => by
      obtain ⟨after, out, ran, quiet⟩ := leads.runs (Job.exec_keeps depth) start.heap done
      exact ⟨after, callJobs_of_runs does ran, quiet⟩
    throws := fun t m₁ thrown =>
      have ran := leads.refused thrown
      ⟨callJobs_of_runs does ran, callEnd_throws settled inside room does ran.ends⟩
    mismatches := fun e m₁ refused =>
      have ran := leads.refused refused
      have own : e.OfBridge := (discreet.run _ _).2.1 (.error e) (congrArg Prod.fst refused)
      ⟨callJobs_of_runs does ran, callEnd_throwsTypeError settled inside room does own ran.ends⟩
    panics := fun p m₁ panicked =>
      have ran := leads.panicked panicked
      ⟨callJobs_of_runs does ran, callEnd_panics room does ran.ends⟩
    exhausts := fun m₁ exhausted =>
      have ran := leads.exhausted exhausted
      ⟨callJobs_of_runs does ran, callEnd_exhausts room does ran.ends⟩ }

/-- What runs without a factory: a call that has a target. -/
theorem DispatchesTarget.makes_nothing {T : Target} (h : m.DispatchesTarget s f i depth T) :
    ∀ y ∈ m.callJobs s f i depth, y.job.isFactory = false := by
  rcases ended : m.convertEnd s f i depth T with ⟨outcome, m₁⟩
  have nothing (same : m.callJobs s f i depth = m.convertJobs s f i depth T) :
      ∀ y ∈ m.callJobs s f i depth, y.job.isFactory = false := same ▸ h.converts
  cases outcome with
  | done converted =>
    obtain ⟨after, jobs, quiet⟩ := h.runs converted m₁ ended
    intro y mem
    rw [jobs] at mem
    rcases List.mem_append.1 mem with mem | mem
    · exact h.converts y mem
    rcases List.mem_cons.1 mem with rfl | mem
    · rfl
    · exact (quiet y mem).2
  | thrown fault =>
    cases fault with
    | thrown t => exact nothing (h.throws t m₁ ended).1
    | error e => exact nothing (h.mismatches e m₁ ended).1
  | panicked p => exact nothing (h.panics p m₁ ended).1
  | exhausted => exact nothing (h.exhausts m₁ ended).1

/-- What a call runs. -/
theorem dispatches (settled : m.Settled) (inside : m.Inside (some s)) (room : m.calls.height < m.options.maxCallDepth)
    (bridged : f.callable.isBridged = true) (closures : ∀ c, f.callable = .closure c → c.signature.isMarshalable = true) :
    m.Dispatches s f i depth := by
  have start : (m.callStart s f i).Settled := Scope.settled_callStart settled inside
  have makes : ∀ body cls, f.callable.Makes i body cls → ∃ after, m.callJobs s f i depth =
      ⟨.make body cls, (Job.exec Job.routine depth (.make body cls) ((m.callStart s f i).holding [])).1⟩ :: after ∧
        ∀ y ∈ after, y.IsQuiet := by
    intro body cls makes
    obtain ⟨x, does, after, out, ran, quiet⟩ := makes.runs (Job.exec_keeps depth) start.heap
    exact ⟨after, callJobs_of_runs does ran, quiet⟩
  have state := m.wrapperState_callStart (f := f) (i := i) inside (v := i.this)
  have released (releases : f.callable.Releases m i) :
      m.callJobs s f i depth = [] ∧ m.callEnd s f i depth = (.done .undefined, m) := by
    have gives := (releases.of_same state).returns (s := ⟨m.callContext s f⟩)
    exact ⟨gives.enters_nothing _, Scope.invoke_undefined settled inside room gives depth⟩
  have target (T : Target) (targets : f.callable.Targets m ⟨m.callContext s f⟩ i T) : m.DispatchesTarget s f i depth T :=
    dispatches_target settled inside room targets
  have refused (noTarget : ∀ T, ¬f.callable.Targets m ⟨m.callContext s f⟩ i T)
      (noFactory : ∀ body cls, ¬f.callable.Makes i body cls) (kept : ¬f.callable.Releases m i) :
      m.callJobs s f i depth = [] ∧
        ∃ e : DispatchError, Scope.ThrowsTypeError ⟨m.callContext s f⟩ e.message (m.callEnd s f i depth) := by
    obtain ⟨x, does, e, throws⟩ := f.callable.refuses bridged closures
      (fun T targets => noTarget T ((targets_callStart inside).1 targets)) noFactory
      (fun releases => kept (releases.of_same state.symm))
    have own : (BridgeError.dispatch e).OfBridge := trivial
    exact ⟨callJobs_of_runs does (.of_throws throws), e,
      callEnd_throwsTypeError settled inside room does own (throws _)⟩
  refine ⟨⟨_, Scope.entered_invoke room⟩, target, ⟨?_, ?_⟩, makes, released, refused⟩
  · rintro ⟨y, mem, isFactory⟩
    -- Any other call enters no factory.
    by_contra noFactory
    have none (jobs : m.callJobs s f i depth = []) : False := absurd (jobs ▸ mem) List.not_mem_nil
    by_cases releases : f.callable.Releases m i
    · exact none (released releases).1
    by_cases targets : ∃ T, f.callable.Targets m ⟨m.callContext s f⟩ i T
    · obtain ⟨T, targets⟩ := targets
      exact Bool.false_ne_true (((target T targets).makes_nothing y mem).symm.trans isFactory)
    · exact none (refused (fun T h => targets ⟨T, h⟩) (fun body cls h => noFactory ⟨body, cls, h⟩) releases).1
  · rintro ⟨body, cls, does⟩
    obtain ⟨after, jobs, -⟩ := makes body cls does
    exact ⟨_, jobs ▸ List.mem_cons_self, rfl⟩

end Machine

namespace Session

open Program (Step)

variable {options : Options} {now : Int} {steps : List Step} {depth : Nat} {x : Point} {s : Scope} {v : Value}
  {callee : Ref} {f : FunctionData}

/-- At every point of every session a call of a function of the bridge runs what it is to run if there is room for it,
and nothing otherwise. -/
theorem dispatches_calls (mem : x ∈ points options now steps depth) (inside : x.machine.Inside (some s))
    (function : x.machine.function? v = some (callee, f)) (bridged : f.callable.isBridged = true) (this : Value)
    (args : List Value) (construct : Bool) :
    (x.machine.options.maxCallDepth ≤ x.machine.calls.height →
      s.Overflows (s.invoke callee f this args construct) x.machine ∧
        ∀ job : Runner, (s.invoke callee f this args construct).entered job x.machine = []) ∧
    (x.machine.calls.height < x.machine.options.maxCallDepth →
      ∀ d, x.machine.Dispatches s f ⟨this, callee, args, construct⟩ d) := by
  have settled := settled_points mem
  refine ⟨fun full => ?_, fun room d => ?_⟩
  · have overflows : s.Overflows (s.invoke callee f this args construct) x.machine :=
      Scope.invoke_overflows settled full
    refine ⟨overflows, fun job => ?_⟩
    obtain ⟨error, m', throws, -⟩ := overflows
    exact throws.enters_nothing job
  · refine Machine.dispatches settled inside room bridged fun c closure => ?_
    obtain ⟨-, o, there, is⟩ := Machine.function?_eq_some.1 function
    exact marshals_points mem callee o there f c is closure

/-- A method is called on an object, and again within a function. -/
def reaching : List Step :=
  [.machine (.newContext "a") none, .machine (.protocol "P" "P" [] true [.method "run" "d@:"]) none,
    .declareClass "K" "K" none ["P"] [("run", [])] [] false,
    .native (.bind (.create (.key "K") [])) (some "o"),
    .execute "a" [.bridge (.wrap (.register "o")) (some "w"), .script (.get (.register "w") "run") (some "run"),
      .function "f" [.script (.call (.register "run") (.register "w") []) none] false (some "f"),
      .script (.call (.register "f") .undefined []) none]]

/-- A living wrapper and a function of its class, with a body and without arguments, are in registers. -/
def isReaching (calls : Nat) (x : Point) : Bool :=
  x.machine.regions.any (·.context == 0) && x.machine.calls.height == calls &&
    (x.machine.tables.scripts.get? "w").any fun w => (x.machine.nativeBehind? w).any fun h =>
      (x.machine.tables.scripts.get? "run").any fun v => (x.machine.function? v).any fun f =>
        match f.2.callable with
        | .method e cls => e.signature.args.isEmpty && e.signature.isMarshalable && h.cls.isSubclassOf cls &&
            (h.cls.instanceMethod? e.selector).isSome
        | _ => false

theorem of_isReaching {calls : Nat} (is : isReaching calls x = true) : x.machine.Inside (some ⟨0⟩) ∧
    x.machine.calls.height = calls ∧ ∃ w v callee f T, x.machine.function? v = some (callee, f) ∧
      f.callable.isBridged = true ∧ T.types = [] ∧ ∀ s construct,
        f.callable.Targets x.machine s ⟨w, callee, [], construct⟩ T := by
  simp only [isReaching, Bool.and_eq_true, List.any_eq_true, beq_iff_eq, Option.any_eq_true] at is
  obtain ⟨⟨⟨⟨context, handles⟩, mem, rfl⟩, height⟩, w, -, h, behind, v, -, ⟨callee, f⟩, function, does⟩ := is
  have live : x.machine.wrapperState w = .live h := Machine.wrapperState_of_nativeBehind behind
  split at does
  · rename_i e cls callable
    simp only [Bool.and_eq_true, List.isEmpty_iff, Option.isSome_iff_exists] at does
    obtain ⟨⟨⟨none, marshalable⟩, below⟩, body, implements⟩ := does
    have arity : ([] : List Value).length = e.signature.arity := by
      rw [Signature.arity, none]
      rfl
    refine ⟨Machine.inside_of_mem _ mem, height, w, v, callee, f, ⟨e.signature.args, body, .object h⟩, function, ?_, none,
      fun s construct => ?_⟩
    · rw [show f.callable = .method e cls from callable]
      rfl
    · rw [show f.callable = .method e cls from callable]
      exact .method arity marshalable live below implements
  · nomatch does

/-- Outside of the function there is room for the call: the body runs. -/
theorem dispatches_calls_reaching : ∃ x ∈ points { maxCallDepth := 1 } 0 reaching 3, ∃ w v callee f T,
    x.machine.Inside (some ⟨0⟩) ∧ x.machine.function? v = some (callee, f) ∧ f.callable.isBridged = true ∧
      f.callable.Targets x.machine ⟨x.machine.callContext ⟨0⟩ f⟩ ⟨w, callee, [], false⟩ T ∧
      ∀ d, x.machine.Dispatches ⟨0⟩ f ⟨w, callee, [], false⟩ d := by
  obtain ⟨x, mem, is, limit⟩ : ∃ x ∈ points { maxCallDepth := 1 } 0 reaching 3, isReaching 0 x = true ∧
      x.machine.options.maxCallDepth = 1 := by decide +kernel
  obtain ⟨inside, height, w, v, callee, f, T, function, bridged, -, targets⟩ := of_isReaching is
  refine ⟨x, mem, w, v, callee, f, T, inside, function, bridged, targets _ _, ?_⟩
  exact (dispatches_calls mem inside function bridged w [] false).2 (by rw [height, limit]; exact Nat.zero_lt_one)

/-- Within the function the same call has a target and no arguments to convert, and still nothing runs. -/
theorem unreached_beyond_depth : ∃ x ∈ points { maxCallDepth := 1 } 0 reaching 3, ∃ w v callee f T,
    x.machine.function? v = some (callee, f) ∧ T.types = [] ∧
      f.callable.Targets x.machine ⟨x.machine.callContext ⟨0⟩ f⟩ ⟨w, callee, [], false⟩ T ∧
      Scope.Overflows ⟨0⟩ (Scope.call ⟨0⟩ v w []) x.machine ∧
      ∀ job : Runner, (Scope.call ⟨0⟩ v w []).entered job x.machine = [] := by
  obtain ⟨x, mem, is, limit⟩ : ∃ x ∈ points { maxCallDepth := 1 } 0 reaching 3, isReaching 1 x = true ∧
      x.machine.options.maxCallDepth = 1 := by decide +kernel
  obtain ⟨-, height, w, v, callee, f, T, function, -, none, targets⟩ := of_isReaching is
  have full : x.machine.options.maxCallDepth ≤ x.machine.calls.height := by rw [limit, height]
  have refused : Scope.Overflows ⟨0⟩ (Scope.call ⟨0⟩ v w []) x.machine :=
    Scope.call_overflows (settled_points mem) full (Option.isSome_of_eq_some function)
  refine ⟨x, mem, w, v, callee, f, T, function, none, targets _ _, refused, fun job => ?_⟩
  obtain ⟨error, m', throws, -⟩ := refused
  exact throws.enters_nothing job

end Session

end ScriptBridge
