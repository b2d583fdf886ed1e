import ScriptBridge.Proofs.Chain
import ScriptBridge.Proofs.Edits
import ScriptBridge.Proofs.Exec
import ScriptBridge.Proofs.Handles

/-!
# Failures at the borders

On its way from a native body to the outermost native caller a failure changes its shape at each border: a
native exception becomes a fault, an error object of scripts, a described exception and an error of the caller,
and then a native exception again.

* `Failure`, `Fails`: what is under way, whatever part of a program it stops.
* `Origin`, `Origin.Bears`: where it started, and what each shape has to tell of that.
* `Scope.raising_stops`, `Scope.settle_stops`, `Session.perform_raises`, `Scope.invoke_stops`,
  `Scope.evaluate_stops`: one lemma for each border. What stops the part inside stops the part around it, and still
  tells where it started.

Proof-only: not reachable from `ScriptBridge.Session.Run`.
-/

namespace ScriptBridge

open Session (Stop Role)

/-! ## Stopped runs -/

namespace Routine

variable {ε ε' α β : Type} {d : Nat} {e : ε} {m m₁ m' : Machine}

/-- The run of the routine is stopped by a failure and leaves a machine. Jobs nest at most so deep. -/
def Stops (r : Routine ε α) (d : Nat) (m : Machine) (e : ε) (m' : Machine) : Prop :=
  r.exec (Job.exec Job.routine d) m = (.thrown e, m')

/-- Throws what a body gives as thrown. -/
def rethrow (r : Routine Empty (Except ε α)) : Routine ε α := (r.mapError fun e => nomatch e) >>= ofExcept

namespace Stops

theorem bind {r : Routine ε α} {f : α → Routine ε β} (h : r.Stops d m e m') : (r >>= f).Stops d m e m' := by
  unfold Stops at h ⊢
  rw [exec_bind, h]
  rfl

theorem after {x : Routine ε α} {f : α → Routine ε β} {a : α}
    (first : x.exec (Job.exec Job.routine d) m = (.done a, m₁)) (next : (f a).Stops d m₁ e m') :
    (x >>= f).Stops d m e m' := exec_bind_of_done first next

theorem look {f : Machine → α} {next : α → Routine ε β} {a : α} (seen : f m = a) (h : (next a).Stops d m e m') :
    (read f >>= next).Stops d m e m' := (exec_look seen).trans h

theorem mapError {r : Routine ε α} {f : ε → ε'} (h : r.Stops d m e m') : (r.mapError f).Stops d m (f e) m' := by
  unfold Stops at h ⊢
  rw [exec_mapError, h]
  rfl

theorem attempt {r : Routine ε α} (h : r.Stops d m e m') :
    (r.attempt : Routine ε' (Except ε α)).exec (Job.exec Job.routine d) m = (.done (.error e), m') := by
  unfold Stops at h
  rw [exec_attempt, h]
  rfl

theorem ensuring {r : Routine ε α} {cleanup : Bool → Action Unit} (h : r.Stops d m e m') :
    (r.ensuring cleanup).Stops d m e ((cleanup false).run m').2 := by
  unfold Stops at h ⊢
  rw [exec_ensuring, h]
  rfl

theorem unique {r : Routine ε α} {e' : ε} (h : r.Stops d m e m') (h' : r.Stops d m e' m₁) : e' = e ∧ m₁ = m' := by
  have same := h'.symm.trans h
  injection same with outcome machine
  exact ⟨by injection outcome, machine⟩

/-- What holds where a run is stopped can be checked by running it. -/
theorem holds {r : Routine ε α} {p : ε → Machine → Bool} (h : r.Stops d m e m')
    (checked : (match r.exec (Job.exec Job.routine d) m with
      | (.thrown e, m') => p e m'
      | _ => true) = true) : p e m' = true := by
  rw [show r.exec _ m = _ from h] at checked
  exact checked

/-- A body that throws ended with what it threw. -/
theorem rethrow_iff {r : Routine Empty (Except ε α)} :
    r.rethrow.Stops d m e m' ↔ r.exec (Job.exec Job.routine d) m = (.done (.error e), m') := by
  unfold Stops rethrow
  rw [exec_bind, exec_mapError]
  rcases r.exec (Job.exec Job.routine d) m with ⟨outcome, m₁⟩
  cases outcome with
  | done result =>
    cases result with
    | ok a => simp [Outcome.mapError, Outcome.andThen, ofExcept, exec]
    | error e => simp [Outcome.mapError, Outcome.andThen, ofExcept, exec]
  | thrown e => exact e.elim
  | panicked p => simp [Outcome.mapError, Outcome.andThen]
  | exhausted => simp [Outcome.mapError, Outcome.andThen]

end Stops

end Routine

/-! ## What is under way -/

/-- What is under way when something fails, whatever part of a program it stops. -/
inductive Failure where
  | thrown (t : Thrown)
  | native (e : NativeException)
  | script (e : BridgeException)
  | other

/-- The failure that an error of a native caller is. -/
def Failure.ofError : BridgeError → Failure
  | .native e => .native e
  | .script e => .script e
  | _ => .other

/-- What stops a part of a program, as a failure. -/
class Fails (ε : Type) where
  failure : ε → Failure

export Fails (failure)

instance : Fails Thrown where
  failure := .thrown

instance : Fails BridgeError where
  failure := .ofError

/-- No part of the bridge makes a fault of an exception that was described for native code. -/
instance : Fails Fault where
  failure
    | .thrown t => .thrown t
    | .error (.native e) => .native e
    | .error _ => .other

instance : Fails Stop where
  failure
    | .thrown t => .thrown t
    | .error e => .ofError e
    | .raised e => .native e
    | .returned _ | .returnedNative _ | .misplaced => .other

/-- Where a failure started: as a native exception, or as an error of scripts with a name and a message. -/
inductive Origin where
  | native (e : NativeException)
  | script (name message : String) (named : name ≠ "")

namespace Origin

/-- The native exception that it is for native code. -/
def exception : Origin → NativeException
  | .native e => e
  | .script name message _ => ⟨name, message⟩

/-- What an error remembers: the exception, unless it started in scripts and did not pass a native body yet. -/
def Remembered : Origin → Option NativeException → Prop
  | .native e, cause => cause = some e
  | .script name message _, cause => cause = some ⟨name, message⟩ ∨ cause = none

/-- Texts that are the name and the message of an error of scripts. A native exception counts on neither. -/
def Reads : Origin → (String → String → Prop) → Prop
  | .native _, _ => True
  | .script name message _, reads => reads name message

/-- The failure tells where it started. -/
def Bears (origin : Origin) (m : Machine) : Failure → Prop
  | .thrown t => ∃ r frames cause, t.value = .object r ∧ m.payload? (.object r) = some (.error frames cause) ∧
      origin.Remembered cause ∧ origin.Reads fun name message =>
        m.heap.lookup r "name" = .value (.text name) ∧ m.heap.lookup r "message" = .value (.text message)
  | .native e => e = origin.exception
  | .script e => origin.Remembered e.native ∧ origin.Reads fun name message => e.name = name ∧ e.message = message
  | .other => False

/-- Between two machines scripts changed a thrown error at most: its object is there, with a new name or message
only if the failure is a native exception. -/
def Spares (origin : Origin) (m m' : Machine) : Failure → Prop
  | .thrown t => ∀ r o, t.value = .object r → m.object? r = some o →
      (∃ o', m'.object? r = some o' ∧ o.Evolves o') ∧ origin.Reads fun _ _ =>
        m'.heap.lookup r "name" = m.heap.lookup r "name" ∧ m'.heap.lookup r "message" = m.heap.lookup r "message"
  | _ => True

variable {origin : Origin} {m m' : Machine} {f : Failure}

theorem Spares.of_heap (same : m'.heap = m.heap) : origin.Spares m m' f := by
  cases f with
  | thrown t =>
    intro r o _ ho
    refine ⟨⟨o, by rw [Machine.object?, same]; exact ho, .refl o⟩, ?_⟩
    rw [same]
    cases origin with
    | native e => trivial
    | script name message named => exact ⟨rfl, rfl⟩
  | native | script | other => trivial

end Origin

/-- Changes of an object that is no array leave its payload alone. -/
theorem Object.Evolves.payload {o o' : Object} (evolves : o.Evolves o') (plain : o.isArray = false) :
    o'.payload = o.payload := by
  obtain ⟨edits, rfl⟩ := evolves
  induction edits generalizing o with
  | nil => rfl
  | cons e rest ih =>
    have kept := o.payload_edit plain e
    have plain' : (o.edit e).isArray = false := by
      rw [← plain, isArray, isArray, items?, items?, kept]
    exact (ih plain').trans kept

theorem Machine.payload?_object {m : Machine} {r : Ref} {p : Payload} :
    m.payload? (.object r) = some p ↔ ∃ o, m.object? r = some o ∧ o.payload = p := Option.map_eq_some_iff

/-- What scripts leave of an error still tells where it started. -/
theorem Origin.Bears.of_spares {origin : Origin} {m m' : Machine} {f : Failure} (bears : origin.Bears m f)
    (spares : origin.Spares m m' f) : origin.Bears m' f := by
  cases f with
  | thrown t =>
    obtain ⟨r, frames, cause, value, payload, remembered, reads⟩ := bears
    obtain ⟨o, ho, error⟩ := Machine.payload?_object.1 payload
    obtain ⟨⟨o', ho', evolves⟩, same⟩ := spares r o value ho
    have plain : o.isArray = false := by rw [Object.isArray, Object.items?, error]; rfl
    have kept : o'.payload = .error frames cause := (evolves.payload plain).trans error
    refine ⟨r, frames, cause, value, Machine.payload?_object.2 ⟨o', ho', kept⟩, remembered, ?_⟩
    cases origin with
    | native e => trivial
    | script name message named => exact ⟨same.1.trans reads.1, same.2.trans reads.2⟩
  | native | script | other => exact bears

theorem Origin.Bears.of_heap {origin : Origin} {m m' : Machine} {f : Failure} (bears : origin.Bears m f)
    (same : m'.heap = m.heap) : origin.Bears m' f := bears.of_spares (.of_heap same)

/-- An error that tells where it started is an exception, or the description of something thrown. -/
theorem Origin.Bears.error_cases {origin : Origin} {m : Machine} {e : BridgeError} (bears : origin.Bears m (failure e)) :
    e = .native origin.exception ∨ ∃ told, e = .script told ∧ origin.Bears m (.script told) := by
  cases e with
  | native e => exact .inl (congrArg BridgeError.native bears)
  | script told => exact .inr ⟨told, rfl, bears⟩
  | conversion | dispatch | alreadyRunning | config => exact bears.elim

/-- What native code makes of an error that tells where it started. -/
theorem Origin.Bears.ofError {origin : Origin} {m : Machine} {e : BridgeError} (bears : origin.Bears m (failure e)) :
    NativeException.ofError e = origin.exception := by
  obtain rfl | ⟨told, rfl, remembered, reads⟩ := bears.error_cases
  · rfl
  · cases origin with
    | native exc =>
      have native : told.native = some exc := remembered
      simp only [NativeException.ofError, native]
      rfl
    | script name message named =>
      obtain ⟨rfl, rfl⟩ := reads
      rcases remembered with native | native
      · simp only [NativeException.ofError, native]
        rfl
      · simp only [NativeException.ofError, native, named, if_false]
        rfl

/-! ## Borders -/

namespace Scope

open Routine

variable {ε α : Type} {s : Scope} {origin : Origin} {d : Nat} {m m' : Machine}

/-- Into a script: the error that a native exception raises. -/
theorem newNativeError_bears (sound : m.heap.Sound) (s : Scope) (origin : Origin) :
    ∃ v m', (s.newNativeError origin.exception : Routine ε Value).Returns m v m' ∧ origin.Bears m' (.thrown ⟨v⟩) := by
  let e := origin.exception
  let o : Object := ⟨.error m.frames.items (some e),
    [("message", .hidden (.text e.reason)), ("name", .hidden (.text e.name))],
    some (m.scopeContext s).intrinsics.error⟩
  refine ⟨.object (m.allocate o).1, (m.allocate o).2, fun _ => rfl, ?_⟩
  have heap : (m.allocate o).2.heap = (m.heap.allocate o).2 := by rw [Machine.allocate_eq]
  have new : (m.allocate o).2.object? (m.allocate o).1 = some o := by
    rw [Machine.object?, heap, Heap.get?_allocate sound.counted]
    exact if_pos rfl
  refine ⟨_, m.frames.items, some e, rfl, Machine.payload?_object.2 ⟨o, new, rfl⟩, ?_, ?_⟩
  · cases origin with
    | native exc => rfl
    | script name message named => exact .inl rfl
  · cases origin with
    | native exc => trivial
    | script name message named =>
      exact ⟨Heap.lookup_of_own new (Object.own?_of_plain rfl _), Heap.lookup_of_own new (Object.own?_of_plain rfl _)⟩

theorem raise_bears {fault : Fault} (sound : m.heap.Sound) (s : Scope) (bears : origin.Bears m (failure fault)) :
    ∃ t m', (s.raise fault : Routine ε Thrown).Returns m t m' ∧ origin.Bears m' (.thrown t) := by
  cases fault with
  | thrown t => exact ⟨t, m, .pure, bears⟩
  | error e =>
    cases e with
    | native e =>
      obtain rfl : e = origin.exception := bears
      obtain ⟨v, m', returns, bears'⟩ := newNativeError_bears (ε := ε) sound s origin
      exact ⟨⟨v⟩, m', returns.bind .pure, bears'⟩
    | conversion | dispatch | script | alreadyRunning | config => exact bears.elim

theorem raising_stops {q : Routine Fault α} {fault : Fault} (sound : m'.heap.Sound) (s : Scope)
    (stops : q.Stops d m fault m') (bears : origin.Bears m' (failure fault)) :
    ∃ t m'', (s.raising q).Stops d m t m'' ∧ origin.Bears m'' (failure t) := by
  obtain ⟨t, m'', returns, bears'⟩ := raise_bears (ε := Thrown) sound s bears
  exact ⟨t, m'', .after stops.attempt (.after (returns _) rfl), bears'⟩

/-- A text is read from an error without a script running. -/
theorem exceptionField_returns {r : Ref} {key text : String} (found : m.heap.lookup r key = .value (.text text)) :
    (s.exceptionField r key : Routine ε String).Returns m text m := by
  have read : (s.getOrdinary r (.object r) key).Returns m (.text text) m := by
    unfold getOrdinary
    refine .look ?_
    rw [found]
    exact .bind .perform .pure
  unfold exceptionField
  refine .bind read.attempt ?_
  unfold textOf textAt
  exact .pure

/-- Out of a script: an error with texts for its name and its message is described with them. -/
theorem capture_returns {t : Thrown} {r : Ref} {frames : Trace} {cause : Option NativeException}
    {name message : String} (value : t.value = .object r)
    (error : m.payload? (.object r) = some (.error frames cause))
    (named : m.heap.lookup r "name" = .value (.text name))
    (told : m.heap.lookup r "message" = .value (.text message)) :
    (s.capture t : Routine ε BridgeException).Returns m (exceptionAt m name message frames cause) m := by
  unfold capture
  refine .look ?_
  rw [value, error]
  exact .bind (exceptionField_returns named) (.bind (exceptionField_returns told) .perform)

/-- Whatever scripts made of an error's name and message, its description has the frames and the native exception of the
error. -/
theorem exists_of_captured {job : Runner} {t : Thrown} {r : Ref} {frames : Trace} {cause : Option NativeException}
    {e : BridgeException} (value : t.value = .object r) (error : m.payload? (.object r) = some (.error frames cause))
    (captured : (s.capture t : Routine ε BridgeException).exec job m = (.done e, m')) :
    ∃ (told : Machine) (name message : String), e = exceptionAt told name message frames cause := by
  unfold capture at captured
  obtain ⟨payload, m₁, look, described⟩ := done_of_bind captured
  obtain ⟨rfl, rfl⟩ : m.payload? t.value = payload ∧ m = m₁ := by
    injection look with looked same
    exact ⟨by injection looked, same⟩
  rw [value, error] at described
  obtain ⟨name, m₁, -, described⟩ := done_of_bind described
  obtain ⟨message, m₂, -, described⟩ := done_of_bind described
  injection described with told _
  injection told with told
  exact ⟨m₂, name, message, told.symm⟩

theorem native_capture {t : Thrown} {r : Ref} {frames : Trace} {cause : Option NativeException} {e : BridgeException}
    (value : t.value = .object r) (error : m.payload? (.object r) = some (.error frames cause))
    (captured : (s.capture t : Routine ε BridgeException).exec (Job.exec Job.routine d) m = (.done e, m')) :
    e.native = cause := by
  obtain ⟨told, name, message, rfl⟩ := exists_of_captured value error captured
  rfl

/-- Telling what was thrown comes to an end. That is at stake only for the error of a native exception: scripts may
have put anything in the place of its name and its message, and run when these are read. -/
def Describes (ε : Type) (s : Scope) (origin : Origin) (d : Nat) (t : Thrown) (m : Machine) : Prop :=
  ∀ e, origin = .native e → ∃ told m',
    (s.capture t : Routine ε BridgeException).exec (Job.exec Job.routine d) m = (.done told, m')

theorem capture_bears {t : Thrown} (bears : origin.Bears m (.thrown t)) (describes : s.Describes ε origin d t m) :
    ∃ e m', (s.capture t : Routine ε BridgeException).exec (Job.exec Job.routine d) m = (.done e, m') ∧
      origin.Bears m' (.script e) := by
  obtain ⟨r, frames, cause, value, error, remembered, reads⟩ := bears
  cases origin with
  | native exc =>
    obtain ⟨e, m', captured⟩ := describes exc rfl
    have native : e.native = cause := native_capture value error captured
    exact ⟨e, m', captured, native.trans remembered, trivial⟩
  | script name message named => exact ⟨_, m, capture_returns value error reads.1 reads.2 _, remembered, rfl, rfl⟩

theorem settle_stops {r : Routine Fault α} {fault : Fault} {empty : α} (stops : r.Stops d m fault m')
    (bears : origin.Bears m' (failure fault))
    (describes : ∀ t, fault = .thrown t → s.Describes BridgeError origin d t m')
    (rethrows : ∀ t e m'', fault = .thrown t →
      (s.capture t : Routine BridgeError BridgeException).exec (Job.exec Job.routine d) m' = (.done e, m'') →
      m''.options.strategy = .rethrow) :
    ∃ e m'', (s.settle empty r).Stops d m e m'' ∧ origin.Bears m'' (failure e) := by
  cases fault with
  | thrown t =>
    obtain ⟨e, m'', captured, bears'⟩ := capture_bears bears (describes t rfl)
    exact ⟨.script e, m'', .after stops.attempt (.after captured (.look (rethrows t e m'' rfl captured) rfl)), bears'⟩
  | error e =>
    refine ⟨e, m', .after stops.attempt rfl, ?_⟩
    cases e with
    | native e => exact bears
    | conversion | dispatch | script | alreadyRunning | config => exact bears.elim

end Scope

/-! ## Bodies and calls -/

namespace Machine

/-- The scope of a native body: the current context, if there is one. -/
def nativeScope (m : Machine) : Option Scope := m.current?.map Scope.mk

/-- The machine when a native body starts, in a region of its own if there is a context for it. -/
def nativeStart (m : Machine) : Machine :=
  match m.current? with
  | some context => m.enterRegion context
  | none => m

/-- The context that a function runs in. -/
def callContext (m : Machine) (s : Scope) (f : FunctionData) : Nat :=
  if m.contextAlive f.context then f.context else s.context

/-- The machine when a function starts: in an active call, and a region of its own. -/
def callStart (m : Machine) (s : Scope) (f : FunctionData) (i : Invocation) : Machine :=
  let called := ((Action.beginCall ⟨i.this, i.callee, i.args⟩ (.ofFunction f.name i.construct)).run m).2
  ((Action.openRegion (m.callContext s f)).run called).2

/-- The machine when the body of a source starts. -/
def evaluationStart (m : Machine) (source resource : String) : Machine :=
  { m with
    sources := m.sources.insert resource source
    frames := m.frames.push (.ofResource resource) }

end Machine

namespace Session

open Routine

variable {origin : Origin} {d : Nat} {m m₁ m₂ : Machine} {stop : Stop} {body : Program.Body} {receiver : Receiver}
  {args : List NativeValue}

/-- A native body that is stopped raises what stopped it. -/
theorem exceptionOf_bears (env : Env) (bears : origin.Bears m (failure stop))
    (describes : ∀ t, stop = .thrown t → ∃ s, env.scope = some s ∧ s.Describes Empty origin d t m) :
    ∃ m', (exceptionOf env stop).exec (Job.exec Job.routine d) m = (.done origin.exception, m') := by
  cases stop with
  | thrown t =>
    obtain ⟨s, scope, ends⟩ := describes t rfl
    obtain ⟨e, m', captured, bears'⟩ := s.capture_bears bears ends
    have same : NativeException.ofError (.script e) = origin.exception := Origin.Bears.ofError (e := .script e) bears'
    refine ⟨m', ?_⟩
    unfold exceptionOf
    rw [scope, ← same]
    exact exec_bind_of_done captured rfl
  | error e =>
    have same : NativeException.ofError e = origin.exception := Origin.Bears.ofError bears
    rw [← same]
    exact ⟨m, rfl⟩
  | raised e =>
    obtain rfl : e = origin.exception := bears
    exact ⟨m, rfl⟩
  | returned | returnedNative | misplaced => exact bears.elim

theorem nativeSteps_raises {env : Env} {e : NativeException} (stops : (stepsValue body env).Stops d m stop m₁)
    (raises : (exceptionOf env stop).exec (Job.exec Job.routine d) m₁ = (.done e, m₂)) :
    (nativeSteps body env).exec (Job.exec Job.routine d) m = (.done (.error e), m₂) :=
  exec_bind_of_done stops.attempt (exec_bind_of_done raises rfl)

theorem perform_raises {e : NativeException}
    (stops : (stepsValue body ⟨.native receiver args, m.nativeScope⟩).Stops d m.nativeStart stop m₁)
    (raises : (exceptionOf ⟨.native receiver args, m.nativeScope⟩ stop).exec (Job.exec Job.routine d) m₁ =
      (.done e, m₂)) :
    ∃ m', Job.exec Job.routine (d + 1) (.perform body receiver args) m = (.done (.error e), m') := by
  have steps := nativeSteps_raises stops raises
  change ∃ m', (nativeBody body receiver args).exec (Job.exec Job.routine d) m = _
  unfold Machine.nativeScope Machine.nativeStart at steps
  unfold nativeBody
  cases current : m.current? with
  | none =>
    rw [current] at steps
    exact ⟨m₂, (exec_look current).trans steps⟩
  | some context =>
    rw [current] at steps
    refine ⟨m₂.closeRegion false, (exec_look current).trans ?_⟩
    change ((nativeSteps body _).ensuring .closeRegion).exec _ _ = _
    rw [exec_ensuring]
    exact congrArg (Outcome.closing .closeRegion) steps

end Session

namespace Scope

open Routine

variable {s : Scope} {f : FunctionData} {i : Invocation} {d : Nat} {m m₁ : Machine} {t : Thrown}

theorem contextAlive_callContext (inside : m.Inside (some s)) : m.contextAlive (m.callContext s f) = true := by
  unfold Machine.callContext
  split
  · assumption
  · exact inside.contextAlive

theorem settled_callStart (settled : m.Settled) (inside : m.Inside (some s)) : (m.callStart s f i).Settled := by
  have entered : (m.enterRegion (m.callContext s f)).Settled :=
    (Action.openRegion (m.callContext s f)).settled_run (contextAlive_callContext inside) settled
  exact entered.of_same rfl rfl rfl entered.rooted entered.counted

theorem inside_callStart : (m.callStart s f i).Inside (some ⟨m.callContext s f⟩) :=
  Machine.inside_of_mem ⟨m.callContext s f, []⟩ List.mem_cons_self

/-- What a function throws, its region hands on. It frees nothing, since there is a region around it. -/
theorem region_hands_on (settled : m.Settled) (inside : m.Inside (some s))
    (stops : (f.callable.routine ⟨m.callContext s f⟩ i).rethrow.Stops d (m.callStart s f i) t m₁) :
    ∃ m', (inRegion (m.callContext s f) (job (.call f.callable (m.callContext s f) i)) : Routine Thrown _).exec
      (Job.exec Job.routine (d + 1))
      ((Action.beginCall ⟨i.this, i.callee, i.args⟩ (.ofFunction f.name i.construct)).run m).2 =
        (.done (.error t), m') ∧ m'.heap = m₁.heap := by
  let j : Job (Except Thrown Value) := .call f.callable (m.callContext s f) i
  have ended : Job.exec Job.routine (d + 1) j (m.callStart s f i) = (.done (.error t), m₁) :=
    Stops.rethrow_iff.1 stops
  have order := (Job.exec_orderly (d + 1)).meets j (m.callStart s f i).moment rfl
    ⟨settled_callStart settled inside, inside_callStart⟩
  have balanced : (m.callStart s f i).Balanced m₁ := by
    rw [show Job.exec Job.routine (d + 1) j (m.callStart s f i).moment.machine = _ from ended] at order
    exact order.2
  have quiet : ¬(Action.closeRegion false).Collects m₁ := by
    rintro ⟨-, last, -⟩
    have last : m₁.regionDepth - 1 = 0 := last
    have depth : m₁.regionDepth = m.regionDepth + 1 := balanced.regionDepth
    have outer : 0 < m.regions.length := List.length_pos_of_ne_nil inside.regions_ne_nil
    have counted : m.regionDepth = m.regions.length := settled.counted.1
    omega
  refine ⟨m₁.closeRegion false, ?_, by rw [Action.closeRegion_eq quiet]; rfl⟩
  change ((job j : Routine Thrown _).ensuring .closeRegion).exec _ (m.callStart s f i) = _
  have run : (job j : Routine Thrown _).exec (Job.exec Job.routine (d + 1)) (m.callStart s f i) =
      (.done (.error t), m₁) := by
    unfold job
    rw [exec_enter, ended]
    rfl
  rw [exec_ensuring, run]
  rfl

/-- What a function throws, its call throws. -/
theorem invoke_stops (settled : m.Settled) (inside : m.Inside (some s))
    (room : m.calls.height < m.options.maxCallDepth)
    (stops : (f.callable.routine ⟨m.callContext s f⟩ i).rethrow.Stops d (m.callStart s f i) t m₁) :
    ∃ m', (s.invoke i.callee f i.this i.args i.construct).Stops (d + 1) m t m' ∧ m'.heap = m₁.heap := by
  obtain ⟨m₂, region, heap⟩ := region_hands_on settled inside stops
  obtain ⟨_, tracked, -⟩ := Action.run_track m₂ t.value
  have go : decide (m.options.maxCallDepth ≤ m.calls.height) = false := by simpa using room
  refine ⟨(Action.endCall.run ((Action.track t.value).run m₂).2).2, ?_, ?_⟩
  · unfold invoke
    refine .look go (.look rfl ?_)
    exact .ensuring (.after region (.after (a := ()) rfl rfl))
  · rw [tracked, ← heap]
    rfl

/-- What a source throws, its evaluation throws. -/
theorem evaluate_stops {source resource : String} {programs : Named Program.Body} {body : Program.Body}
    (evaluator : m.evaluator = some programs) (known : programs.get? source = some body)
    (room : m.frames.height < m.options.maxCallDepth)
    (stops : (Job.evaluate body s.context).routine.rethrow.Stops d (m.evaluationStart source resource) t m₁) :
    ∃ m', (s.evaluate source resource).Stops (d + 1) m t m' ∧ m'.heap = m₁.heap := by
  have ended : Job.exec Job.routine (d + 1) (.evaluate body s.context) (m.evaluationStart source resource) =
      (.done (.error t), m₁) := Stops.rethrow_iff.1 stops
  have run : (job (.evaluate body s.context) : Routine Thrown _).exec (Job.exec Job.routine (d + 1))
      (m.evaluationStart source resource) = (.done (.error t), m₁) := by
    unfold job
    rw [exec_enter, ended]
    rfl
  obtain ⟨_, tracked, -⟩ := Action.run_track m₁ t.value
  have go : decide (m.options.maxCallDepth ≤ m.frames.height) = false := by simpa using room
  refine ⟨(Action.popFrame.run ((Action.track t.value).run m₁).2).2, ?_, ?_⟩
  · unfold evaluate
    refine .look evaluator (.look go ?_)
    refine .after (a := ()) rfl ?_
    simp only [known]
    exact .ensuring (.after run (.after (a := ()) rfl rfl))
  · rw [tracked]
    rfl

/-- What a native body raises is a fault of the script that runs it. -/
theorem runNative_stops {body : Program.Body} {receiver : Receiver} {args : List NativeValue} {e : NativeException}
    (raises : Job.exec Job.routine d (.perform body receiver args) m = (.done (.error e), m₁)) :
    (runNative body receiver args).Stops d m (.error (.native e)) m₁ := by
  unfold Stops runNative
  rw [exec_enter, raises]
  rfl

/-- So is what becomes of its panic. -/
theorem runNative_stops_of_panic {body : Program.Body} {receiver : Receiver} {args : List NativeValue} {p : Panic}
    (panics : Job.exec Job.routine d (.perform body receiver args) m = (.panicked p, m₁)) :
    (runNative body receiver args).Stops d m (.error (.native (.ofPanic p.payload))) m₁ := by
  unfold Stops runNative
  rw [exec_enter, panics]
  rfl

end Scope

end ScriptBridge
