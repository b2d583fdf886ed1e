import ScriptBridge.Proofs.Tidy.Session

/-!
# What is handed out stays

An object that an open region or an active call refers to is pinned until that region or call ends:
every event leaves it under its reference, whatever collections there are meanwhile. What the operations
of scopes hand out, also as a thrown value, is recorded in the region that is innermost then.

* `Object.Evolves`: what changes make of one object.
* `Machine.Pins`, `Moment.Step.pins`, `Moment.Within.stays`: pinned objects stay pinned, and stay.
* `Operation`: the operations that hand out values; `Operation.routine_gives`: they record them.
* `Moment.Reachable.handed_out_stays`: together, for runs of operations and for calls.

Proof-only: not reachable from `ScriptBridge.Session.Run`.
-/

namespace ScriptBridge

/-! ## Pinned objects -/

/-- One object later on: some changes were made of it. -/
def Object.Evolves (o o' : Object) : Prop := ∃ edits : List Edit, o' = edits.foldl Object.edit o

theorem Object.Evolves.refl (o : Object) : o.Evolves o := ⟨[], rfl⟩

theorem Object.Evolves.edit {o o' : Object} (h : o.Evolves o') (e : Edit) : o.Evolves (o'.edit e) := by
  obtain ⟨edits, rfl⟩ := h
  exact ⟨edits ++ [e], by rw [List.foldl_append]; rfl⟩

theorem Object.Evolves.trans {o o' o'' : Object} (h : o.Evolves o') (h' : o'.Evolves o'') : o.Evolves o'' := by
  obtain ⟨edits, rfl⟩ := h
  obtain ⟨more, rfl⟩ := h'
  exact ⟨edits ++ more, by rw [List.foldl_append]⟩

/-- A stack, innermost item first, has an item with a property on top of `n` others. -/
def Rests {α : Type} (l : List α) (n : Nat) (P : α → Prop) : Prop :=
  ∃ inner a outer, l = inner ++ a :: outer ∧ outer.length = n ∧ P a

namespace Rests

variable {α : Type} {l : List α} {n : Nat} {P : α → Prop}

theorem cons (rests : Rests l n P) (a : α) : Rests (a :: l) n P := by
  obtain ⟨inner, b, outer, rfl, length, hb⟩ := rests
  exact ⟨a :: inner, b, outer, rfl, length, hb⟩

/-- The item is still there if enough items are. -/
theorem tail (rests : Rests l n P) (long : n + 1 ≤ l.tail.length) : Rests l.tail n P := by
  obtain ⟨inner, b, outer, rfl, length, hb⟩ := rests
  cases inner with
  | nil =>
    have : (b :: outer).tail.length = n := length
    simp only [List.nil_append] at long
    omega
  | cons a inner => exact ⟨inner, b, outer, rfl, length, hb⟩

theorem modifyHead (rests : Rests l n P) {f : α → α} (keeps : ∀ a, P a → P (f a)) : Rests (l.modifyHead f) n P := by
  obtain ⟨inner, b, outer, rfl, length, hb⟩ := rests
  cases inner with
  | nil => exact ⟨[], f b, outer, rfl, length, keeps b hb⟩
  | cons a inner => exact ⟨f a :: inner, b, outer, rfl, length, hb⟩

theorem exists_mem (rests : Rests l n P) : ∃ a ∈ l, P a := by
  obtain ⟨inner, b, outer, rfl, -, hb⟩ := rests
  exact ⟨b, List.mem_append_right _ List.mem_cons_self, hb⟩

end Rests

/-- As long as so many regions or calls are open, an object is a root: a handle of the region, or a part
of the call, that is the innermost of them. -/
inductive Machine.Pins (m : Machine) : Depth → Ref → Prop
  | handle {n : Nat} {r : Ref} (rests : Rests m.regions n fun region => r ∈ region.handles) : Pins m ⟨n + 1, 0⟩ r
  | part {n : Nat} {r : Ref} (rests : Rests m.calls.items n fun c => r ∈ Machine.callRoots c) : Pins m ⟨0, n + 1⟩ r

namespace Machine

variable {m m' : Machine} {d : Depth} {r : Ref} {v : Value}

theorem Pins.isRoot (pins : m.Pins d r) : m.IsRoot r := by
  cases pins with
  | handle rests =>
    obtain ⟨region, mem, handle⟩ := rests.exists_mem
    exact .handle mem handle
  | part rests =>
    obtain ⟨c, mem, part⟩ := rests.exists_mem
    rcases mem_callRoots.1 part with this | rfl | arg
    · exact .this mem this
    · exact .callee mem
    · exact .argument mem arg

theorem Pins.of_same (pins : m.Pins d r) (regions : m'.regions = m.regions) (calls : m'.calls = m.calls) :
    m'.Pins d r := by
  cases pins with
  | handle rests => exact .handle (by rw [regions]; exact rests)
  | part rests => exact .part (by rw [calls]; exact rests)

/-- An action that leaves the region or the call open leaves the object pinned. -/
theorem Pins.run {β : Type} {a : Action β} (pins : m.Pins d r) (quiet : ¬a.Collects m)
    (above : (a.run m).2.Above d) : (a.run m).2.Pins d r := by
  cases pins with
  | handle rests =>
    refine .handle ?_
    have long := above.1
    rcases (a.changes quiet).regions with ⟨handles, eq⟩ | eq | ⟨region, eq⟩
    · rw [eq]
      exact rests.modifyHead fun region handle => List.mem_append_right handles handle
    · rw [eq] at long ⊢
      exact rests.tail long
    · rw [eq]
      exact rests.cons region
  | part rests =>
    refine .part ?_
    have long := above.2
    rcases (a.changes quiet).calls with eq | eq | ⟨c, eq⟩
    · rw [eq]
      exact rests
    · rw [eq] at long ⊢
      exact rests.tail long
    · rw [eq]
      exact rests.cons c

/-- What the innermost region records is pinned by it. -/
theorem Recorded.pins (recorded : m.Recorded (.object r)) : m.Pins ⟨m.regions.length, 0⟩ r := by
  obtain ⟨region, head, handle⟩ := recorded r rfl
  cases regions : m.regions with
  | nil => simp [regions] at head
  | cons first rest =>
    obtain rfl : first = region := by simpa [regions] using head
    refine .handle ?_
    rw [regions]
    exact ⟨[], first, rest, rfl, rfl, handle⟩

end Machine

namespace Moment

variable {t u : Moment} {d : Depth} {r : Ref} {o : Object}

/-- No event frees a root. -/
theorem Step.object? (step : t.Step u) (sound : t.Sound) (root : t.machine.IsRoot r)
    (ho : t.machine.object? r = some o) : ∃ o', u.machine.object? r = some o' ∧ o.Evolves o' := by
  have heap := sound.machine.heap
  cases step with
  | @act β m _ _ _ a legal quiet =>
    have at_r : m.heap.get? r = some o := ho
    rcases (a.changes quiet).heap with ⟨-, same⟩ | ⟨-, p, stored⟩ | ⟨q, e, -, edited⟩
    · refine ⟨o, ?_, .refl o⟩
      rw [Machine.object?, same]
      exact ho
    · refine ⟨o, ?_, .refl o⟩
      rw [Machine.object?, stored]
      exact Heap.get?_allocate_of_some heap.counted ho
    · rw [Machine.object?, edited, Heap.get?_edit, at_r]
      split
      · exact ⟨o.edit e, rfl, (Object.Evolves.refl o).edit e⟩
      · exact ⟨o, rfl, .refl o⟩
  | sweep => exact ⟨o, (Machine.object?_sweep heap r o).2 ⟨ho, .root root⟩, .refl o⟩
  | callback => exact ⟨o, ho, .refl o⟩
  | finish => exact ⟨o, ho, .refl o⟩

/-- An event that leaves the region or the call open leaves the object pinned. -/
theorem Step.pins (step : t.Step u) (above : u.machine.Above d) (pins : t.machine.Pins d r) :
    u.machine.Pins d r := by
  cases step with
  | act a legal quiet => exact pins.run quiet above
  | sweep =>
    refine pins.of_same ?_ ?_
    · rw [Machine.sweep_eq]
    · rw [Machine.sweep_eq]
  | callback => exact pins.of_same rfl rfl
  | finish => exact pins.of_same rfl rfl

/-- What is pinned stays until the region or the call ends that pins it. -/
theorem Within.stays (within : Within d t u) (sound : t.Sound) (pins : t.machine.Pins d r)
    (ho : t.machine.object? r = some o) :
    u.machine.Pins d r ∧ ∃ o', u.machine.object? r = some o' ∧ o.Evolves o' := by
  induction within with
  | refl => exact ⟨pins, o, ho, .refl o⟩
  | @tail u v within step ih =>
    obtain ⟨pins', o', ho', evolves⟩ := ih
    obtain ⟨o'', ho'', evolves'⟩ := step.1.object? (sound.leads (Within.leads within)) pins'.isRoot ho'
    exact ⟨step.1.pins step.2 pins', o'', ho'', evolves.trans evolves'⟩

end Moment

/-! ## Operations -/

/-- The operations of a scope, and of the bridge in a scope, that hand out values or throw them. -/
inductive Operation where
  | global
  | newObject
  | newArray (items : Array Value)
  | newError (kind : Program.ErrorKind) (message : String)
  | newDate (millis : Double) (nanos : Nat)
  | newRegexp (pattern flags : String)
  | newBuffer (bytes : ByteArray)
  | newFunction (name : String) (body : Program.Body) (constructs : Bool)
  | throwValue (v : Value)
  | throwNew (kind : Program.ErrorKind) (message : String)
  | get (target : Value) (key : String)
  | set (target : Value) (key : String) (v : Value)
  | has (target : Value) (key : String)
  | delete (target : Value) (key : String)
  | getIndex (target : Value) (index : Nat)
  | setIndex (target : Value) (index : Nat) (v : Value)
  | hasIndex (target : Value) (index : Nat)
  | define (target : Value) (key : String) (d : Descriptor) (enumerable configurable : Bool)
  | prototypeOf (v : Value)
  | setPrototypeOf (target prototype : Value)
  | instanceOf (v constructor : Value)
  | call (f this : Value) (args : List Value)
  | construct (f : Value) (args : List Value)
  | evaluate (source resource : String)
  | currentThis
  | currentCallee
  | currentArguments
  | managedValue (id : Nat)
  | wrap (v : NativeValue)
  | property (target : Value) (key : String)
  | valueAt (target : Value) (index : Nat)
  | callWith (f : Value) (args : List NativeValue)
  | constructWith (f : Value) (args : List NativeValue)
  | invokeMethod (target : Value) (name : String) (args : List NativeValue)
  | evaluateScript (source resource : String)

namespace Operation

open Routine

/-- What an operation does in a scope, with the list of the values that it gives. -/
def routine (s : Scope) (op : Operation) : Routine Fault (List Value) :=
  let one (r : Routine Fault Value) : Routine Fault (List Value) := (fun v => [v]) <$> r
  let none {α : Type} (r : Routine Thrown α) : Routine Fault (List Value) := (fun _ => []) <$> (liftM r : Routine Fault α)
  let settled (r : Routine BridgeError Value) : Routine Fault (List Value) := one (r.mapError .error)
  match op with
  | global => one s.global
  | newObject => one s.newObject
  | newArray items => one (s.newArray items)
  | newError kind message => one (s.newError kind message)
  | newDate millis nanos => one (s.newDate millis nanos)
  | newRegexp pattern flags => one (s.newRegexp pattern flags)
  | newBuffer bytes => one (s.newBuffer bytes)
  | newFunction name body constructs => one (s.newFunction name (.host body constructs))
  | throwValue v => none (Scope.throwValue v : Routine Thrown Unit)
  | throwNew kind message => none (s.throwNew kind message : Routine Thrown Unit)
  | get target key => one (liftM (s.get target key))
  | set target key v => none (s.set target key v)
  | has target key => none (s.has target key)
  | delete target key => none (s.delete target key)
  | getIndex target index => one (liftM (s.getIndex target index))
  | setIndex target index v => none (s.setIndex target index v)
  | hasIndex target index => none (s.hasIndex target index)
  | define target key d enumerable configurable => none (s.define target key d enumerable configurable)
  | prototypeOf v => one (Scope.prototypeOf v)
  | setPrototypeOf target prototype => none (s.setPrototypeOf target prototype)
  | instanceOf v constructor => none (s.instanceOf v constructor)
  | call f this args => one (liftM (s.call f this args))
  | construct f args => one (liftM (s.construct f args))
  | evaluate source resource => one (liftM (s.evaluate source resource))
  | currentThis => one Scope.currentThis
  | currentCallee => Option.toList <$> (Scope.currentCallee : Routine Fault (Option Value))
  | currentArguments => Scope.currentArguments
  | managedValue id => Option.toList <$> (Scope.managedValue id : Routine Fault (Option Value))
  | wrap v => settled (s.wrap v)
  | property target key => settled (s.property target key)
  | valueAt target index => settled (s.valueAt target index)
  | callWith f args => settled (s.callWith f args)
  | constructWith f args => settled (s.constructWith f args)
  | invokeMethod target name args => settled (s.invokeMethod target name args)
  | evaluateScript source resource => settled (s.evaluateScript source resource)

variable {s : Scope} {m : Machine}

/-- What an operation gives or throws is recorded. -/
theorem routine_gives (op : Operation) : (op.routine s).Gives (some s) m fun vs m' => ∀ v ∈ vs, m'.Recorded v := by
  have one {r : Routine Fault Value} (h : r.HandsOut (some s) m) :
      ((fun v => [v]) <$> r : Routine Fault (List Value)).Gives (some s) m fun vs m' => ∀ v ∈ vs, m'.Recorded v :=
    .map (h.imp fun v _ _ recorded w hw => List.mem_singleton.1 hw ▸ recorded)
  have none {α : Type} {r : Routine Thrown α} (h : r.Tidy (some s) m) :
      ((fun _ => []) <$> (liftM r : Routine Fault α) : Routine Fault (List Value)).Gives (some s) m
        fun vs m' => ∀ v ∈ vs, m'.Recorded v :=
    .map ((Scope.lift_gives h).imp fun _ _ _ _ _ hw => nomatch hw)
  have optional {r : Routine Fault (Option Value)}
      (h : r.Gives (some s) m fun v m' => ∀ w, v = some w → m'.Recorded w) :
      (Option.toList <$> r : Routine Fault (List Value)).Gives (some s) m fun vs m' => ∀ v ∈ vs, m'.Recorded v :=
    .map (h.imp fun v _ _ recorded w hw => recorded w (Option.mem_toList.1 hw))
  have settled {r : Routine BridgeError Value} (h : r.HandsOut (some s) m) :
      ((fun v => [v]) <$> (r.mapError Fault.error) : Routine Fault (List Value)).Gives (some s) m
        fun vs m' => ∀ v ∈ vs, m'.Recorded v :=
    one (h.mapError fun _ _ hv => nomatch hv)
  cases op with
  | global => exact one Scope.global_gives
  | newObject => exact one Scope.newObject_gives
  | newArray items => exact one Scope.newArray_gives
  | newError kind message => exact one Scope.newError_gives
  | newDate millis nanos => exact one Scope.newDate_gives
  | newRegexp pattern flags => exact one Scope.newRegexp_gives
  | newBuffer bytes => exact one Scope.newBuffer_gives
  | newFunction name body constructs =>
    have plain (c : Closure) : Callable.host body constructs ≠ .closure c := fun h => nomatch h
    exact one ((Scope.newFunction_gives plain).imp fun _ _ _ made => made.1)
  | throwValue v => exact none Scope.throwValue_gives
  | throwNew kind message => exact none Scope.throwNew_gives
  | get target key => exact one (Scope.lift_gives Scope.get_gives)
  | set target key v => exact none Scope.set_tidy
  | has target key => exact none Scope.has_tidy
  | delete target key => exact none Scope.delete_tidy
  | getIndex target index => exact one (Scope.lift_gives Scope.getIndex_gives)
  | setIndex target index v => exact none Scope.setIndex_tidy
  | hasIndex target index => exact none Scope.hasIndex_tidy
  | define target key d enumerable configurable => exact none Scope.define_tidy
  | prototypeOf v => exact one Scope.prototypeOf_gives
  | setPrototypeOf target prototype => exact none Scope.setPrototypeOf_tidy
  | instanceOf v constructor => exact none Scope.instanceOf_tidy
  | call f this args => exact one (Scope.lift_gives Scope.call_gives)
  | construct f args => exact one (Scope.lift_gives Scope.construct_gives)
  | evaluate source resource => exact one (Scope.lift_gives Scope.evaluate_gives)
  | currentThis => exact one Scope.currentThis_gives
  | currentCallee => exact optional Scope.currentCallee_gives
  | currentArguments => exact Scope.currentArguments_gives
  | managedValue id => exact optional Scope.managedValue_gives
  | wrap v => exact settled Scope.wrap_gives
  | property target key => exact settled Scope.property_gives
  | valueAt target index => exact settled Scope.valueAt_gives
  | callWith f args => exact settled Scope.callWith_gives
  | constructWith f args => exact settled Scope.constructWith_gives
  | invokeMethod target name args => exact settled Scope.invokeMethod_gives
  | evaluateScript source resource => exact settled Scope.evaluateScript_gives

end Operation

/-! ## Handing out -/

/-- What a run hands out: the values that it gives, or the one that it throws. -/
def Outcome.values : Outcome Fault (List Value) → List Value
  | .done vs => vs
  | .thrown e => (Carries.value? e).toList
  | .panicked _ | .exhausted => []

namespace Moment

variable {t u : Moment} {d : Depth} {r : Ref}

/-- While so many regions and calls are open, a reference that resolves goes on to resolve to the same
object. -/
def Keeps (t : Moment) (d : Depth) (r : Ref) : Prop :=
  ∀ o, t.machine.object? r = some o → ∀ u, Within d t u → ∃ o', u.machine.object? r = some o' ∧ o.Evolves o'

theorem Sound.keeps (sound : t.Sound) (pins : t.machine.Pins d r) : t.Keeps d r :=
  fun _ ho _ within => (Within.stays within sound pins ho).2

/-- Calls do not matter to the invariant. -/
theorem Sound.called (sound : t.Sound) (c : CallRecord) (f : Frame) : (t.after (.beginCall c f)).Sound where
  machine := sound.machine.of_same rfl rfl rfl sound.machine.rooted sound.machine.counted
  few := sound.few
  past := sound.past
  books := sound.books

/-- What an operation hands out, at any point of a run, stays until the region is closed that was innermost
then, and the parts of a call stay until the call ends. -/
theorem Reachable.handed_out_stays (reachable : t.Reachable) :
    (t.finishing = [] → ∀ s, t.machine.Inside (some s) → ∀ (op : Operation) (depth : Nat),
      ∃ u : Moment, Within t.machine.depth t u ∧
        u.machine = ((op.routine s).exec (Job.exec Job.routine depth) t.machine).2 ∧
        ∀ v ∈ ((op.routine s).exec (Job.exec Job.routine depth) t.machine).1.values, ∀ r, v = .object r →
          u.Keeps ⟨u.machine.regions.length, 0⟩ r) ∧
    ∀ (c : CallRecord) (f : Frame), ∀ r ∈ Machine.callRoots c,
      (t.after (.beginCall c f)).Keeps ⟨0, t.machine.calls.items.length + 1⟩ r := by
  constructor
  · intro settled s inside op depth
    obtain ⟨⟨u, within, machine, -⟩, meets, -⟩ := op.routine_gives.exec depth reachable.sound settled inside
    refine ⟨u, within, machine, fun v hv r object => ?_⟩
    have recorded : u.machine.Recorded v := by
      rw [machine]
      rcases out : (op.routine s).exec (Job.exec Job.routine depth) t.machine with ⟨outcome, m'⟩
      rw [out] at hv meets
      cases outcome with
      | done vs => exact meets.2.2 v hv
      | thrown e => exact meets.2.2 v (Option.mem_toList.1 hv)
      | panicked p => nomatch hv
      | exhausted => nomatch hv
    subst object
    exact (reachable.sound.leads within.leads).keeps recorded.pins
  · intro c f r part
    exact (reachable.sound.called c f).keeps (.part ⟨[], c, t.machine.calls.items, rfl, rfl, part⟩)

/-- A new object stays until the region is closed in which it was made. -/
theorem newObject_stays :
    let out := (Operation.newObject.routine ⟨0⟩).exec (Job.exec Job.routine 0) opened.machine
    ∃ u : Moment, Within ⟨1, 0⟩ opened u ∧ u.machine = out.2 ∧ Value.object ⟨1, 0⟩ ∈ out.1.values ∧
      ∀ w, Within ⟨1, 0⟩ u w → w.machine.heap.isLive ⟨1, 0⟩ = true := by
  intro out
  have inside : opened.machine.Inside (some ⟨0⟩) :=
    Machine.inside_of_mem ⟨0, []⟩ (List.mem_singleton_self _)
  obtain ⟨u, within, machine, keeps⟩ := reachable_opened.handed_out_stays.1 rfl ⟨0⟩ inside .newObject 0
  have handed : Value.object ⟨1, 0⟩ ∈ out.1.values := List.mem_singleton_self _
  refine ⟨u, within, machine, handed, fun w path => ?_⟩
  have there : u.machine.object? ⟨1, 0⟩ = some ⟨.ordinary, [], some ⟨0, 0⟩⟩ := by
    rw [machine]
    rfl
  have regions : u.machine.regions.length = 1 := by
    rw [machine]
    rfl
  rw [regions] at keeps
  obtain ⟨o, ho, -⟩ := keeps _ handed ⟨1, 0⟩ rfl _ there w path
  exact Heap.isLive_iff.2 ⟨o, ho⟩

end Moment

end ScriptBridge
