import ScriptBridge.Proofs.Roster
import ScriptBridge.Proofs.Wp

/-!
# Confinement

A routine is confined if every native body that it enters may be run on its receiver, with as many arguments
as it is run with (`Invoked`), and whatever it stores or hands on knows declared classes only.

* `Job.Ready`, `Job.Gives`: what has to be known when a job is entered, and what is known of its result.
* `Routine.Yields`: the judgement. It speaks of every machine that knows a roster, and of the roster that a
  result is known by; there is one rule for each way to build a routine. `Routine.YieldsFrom` is about one
  machine, for what is looked at twice.
* `Lawful`: what holds of a stack of jobs when each was entered by the one below. `Job.confining`: from a
  known machine all points of a run have known machines and lawful stacks.

Proof-only: not reachable from `ScriptBridge.Session.Run`.
-/

namespace ScriptBridge

/-- Whether a job runs steps: those of native code, of a function of the host or of a source. -/
def Job.runsSteps : {β : Type} → Job β → Bool
  | _, .call (.host ..) .. => true
  | _, .call .. => false
  | _, .perform .. | _, .make .. | _, .evaluate .. => true

/-- A native body may be run on a receiver with some arguments by a job, or by the session itself: it is the
body of an exported operation of the receiver's class, reached as that operation is, or that of a closure.
Native code may run closures by itself. -/
inductive Invoked (body : Program.Body) (args : List NativeValue) : Option AnyJob → Receiver → Prop
  /-- A method of an object, or an accessor of one of its properties. -/
  | onInstance {o : Option AnyJob} {h : Handle} {s : Selector} (runs : h.cls.instanceMethod? s = some body)
    (grants : h.cls.Grants .onInstance s args.length) : Invoked body args o (.object h)
  /-- A class method, by the function that stands for it. -/
  | onClass {m : ExportedMethod} {cls c : Class} {context : Nat} {i : Invocation}
    (runs : c.classMethod? m.selector = some body) (grants : c.Grants .onClass m.selector args.length) :
    Invoked body args (some ⟨_, .call (.classMethod m cls) context i⟩) (.classRef c)
  /-- An initializer, by the constructor of the class. -/
  | initializer {cls : Class} {table : ExportTable} {context : Nat} {i : Invocation} {s : Selector}
    (runs : cls.classMethod? s = some body) (grants : cls.Grants .initializer s args.length) :
    Invoked body args (some ⟨_, .call (.constructor cls table) context i⟩) (.classRef cls)
  /-- A closure, by the function that stands for it. -/
  | closure {c : Closure} {context : Nat} {i : Invocation} (runs : c.body = body)
    (count : args.length = c.signature.arity) : Invoked body args (some ⟨_, .call (.closure c) context i⟩) .nothing
  /-- A closure, by native code. -/
  | byNative {o : Option AnyJob} (steps : ∀ j, o = some j → j.2.runsSteps = true) : Invoked body args o .nothing

namespace Invoked

variable {body : Program.Body} {args : List NativeValue} {o : Option AnyJob}

/-- On an object only methods and accessors run that its class grants. -/
theorem on_object {h : Handle} (invoked : Invoked body args o (.object h)) :
    ∃ s, h.cls.instanceMethod? s = some body ∧ h.cls.Grants .onInstance s args.length := by
  cases invoked with
  | onInstance runs grants => exact ⟨_, runs, grants⟩

/-- On a class only class methods run, by the functions of class methods, and initializers, by the constructor of
the class. -/
theorem on_class {c : Class} (invoked : Invoked body args o (.classRef c)) :
    ∃ s, c.classMethod? s = some body ∧
      ((∃ m cls context i, o = some ⟨_, .call (.classMethod m cls) context i⟩ ∧ m.selector = s ∧
        c.Grants .onClass s args.length) ∨
      ∃ table context i, o = some ⟨_, .call (.constructor c table) context i⟩ ∧
        c.Grants .initializer s args.length) := by
  cases invoked with
  | onClass runs grants => exact ⟨_, runs, .inl ⟨_, _, _, _, rfl, rfl, grants⟩⟩
  | initializer runs grants => exact ⟨_, runs, .inr ⟨_, _, _, rfl, grants⟩⟩

/-- The function of a closure runs the closure. -/
theorem by_closure {c : Closure} {context : Nat} {i : Invocation}
    (invoked : Invoked body args (some ⟨_, .call (.closure c) context i⟩) .nothing) :
    c.body = body ∧ args.length = c.signature.arity := by
  cases invoked with
  | closure runs count => exact ⟨runs, count⟩
  | byNative steps => nomatch steps _ rfl

end Invoked

/-- What has to be known when a job is entered by another. -/
def Job.Ready (o : Option AnyJob) (K : Roster) : {β : Type} → Job β → Prop
  | _, .call f _ _ => f.Known K
  | _, .perform body receiver args =>
    Invoked body args o receiver ∧ K.Serves receiver ∧ ∀ v ∈ args, K.Knows v
  | _, .make _ cls => K.Has cls
  | _, .evaluate .. => True

/-- What is known of the result of a job. -/
def Job.Gives (K : Roster) : {β : Type} → Job β → β → Prop
  | _, .call .., _ => True
  | _, .perform .., result => ∀ v, result = .ok v → K.Knows v
  | _, .make .., h => K.Holds h
  | _, .evaluate .., _ => True

namespace Routine

variable {ε ε' α β : Type} {o : Option AnyJob} {K : Roster} {Q : Roster → α → Prop} {R : Roster → β → Prop}

/-- From a machine that knows a roster, the routine stores what is known and enters jobs that are ready, and
its result is known by the roster that there is then. -/
def YieldsFrom (o : Option AnyJob) : Routine ε α → Machine → Roster → (Roster → α → Prop) → Prop
  | .pure a, _, K, Q => Q K a
  | .throw _, _, _, _ | .panic _, _, _, _ => True
  | act a next, m, K, Q =>
    ∃ K', K ≤ K' ∧ (a.run m).2.Known K' ∧ (next (a.run m).1).YieldsFrom o (a.run m).2 K' Q
  | enter j next, _, K, Q => j.Ready o K ∧
      ∀ result m' K', K ≤ K' → m'.Known K' → (∀ b, result = .ok b → j.Gives K' b) →
        (next result).YieldsFrom o m' K' Q

/-- The routine does so from every machine that knows the roster. -/
def Yields (o : Option AnyJob) (r : Routine ε α) (K : Roster) (Q : Roster → α → Prop) : Prop :=
  ∀ m : Machine, m.Known K → r.YieldsFrom o m K Q

/-- A routine that yields whatever it may. -/
abbrev Confined (o : Option AnyJob) (r : Routine ε α) (K : Roster) : Prop := r.Yields o K fun _ _ => True

/-- A routine that yields a known native value. -/
abbrev YieldsKnown (o : Option AnyJob) (r : Routine ε NativeValue) (K : Roster) : Prop :=
  r.Yields o K fun K' v => K'.Knows v

/-! ### From one machine -/

namespace YieldsFrom

variable {m : Machine}

theorem imp {r : Routine ε α} {R : Roster → α → Prop} (h : r.YieldsFrom o m K Q)
    (sub : ∀ a K', K ≤ K' → Q K' a → R K' a) : r.YieldsFrom o m K R := by
  induction r generalizing m K with
  | pure a => exact sub a K K.le_refl h
  | throw | panic => trivial
  | act a next ih =>
    obtain ⟨K₁, le, known₁, rest⟩ := h
    exact ⟨K₁, le, known₁, ih _ rest fun a K' le' => sub a K' (Roster.le_trans le le')⟩
  | enter j next ih =>
    exact ⟨h.1, fun result m₁ K₁ le known₁ gives =>
      ih _ (h.2 result m₁ K₁ le known₁ gives) fun a K' le' => sub a K' (Roster.le_trans le le')⟩

theorem bind {x : Routine ε α} {f : α → Routine ε β} (known : m.Known K) (first : x.YieldsFrom o m K Q)
    (next : ∀ a K', K ≤ K' → Q K' a → (f a).Yields o K' R) : (x >>= f).YieldsFrom o m K R := by
  change (x.bind f).YieldsFrom o m K R
  induction x generalizing m K with
  | pure a => exact next a K K.le_refl first m known
  | throw | panic => trivial
  | act a then_ ih =>
    obtain ⟨K₁, le, known₁, rest⟩ := first
    exact ⟨K₁, le, known₁, ih _ known₁ rest fun a K' le' => next a K' (Roster.le_trans le le')⟩
  | enter j then_ ih =>
    exact ⟨first.1, fun result m₁ K₁ le known₁ gives => ih _ known₁ (first.2 result m₁ K₁ le known₁ gives)
      fun a K' le' => next a K' (Roster.le_trans le le')⟩

theorem mapError {r : Routine ε α} {f : ε → ε'} (h : r.YieldsFrom o m K Q) : (r.mapError f).YieldsFrom o m K Q := by
  induction r generalizing m K with
  | pure | throw | panic => exact h
  | act a next ih =>
    obtain ⟨K₁, le, known₁, rest⟩ := h
    exact ⟨K₁, le, known₁, ih _ rest⟩
  | enter j next ih => exact ⟨h.1, fun result m₁ K₁ le known₁ gives => ih _ (h.2 result m₁ K₁ le known₁ gives)⟩

theorem attempt {r : Routine ε α} (h : r.YieldsFrom o m K Q) :
    (r.attempt : Routine ε' (Except ε α)).YieldsFrom o m K fun K' result => ∀ a, result = .ok a → Q K' a := by
  induction r generalizing m K with
  | pure a => exact fun a' same => Except.ok.inj same ▸ h
  | throw e => exact nofun
  | panic => trivial
  | act a next ih =>
    obtain ⟨K₁, le, known₁, rest⟩ := h
    exact ⟨K₁, le, known₁, ih _ rest⟩
  | enter j next ih => exact ⟨h.1, fun result m₁ K₁ le known₁ gives => ih _ (h.2 result m₁ K₁ le known₁ gives)⟩

/-- The action at the end stores nothing that is not known. -/
theorem ensuring {r : Routine ε α} {cleanup : Bool → Action Unit} (known : m.Known K) (h : r.YieldsFrom o m K Q)
    (safe : ∀ panicking K', (cleanup panicking).Safe K') : (r.ensuring cleanup).YieldsFrom o m K Q := by
  induction r generalizing m K with
  | pure a => exact ⟨K, K.le_refl, known.run (safe false K), h⟩
  | throw e => exact ⟨K, K.le_refl, known.run (safe false K), trivial⟩
  | panic => exact ⟨K, K.le_refl, known.run (safe true K), trivial⟩
  | act a next ih =>
    obtain ⟨K₁, le, known₁, rest⟩ := h
    exact ⟨K₁, le, known₁, ih _ known₁ rest⟩
  | enter j next ih =>
    exact ⟨h.1, fun result m₁ K₁ le known₁ gives => ih _ known₁ (h.2 result m₁ K₁ le known₁ gives)⟩

/-- A check does nothing to the machine. -/
theorem check {P : Prop} [Decidable P] {e : ε} {r : Routine ε α} (h : r.YieldsFrom o m K Q) :
    ((if P then pure () else Routine.throw e) >>= fun _ => r).YieldsFrom o m K Q := by
  split
  · exact h
  · trivial

/-- Nor does a look at it. -/
theorem look {f : Machine → α} {next : α → Routine ε β} (known : m.Known K) (h : (next (f m)).YieldsFrom o m K R) :
    (Routine.read f >>= next).YieldsFrom o m K R := ⟨K, K.le_refl, known, h⟩

end YieldsFrom

/-! ### From every machine -/

namespace Yields

theorem imp {r : Routine ε α} {R : Roster → α → Prop} (h : r.Yields o K Q) (sub : ∀ a K', K ≤ K' → Q K' a → R K' a) :
    r.Yields o K R := fun m known => (h m known).imp sub

theorem confined {r : Routine ε α} (h : r.Yields o K Q) : r.Confined o K := h.imp fun _ _ _ _ => trivial

theorem pure {a : α} (h : Q K a) : (Pure.pure a : Routine ε α).Yields o K Q := fun _ _ => h

theorem ret {a : α} : (Pure.pure a : Routine ε α).Confined o K := pure trivial

theorem throw {e : ε} : (Routine.throw e : Routine ε α).Yields o K Q := fun _ _ => trivial

theorem panic {payload : Option String} : (Routine.panic payload : Routine ε α).Yields o K Q := fun _ _ => trivial

theorem bind {x : Routine ε α} {f : α → Routine ε β} (first : x.Yields o K Q)
    (next : ∀ a K', K ≤ K' → Q K' a → (f a).Yields o K' R) : (x >>= f).Yields o K R :=
  fun m known => (first m known).bind known next

theorem map {x : Routine ε α} {f : α → β} (h : x.Yields o K fun K' a => R K' (f a)) : (f <$> x).Yields o K R :=
  h.bind fun _ _ _ ha => .pure ha

theorem mapConfined {x : Routine ε α} {f : α → β} (h : x.Confined o K) : (f <$> x).Confined o K :=
  h.bind fun _ _ _ _ => ret

theorem mapError {r : Routine ε α} {f : ε → ε'} (h : r.Yields o K Q) : (r.mapError f).Yields o K Q :=
  fun m known => (h m known).mapError

theorem attempt {r : Routine ε α} (h : r.Yields o K Q) :
    (r.attempt : Routine ε' (Except ε α)).Yields o K fun K' result => ∀ a, result = .ok a → Q K' a :=
  fun m known => (h m known).attempt

theorem ensuring {r : Routine ε α} {cleanup : Bool → Action Unit} (h : r.Yields o K Q)
    (safe : ∀ panicking K', (cleanup panicking).Safe K') : (r.ensuring cleanup).Yields o K Q :=
  fun m known => (h m known).ensuring known safe

/-! ### Actions and jobs -/

theorem act {a : Action β} {next : β → Routine ε α} (safe : a.Safe K) (rest : ∀ b, (next b).Yields o K Q) :
    (Routine.act a next).Yields o K Q :=
  fun _ known => ⟨K, K.le_refl, known.run safe, rest _ _ (known.run safe)⟩

theorem perform {a : Action α} (safe : a.Safe K) : (perform a : Routine ε α).Confined o K := act safe fun _ => ret

theorem read {f : Machine → α} (h : ∀ m : Machine, m.Known K → Q K (f m)) : (read f : Routine ε α).Yields o K Q :=
  fun m known => ⟨K, K.le_refl, known, h m known⟩

/-- After a look at the machine, the roster is still the same. -/
theorem look {f : Machine → α} {next : α → Routine ε β} (h : ∀ m : Machine, m.Known K → (next (f m)).Yields o K R) :
    (Routine.read f >>= next).Yields o K R := fun m known => .look known (h m known m known)

/-- And so is the machine. -/
theorem lookAt {f : Machine → α} {next : α → Routine ε β}
    (h : ∀ m : Machine, m.Known K → (next (f m)).YieldsFrom o m K R) : (Routine.read f >>= next).Yields o K R :=
  fun m known => .look known (h m known)

theorem hold {v : NativeValue} : (Routine.hold v : Routine ε Unit).Confined o K := perform trivial

theorem job {j : Job α} (ready : j.Ready o K) : (job j : Routine ε α).Yields o K fun K' a => j.Gives K' a :=
  fun _ _ => ⟨ready, fun result m₁ K₁ _ known₁ gives => by
    cases result with
    | ok b => exact gives b rfl
    | error p => exact panic m₁ known₁⟩

/-! ### Brackets -/

theorem inRegion {r : Routine ε α} {context : Nat} (h : r.Yields o K Q) : (inRegion context r).Yields o K Q :=
  act trivial fun _ => h.ensuring fun _ _ => trivial

theorem inCall {r : Routine ε α} {c : CallRecord} {f : Frame} (h : r.Yields o K Q) : (inCall c f r).Yields o K Q :=
  act trivial fun _ => h.ensuring fun _ _ => trivial

theorem inFrame {r : Routine ε α} {f : Frame} (h : r.Yields o K Q) : (inFrame f r).Yields o K Q :=
  act trivial fun _ => h.ensuring fun _ _ => trivial

theorem holdingContext {r : Routine ε α} {context : Nat} (h : r.Yields o K Q) :
    (holdingContext context r).Yields o K Q := act trivial fun _ => h.ensuring fun _ _ => trivial

theorem holding {vs : List NativeValue} {r : Routine ε α} (h : r.Yields o K Q) : (holding vs r).Yields o K Q := by
  refine act trivial fun _ => ensuring ?_ fun _ _ => trivial
  induction vs with
  | nil => exact h
  | cons v vs ih => exact act trivial fun _ => ih

/-! ### Lists -/

theorem forM {l : List β} {f : β → Routine ε PUnit} (h : ∀ b ∈ l, ∀ K', K ≤ K' → (f b).Confined o K') :
    (l.forM f).Confined o K := by
  induction l generalizing K with
  | nil => exact ret
  | cons b l ih =>
    refine .bind (h b List.mem_cons_self K K.le_refl) fun _ K₁ le _ => ?_
    exact ih fun b' mem K' le' => h b' (List.mem_cons_of_mem b mem) K' (Roster.le_trans le le')

/-- As many results as there are items, each as it should be. -/
theorem mapM {l : List β} {f : β → Routine ε α} (keeps : ∀ a K K', K ≤ K' → Q K a → Q K' a)
    (h : ∀ b ∈ l, ∀ K', K ≤ K' → (f b).Yields o K' Q) :
    (l.mapM f).Yields o K fun K' as => as.length = l.length ∧ ∀ a ∈ as, Q K' a := by
  suffices loop : ∀ done : List α, (∀ a ∈ done, Q K a) → (List.mapM.loop f l done).Yields o K fun K' as =>
      as.length = done.length + l.length ∧ ∀ a ∈ as, Q K' a from
    (loop [] nofun).imp fun as K' _ ends => ⟨by simpa using ends.1, ends.2⟩
  induction l generalizing K with
  | nil => exact fun done known => .pure ⟨List.length_reverse, fun a mem => known a (List.mem_reverse.1 mem)⟩
  | cons b l ih =>
    intro done known
    refine .bind (h b List.mem_cons_self K K.le_refl) fun a K₁ le ha => ?_
    refine (ih (fun b' mem K' le' => h b' (List.mem_cons_of_mem b mem) K' (Roster.le_trans le le')) (a :: done) ?_).imp
      fun as K' _ ends => ⟨?_, ends.2⟩
    · intro a' mem
      rcases List.mem_cons.1 mem with rfl | mem
      · exact ha
      · exact keeps a' K K₁ le (known a' mem)
    · have length := ends.1
      simp only [List.length_cons] at length ⊢
      omega

theorem mapMConfined {l : List β} {f : β → Routine ε α} (h : ∀ b ∈ l, ∀ K', K ≤ K' → (f b).Confined o K') :
    (l.mapM f).Confined o K := (mapM (fun _ _ _ _ h => h) h).confined

end Yields

end Routine

/-! ## Runs -/

/-- Each native body of a stack of jobs may be run by the job below it. -/
def Lawful : List AnyJob → Prop
  | [] => True
  | ⟨_, j⟩ :: outer => (match j with
      | .perform body receiver args => Invoked body args outer.head? receiver
      | _ => True) ∧ Lawful outer

theorem Lawful.invoked {inner outer : List AnyJob} {body : Program.Body} {receiver : Receiver} {args : List NativeValue}
    (lawful : Lawful (inner ++ ⟨_, .perform body receiver args⟩ :: outer)) :
    Invoked body args outer.head? receiver := by
  induction inner with
  | nil => exact lawful.1
  | cons j inner ih => exact ih lawful.2

theorem Lawful.enter {jobs : List AnyJob} {K : Roster} {β : Type} {j : Job β} (lawful : Lawful jobs)
    (ready : j.Ready jobs.head? K) : Lawful (⟨β, j⟩ :: jobs) := by
  refine ⟨?_, lawful⟩
  cases j with
  | perform body receiver args => exact ready.1
  | call | make | evaluate => trivial

/-- A known machine, and a lawful stack of jobs. -/
structure Point.Lawful (x : Point) : Prop where
  machine : ∃ K, x.machine.Known K
  jobs : ScriptBridge.Lawful x.jobs

/-- A run has ended on a known machine, with a result that is known by the same roster. -/
def Leaves {ε α : Type} (K : Roster) (Q : Roster → α → Prop) (out : Outcome ε α × Machine) : Prop :=
  ∃ K', K ≤ K' ∧ out.2.Known K' ∧ ∀ a, out.1 = .done a → Q K' a

/-- Runs of jobs that were ready are lawful. -/
structure Confining (job : {β : Type} → Job β → Machine → Outcome Empty β × Machine)
    (points : List AnyJob → {β : Type} → Job β → Machine → List Point) : Prop where
  leaves : ∀ {β : Type} (j : Job β) (o : Option AnyJob) (K : Roster) (m : Machine), j.Ready o K → m.Known K →
    Leaves K (fun K' b => j.Gives K' b) (job j m)
  lawful : ∀ {β : Type} (j : Job β) (jobs : List AnyJob) (K : Roster) (m : Machine), j.Ready jobs.head? K →
    m.Known K → Lawful jobs → ∀ x ∈ points jobs j m, x.Lawful

section

variable {ε α : Type} {job : {β : Type} → Job β → Machine → Outcome Empty β × Machine}
  {points : List AnyJob → {β : Type} → Job β → Machine → List Point} {K : Roster} {Q : Roster → α → Prop} {m : Machine}

/-- A run that gives nothing. -/
theorem Leaves.ended {K' : Roster} {out : Outcome ε α × Machine} (le : K ≤ K') (known : out.2.Known K')
    (nothing : ∀ a, out.1 ≠ .done a) : Leaves K Q out := ⟨K', le, known, fun a done => absurd done (nothing a)⟩

/-- A confined routine leaves a known machine. -/
theorem Routine.YieldsFrom.leaves (confining : Confining job points) {r : Routine ε α} {o : Option AnyJob}
    (h : r.YieldsFrom o m K Q) (known : m.Known K) : Leaves K Q (r.exec job m) := by
  induction r generalizing K m with
  | pure a =>
    refine ⟨K, K.le_refl, known, fun a' same => ?_⟩
    cases same
    exact h
  | throw | panic => exact Leaves.ended K.le_refl known fun a same => by cases same
  | act a next ih =>
    obtain ⟨K₁, le, known₁, rest⟩ := h
    obtain ⟨K₂, le', ends⟩ := ih _ rest known₁
    exact ⟨K₂, Roster.le_trans le le', ends⟩
  | enter j next ih =>
    obtain ⟨K₁, le, known₁, gives⟩ := confining.leaves j o K m h.1 known
    unfold exec
    rcases out : job j m with ⟨outcome, m'⟩
    rw [out] at known₁ gives
    have goOn {result : Except Panic _} (gives : ∀ b, result = .ok b → j.Gives K₁ b) :
        Leaves K Q ((next result).exec job m') := by
      obtain ⟨K₂, le', ends⟩ := ih result (h.2 result m' K₁ le known₁ gives) known₁
      exact ⟨K₂, Roster.le_trans le le', ends⟩
    cases outcome with
    | done b => exact goOn fun b' same => gives b' (congrArg Outcome.done (Except.ok.inj same))
    | thrown e => exact e.elim
    | panicked p => exact goOn fun b' same => by cases same
    | exhausted => exact Leaves.ended le known₁ fun a same => by cases same

theorem Routine.Yields.leaves (confining : Confining job points) {r : Routine ε α} {o : Option AnyJob}
    (h : r.Yields o K Q) (known : m.Known K) : Leaves K Q (r.exec job m) := (h m known).leaves confining known

/-- Every point of a run of a confined routine is lawful. -/
theorem Routine.YieldsFrom.lawful (confining : Confining job points) {r : Routine ε α} {jobs : List AnyJob}
    (h : r.YieldsFrom jobs.head? m K Q) (known : m.Known K) (lawful : Lawful jobs) :
    ∀ x ∈ r.points job (points jobs) jobs m, x.Lawful := by
  have here {m : Machine} {K : Roster} {next : Option (Σ β, Action β)} (known : m.Known K) :
      (⟨m, jobs, next⟩ : Point).Lawful := ⟨⟨K, known⟩, lawful⟩
  induction r generalizing K m with
  | pure | throw | panic => exact fun x hx => List.mem_singleton.1 hx ▸ here known
  | act a next ih =>
    intro x hx
    obtain ⟨K₁, le, known₁, rest⟩ := h
    rcases List.mem_cons.1 hx with rfl | hx
    · exact here known
    · exact ih _ rest known₁ x hx
  | enter j next ih =>
    intro x hx
    obtain ⟨K₁, le, known₁, gives⟩ := confining.leaves j jobs.head? K m h.1 known
    unfold Routine.points at hx
    rcases List.mem_append.1 hx with hx | hx
    · exact confining.lawful j jobs K m h.1 known lawful x hx
    · rcases out : job j m with ⟨outcome, m'⟩
      rw [out] at known₁ gives hx
      cases outcome with
      | done b =>
        have gives : ∀ b', Except.ok b = (.ok b' : Except Panic _) → j.Gives K₁ b' := fun b' same =>
          gives b' (congrArg Outcome.done (Except.ok.inj same))
        exact ih (.ok b) (h.2 _ m' K₁ le known₁ gives) known₁ x hx
      | thrown e => exact e.elim
      | panicked p => exact ih (.error p) (h.2 _ m' K₁ le known₁ fun b' same => by cases same) known₁ x hx
      | exhausted => exact List.mem_singleton.1 hx ▸ here known₁

end

/-- If the routines of all jobs are confined, so are their runs, however deep. -/
theorem Job.confining {routine : {β : Type} → Job β → Routine Empty β}
    (confined : ∀ {β : Type} (j : Job β) (o : Option AnyJob) (K : Roster), j.Ready o K →
      (routine j).Yields (some ⟨β, j⟩) K fun K' b => j.Gives K' b) (depth : Nat) :
    Confining (Job.exec routine depth) (Job.points routine depth) := by
  induction depth with
  | zero =>
    refine ⟨fun j o K m _ known => ⟨K, K.le_refl, known, nofun⟩, fun j jobs K m ready known lawful x hx => ?_⟩
    exact List.mem_singleton.1 hx ▸ ⟨⟨K, known⟩, lawful.enter ready⟩
  | succ depth ih =>
    refine ⟨fun j o K m ready known => (confined j o K ready).leaves ih known, fun j jobs K m ready known lawful => ?_⟩
    have yields : (routine j).YieldsFrom (List.head? (⟨_, j⟩ :: jobs)) m K fun K' b => j.Gives K' b :=
      confined j jobs.head? K ready m known
    exact yields.lawful ih known (lawful.enter ready)

end ScriptBridge
