import ScriptBridge.Proofs.Confined.Session

/-!
# Which native bodies run, and with how many arguments

Scripts run only what a class exports (`Session.runs_declared`), whatever functions they borrow, receivers they
make up or prototypes they change: at every point of every session a native body that runs on an object, or
on a class, implements what an exported protocol of that class declares. It gets as many arguments as its
selector takes, but for accessors of properties (`Session.counts_arguments`): a getter gets none and a setter
one, also where a declaration names selectors that take others.

Proof-only: not reachable from `ScriptBridge.Session.Run`.
-/

namespace ScriptBridge

/-- The object that a native body runs on, and the arguments. -/
def Job.onObject? : {β : Type} → Job β → Option (Handle × List NativeValue)
  | _, .perform _ (.object h) args => some (h, args)
  | _, _ => none

/-- The innermost job is a native body on an object. -/
theorem exists_of_onObject {jobs : List AnyJob} {h : Handle} {args : List NativeValue}
    (on : jobs.head?.bind (·.2.onObject?) = some (h, args)) :
    ∃ body outer, jobs = [] ++ ⟨_, .perform body (.object h) args⟩ :: outer := by
  obtain ⟨⟨β, j⟩, first, on⟩ := Option.bind_eq_some_iff.1 on
  obtain ⟨outer, rfl⟩ := List.head?_eq_some_iff.1 first
  cases j with
  | perform body receiver args' =>
    cases receiver with
    | object h' =>
      obtain ⟨rfl, rfl⟩ := Prod.mk.inj (Option.some.inj on)
      exact ⟨body, outer, rfl⟩
    | classRef | nothing => nomatch on
  | call | make | evaluate => nomatch on

namespace Session

open Program

variable {options : Options} {now : Int} {steps : List Step} {depth : Nat} {x : Point} {inner outer : List AnyJob}
  {body : Body} {receiver : Receiver} {args : List NativeValue}

/-- At every point of every session, a native body that runs on an object is one of a selector that an exported
protocol declares, as a method or for a property, where the object's class or an ancestor adopts the protocol.
One that runs on a class is one of a selector that such a protocol declares: as a class method, if the function
of a class method runs it, and else as an initializer, and then the constructor of that very class runs it. -/
theorem runs_declared (mem : x ∈ points options now steps depth)
    (running : x.jobs = inner ++ ⟨_, .perform body receiver args⟩ :: outer) :
    (∀ h, receiver = .object h → ∃ s, h.cls.instanceMethod? s = some body ∧ h.cls.Declares .onInstance s) ∧
    ∀ c, receiver = .classRef c → ∃ s, c.classMethod? s = some body ∧
      ((∃ m cls context i, outer.head? = some ⟨_, .call (.classMethod m cls) context i⟩ ∧ m.selector = s ∧
        c.Declares .onClass s) ∨
      ∃ table context i, outer.head? = some ⟨_, .call (.constructor c table) context i⟩ ∧
        c.Declares .initializer s) := by
  have invoked := (running ▸ (lawful_points mem).jobs).invoked
  refine ⟨?_, ?_⟩
  · rintro h rfl
    obtain ⟨s, runs, grants⟩ := invoked.on_object
    exact ⟨s, runs, grants.declares⟩
  · rintro c rfl
    obtain ⟨s, runs, ⟨m, cls, context, i, caller, selector, grants⟩ | ⟨table, context, i, caller, grants⟩⟩ :=
      invoked.on_class
    · exact ⟨s, runs, .inl ⟨m, cls, context, i, caller, selector, grants.declares⟩⟩
    · exact ⟨s, runs, .inr ⟨table, context, i, caller, grants.declares⟩⟩

/-- A native method is called on an object by a function that was read from its wrapper. -/
def lent : List Step :=
  [.machine (.newContext "main") none, .machine (.protocol "P" "P" [] true [.method "m:" "v@:d"]) none,
    .declareClass "K" "K" none ["P"] [("m:", [])] [] false, .native (.bind (.create (.key "K") [])) (some "o"),
    .execute "main" [.bridge (.wrap (.register "o")) (some "w"), .script (.get (.register "w") "m") (some "f"),
      .script (.call (.register "f") (.register "w") [.undefined]) none]]

/-- The method is the one of its class, and its protocol declares it. -/
theorem runs_declared_lent : ∃ x ∈ points {} 0 lent 3, ∃ body h args outer,
    x.jobs = [] ++ ⟨_, .perform body (.object h) args⟩ :: outer ∧
      ∃ s, h.cls.instanceMethod? s = some body ∧ h.cls.Declares .onInstance s := by
  obtain ⟨x, mem, on⟩ : ∃ x ∈ points {} 0 lent 3, (x.jobs.head?.bind (·.2.onObject?)).isSome = true := by
    decide +kernel
  obtain ⟨⟨h, args⟩, on⟩ := Option.isSome_iff_exists.1 on
  obtain ⟨body, outer, running⟩ := exists_of_onObject on
  exact ⟨x, mem, body, h, args, outer, running, (runs_declared mem running).1 h rfl⟩

/-! ## Arguments -/

/-- At every point of every session, a native body that runs on an object gets as many arguments as its selector
takes, or is an accessor of a property: then it gets none, or the value to set. One that runs on a class gets as
many as its selector takes, and one that the function of a closure runs as many as its signature lists. -/
theorem counts_arguments (mem : x ∈ points options now steps depth)
    (running : x.jobs = inner ++ ⟨_, .perform body receiver args⟩ :: outer) :
    (∀ h, receiver = .object h → ∃ s, h.cls.instanceMethod? s = some body ∧ h.cls.Declares .onInstance s ∧
      (args.length = s.arity ∨ h.cls.IsAccessor s args.length)) ∧
    (∀ c, receiver = .classRef c → ∃ s, c.classMethod? s = some body ∧ args.length = s.arity) ∧
    ∀ c context i, receiver = .nothing → outer.head? = some ⟨_, .call (.closure c) context i⟩ →
      c.body = body ∧ args.length = c.signature.arity := by
  have invoked := (running ▸ (lawful_points mem).jobs).invoked
  refine ⟨?_, ?_, ?_⟩
  · rintro h rfl
    obtain ⟨s, runs, grants⟩ := invoked.on_object
    exact ⟨s, runs, grants.declares, grants.count.imp_right And.right⟩
  · rintro c rfl
    obtain ⟨s, runs, ⟨m, cls, context, i, -, -, grants⟩ | ⟨table, context, i, -, grants⟩⟩ := invoked.on_class
    · exact ⟨s, runs, grants.count.resolve_right nofun⟩
    · exact ⟨s, runs, grants.count.resolve_right nofun⟩
  · rintro c context i rfl caller
    rw [caller] at invoked
    exact invoked.by_closure

/-- The method that is called gets the one argument that it takes. -/
theorem counts_arguments_lent : ∃ x ∈ points {} 0 lent 3, ∃ body h args outer,
    x.jobs = [] ++ ⟨_, .perform body (.object h) args⟩ :: outer ∧ args.length = 1 ∧
      ∃ s, h.cls.instanceMethod? s = some body ∧ h.cls.Declares .onInstance s ∧
        (args.length = s.arity ∨ h.cls.IsAccessor s args.length) := by
  obtain ⟨x, mem, on⟩ : ∃ x ∈ points {} 0 lent 3,
      ((x.jobs.head?.bind (·.2.onObject?)).any fun on => on.2.length == 1) = true := by
    decide +kernel
  obtain ⟨⟨h, args⟩, on, one⟩ := (Option.any_eq_true ..).1 on
  obtain ⟨body, outer, running⟩ := exists_of_onObject on
  exact ⟨x, mem, body, h, args, outer, running, beq_iff_eq.1 one, (counts_arguments mem running).1 h rfl⟩

/-- A property whose getter takes an argument is read. -/
def uncounted : List Step :=
  [.machine (.newContext "main") none, .machine (.protocol "P" "P" [] true [.accessors "p" "d" "g:" none]) none,
    .declareClass "K" "K" none ["P"] [("g:", [])] [] false, .native (.bind (.create (.key "K") [])) (some "o"),
    .execute "main" [.bridge (.wrap (.register "o")) (some "w"), .script (.get (.register "w") "p") none]]

/-- The only method of its class takes one argument, and runs with none. -/
theorem getter_uncounted : ∃ x ∈ points {} 0 uncounted 3, ∃ body h args outer,
    x.jobs = [] ++ ⟨_, .perform body (.object h) args⟩ :: outer ∧ args = [] ∧
      h.cls.superclass.isNone = true ∧ h.cls.instanceMethods.map (·.1) = [⟨"g:"⟩] ∧ Selector.arity ⟨"g:"⟩ = 1 := by
  obtain ⟨x, mem, on⟩ : ∃ x ∈ points {} 0 uncounted 3, ((x.jobs.head?.bind (·.2.onObject?)).any fun on =>
      on.2.isEmpty && on.1.cls.superclass.isNone && (on.1.cls.instanceMethods.map (·.1) == [⟨"g:"⟩])) = true := by
    decide +kernel
  obtain ⟨⟨h, args⟩, on, is⟩ := (Option.any_eq_true ..).1 on
  obtain ⟨body, outer, running⟩ := exists_of_onObject on
  simp only [Bool.and_eq_true, List.isEmpty_iff, beq_iff_eq] at is
  exact ⟨x, mem, body, h, args, outer, running, is.1.1, is.1.2, is.2, by decide⟩

end Session

end ScriptBridge
