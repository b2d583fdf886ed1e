import ScriptBridge.Proofs.Confined.Session
import ScriptBridge.Proofs.OrderedMap

/-!
# Properties after any operations

`PropertyOp` is one operation on the properties of an object. It may run setters, and getters for the text of
a message, which do what they like. Still every object has different keys afterwards, and its properties are
an ordered map.

* `PropertyOp.run`: some operations, whatever becomes of each. `PropertyOp.known_run`: the machine stays known.
* `Session.properties_ordered`: the laws of `Scope.OrderedMap` after any operations from any point of any
  session.
* `Session.message_deletes`: a refused definition that changes an object, by a getter of the refused value.

Proof-only: not reachable from `ScriptBridge.Session.Run`.
-/

namespace ScriptBridge

open Program Routine

namespace Outcome

variable {ε α : Type} {out : Outcome ε α}

/-- What a run threw, if it threw something. -/
def thrown? : Outcome ε α → Option ε
  | .thrown e => some e
  | .done _ | .panicked _ | .exhausted => none

theorem exists_of_thrown (thrown : out.thrown?.isSome = true) : ∃ e, out = .thrown e := by
  cases out with
  | thrown e => exact ⟨e, rfl⟩
  | done | panicked | exhausted => nomatch thrown

end Outcome

/-- An operation on the properties of an object. -/
inductive PropertyOp where
  | set (key : String) (v : Value)
  | delete (key : String)
  | define (key : String) (d : Descriptor) (enumerable configurable : Bool)

namespace PropertyOp

def routine (s : Scope) (r : Ref) : PropertyOp → Routine Thrown Unit
  | set key v => s.set (.object r) key v
  | delete key => do let _ ← s.delete (.object r) key
  | define key d enumerable configurable => s.define (.object r) key d enumerable configurable

/-- The machine after some operations on an object, each in a scope. One that throws is over then. -/
def run (job : Runner) (r : Ref) (m : Machine) : List (Scope × PropertyOp) → Machine
  | [] => m
  | (s, op) :: ops => run job r ((op.routine s r).exec job m).2 ops

/-- No operation stores anything that is not known. -/
theorem routine_confined {s : Scope} {r : Ref} {o : Option AnyJob} {K : Roster} (op : PropertyOp) :
    (op.routine s r).Confined o K := by
  cases op with
  | set key v => exact (Scope.set_confined : (s.set (.object r) key v).Confined o K)
  | delete key => exact .bind Scope.delete_confined fun _ _ _ _ => .ret
  | define key d enumerable configurable =>
    exact (Scope.define_confined : (s.define (.object r) key d enumerable configurable).Confined o K)

theorem known_run {r : Ref} {m : Machine} {K : Roster} (known : m.Known K) (depth : Nat)
    (ops : List (Scope × PropertyOp)) : ∃ K', (run (Job.exec Job.routine depth) r m ops).Known K' := by
  induction ops generalizing m K with
  | nil => exact ⟨K, known⟩
  | cons first ops ih =>
    obtain ⟨s, op⟩ := first
    have yields : (op.routine s r).Confined none K := op.routine_confined
    obtain ⟨K', -, known', -⟩ := yields.leaves (Job.confining Job.routine_yields depth) known
    exact ih known'

end PropertyOp

namespace Session

variable {options : Options} {now : Int} {steps : List Step} {depth : Nat} {x : Point} {r : Ref} {o : Object}
  {chain : List Object}

/-- After any operations on the properties of an object, from any point of any session, its own properties are
a map in insertion order with different keys, and every operation goes by their attributes: if the object is
live and neither an array nor a wrapper, and its chain is no longer than what is walked. -/
theorem properties_ordered (mem : x ∈ points options now steps depth) (further : Nat) (ops : List (Scope × PropertyOp))
    (ho : (PropertyOp.run (Job.exec Job.routine further) r x.machine ops).object? r = some o)
    (plain : o.isArray = false) (bare : o.wrapper? = none)
    (walked : (PropertyOp.run (Job.exec Job.routine further) r x.machine ops).heap.chain? (maxChain + 1) (some r) =
      some chain) (s : Scope) :
    s.OrderedMap (PropertyOp.run (Job.exec Job.routine further) r x.machine ops) r o chain := by
  obtain ⟨K, known⟩ := (lawful_points mem).machine
  obtain ⟨K', known⟩ := PropertyOp.known_run known further ops
  exact Scope.orderedMap known.heap (known.objects r o ho).keys ho plain bare walked

/-- An object is made and read. -/
def furnished : List Step :=
  [.machine (.newContext "main") none,
    .execute "main" [.value (.bind (.object [("a", .bool true)])) (some "o"), .script (.keys (.register "o")) none]]

/-- Defines a property that stays, tries to remove it, and assigns to another. -/
def settled : List (Scope × PropertyOp) :=
  [(⟨0⟩, .define "b" (.data (.bool true) false) true false), (⟨0⟩, .delete "b"), (⟨0⟩, .set "a" .null)]

/-- The property that stays is there after the others, and removing it once more changes nothing. -/
theorem properties_ordered_settled : ∃ x ∈ points {} 0 furnished 3, ∃ o chain m,
    m = PropertyOp.run (Job.exec Job.routine 3) ⟨18, 0⟩ x.machine settled ∧ m.object? ⟨18, 0⟩ = some o ∧
      o.isArray = false ∧ o.wrapper? = none ∧ m.heap.chain? (maxChain + 1) (some ⟨18, 0⟩) = some chain ∧
      o.properties.map (·.1) = ["a", "b"] ∧ (Scope.delete ⟨0⟩ (.object ⟨18, 0⟩) "b").Returns m false m ∧
      Scope.OrderedMap ⟨0⟩ m ⟨18, 0⟩ o chain := by
  obtain ⟨x, mem, is⟩ : ∃ x ∈ points {} 0 furnished 3,
      (((PropertyOp.run (Job.exec Job.routine 3) ⟨18, 0⟩ x.machine settled).object? ⟨18, 0⟩).any fun o =>
          !o.isArray && o.wrapper?.isNone && o.properties.map (·.1) == ["a", "b"] &&
            (o.properties.get? "b").any (!·.configurable)) &&
        ((PropertyOp.run (Job.exec Job.routine 3) ⟨18, 0⟩ x.machine settled).heap.chain? (maxChain + 1)
          (some ⟨18, 0⟩)).isSome := by
    decide +kernel
  obtain ⟨found, walked⟩ := Bool.and_eq_true_iff.1 is
  obtain ⟨o, ho, is⟩ := (Option.any_eq_true ..).1 found
  obtain ⟨chain, walked⟩ := Option.isSome_iff_exists.1 walked
  simp only [Bool.and_eq_true, Bool.not_eq_true', Option.isNone_iff_eq_none, beq_iff_eq] at is
  obtain ⟨⟨⟨plain, bare⟩, keys⟩, stays⟩ := is
  obtain ⟨p, b, fixed⟩ := (Option.any_eq_true ..).1 stays
  have ordered := properties_ordered mem 3 settled ho plain bare walked ⟨0⟩
  exact ⟨x, mem, o, chain, _, rfl, ho, plain, bare, walked, keys,
    ordered.delete_refuses "b" p b (by simpa using fixed), ordered⟩

/-- An error whose name getter removes a property is taken for a getter itself. -/
def named : List Step :=
  [.machine (.newContext "main") none,
    .execute "main" [.value (.newError .error "m") (some "e"), .script (.set (.register "e") "a" (.bool true)) none,
      .function "drop" [.script (.delete .this "a") none, .returnScript (.text "E")] false (some "drop"),
      .script (.define (.register "e") "name" (.accessor (some (.register "drop")) none) false false) none,
      .script (.keys (.register "e")) none,
      .script (.define (.register "e") "x" (.accessor (some (.register "e")) none) false false) none]]

/-- The error is defined as a getter of its own. -/
def mistaken (m : Machine) : Outcome Thrown Unit × Machine :=
  (Scope.define ⟨0⟩ (.object ⟨18, 0⟩) "x" (.accessor (some (.object ⟨18, 0⟩)) none) false false).exec
    (Job.exec Job.routine 3) m

/-- Before the message is thrown, the getter that its text runs has removed a property. -/
theorem message_deletes : ∃ x ∈ points {} 0 named 3, ∃ o o' e m',
    x.machine.object? ⟨18, 0⟩ = some o ∧ o.isArray = false ∧ o.wrapper? = none ∧
      (x.machine.heap.chain? maxChain (some ⟨18, 0⟩)).isSome = true ∧
      x.machine.isFunction (.object ⟨18, 0⟩) = false ∧
      mistaken x.machine = (.thrown e, m') ∧
      m'.object? ⟨18, 0⟩ = some o' ∧ o.keys = ["a"] ∧ o'.keys = [] := by
  obtain ⟨x, mem, before, walked, data, thrown, after⟩ : ∃ x ∈ points {} 0 named 3,
      ((x.machine.object? ⟨18, 0⟩).any fun o => !o.isArray && o.wrapper?.isNone && o.keys == ["a"]) = true ∧
      (x.machine.heap.chain? maxChain (some ⟨18, 0⟩)).isSome = true ∧
      x.machine.isFunction (.object ⟨18, 0⟩) = false ∧ (mistaken x.machine).1.thrown?.isSome = true ∧
      ((mistaken x.machine).2.object? ⟨18, 0⟩).any (·.keys == []) = true := by
    decide +kernel
  obtain ⟨o, ho, is⟩ := (Option.any_eq_true ..).1 before
  obtain ⟨o', ho', none⟩ := (Option.any_eq_true ..).1 after
  simp only [Bool.and_eq_true, Bool.not_eq_true', Option.isNone_iff_eq_none, beq_iff_eq] at is none
  obtain ⟨e, outcome⟩ := Outcome.exists_of_thrown thrown
  exact ⟨x, mem, o, o', e, _, ho, is.1.1, is.1.2, walked, data, Prod.ext outcome rfl, ho', is.2, none⟩

end Session

end ScriptBridge
