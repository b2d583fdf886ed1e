import Mathlib.Data.List.Infix
import ScriptBridge.Proofs.Steps

/-!
# Properties that are for good

An object may have data under a key that may neither be written nor defined again nor removed (`Machine.fixed?`).
What runs leaves such a property as it is while the object lives, but for the edits that do not look for one
(`Point.Overrides`): a class that is set on a global object, and a class method that is exported as `prototype`.

* `Point.Step.fixed`: what one step does to such a property.
* `Session.fixed_lasts`: from any point of a session to any later one.
* `Session.setClass_redefines`: setting a class on a global object takes the place of such a property.

Proof-only: not reachable from `ScriptBridge.Session.Run`.
-/

namespace ScriptBridge

/-- The fixed property of an object under a key. -/
def Machine.fixed? (m : Machine) (r : Ref) (key : String) : Option Property :=
  ((m.object? r).bind fun o => o.properties.get? key).filter Property.isFixed

/-- What comes next defines the property of an object under a key again, without a look at it. -/
def Point.Overrides (x : Point) (r : Ref) (key : String) : Prop :=
  ∃ e, x.next = some ⟨Unit, .edit r e⟩ ∧ e.key? = some key ∧ x.machine.Overrides r e

variable {x y : Point} {r : Ref} {key : String} {p : Property}

theorem Machine.fixed?_eq_some {m : Machine} : m.fixed? r key = some p ↔
    p.isFixed = true ∧ ∃ o, m.object? r = some o ∧ o.properties.get? key = some p := by
  rw [fixed?, Option.filter_eq_some_iff, Option.bind_eq_some_iff, and_comm]

/-- An edit that respects what is fixed leaves it. -/
theorem Machine.Respects.get?_edit {m : Machine} {o : Object} {e : Edit} (respects : m.Respects r e)
    (there : m.object? r = some o) (found : o.properties.get? key = some p) (fixed : p.isFixed = true) :
    (o.edit e).properties.get? key = some p := by
  refine (Object.get?_edit_of_ne fun stored => ?_).trans found
  exact Bool.false_ne_true ((respects o key p there stored found).symm.trans fixed)

namespace Point.Step

/-- A step leaves a fixed property of an object that lives on, or overrides it. -/
theorem fixed (step : x.Step y) (fixed : x.machine.fixed? r key = some p) (lives : y.machine.heap.isLive r = true) :
    y.machine.fixed? r key = some p ∨ x.Overrides r key := by
  obtain ⟨isFixed, o, before, found⟩ := Machine.fixed?_eq_some.1 fixed
  obtain ⟨o', after⟩ := Heap.isLive_iff.1 lives
  have stays (found : o'.properties.get? key = some p) : y.machine.fixed? r key = some p :=
    Machine.fixed?_eq_some.2 ⟨isFixed, o', after, found⟩
  rcases step.object?_of_lives before after with rfl | ⟨e, next, ⟨respects | overrides, -⟩, rfl⟩
  · exact .inl (stays found)
  · exact .inl (stays (respects.get?_edit before found isFixed))
  · by_cases stored : e.key? = some key
    · exact .inr ⟨e, next, stored, overrides⟩
    · exact .inl (stays ((Object.get?_edit_of_ne stored).trans found))

end Point.Step

namespace Session

open Program (Step)

variable {options : Options} {now : Int} {steps : List Step} {depth : Nat} {l l' l'' : List Point}

/-- From any point of a session on, a fixed property keeps its value and its attributes while its object lives, unless
some step overrides it. -/
theorem fixed_lasts (split : points options now steps depth = l ++ x :: (l' ++ y :: l''))
    (fixed : x.machine.fixed? r key = some p) (lives : ∀ z ∈ l' ++ [y], z.machine.heap.isLive r = true) :
    y.machine.fixed? r key = some p ∨ ∃ z ∈ x :: l', z.Overrides r key := by
  induction l' generalizing l x with
  | nil =>
    refine ((step_points split).fixed fixed (lives y List.mem_cons_self)).imp_right fun overrides => ?_
    exact ⟨x, List.mem_cons_self, overrides⟩
  | cons z l' ih =>
    rcases (step_points split).fixed fixed (lives z List.mem_cons_self) with stays | overrides
    · have split : points options now steps depth = (l ++ [x]) ++ z :: (l' ++ y :: l'') := by
        rw [split, List.append_assoc, List.singleton_append, List.cons_append]
      refine (ih split stays fun u mem => lives u (List.mem_cons_of_mem _ mem)).imp_right fun ⟨u, mem, overrides⟩ => ?_
      exact ⟨u, List.mem_cons_of_mem _ mem, overrides⟩
    · exact .inr ⟨x, List.mem_cons_self, overrides⟩

/-- Defines a fixed property of the global object, and tries to write and to remove it. -/
def defended : List Step :=
  [.machine (.newContext "main") none,
    .execute "main" [.script (.define .global "K" (.data .null false) true false) none,
      .script (.set .global "K" (.bool true)) none, .script (.delete .global "K") none]]

/-- Then a class is set under its key. -/
def redefined : List Step :=
  defended ++ [.machine (.protocol "P" "P" [] true []) none, .declareClass "K" "K" none ["P"] [] [] false,
    .machine (.setClass "main" "K" "K") none]

/-- The first point has a fixed property of the global object, which lives at all others, and the last one has it or
has not. -/
def endsWith (fixed : Bool) : List Point → Bool
  | [] => false
  | x :: rest => (x.machine.fixed? ⟨9, 0⟩ "K").isSome && rest.all (·.machine.heap.isLive ⟨9, 0⟩) &&
    rest.getLast?.any fun y => (y.machine.fixed? ⟨9, 0⟩ "K").isSome == fixed

theorem exists_of_endsWith {fixed : Bool} {pts : List Point} (ends : ∃ s ∈ pts.tails, endsWith fixed s = true) :
    ∃ l x l' y p, pts = l ++ x :: (l' ++ [y]) ∧ x.machine.fixed? ⟨9, 0⟩ "K" = some p ∧
      (∀ z ∈ l' ++ [y], z.machine.heap.isLive ⟨9, 0⟩ = true) ∧ (y.machine.fixed? ⟨9, 0⟩ "K").isSome = fixed := by
  obtain ⟨s, suffix, ends⟩ := ends
  obtain ⟨l, rfl⟩ := (List.mem_tails ..).1 suffix
  cases s with
  | nil => exact absurd ends Bool.false_ne_true
  | cons x rest =>
    simp only [endsWith, Bool.and_eq_true, List.all_eq_true, Option.any_eq_true, beq_iff_eq] at ends
    obtain ⟨⟨first, lives⟩, y, last, is⟩ := ends
    obtain ⟨p, first⟩ := Option.isSome_iff_exists.1 first
    obtain ⟨l', rfl⟩ := List.getLast?_eq_some_iff.1 last
    exact ⟨l, x, l', y, p, rfl, first, lives, is⟩

/-- Neither assignments nor deletions change it. -/
theorem fixed_lasts_defended : ∃ l x l' y p, points {} 0 defended 3 = l ++ x :: (l' ++ [y]) ∧
    x.machine.fixed? ⟨9, 0⟩ "K" = some p ∧ (∀ z ∈ l' ++ [y], z.machine.heap.isLive ⟨9, 0⟩ = true) ∧
      (y.machine.fixed? ⟨9, 0⟩ "K" = some p ∨ ∃ z ∈ x :: l', z.Overrides ⟨9, 0⟩ "K") := by
  have ends : ∃ s ∈ (points {} 0 defended 3).tails, endsWith true s = true := by decide +kernel
  obtain ⟨l, x, l', y, p, split, fixed, lives, -⟩ := exists_of_endsWith ends
  exact ⟨l, x, l', y, p, split, fixed, lives, fixed_lasts split fixed lives⟩

/-- The class takes its place, while the global object lives. -/
theorem setClass_redefines : ∃ l x l' y p, points {} 0 redefined 3 = l ++ x :: (l' ++ [y]) ∧
    x.machine.fixed? ⟨9, 0⟩ "K" = some p ∧ (∀ z ∈ l' ++ [y], z.machine.heap.isLive ⟨9, 0⟩ = true) ∧
      y.machine.fixed? ⟨9, 0⟩ "K" ≠ some p := by
  have ends : ∃ s ∈ (points {} 0 redefined 3).tails, endsWith false s = true := by decide +kernel
  obtain ⟨l, x, l', y, p, split, fixed, lives, gone⟩ := exists_of_endsWith ends
  exact ⟨l, x, l', y, p, split, fixed, lives, fun stays => Bool.false_ne_true (by rw [← gone, stays]; rfl)⟩

end Session

end ScriptBridge
