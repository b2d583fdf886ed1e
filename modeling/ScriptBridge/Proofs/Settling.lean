import ScriptBridge.Proofs.Discreet.Operations
import ScriptBridge.Proofs.Tidy.Session

/-!
# Exceptions are settled once

An operation of native code does its work and then settles what the work ended with: something thrown becomes an
error of the caller, or the session takes note of it and the operation gives an empty value.

* `NativeOperation`: the operations, with the work of each and its empty value.
* `Scope.settlement`: what becomes of the end of the work. `Scope.account_settle`: settling does that.
* `NativeOperation.routine_ends`: every operation settles the end of its work once, also those that settle two parts
  one after the other.
* `NativeOperation.settles`: what that means for each end.
* `Session.undescribed_dropped`: an exception whose name panics is neither reported nor returned.

Proof-only: not reachable from `ScriptBridge.Session.Run`.
-/

namespace ScriptBridge

open Routine
open Program (UnwrapShape)

/-- The machine after an exception was taken note of. -/
def Machine.noting (m : Machine) (e : BridgeException) : Machine :=
  { m with tables := { m.tables with
      reports := m.tables.reports + 1, reportTexts := e.text :: m.tables.reportTexts } }

/-! ## Ends -/

/-- How a run ends: its outcome, the machine after it, and how many exceptions it took note of. -/
abbrev RunEnd (ε α : Type) := Outcome ε α × Machine × Nat

/-- The end of a run of a routine. -/
def Routine.account {ε α : Type} (job : Runner) (r : Routine ε α) (m : Machine) : RunEnd ε α :=
  ((r.exec job m).1, (r.exec job m).2, r.reported job m)

/-- A run of the routine ends so. Of the machine only the tables and the options count. -/
structure Routine.EndsAs {ε α : Type} (job : Runner) (r : Routine ε α) (m : Machine) (out : RunEnd ε α) : Prop where
  outcome : (r.exec job m).1 = out.1
  tables : (r.exec job m).2.tables = out.2.1.tables
  options : (r.exec job m).2.options = out.2.1.options
  reported : r.reported job m = out.2.2

/-- Closing a region leaves the options alone. -/
theorem Machine.options_closeRegion (m : Machine) (panicking : Bool) :
    (m.closeRegion panicking).options = m.options := by
  unfold Machine.closeRegion
  split
  · rfl
  · rename_i region _ _
    split
    · obtain ⟨_, _, _, _, eq⟩ := (m.leaveRegion.holdContext region.context).collect_eq
      rw [eq]
      rfl
    · rfl

namespace Routine.EndsAs

variable {ε α β : Type} {job : Runner} {m : Machine} {out : RunEnd ε α}

/-! A routine of two parts. -/

section

variable {r : Routine ε α} {f : α → Routine ε β} {m₁ m₂ : Machine} {n k : Nat}

theorem account_bind : (r >>= f).account job m =
    match r.account job m with
    | (.done a, m₁, n) => (((f a).account job m₁).1, ((f a).account job m₁).2.1, ((f a).account job m₁).2.2 + n)
    | (.thrown e, m₁, n) => (.thrown e, m₁, n)
    | (.panicked p, m₁, n) => (.panicked p, m₁, n)
    | (.exhausted, m₁, n) => (.exhausted, m₁, n) := by
  unfold account
  rw [exec_bind, reported_bind]
  rcases r.exec job m with ⟨outcome, m₁⟩
  cases outcome with
  | done a => exact congrArg (fun n => (_, _, n)) (Nat.add_comm _ _)
  | thrown | panicked | exhausted => rfl

theorem after {a : α} {out : RunEnd ε β} (next : (f a).EndsAs job m₁ out)
    (first : r.account job m = (.done a, m₁, n)) : (r >>= f).EndsAs job m (out.1, out.2.1, out.2.2 + n) := by
  have whole : (r >>= f).account job m =
      (((f a).account job m₁).1, ((f a).account job m₁).2.1, ((f a).account job m₁).2.2 + n) :=
    account_bind.trans (by rw [first])
  refine ⟨(congrArg (·.1) whole).trans next.outcome, ?_, ?_, ?_⟩
  · exact (congrArg (·.2.1.tables) whole).trans next.tables
  · exact (congrArg (·.2.1.options) whole).trans next.options
  · exact (congrArg (·.2.2) whole).trans (congrArg (· + n) next.reported)

theorem of_account {r : Routine ε α} {out : RunEnd ε α} (is : r.account job m = out) : r.EndsAs job m out :=
  is ▸ ⟨rfl, rfl, rfl, rfl⟩

theorem of_thrown {e : ε} (first : r.account job m = (.thrown e, m₁, n)) :
    (r >>= f).EndsAs job m (.thrown e, m₁, n) := .of_account (account_bind.trans (by rw [first]))

theorem of_panicked {p : Panic} (first : r.account job m = (.panicked p, m₁, n)) :
    (r >>= f).EndsAs job m (.panicked p, m₁, n) := .of_account (account_bind.trans (by rw [first]))

theorem of_exhausted (first : r.account job m = (.exhausted, m₁, n)) :
    (r >>= f).EndsAs job m (.exhausted, m₁, n) := .of_account (account_bind.trans (by rw [first]))

end

/-- What is done around a routine, if it leaves tables and options alone. -/
theorem bracket {opening : Action β} {cleanup : Bool → Action Unit} {r : Routine ε α}
    (h : r.EndsAs job (opening.run m).2 out) (silent : opening.silent = true) (silent' : ∀ b, (cleanup b).silent = true)
    (options : ∀ b m, ((cleanup b).run m).2.options = m.options) :
    (act opening fun _ => r.ensuring cleanup).EndsAs job m out := by
  have ends : (act opening fun _ => r.ensuring cleanup).exec job m =
      Outcome.closing cleanup (r.exec job (opening.run m).2) := exec_ensuring job cleanup r _
  have reports : (act opening fun _ => r.ensuring cleanup).reported job m = r.reported job (opening.run m).2 := by
    change opening.reported m + (r.ensuring cleanup).reported job (opening.run m).2 = _
    rw [opening.reported_of_silent silent, reported_ensuring job silent', Nat.zero_add]
  obtain ⟨outcome, tables, options', reported⟩ := h
  refine ⟨?_, ?_, ?_, reports.trans reported⟩
  · rw [ends, Outcome.closing_fst, outcome]
  · rw [ends, ← tables]
    rcases r.exec job (opening.run m).2 with ⟨_ | _ | _ | _, m'⟩
    · exact (cleanup false).tables_run (silent' false) m'
    · exact (cleanup false).tables_run (silent' false) m'
    · exact (cleanup true).tables_run (silent' true) m'
    · rfl
  · rw [ends, ← options']
    rcases r.exec job (opening.run m).2 with ⟨_ | _ | _ | _, m'⟩
    · exact options false m'
    · exact options false m'
    · exact options true m'
    · rfl

theorem inRegion {context : Nat} {r : Routine ε α} (h : r.EndsAs job (m.enterRegion context) out) :
    (Routine.inRegion context r).EndsAs job m out :=
  bracket h rfl (fun _ => rfl) fun panicking m => m.options_closeRegion panicking

theorem holding {r : Routine ε α} (h : r.EndsAs job (Action.openHold.run m).2 out) :
    (Routine.holding [] r).EndsAs job m out :=
  bracket h rfl (fun _ => rfl) fun _ _ => rfl

/-- Its result is held. -/
theorem hold {r : Routine ε NativeValue} {out : RunEnd ε NativeValue} (h : r.EndsAs job m out) :
    (do let v ← r; Routine.hold v; return v).EndsAs job m out := by
  obtain ⟨holds, ends, reports⟩ : ∃ holds, (do let v ← r; Routine.hold v; return v : Routine ε NativeValue).exec job m =
      ((r.exec job m).1, { (r.exec job m).2 with holds }) ∧
      (do let v ← r; Routine.hold v; return v : Routine ε NativeValue).reported job m = r.reported job m := by
    rw [exec_bind, reported_bind]
    rcases r.exec job m with ⟨outcome, m'⟩
    cases outcome with
    | done v =>
      obtain ⟨holds, held⟩ := Action.run_hold m' v
      refine ⟨holds, congrArg (Prod.mk (Outcome.done v)) held, ?_⟩
      exact congrArg (_ + ·) ((Action.hold v).reported_of_silent rfl m')
    | thrown | panicked | exhausted => exact ⟨m'.holds, rfl, rfl⟩
  obtain ⟨outcome, tables, options, reported⟩ := h
  refine ⟨?_, ?_, ?_, reports.trans reported⟩ <;> rw [ends]
  · exact outcome
  · exact tables
  · exact options

end Routine.EndsAs

/-! ## Settling -/

namespace Scope

variable {α : Type} {s : Scope} {job : Runner} {m : Machine} {empty : α}

/-- What becomes of the end of some work. -/
def settlement (s : Scope) (job : Runner) (empty : α) : Outcome Fault α × Machine → RunEnd BridgeError α
  | (.done a, m) => (.done a, m, 0)
  | (.thrown (.error e), m) => (.thrown e, m, 0)
  | (.thrown (.thrown t), m) =>
    match (s.capture t : Routine BridgeError BridgeException).exec job m with
    | (.done e, m) =>
      match m.options.strategy with
      | .rethrow => (.thrown (.script e), m, 0)
      | .report => (.done empty, m.noting e, 1)
    | (.thrown e, m) => (.thrown e, m, 0)
    | (.panicked p, m) => (.panicked p, m, 0)
    | (.exhausted, m) => (.exhausted, m, 0)
  | (.panicked p, m) => (.panicked p, m, 0)
  | (.exhausted, m) => (.exhausted, m, 0)

variable {t : Thrown} {e : BridgeException} {p : Panic} {m₂ : Machine}

theorem settlement_rethrow
    (described : (s.capture t : Routine BridgeError BridgeException).exec job m = (.done e, m₂))
    (strategy : m₂.options.strategy = .rethrow) :
    s.settlement job empty (.thrown (.thrown t), m) = (.thrown (.script e), m₂, 0) := by
  simp only [settlement, described, strategy]

theorem settlement_report
    (described : (s.capture t : Routine BridgeError BridgeException).exec job m = (.done e, m₂))
    (strategy : m₂.options.strategy = .report) :
    s.settlement job empty (.thrown (.thrown t), m) = (.done empty, m₂.noting e, 1) := by
  simp only [settlement, described, strategy]

theorem settlement_panicked
    (broken : (s.capture t : Routine BridgeError BridgeException).exec job m = (.panicked p, m₂)) :
    s.settlement job empty (.thrown (.thrown t), m) = (.panicked p, m₂, 0) := by
  simp only [settlement, broken]

/-- An exception of scripts is only returned where none are taken note of. -/
theorem strategy_of_settlement {work : Outcome Fault α × Machine} (ordinary : ∀ f, work.1 = .thrown f → f.Ordinary)
    (returned : (s.settlement job empty work).1 = .thrown (.script e)) :
    (s.settlement job empty work).2.1.options.strategy = .rethrow := by
  obtain ⟨outcome, m₁⟩ := work
  cases outcome with
  | done | panicked | exhausted => nomatch returned
  | thrown fault =>
    cases fault with
    | error error =>
      cases Outcome.thrown.inj returned
      exact (ordinary _ rfl).elim
    | thrown t =>
      have described : (s.capture t : Routine BridgeError _).Discreet (fun _ => False) false := capture_discreet
      have throws := (described.run job m₁).2.1
      rcases run : (s.capture t : Routine BridgeError _).exec job m₁ with ⟨outcome, m₂⟩
      cases outcome with
      | thrown error => exact (throws error (congrArg (·.1) run)).elim
      | panicked p =>
        rw [settlement_panicked run] at returned
        nomatch returned
      | exhausted =>
        simp only [settlement, run] at returned
        nomatch returned
      | done e =>
        cases strategy : m₂.options.strategy with
        | rethrow =>
          rw [settlement_rethrow run strategy]
          exact strategy
        | report =>
          rw [settlement_report run strategy] at returned
          nomatch returned

/-- Settling does that with the end of a routine that takes note of nothing by itself. -/
theorem account_settle {r : Routine Fault α} (quiet : r.reported job m = 0) :
    (s.settle empty r).account job m = s.settlement job empty (r.exec job m) := by
  unfold settle account
  rw [exec_bind, reported_bind, exec_attempt, reported_attempt, quiet, Nat.zero_add]
  rcases r.exec job m with ⟨outcome, m₁⟩
  cases outcome with
  | done | panicked | exhausted => rfl
  | thrown fault =>
    cases fault with
    | error e => rfl
    | thrown t =>
      have described : (s.capture t : Routine BridgeError _).Discreet (fun _ => True) false := capture_discreet
      have silent := (described.run job m₁).1
      simp only [Outcome.attempt, Outcome.andThen, settlement]
      rw [exec_bind, reported_bind, silent, Nat.zero_add]
      rcases (s.capture t : Routine BridgeError _).exec job m₁ with ⟨outcome, m₂⟩
      cases outcome with
      | thrown | panicked | exhausted => rfl
      | done e =>
        dsimp only [Outcome.andThen]
        cases strategy : m₂.options.strategy with
        | rethrow =>
          rw [exec_look strategy, reported_look strategy]
          rfl
        | report =>
          rw [exec_look strategy, reported_look strategy]
          have noted : (m₂.noting e).tables.reports - m₂.tables.reports = 1 := Nat.add_sub_cancel_left _ 1
          exact congrArg (fun n => (Outcome.done empty, m₂.noting e, n)) noted

end Scope

/-! ## Operations -/

/-- What native code can do with script values and contexts; the type is that of the result. -/
inductive NativeOperation : Type → Type where
  | wrap (v : NativeValue) : NativeOperation Value
  | unwrap (v : Value) (shape : UnwrapShape) : NativeOperation NativeValue
  | property (target : Value) (key : String) : NativeOperation Value
  | setProperty (target : Value) (key : String) (v : NativeValue) : NativeOperation Unit
  | deleteProperty (target : Value) (key : String) : NativeOperation Bool
  | hasProperty (target : Value) (key : String) : NativeOperation Bool
  | valueAt (target : Value) (index : Nat) : NativeOperation Value
  | setValueAt (target : Value) (index : Nat) (v : NativeValue) : NativeOperation Unit
  | defineWith (target : Value) (key : String) (d : NativeValue) : NativeOperation Unit
  | callWith (f : Value) (args : List NativeValue) : NativeOperation Value
  | constructWith (f : Value) (args : List NativeValue) : NativeOperation Value
  | invokeMethod (target : Value) (name : String) (args : List NativeValue) : NativeOperation Value
  | isInstanceOf (v ctor : Value) : NativeOperation Bool
  | evaluateScript (source resource : String) : NativeOperation Value
  | contextGet (context : Nat) (key : String) : NativeOperation NativeValue
  | contextSet (context : Nat) (key : String) (v : NativeValue) : NativeOperation Unit
  | contextEvaluate (context : Nat) (source resource : String) : NativeOperation NativeValue
  | setClass (context : Nat) (name : String) (cls : Class) : NativeOperation Unit

namespace NativeOperation

open Scope

variable {α : Type} {s : Scope} {job : Runner} {m : Machine}

/-- The whole operation, in a scope. Those on a context need none. -/
def routine (s : Scope) : NativeOperation α → Routine BridgeError α
  | .wrap v => s.wrap v
  | .unwrap v shape => s.unwrap v shape
  | .property target key => s.property target key
  | .setProperty target key v => s.setProperty target key v
  | .deleteProperty target key => s.deleteProperty target key
  | .hasProperty target key => s.hasProperty target key
  | .valueAt target index => s.valueAt target index
  | .setValueAt target index v => s.setValueAt target index v
  | .defineWith target key d => s.defineWith target key d
  | .callWith f args => s.callWith f args
  | .constructWith f args => s.constructWith f args
  | .invokeMethod target name args => s.invokeMethod target name args
  | .isInstanceOf v ctor => s.isInstanceOf v ctor
  | .evaluateScript source resource => s.evaluateScript source resource
  | .contextGet context key => Scope.contextGet context key
  | .contextSet context key v => Scope.contextSet context key v
  | .contextEvaluate context source resource => Scope.contextEvaluate context source resource
  | .setClass context name cls => Scope.setClass context name cls

/-- The scope that it works in. -/
def scope (s : Scope) : NativeOperation α → Scope
  | .contextGet context _ | .contextSet context .. | .contextEvaluate context .. | .setClass context .. => ⟨context⟩
  | _ => s

/-- The empty value of its result. -/
def empty : NativeOperation α → α
  | .wrap _ | .property .. | .valueAt .. | .callWith .. | .constructWith .. | .invokeMethod .. | .evaluateScript .. =>
    .undefined
  | .unwrap .. | .contextGet .. | .contextEvaluate .. => .nil
  | .setProperty .. | .setValueAt .. | .defineWith .. | .contextSet .. | .setClass .. => ()
  | .deleteProperty .. | .hasProperty .. | .isInstanceOf .. => false

/-- Evaluates a source text if there is an evaluator. -/
def evaluation (s : Scope) (source resource : String) : Routine Fault Value := do
  if (← read (·.evaluator)).isNone then .throw (.error (.config .noEvaluator))
  else s.evaluate source resource

/-- The property that a descriptor describes. -/
def definition (s : Scope) (target : Value) (key : String) (d : NativeValue) : Routine Fault Unit := do
  let descriptor ←
    if (d.get? "get").isSome || (d.get? "set").isSome then do
      let getter ← s.descriptorEntry d "get"
      let setter ← s.descriptorEntry d "set"
      pure (Descriptor.accessor getter setter)
    else do
      let v ← s.descriptorEntry d "value"
      pure (Descriptor.data (v.getD .undefined) (descriptorFlag d "writable"))
  s.define target key descriptor (descriptorFlag d "enumerable") (descriptorFlag d "configurable")

/-- What it does before anything is settled. -/
def work (s : Scope) (op : NativeOperation α) : Routine Fault α :=
  let s := op.scope s
  match op with
  | .wrap v => s.toScript v
  | .unwrap v shape => holding [] (s.toNativeAs shape v)
  | .property target key => s.get target key
  | .setProperty target key v => do s.set target key (← s.toScript v)
  | .deleteProperty target key => s.delete target key
  | .hasProperty target key => s.has target key
  | .valueAt target index => s.getIndex target index
  | .setValueAt target index v => do s.setIndex target index (← s.toScript v)
  | .defineWith target key d => definition s target key d
  | .callWith f args => do s.call f .undefined (← s.toScripts args)
  | .constructWith f args => do s.construct f (← s.toScripts args)
  | .invokeMethod target name args => do
    let args ← s.toScripts args
    let f ← s.get target name
    s.call f target args
  | .isInstanceOf v ctor => do
    match ← read (·.classOfConstructor? s ctor), ← read (·.nativeBehind? v) with
    | some cls, some h => return h.cls.isSubclassOf cls
    | _, _ => s.instanceOf v ctor
  | .evaluateScript source resource => evaluation s source resource
  | .contextGet _ key => do
    let v ← s.get (← s.global) key
    holding [] (s.toNativeAs .any v)
  | .contextSet _ key v => do s.set (← s.global) key (← s.toScript v)
  | .contextEvaluate _ source resource => do
    let v ← evaluation s source resource
    holding [] (s.toNativeAs .any v)
  | .setClass _ name cls => do
    let t ← s.templateFor cls
    let global ← read fun m => (m.scopeContext s).global
    edit global (.define name (.hidden (.object t.constructor)))

/-- The machine that the work starts on: operations on a context enter it first. -/
def start (m : Machine) : NativeOperation α → Machine
  | .contextGet context _ | .contextEvaluate context .. => (Action.openHold.run m).2.enterRegion context
  | .contextSet context .. | .setClass context .. => m.enterRegion context
  | _ => m

/-! ### The work is discreet -/

theorem toScripts_discreet {args : List NativeValue} : (s.toScripts args).Discreet Fault.Ordinary false :=
  .mapM fun _ => toScript_discreet

theorem evaluation_discreet {source resource : String} :
    (evaluation s source resource).Discreet Fault.Ordinary false := by
  refine .bind .read fun evaluator => ?_
  split
  · exact .throw trivial
  · exact lift_discreet evaluate_discreet

theorem definition_discreet {target : Value} {key : String} {d : NativeValue} :
    (definition s target key d).Discreet Fault.Ordinary false := by
  have entry {name : String} : (s.descriptorEntry d name).Discreet Fault.Ordinary false := by
    unfold descriptorEntry
    split
    · exact .bind toScript_discreet fun _ => .pure
    · exact .pure
  unfold definition
  dsimp only
  split
  · exact .bind entry fun _ => .bind entry fun _ => .bind .pure fun _ => lift_discreet define_discreet
  · exact .bind entry fun _ => .bind .pure fun _ => lift_discreet define_discreet

theorem work_discreet (op : NativeOperation α) : (op.work s).Discreet Fault.Ordinary false := by
  cases op with
  | wrap v => exact toScript_discreet
  | unwrap v shape => exact .holding toNativeAs_discreet
  | property target key => exact lift_discreet get_discreet
  | setProperty target key v => exact .bind toScript_discreet fun _ => lift_discreet set_discreet
  | deleteProperty target key => exact lift_discreet delete_discreet
  | hasProperty target key => exact lift_discreet has_discreet
  | valueAt target index => exact lift_discreet getIndex_discreet
  | setValueAt target index v => exact .bind toScript_discreet fun _ => lift_discreet setIndex_discreet
  | defineWith target key d => exact definition_discreet
  | callWith f args => exact .bind toScripts_discreet fun _ => lift_discreet call_discreet
  | constructWith f args => exact .bind toScripts_discreet fun _ => lift_discreet construct_discreet
  | invokeMethod target name args =>
    refine .bind toScripts_discreet fun _ => .bind (lift_discreet get_discreet) fun _ => ?_
    exact lift_discreet call_discreet
  | isInstanceOf v ctor =>
    refine .bind .read fun cls => .bind .read fun h => ?_
    split
    · exact .pure
    · exact lift_discreet instanceOf_discreet
  | evaluateScript source resource => exact evaluation_discreet
  | contextGet context key =>
    refine .bind (.bind .read fun _ => .bind (.perform rfl) fun _ => .pure) fun _ => ?_
    exact .bind (lift_discreet get_discreet) fun _ => .holding toNativeAs_discreet
  | contextSet context key v =>
    refine .bind (.bind .read fun _ => .bind (.perform rfl) fun _ => .pure) fun _ => ?_
    exact .bind toScript_discreet fun _ => lift_discreet set_discreet
  | contextEvaluate context source resource =>
    exact .bind evaluation_discreet fun _ => .holding toNativeAs_discreet
  | setClass context name cls => exact .bind (templateFor_discreet cls) fun _ => .bind .read fun _ => .perform rfl

/-! ### How operations end -/

theorem settle_ends {empty : α} {r : Routine Fault α} (discreet : r.Discreet Fault.Ordinary false) (m : Machine) :
    (s.settle empty r).EndsAs job m (s.settlement job empty (r.exec job m)) := by
  rw [← account_settle (discreet.run job m).1]
  exact ⟨rfl, rfl, rfl, rfl⟩

/-- Where two parts are settled one after the other, the second has nothing to settle if the first was: it gets an
empty value then. -/
theorem settle_both {first : Routine Fault Value} {rest : Value → Routine Fault NativeValue}
    {second : Value → Routine BridgeError NativeValue} (discreet : first.Discreet Fault.Ordinary false)
    (each : ∀ v m, (second v).EndsAs job m (s.settlement job .nil ((rest v).exec job m)))
    (none : ∀ m, (second .undefined).EndsAs job m (.done .nil, m, 0)) (m : Machine) :
    (s.settle .undefined first >>= second).EndsAs job m (s.settlement job .nil ((first >>= rest).exec job m)) := by
  have settled : (s.settle .undefined first).account job m = s.settlement job .undefined (first.exec job m) :=
    account_settle (discreet.run job m).1
  rw [exec_bind]
  rcases ended : first.exec job m with ⟨outcome, m₁⟩
  rw [ended] at settled
  cases outcome with
  | done v => exact (each v m₁).after settled
  | panicked p => exact .of_panicked settled
  | exhausted => exact .of_exhausted settled
  | thrown fault =>
    cases fault with
    | error e => exact .of_thrown settled
    | thrown t =>
      unfold settlement at settled ⊢
      simp only [Outcome.andThen] at settled ⊢
      rcases described : (s.capture t : Routine BridgeError _).exec job m₁ with ⟨outcome, m₂⟩
      rw [described] at settled
      cases outcome with
      | thrown e => exact .of_thrown settled
      | panicked p => exact .of_panicked settled
      | exhausted => exact .of_exhausted settled
      | done e =>
        dsimp only at settled ⊢
        cases strategy : m₂.options.strategy with
        | rethrow =>
          rw [strategy] at settled
          exact .of_thrown settled
        | report =>
          rw [strategy] at settled
          exact (none _).after settled

/-- Settling passes on what is no throw, so it may as well be done around the whole. -/
theorem evaluateScript_eq (s : Scope) (source resource : String) :
    s.evaluateScript source resource = s.settle .undefined (evaluation s source resource) := by
  change Routine.act _ _ = Routine.act _ _
  congr 1
  funext evaluator
  cases evaluator with
  | none => rfl
  | some programs => rfl

theorem isInstanceOf_eq (s : Scope) (v ctor : Value) :
    s.isInstanceOf v ctor = s.settle false ((isInstanceOf v ctor).work s) := by
  change Routine.act _ _ = Routine.act _ _
  congr 1
  funext cls
  change Routine.act _ _ = Routine.act _ _
  congr 1
  funext h
  cases cls with
  | none => rfl
  | some cls =>
    cases h with
    | none => rfl
    | some h => rfl

/-- Undefined converts to nil, whatever there is. -/
theorem unwrap_undefined_ends (m : Machine) : (s.unwrap .undefined .any).EndsAs job m (.done .nil, m, 0) :=
  settle_ends (.holding toNativeAs_discreet) m

/-- What an operation on a context does once it is in the context. -/
theorem unwrapInRegion_ends {context : Nat} {first : Routine Fault Value} {r : Scope → Routine BridgeError Value}
    (is : r ⟨context⟩ = Scope.settle ⟨context⟩ .undefined first) (discreet : first.Discreet Fault.Ordinary false) :
    (unwrapInRegion context r).EndsAs job m (settlement ⟨context⟩ job .nil
      ((do let v ← first; holding [] (Scope.toNativeAs ⟨context⟩ .any v)).exec job
        ((Action.openHold.run m).2.enterRegion context))) := by
  refine .holding (.inRegion ?_)
  dsimp only
  rw [is]
  refine settle_both discreet (fun v m => .hold (settle_ends (.holding toNativeAs_discreet) m)) (fun m => ?_) _
  exact .hold (unwrap_undefined_ends m)

theorem routine_ends (op : NativeOperation α) (s : Scope) (job : Runner) (m : Machine) :
    (op.routine s).EndsAs job m ((op.scope s).settlement job op.empty ((op.work s).exec job (op.start m))) := by
  have discreet := op.work_discreet (s := s)
  cases op with
  | contextGet context key =>
    let first : Routine Fault Value := do Scope.get ⟨context⟩ (← Scope.global ⟨context⟩) key
    have quiet : first.Discreet Fault.Ordinary false :=
      .bind (.bind .read fun _ => .bind (.perform rfl) fun _ => .pure) fun _ => lift_discreet get_discreet
    have is : (do Scope.property ⟨context⟩ (← Scope.global ⟨context⟩) key) = Scope.settle ⟨context⟩ .undefined first := rfl
    exact unwrapInRegion_ends (r := fun s => do s.property (← s.global) key) is quiet
  | contextEvaluate context source resource =>
    have is := evaluateScript_eq ⟨context⟩ source resource
    exact unwrapInRegion_ends (r := fun s => s.evaluateScript source resource) is evaluation_discreet
  | contextSet context key v => exact .inRegion (settle_ends discreet _)
  | setClass context name cls => exact .inRegion (settle_ends discreet _)
  | isInstanceOf v ctor =>
    change (s.isInstanceOf v ctor).EndsAs job m _
    rw [isInstanceOf_eq]
    exact settle_ends discreet m
  | evaluateScript source resource =>
    change (s.evaluateScript source resource).EndsAs job m _
    rw [evaluateScript_eq]
    exact settle_ends discreet m
  | wrap | unwrap | property | setProperty | deleteProperty | hasProperty | valueAt | setValueAt | defineWith | callWith
  | constructWith | invokeMethod => exact settle_ends discreet m

/-- An operation ends as its work did, and what scripts threw out of the work is settled once. The strategy is the one
that is in force once the exception is described. -/
structure Settles (op : NativeOperation α) (s : Scope) (job : Runner) (m : Machine) : Prop where
  /-- What does not end in a throw is passed on, and nothing is taken note of. -/
  gives : ∀ a m₁, (op.work s).exec job (op.start m) = (.done a, m₁) → (op.routine s).EndsAs job m (.done a, m₁, 0)
  /-- So is a fault of the bridge. There are no others. -/
  fails : ∀ e m₁, (op.work s).exec job (op.start m) = (.thrown (.error e), m₁) →
    e.OfBridge ∧ (op.routine s).EndsAs job m (.thrown e, m₁, 0)
  panics : ∀ p m₁, (op.work s).exec job (op.start m) = (.panicked p, m₁) →
    (op.routine s).EndsAs job m (.panicked p, m₁, 0)
  /-- What was thrown is returned with its description, and nothing is taken note of. -/
  rethrows : ∀ t m₁ e m₂, (op.work s).exec job (op.start m) = (.thrown (.thrown t), m₁) →
    ((op.scope s).capture t : Routine BridgeError _).exec job m₁ = (.done e, m₂) → m₂.options.strategy = .rethrow →
    (op.routine s).EndsAs job m (.thrown (.script e), m₂, 0)
  /-- Or it is taken note of, once, and the operation gives its empty value. -/
  reports : ∀ t m₁ e m₂, (op.work s).exec job (op.start m) = (.thrown (.thrown t), m₁) →
    ((op.scope s).capture t : Routine BridgeError _).exec job m₁ = (.done e, m₂) → m₂.options.strategy = .report →
    (op.routine s).EndsAs job m (.done op.empty, m₂.noting e, 1)
  /-- It can be described, unless what runs for that breaks off. -/
  describes : ∀ t m₁, (op.work s).exec job (op.start m) = (.thrown (.thrown t), m₁) →
    (∀ x ∈ ((op.scope s).capture t : Routine BridgeError _).entered job m₁, ∃ b, x.outcome = .done b) →
    ∃ e m₂, ((op.scope s).capture t : Routine BridgeError _).exec job m₁ = (.done e, m₂)
  /-- A panic then goes on, and the exception is neither returned nor taken note of. -/
  drops : ∀ t m₁ p m₂, (op.work s).exec job (op.start m) = (.thrown (.thrown t), m₁) →
    ((op.scope s).capture t : Routine BridgeError _).exec job m₁ = (.panicked p, m₂) →
    (op.routine s).EndsAs job m (.panicked p, m₂, 0)
  /-- No exception of scripts is returned where they are taken note of. -/
  never : ∀ e, ((op.routine s).exec job m).1 = .thrown (.script e) →
    ((op.routine s).exec job m).2.options.strategy = .rethrow

/-- Every operation of native code, on every machine and however jobs run. -/
theorem settles (op : NativeOperation α) (s : Scope) (job : Runner) (m : Machine) : op.Settles s job m := by
  have ends := op.routine_ends s job m
  have ordinary := ((op.work_discreet (s := s)).run job (op.start m)).2.1
  have capture (t : Thrown) (m₁ : Machine) :=
    (capture_discreet : ((op.scope s).capture t : Routine BridgeError _).Discreet (fun _ => False) false).run job m₁
  refine ⟨fun a m₁ done => ?_, fun e m₁ failed => ⟨?_, ?_⟩, fun p m₁ panicked => ?_,
    fun t m₁ e m₂ thrown described strategy => ?_, fun t m₁ e m₂ thrown described strategy => ?_,
    fun t m₁ thrown unbroken => ?_, fun t m₁ p m₂ thrown broken => ?_, fun e returned => ?_⟩
  · rwa [done] at ends
  · exact ordinary _ (congrArg (·.1) failed)
  · rwa [failed] at ends
  · rwa [panicked] at ends
  · rwa [thrown, settlement_rethrow described strategy] at ends
  · rwa [thrown, settlement_report described strategy] at ends
  · obtain ⟨-, throws, panics, exhausts⟩ := capture t m₁
    rcases run : ((op.scope s).capture t : Routine BridgeError _).exec job m₁ with ⟨outcome, m₂⟩
    rw [run] at throws panics exhausts
    cases outcome with
    | done e => exact ⟨e, m₂, rfl⟩
    | thrown e => exact (throws e rfl).elim
    | panicked p =>
      obtain ⟨x, mem, q, broke⟩ := panics p rfl
      obtain ⟨b, done⟩ := unbroken x mem
      exact nomatch done.symm.trans broke
    | exhausted =>
      obtain ⟨x, mem, broke⟩ := exhausts rfl
      obtain ⟨b, done⟩ := unbroken x mem
      exact nomatch done.symm.trans broke
  · rwa [thrown, settlement_panicked broken] at ends
  · rw [ends.options]
    exact strategy_of_settlement ordinary (ends.outcome.symm.trans returned)

/-- Where exceptions are taken note of, reading a property of undefined gives undefined and is noted once. -/
example :
    let op := NativeOperation.property .undefined "x"
    let m : Machine := { options := { strategy := .report } }
    (op.routine ⟨0⟩).reported (Job.exec Job.routine 0) m = 1 ∧
      ((op.routine ⟨0⟩).exec (Job.exec Job.routine 0) m).1.given? = some .undefined := by decide +kernel

end NativeOperation

/-! ## An exception that cannot be described -/

namespace Session

/-- Exceptions are taken note of. The getter of a property throws an error whose name panics. -/
def undescribed : List Program.Step :=
  [.machine (.newContext "main") none, .machine (.setStrategy true) none,
    .execute "main" [.value (.newError .error "m") (some "e"),
      .function "name" [.native (.panic "boom") none] false (some "name"),
      .script (.define (.register "e") "name" (.accessor (some (.register "name")) none) false false) none,
      .function "x" [.value (.throwValue (.register "e")) none] false (some "x"),
      .value (.bind (.object [])) (some "o"),
      .script (.define (.register "o") "x" (.accessor (some (.register "x")) none) false false) none,
      .script (.keys (.register "o")) none]]

/-- Native code reads the property. -/
def reading : NativeOperation Value := .property (.object ⟨21, 0⟩) "x"

/-- Whether the work throws, while exceptions are taken note of, and the operation panics without taking note of one. -/
def isDropped (m : Machine) : Bool :=
  match (reading.work ⟨0⟩).exec (Job.exec Job.routine 3) m, (reading.routine ⟨0⟩).exec (Job.exec Job.routine 3) m with
  | (.thrown (.thrown _), m₁), (.panicked _, m') =>
    m.options.strategy == .report && m₁.options.strategy == .report && m'.tables.reports == m.tables.reports &&
      (reading.routine ⟨0⟩).reported (Job.exec Job.routine 3) m == 0
  | _, _ => false

/-- Reading the property ends in a throw, but the session takes no note of the exception, and the operation gives
nothing. -/
theorem undescribed_dropped : ∃ x ∈ points {} 0 undescribed 3, ∃ t m₁ p m',
    (reading.work ⟨0⟩).exec (Job.exec Job.routine 3) x.machine = (.thrown (.thrown t), m₁) ∧
      x.machine.options.strategy = .report ∧ m₁.options.strategy = .report ∧
      (reading.routine ⟨0⟩).exec (Job.exec Job.routine 3) x.machine = (.panicked p, m') ∧
      m'.tables.reports = x.machine.tables.reports ∧
      (reading.routine ⟨0⟩).reported (Job.exec Job.routine 3) x.machine = 0 := by
  obtain ⟨x, mem, dropped⟩ : ∃ x ∈ points {} 0 undescribed 3, isDropped x.machine = true := by decide +kernel
  unfold isDropped at dropped
  split at dropped
  · rename_i t m₁ p m' thrown panicked
    simp only [Bool.and_eq_true, beq_iff_eq] at dropped
    obtain ⟨⟨⟨before, after⟩, same⟩, quiet⟩ := dropped
    exact ⟨x, mem, t, m₁, p, m', thrown, before, after, panicked, same, quiet⟩
  · nomatch dropped

end Session

end ScriptBridge
