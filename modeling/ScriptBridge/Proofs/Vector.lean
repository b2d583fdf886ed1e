import ScriptBridge.Proofs.Exact
import ScriptBridge.Proofs.Walks

/-!
# Arrays are dense vectors

Whatever is written under the indices and the length of an array, in whatever order and by whatever operation, its items
are a vector without holes: what was written last, and undefined where nothing was.

* `Double.Counts`, `Scope.arrayLength?_eq_some`: the numbers that can be the length of an array.
* `ElementOp`: what is done to elements. `ElementOp.after?`: the vector that it leaves, which `written`, `resized` and
  `cleared` say place by place.
* `Scope.run_leaves`: one operation. `Machine.Revises`: what several of them leave of the machine.
* `Scope.Dense`: the vector is what is read, and the next operation does to it what it should.
* `Session.arrays_dense`: it is so for any array of a session after any operations.

Proof-only: not reachable from `ScriptBridge.Session.Run`.
-/

namespace ScriptBridge

open Routine

/-! ## Lengths -/

/-- A number is a count: the whole number itself, or the other zero. -/
def Double.Counts (x : Double) (n : Nat) : Prop := x = .ofNat n ∨ n = 0 ∧ x = Double.zero.neg

theorem Double.eq_of_isIntegral {x : Double} (integral : x.isIntegral = true) :
    x = roundScaled x.negative x.truncate.natAbs 0 := by
  have finite := (Bool.and_eq_true_iff.1 integral).1
  have same := whole_of_isIntegral integral
  unfold Double.whole at same
  rw [if_pos finite] at same
  exact same.symm

/-- A number without a fractional part that is not below zero is a count. -/
theorem Double.counts_of_isIntegral {x : Double} (integral : x.isIntegral = true) (above : 0 ≤ x.truncate) :
    x.Counts x.truncate.toNat := by
  have is := eq_of_isIntegral integral
  cases sign : x.negative with
  | false =>
    rw [sign, show x.truncate.natAbs = x.truncate.toNat by omega] at is
    exact .inl is
  | true =>
    have zero : x.truncate = 0 := by
      rw [truncate_eq (Bool.and_eq_true_iff.1 integral).1, sign, if_pos rfl] at above ⊢
      omega
    rw [sign, zero] at is
    exact .inr ⟨by simp [zero], is⟩

namespace Scope

theorem arrayLength?_ofNat {n : Nat} (small : n ≤ maxArrayLength) : arrayLength? (.ofNat n) = some n := by
  have short : n < 2 ^ 53 := Nat.lt_of_le_of_lt small (by decide)
  have integral : (Double.ofNat n).isIntegral = true := Double.isIntegral_roundScaled short
  have value : (Double.ofNat n).truncate = n := Double.truncate_roundScaled short
  have above : (Double.ofNat n).isBelowZero = false := by
    rw [← Bool.not_eq_true, Double.isBelowZero_iff integral, value]
    omega
  unfold arrayLength?
  simp [integral, above, value, small]

/-- A length is a count that is not too large. -/
theorem arrayLength?_eq_some {x : Double} {n : Nat} : arrayLength? x = some n ↔ n ≤ maxArrayLength ∧ x.Counts n := by
  constructor
  · intro fits
    unfold arrayLength? at fits
    obtain ⟨checks, same⟩ := Option.ite_none_right_eq_some.1 fits
    obtain rfl := Option.some.inj same
    simp only [Bool.and_eq_true, Bool.not_eq_true', decide_eq_true_eq] at checks
    obtain ⟨⟨integral, notBelow⟩, small⟩ := checks
    have above : 0 ≤ x.truncate := by
      by_contra below
      rw [(Double.isBelowZero_iff integral).2 (by omega)] at notBelow
      nomatch notBelow
    exact ⟨by omega, Double.counts_of_isIntegral integral above⟩
  · rintro ⟨small, rfl | ⟨rfl, rfl⟩⟩
    · exact arrayLength?_ofNat small
    · decide

end Scope

/-! ## Vectors -/

/-- The items of an array cut to a length, or filled up with undefined ones. -/
def resized (items : Array Value) (n : Nat) : Array Value :=
  Array.ofFn fun j : Fin n => items[j.val]?.getD .undefined

/-- The items of an array without the value at an index. -/
def cleared (items : Array Value) (i : Nat) : Array Value :=
  Array.ofFn fun j : Fin items.size => if j.val = i then .undefined else items[j.val]?.getD .undefined

theorem resizeItems_eq (items : Array Value) (n : Nat) : resizeItems items n = resized items n := by
  refine Array.ext_getElem? fun j => ?_
  unfold resizeItems resized
  rw [Array.getElem?_ofFn]
  grind

theorem setIfInBounds_eq (items : Array Value) (i : Nat) : items.setIfInBounds i .undefined = cleared items i := by
  refine Array.ext_getElem? fun j => ?_
  unfold cleared
  rw [Array.getElem?_ofFn]
  grind

/-- The items after a value is written under the key of an element; none if the array would be too long, or if the value
is no length. -/
def written? (items : Array Value) (key : String) (v : Value) : Option (Array Value) :=
  if key = "length" then (v.primitiveNumber?.bind Scope.arrayLength?).map (resized items)
  else (arrayIndex? key).bind fun i => if i < maxArrayLength then some (written items i v) else none

/-- What is done to an element or to the length of an array. -/
inductive ElementOp where
  | set (key : String) (v : Value)
  | setIndex (i : Nat) (v : Value)
  | delete (key : String)
  | define (key : String) (v : Value) (writable enumerable configurable : Bool)

namespace ElementOp

/-- The key is that of an element, or it is the length, and then a value is a primitive. -/
def Valid : ElementOp → Prop
  | set key v | define key v .. => isElementKey key = true ∧ (key = "length" → v.isObject = false)
  | setIndex i _ => i < 0xffffffff
  | delete key => isElementKey key = true

instance : DecidablePred Valid
  | set .. | define .. => inferInstanceAs (Decidable (_ ∧ _))
  | setIndex .. => inferInstanceAs (Decidable (_ < _))
  | delete _ => inferInstanceAs (Decidable (_ = true))

def run (s : Scope) (r : Ref) : ElementOp → Routine Thrown Unit
  | set key v => s.set (.object r) key v
  | setIndex i v => s.setIndex (.object r) i v
  | delete key => do
    let _ ← s.delete (.object r) key
    return
  | define key v writable enumerable configurable =>
    s.define (.object r) key (.data v writable) enumerable configurable

/-- The items of the array then; none if a `RangeError` is thrown. -/
def after? (items : Array Value) : ElementOp → Option (Array Value)
  | set key v | define key v .. => written? items key v
  | setIndex i v => written? items (toString i) v
  | delete key => some (((arrayIndex? key).map (cleared items)).getD items)

/-- One operation after the other, each in a scope of its own. What one throws does not keep the others from running. -/
def runAll (r : Ref) : List (Scope × ElementOp) → Routine Thrown Unit
  | [] => return
  | (s, op) :: rest => do
    let _ ← (op.run s r).attempt
    runAll r rest

end ElementOp

/-- The items of an array after operations. What throws leaves them as they are. -/
def vectorAfter (items : Array Value) (ops : List (Scope × ElementOp)) : Array Value :=
  ops.foldl (fun items op => (op.2.after? items).getD items) items

/-! ## Machines -/

namespace Machine

variable {m m' m'' : Machine} {s : Scope} {r : Ref} {o : Object} {items items' : Array Value}

/-- An array has other items, and all objects that were there are as they were otherwise. -/
structure Revises (m m' : Machine) (r : Ref) (items : Array Value) : Prop where
  array : ∀ o, m.object? r = some o → m'.object? r = some { o with payload := .array items }
  others : ∀ q o, q ≠ r → m.object? q = some o → m'.object? q = some o

theorem Refills.revises (refills : m.Refills m' r items) : m.Revises m' r items where
  array o ho := by rw [refills.object, ho]; rfl
  others q o other ho := (refills.others q other).trans ho

theorem Revises.trans (first : m.Revises m' r items) (next : m'.Revises m'' r items') : m.Revises m'' r items' where
  array o ho := (next.array _ (first.array o ho)).trans rfl
  others q o other ho := next.others q o other (first.others q o other ho)

theorem refills_self (ho : m.object? r = some o) (is : o.items? = some items) : m.Refills m r items where
  object := by
    rw [ho, Option.map_some, ← Object.payload_of_items? is]
  others _ _ := rfl
  rest := rfl

theorem revises_self (ho : m.object? r = some o) (is : o.items? = some items) : m.Revises m r items :=
  (refills_self ho is).revises

end Machine

namespace Scope

variable {s : Scope} {m : Machine} {r : Ref} {o : Object} {key : String} {v : Value} {items items' : Array Value}
  {x y : Routine Thrown Unit} {after : Option (Array Value)} {op : ElementOp} {i : Nat}

/-- A routine leaves an array with some items, or it throws a `RangeError` and leaves everything as it was. -/
def Leaves (s : Scope) (x : Routine Thrown Unit) (m : Machine) (r : Ref) : Option (Array Value) → Prop
  | some items => ∃ m', x.Returns m () m' ∧ m.Refills m' r items ∧ m'.heap.Sound
  | none => s.Exceeds x m

theorem Leaves.of_exec (leaves : s.Leaves y m r after) (same : ∀ job : {β : Type} → Job β → Machine →
    Outcome Empty β × Machine, x.exec job m = y.exec job m) : s.Leaves x m r after := by
  cases after with
  | some items =>
    obtain ⟨m', returns, refills, heap⟩ := leaves
    exact ⟨m', fun job => (same job).trans (returns job), refills, heap⟩
  | none => exact ⟨fun job => (same job).trans (leaves.throws job), leaves.keeps⟩

/-- An edit that leaves other items. -/
theorem leaves_edit {e : Edit} (heap : m.heap.Sound) (ho : m.object? r = some o)
    (edited : o.edit e = { o with payload := .array items }) : s.Leaves (edit r e) m r (some items) :=
  ⟨_, .perform, m.refills_edit ho edited, heap.edit r e⟩

theorem leaves_throwRange (heap : m.heap.Sound) : s.Leaves (s.throwRange "Invalid array length") m r none :=
  exceeds_of_exec heap fun _ => rfl

/-- Primitives are numbers, for which nothing runs. -/
theorem numberOf_primitive (primitive : v.isObject = false) :
    ∃ x, v.primitiveNumber? = some x ∧ (s.numberOf v : Routine Thrown Double).Returns m x m := by
  unfold numberOf
  cases v with
  | object q => nomatch primitive
  | _ => exact ⟨_, rfl, .pure⟩

section

variable (heap : m.heap.Sound) (ho : m.object? r = some o) (is : o.items? = some items)

include heap ho is

theorem writeOwn_length_leaves (primitive : v.isObject = false) : s.Leaves (s.writeOwn r "length" v) m r
    ((v.primitiveNumber?.bind arrayLength?).map (resized items)) := by
  obtain ⟨x, number, gives⟩ := numberOf_primitive (s := s) (m := m) primitive
  have writes (job : Runner) := exec_writeOwn_length (s := s) (v := v) ho is job
  simp only [gives _, Outcome.andThen] at writes
  rw [number, Option.bind_some]
  cases fits : arrayLength? x with
  | none =>
    rw [fits] at writes
    exact .of_exec (leaves_throwRange heap) writes
  | some n =>
    rw [fits] at writes
    have edited : o.edit (.resize n) = { o with payload := .array (resized items n) } := by
      rw [Object.edit, Object.edit_items is, resizeItems_eq]
    exact .of_exec (leaves_edit heap ho edited) writes

theorem writeOwn_item_leaves (index : arrayIndex? key = some i) : s.Leaves (s.writeOwn r key v) m r
    (if i < maxArrayLength then some (written items i v) else none) := by
  have writes (job : Runner) := exec_writeOwn_item (s := s) (v := v) ho is index job
  split
  · rename_i small
    simp only [Nat.not_le_of_lt small, if_false] at writes
    exact .of_exec (leaves_edit heap ho (Object.edit_storeItem is i v)) writes
  · rename_i large
    simp only [Nat.le_of_not_lt large, if_true] at writes
    exact .of_exec (leaves_throwRange heap) writes

/-- What is written under the key of an element. -/
theorem writeOwn_leaves (element : isElementKey key = true) (primitive : key = "length" → v.isObject = false) :
    s.Leaves (s.writeOwn r key v) m r (written? items key v) := by
  unfold written?
  by_cases named : key = "length"
  · subst named
    rw [if_pos rfl]
    exact writeOwn_length_leaves heap ho is (primitive rfl)
  · obtain ⟨i, index⟩ : ∃ i, arrayIndex? key = some i := by
      simpa [isElementKey, named, Option.isSome_iff_exists] using element
    rw [if_neg named, index]
    exact writeOwn_item_leaves heap ho is index

theorem set_leaves (element : isElementKey key = true) (primitive : key = "length" → v.isObject = false) :
    s.Leaves (s.set (.object r) key v) m r (written? items key v) :=
  .of_exec (writeOwn_leaves heap ho is element primitive) (exec_set_element ho is element)

/-- What deleting the key of an element says, and what it leaves. -/
theorem delete_element (element : isElementKey key = true) : ∃ m',
    (s.delete (.object r) key).Returns m (arrayIndex? key).isSome m' ∧
      m.Refills m' r (((arrayIndex? key).map (cleared items)).getD items) ∧ m'.heap.Sound := by
  cases index : arrayIndex? key with
  | none =>
    obtain rfl : key = "length" := by simpa [isElementKey, index] using element
    exact ⟨m, (hasLength ho is).delete, m.refills_self ho is, heap⟩
  | some i =>
    refine ⟨_, delete_deletion ho (not_exported ho is key) (deletion_of_index is index), m.refills_edit ho ?_, heap.edit r _⟩
    rw [Object.edit, Object.edit_items is, setIfInBounds_eq]
    rfl

/-- What one operation does. -/
theorem run_leaves (valid : op.Valid) : s.Leaves (op.run s r) m r (op.after? items) := by
  cases op with
  | set key v => exact set_leaves heap ho is valid.1 valid.2
  | setIndex i v =>
    have index := arrayIndex?_toString valid
    refine .of_exec (set_leaves heap ho is (isElementKey_of_index index) fun named => ?_) fun job => ?_
    · exact absurd named (ne_length_of_index index)
    · change (s.setIndex (.object r) i v).exec job m = _
      unfold setIndex
      rw [exec_look rfl, not_wrapped ho (Object.wrapper?_of_items? is)]
      rfl
  | delete key =>
    obtain ⟨m', deletes, refills, heap⟩ := delete_element (s := s) heap ho is valid
    exact ⟨m', deletes.bind .pure, refills, heap⟩
  | define key v writable enumerable configurable =>
    exact .of_exec (writeOwn_leaves heap ho is valid.1 valid.2) (exec_define_element ho is valid.1)

end

/-- Whatever is thrown, the array has the items that are left, or those that it had. -/
theorem Leaves.attempt (leaves : s.Leaves x m r after) (heap : m.heap.Sound) (ho : m.object? r = some o)
    (is : o.items? = some items) : ∃ result m', (x.attempt : Routine Thrown (Except Thrown Unit)).Returns m result m' ∧
      m.Revises m' r (after.getD items) ∧ m'.heap.Sound := by
  cases after with
  | some items' =>
    obtain ⟨m', returns, refills, heap⟩ := leaves
    exact ⟨_, m', returns.attempt, refills.revises, heap⟩
  | none =>
    refine ⟨_, _, leaves.throws.attempt, ⟨fun p hp => ?_, fun q p _ => leaves.keeps q p⟩, ?_⟩
    · obtain rfl := Option.some.inj (ho.symm.trans hp)
      rw [leaves.keeps r o ho, Option.getD_none, ← Object.payload_of_items? is]
    · rw [Machine.allocate_eq]
      exact heap.allocate _

/-- Operations one after the other, of which some may throw. -/
theorem runAll_returns (ops : List (Scope × ElementOp)) (valid : ∀ op ∈ ops, op.2.Valid) (heap : m.heap.Sound)
    (ho : m.object? r = some o) (is : o.items? = some items) :
    ∃ m', (ElementOp.runAll r ops).Returns m () m' ∧ m.Revises m' r (vectorAfter items ops) ∧ m'.heap.Sound := by
  induction ops generalizing m o items with
  | nil => exact ⟨m, .pure, m.revises_self ho is, heap⟩
  | cons op rest ih =>
    obtain ⟨s, op⟩ := op
    obtain ⟨result, m₁, runs, revises, heap⟩ :=
      (run_leaves (s := s) heap ho is (valid _ List.mem_cons_self)).attempt heap ho is
    obtain ⟨m', others, revises', heap⟩ := ih (fun op mem => valid op (List.mem_cons_of_mem _ mem)) heap
      (revises.array o ho) rfl
    exact ⟨m', runs.bind others, revises.trans revises', heap⟩

/-- The items of an array are what is read, and the next operation writes, clears or resizes them, unless a `RangeError`
is thrown. -/
structure Dense (s : Scope) (m : Machine) (r : Ref) (items : Array Value) : Prop where
  length : (s.get (.object r) "length").Returns m (.number (.ofNat items.size)) m
  get : ∀ key i v, arrayIndex? key = some i → items[i]? = some v →
    (s.get (.object r) key).Returns m v ((Action.track v).run m).2
  getIndex : ∀ i v, items[i]? = some v → (s.getIndex (.object r) i).Returns m v ((Action.track v).run m).2
  has : ∀ key i, arrayIndex? key = some i → i < items.size → (s.has (.object r) key).Returns m true m
  hasIndex : ∀ i, i < 0xffffffff → i < items.size → (s.hasIndex (.object r) i).Returns m true m
  hasLength : (s.has (.object r) "length").Returns m true m
  next : ∀ op : ElementOp, op.Valid → s.Leaves (op.run s r) m r (op.after? items)
  /-- Deleting says that an element is gone, and that the length is not. -/
  delete : ∀ key, isElementKey key = true → ∃ m', (s.delete (.object r) key).Returns m (arrayIndex? key).isSome m'

theorem dense (heap : m.heap.Sound) (ho : m.object? r = some o) (is : o.items? = some items) : s.Dense m r items := by
  have payload : m.payload? (.object r) = some (.array items) :=
    (congrArg (Option.map Object.payload) ho).trans (congrArg some (Object.payload_of_items? is))
  have has key i (index : arrayIndex? key = some i) (below : i < items.size) : (s.has (.object r) key).Returns m true m :=
    has_returns ho (Option.isSome_of_eq_some (Object.own?_of_item is index (Array.getElem?_eq_getElem below)))
  exact {
    length := length_returns payload
    get := fun key i v index there => (holdsItem ho is index there).get
    getIndex := fun i v there => getIndex_returns payload there
    has := has
    hasIndex := fun i small below => has _ i (arrayIndex?_toString small) below
    hasLength := has_returns ho (Option.isSome_of_eq_some (Object.own?_length is))
    next := fun op valid => run_leaves heap ho is valid
    delete := fun key element => (delete_element heap ho is element).imp fun _ deletes => deletes.1 }

end Scope

namespace Session

open Program (Step)

variable {options : Options} {now : Int} {steps : List Step} {depth : Nat} {x : Point} {r : Ref} {o : Object}
  {items : Array Value}

/-- At every point of a session, an array is a dense vector, and it stays one whatever is written under its indices and
its length. The numbers that can be its length are the counts up to `maxArrayLength`. -/
theorem arrays_dense (mem : x ∈ points options now steps depth) (ho : x.machine.object? r = some o)
    (is : o.items? = some items) (ops : List (Scope × ElementOp)) (valid : ∀ op ∈ ops, op.2.Valid) :
    (∀ y n, Scope.arrayLength? y = some n ↔ n ≤ maxArrayLength ∧ y.Counts n) ∧
    ∃ m', (ElementOp.runAll r ops).Returns x.machine () m' ∧ x.machine.Revises m' r (vectorAfter items ops) ∧
      ∀ s : Scope, s.Dense m' r (vectorAfter items ops) := by
  obtain ⟨K, known⟩ := (lawful_points mem).machine
  obtain ⟨m', runs, revises, heap⟩ := Scope.runAll_returns ops valid known.heap ho is
  exact ⟨fun y n => Scope.arrayLength?_eq_some, m', runs, revises, fun s => Scope.dense heap (revises.array o ho) rfl⟩

/-- An array is made and read. -/
def listing : List Step :=
  [.machine (.newContext "main") none,
    .execute "main" [.value (.bind (.array [.bool true])) (some "a"), .script (.keys (.register "a")) none]]

/-- An array grows by an item and by its length. What would make it too long is thrown. -/
def growth : List ElementOp :=
  [.setIndex 2 .null, .delete "0", .set "16777216" .null, .define "length" (.number (.ofNat 4)) false false false,
    .set "length" (.number .nan)]

/-- The array has an item and gaps then. -/
theorem arrays_dense_grown : ∃ x ∈ points {} 0 listing 3, ∃ o, x.machine.object? ⟨18, 0⟩ = some o ∧
    o.items? = some #[.bool true] ∧ (∀ op ∈ growth.map (Prod.mk (⟨0⟩ : Scope)), op.2.Valid) ∧
    ∃ m', (ElementOp.runAll ⟨18, 0⟩ (growth.map (Prod.mk ⟨0⟩))).Returns x.machine () m' ∧
      m'.object? ⟨18, 0⟩ = some { o with payload := .array #[.undefined, .undefined, .null, .undefined] } ∧
      (Scope.get ⟨0⟩ (.object ⟨18, 0⟩) "length").Returns m' (.number (.ofNat 4)) m' ∧
      (Scope.getIndex ⟨0⟩ (.object ⟨18, 0⟩) 2).Returns m' .null m' ∧
      (Scope.has ⟨0⟩ (.object ⟨18, 0⟩) "3").Returns m' true m' := by
  obtain ⟨x, mem, is⟩ : ∃ x ∈ points {} 0 listing 3,
      ((x.machine.object? ⟨18, 0⟩).any fun o => o.items? == some #[.bool true]) = true := by
    decide +kernel
  obtain ⟨o, ho, is⟩ := (Option.any_eq_true ..).1 is
  have is := beq_iff_eq.1 is
  have valid : ∀ op ∈ growth.map (Prod.mk (⟨0⟩ : Scope)), op.2.Valid := by decide +kernel
  obtain ⟨-, m', runs, revises, dense⟩ := arrays_dense mem ho is _ valid
  have vector : vectorAfter #[.bool true] (growth.map (Prod.mk ⟨0⟩)) = #[.undefined, .undefined, .null, .undefined] := by
    decide +kernel
  rw [vector] at revises dense
  exact ⟨x, mem, o, ho, is, valid, m', runs, revises.array o ho, (dense ⟨0⟩).length, (dense ⟨0⟩).getIndex 2 _ rfl,
    (dense ⟨0⟩).has "3" 3 (by decide) (by decide)⟩

end Session

end ScriptBridge
