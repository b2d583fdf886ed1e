import ScriptBridge.Proofs.Marking

/-!
# Runs of a heap

`Heap.Op` is one operation on a heap. `Heap.run` does any number of them in any order, so that marks
may be left over when an object is stored, and a sweep may come without a marking.

* `Heap.Counted.run`, `Heap.Counted.capacity`, `Heap.length_given`: the books stay right.
* `Heap.Holds` says what became of the object that was stored for a reference, and how often the slot
  was freed since. Every operation keeps it (`Heap.Holds.step`), and so does every run.
* `Heap.run_resolves`: the books after every run from the empty heap, and what a reference resolves to
  after every run since it was handed out. Generations are used again after 2 ^ 32 of them.

Proof-only: not reachable from `ScriptBridge.Session.Run`.
-/

namespace ScriptBridge

namespace Heap

/-- An operation on a heap. -/
inductive Op
  | allocate (o : Object)
  | edit (r : Ref) (e : Edit)
  | mark (roots : List Ref)
  | sweep

namespace Op

/-- The heap after an operation. -/
def run (h : Heap) : Op → Heap
  | allocate o => (h.allocate o).2
  | edit r e => h.edit r e
  | mark roots => (h.mark roots).1
  | sweep => h.sweep.2

/-- The reference that an operation hands out. -/
def given (h : Heap) : Op → List Ref
  | allocate o => [(h.allocate o).1]
  | edit _ _ | mark _ | sweep => []

/-- The slots that an operation frees. -/
def freed (h : Heap) : Op → List Nat
  | sweep => h.garbage
  | allocate _ | edit _ _ | mark _ => []

/-- An object after what an operation changes through its reference. -/
def through (r : Ref) (o : Object) : Op → Object
  | edit q e => if r = q then o.edit e else o
  | allocate _ | mark _ | sweep => o

end Op

/-- The heap after some operations. -/
def run (h : Heap) : List Op → Heap
  | [] => h
  | op :: ops => (op.run h).run ops

/-- The references that some operations hand out. -/
def given (h : Heap) : List Op → List Ref
  | [] => []
  | op :: ops => op.given h ++ (op.run h).given ops

/-- The slots that some operations free, as often as they do. -/
def freed (h : Heap) : List Op → List Nat
  | [] => []
  | op :: ops => op.freed h ++ (op.run h).freed ops

/-- An object after what some operations change through its reference. -/
def edited (r : Ref) (o : Object) (ops : List Op) : Object := ops.foldl (Op.through r) o

variable {h : Heap} {o : Object} {r : Ref} {n : Nat}

/-! ## The books -/

theorem Counted.step (counted : h.Counted) (op : Op) : (op.run h).Counted := by
  cases op with
  | allocate o => exact counted.allocate o
  | edit r e => exact counted.edit r e
  | mark roots => exact counted.mark roots
  | sweep => exact counted.sweep

theorem Counted.run (counted : h.Counted) (ops : List Op) : (h.run ops).Counted := by
  induction ops generalizing h with
  | nil => exact counted
  | cons op ops ih => exact ih (counted.step op)

/-- Live objects and free slots are all there is. -/
theorem Counted.capacity (counted : h.Counted) : h.live + h.free.length = h.slots.size := by
  have vacant : h.free.Perm
      ((List.range h.slots.toList.length).filter fun i => h.slots.toList[i]?.any (!·.isOccupied)) := by
    refine (List.perm_ext_iff_of_nodup counted.free_nodup (List.nodup_range.filter _)).2 fun i => ?_
    rw [counted.mem_free i]
    simp only [List.mem_filter, List.mem_range, Option.any_eq_true, Array.getElem?_toList, Array.length_toList]
    constructor
    · rintro ⟨s, hs, empty⟩
      exact ⟨(Array.getElem?_eq_some_iff.1 hs).1, s, hs, by simp [Slot.isOccupied, empty]⟩
    · rintro ⟨-, s, hs, empty⟩
      exact ⟨s, hs, by simpa [Slot.isOccupied] using empty⟩
  have all : h.slots.toList.length = _ := List.length_eq_countP_add_countP Slot.isOccupied
  rw [vacant.length_eq, length_filter_range, counted.live_eq, ← Array.length_toList, all]
  simp

/-- What an operation hands out is live afterwards, and what it frees was live. -/
theorem Counted.length_step (counted : h.Counted) (op : Op) :
    (op.given h).length + h.live = (op.freed h).length + (op.run h).live := by
  cases op with
  | allocate o =>
    rcases allocate_cases counted o with ⟨-, e⟩ | ⟨i, rest, g, marked, -, -, e⟩ <;>
      simp only [Op.given, Op.freed, Op.run, e, List.length_singleton, List.length_nil] <;> omega
  | edit r e => rfl
  | mark roots => exact congrArg (0 + ·) (Marking.bare_run ⟨h, 0, roots⟩ 0).2.2.symm
  | sweep =>
    have all := countP_swept h.slots.toList
    have live : h.sweep.2.live = h.live - h.garbage.length := rfl
    simp only [Op.given, Op.freed, Op.run, live, List.length_nil]
    rw [length_garbage, counted.live_eq]
    omega

theorem Counted.length_given (counted : h.Counted) (ops : List Op) :
    (h.given ops).length + h.live = (h.freed ops).length + (h.run ops).live := by
  induction ops generalizing h with
  | nil => rfl
  | cons op ops ih =>
    have first := counted.length_step op
    have rest := ih (counted.step op)
    rw [given, freed, List.length_append, List.length_append]
    show _ = _ + ((op.run h).run ops).live
    omega

/-! ## What a reference resolves to -/

/-- The slot of a reference was freed `n` times since the reference was handed out, and has the object
of the reference if that is never. -/
structure Holds (h : Heap) (r : Ref) (n : Nat) (o : Object) : Prop where
  slot : ∃ s, h.slots[r.index]? = some s ∧ s.generation = r.generation + UInt32.ofNat n
  object : n = 0 → h.get? r = some o

theorem Holds.new (counted : h.Counted) (o : Object) : (h.allocate o).2.Holds (h.allocate o).1 0 o := by
  have stored : (h.allocate o).2.get? (h.allocate o).1 = some o := by rw [get?_allocate counted, if_pos rfl]
  obtain ⟨s, hs, current, -⟩ := get?_eq_some.1 stored
  exact ⟨⟨s, hs, current.trans (UInt32.add_zero _).symm⟩, fun _ => stored⟩

/-- A generation comes back after 2 ^ 32 of them only. -/
theorem ne_generation_add (g : UInt32) (pos : n ≠ 0) (bound : n < UInt32.size) : g + UInt32.ofNat n ≠ g := by
  intro same
  have zero : UInt32.ofNat n = 0 := by simpa using same
  have := congrArg UInt32.toNat zero
  rw [UInt32.toNat_ofNat_of_lt' bound] at this
  exact pos this

/-- A slot that was freed belongs to another reference. -/
theorem Holds.lost (holds : h.Holds r n o) (pos : n ≠ 0) (bound : n < UInt32.size) : h.Lost r := by
  obtain ⟨s, hs, generation⟩ := holds.slot
  exact ⟨s, hs, generation ▸ ne_generation_add r.generation pos bound⟩

theorem Holds.get? (holds : h.Holds r n o) (bound : n < UInt32.size) : h.get? r = if n = 0 then some o else none := by
  split
  · rename_i never
    exact holds.object never
  · rename_i pos
    exact (holds.lost pos bound).get?_eq_none

/-- A change through a reference whose object is gone does nothing. -/
theorem Lost.edit (lost : h.Lost r) (e : Edit) : h.edit r e = h := by
  obtain ⟨s, hs, other⟩ := lost
  have slots : h.slots.modify r.index (editSlot r e) = h.slots := by
    refine Array.ext_getElem? fun i => ?_
    rw [Array.getElem?_modify]
    split
    · rename_i at_i
      subst at_i
      rw [hs]
      exact congrArg some (if_neg other)
    · rfl
  rw [edit_eq, slots]

/-- A sweep frees a slot once, or leaves what is in it. -/
theorem Holds.sweep (holds : h.Holds r n o) : h.sweep.2.Holds r (n + h.garbage.count r.index) o := by
  obtain ⟨s, hs, generation⟩ := holds.slot
  have swept : h.sweep.2.slots[r.index]? = some s.swept := by rw [slots_sweep, hs]; rfl
  by_cases garbage : s.isGarbage = true
  · have once : h.garbage.count r.index = 1 :=
      List.count_eq_one_of_mem h.nodup_garbage (mem_garbage.2 ⟨s, hs, garbage⟩)
    rw [once]
    refine ⟨⟨s.swept, swept, ?_⟩, fun never => absurd never (Nat.succ_ne_zero n)⟩
    obtain ⟨g, marked, p⟩ := s
    cases marked <;> cases p <;> simp_all [Slot.isGarbage, Slot.swept, UInt32.ofNat_add, UInt32.add_assoc]
  · have never : h.garbage.count r.index = 0 := by
      refine List.count_eq_zero.2 fun mem => garbage ?_
      obtain ⟨t, ht, garbage⟩ := mem_garbage.1 mem
      obtain rfl := Option.some.inj (hs.symm.trans ht)
      exact garbage
    have same : s.swept.generation = s.generation ∧ s.swept.occupant = s.occupant := by
      obtain ⟨g, marked, p⟩ := s
      cases marked <;> cases p <;> simp_all [Slot.isGarbage, Slot.swept]
    rw [never]
    refine ⟨⟨s.swept, swept, same.1.trans generation⟩, fun zero => ?_⟩
    rw [← holds.object zero]
    refine get?_congr ?_
    rw [swept, hs, Option.map_some, Option.map_some, same.1, same.2]

/-- Each operation keeps what is known of a reference. -/
theorem Holds.step (counted : h.Counted) (holds : h.Holds r n o) (op : Op) :
    (op.run h).Holds r (n + (op.freed h).count r.index) (op.through r o) := by
  obtain ⟨s, hs, generation⟩ := holds.slot
  cases op with
  | allocate p =>
    obtain ⟨t, ht, same⟩ := generation_allocate (o := p) counted hs
    exact ⟨⟨t, ht, same.trans generation⟩, fun zero => get?_allocate_of_some counted (holds.object zero)⟩
  | edit q e =>
    obtain ⟨t, ht, same⟩ := generation_edit q e hs
    refine ⟨⟨t, ht, same.trans generation⟩, fun zero => ?_⟩
    show (h.edit q e).get? r = some (if r = q then o.edit e else o)
    rw [get?_edit, holds.object zero]
    split <;> rfl
  | mark roots =>
    have bare := (Marking.bare_run ⟨h, 0, roots⟩ r.index).1
    rw [hs] at bare
    obtain ⟨t, ht, same⟩ := Option.map_eq_some_iff.1 bare
    refine ⟨⟨t, ht, (congrArg (fun s => s.generation) same).trans generation⟩, fun zero => ?_⟩
    show (Marking.run ⟨h, 0, roots⟩).heap.get? r = some o
    rw [← holds.object zero]
    refine get?_congr ?_
    rw [ht, hs]
    exact congrArg (fun s => some (s.generation, s.occupant)) same
  | sweep => exact holds.sweep

theorem Holds.run (counted : h.Counted) (holds : h.Holds r n o) (ops : List Op) :
    (h.run ops).Holds r (n + (h.freed ops).count r.index) (edited r o ops) := by
  induction ops generalizing h n o with
  | nil => exact holds
  | cons op ops ih =>
    have rest := ih (counted.step op) (holds.step counted op)
    rwa [Nat.add_assoc, ← List.count_append] at rest

/-- No operation hands a reference out that was handed out before. -/
theorem Holds.not_given (counted : h.Counted) (holds : h.Holds r n o) (bound : n < UInt32.size) (op : Op) :
    r ∉ op.given h := by
  cases op with
  | allocate p =>
    intro again
    obtain rfl := List.mem_singleton.1 again
    by_cases zero : n = 0
    · have none := get?_new counted p
      rw [holds.object zero] at none
      nomatch none
    · have lost : (h.allocate p).2.Lost (h.allocate p).1 :=
        (holds.lost zero bound).of_generation fun _ _ => generation_allocate counted
      have none := lost.get?_eq_none
      rw [get?_allocate counted, if_pos rfl] at none
      nomatch none
  | edit q e => exact List.not_mem_nil
  | mark roots => exact List.not_mem_nil
  | sweep => exact List.not_mem_nil

theorem Holds.not_given_again (counted : h.Counted) (holds : h.Holds r n o) (ops : List Op)
    (bound : n + (h.freed ops).count r.index < UInt32.size) : r ∉ h.given ops := by
  induction ops generalizing h n o with
  | nil => exact List.not_mem_nil
  | cons op ops ih =>
    rw [freed, List.count_append] at bound
    rw [given, List.mem_append, not_or]
    exact ⟨holds.not_given counted (by omega) op,
      ih (counted.step op) (holds.step counted op) (by omega)⟩

/-! ## Runs from the empty heap -/

/-- After every run the books are right: the free list has the empty slots, each once, live objects and
free slots are all slots, and every object that was stored was freed or is live. A new object takes no
place of a live one. Its reference resolves, for reading and for changing, to the object as it was changed
through it, until the slot is freed, and then to nothing; no later object gets the reference. -/
theorem run_resolves (before : List Op) :
    ((run {} before).free.Nodup ∧
      (∀ i : Nat, i ∈ (run {} before).free ↔ ∃ s, (run {} before).slots[i]? = some s ∧ s.occupant = none) ∧
      (run {} before).live = (run {} before).slots.toList.countP Slot.isOccupied ∧
      (run {} before).live + (run {} before).free.length = (run {} before).slots.size ∧
      (given {} before).length = (freed {} before).length + (run {} before).live) ∧
    ∀ (o : Object) (r : Ref) (h : Heap), (run {} before).allocate o = (r, h) →
      (∀ s, (run {} before).slots[r.index]? = some s → s.occupant = none) ∧
      (∀ q p, (run {} before).get? q = some p → h.get? q = some p) ∧
      ∀ later : List Op, (h.freed later).count r.index < UInt32.size →
        (h.run later).get? r = (if r.index ∈ h.freed later then none else some (edited r o later)) ∧
        (∀ e, (r.index ∈ h.freed later → (h.run later).edit r e = h.run later) ∧
          (r.index ∉ h.freed later → ((h.run later).edit r e).get? r = some ((edited r o later).edit e))) ∧
        r ∉ h.given later := by
  have counted := Counted.empty.run before
  refine ⟨⟨counted.free_nodup, counted.mem_free, counted.live_eq, counted.capacity,
    Counted.empty.length_given before⟩, fun o r h given => ?_⟩
  obtain ⟨rfl, rfl⟩ : ((run {} before).allocate o).1 = r ∧ ((run {} before).allocate o).2 = h := by
    rw [given]
    exact ⟨rfl, rfl⟩
  refine ⟨fun s hs => vacant_of_allocate counted o hs, fun q p => get?_allocate_of_some counted,
    fun later bound => ?_⟩
  have start := Holds.new counted o
  have holds := start.run (counted.allocate o) later
  rw [Nat.zero_add] at holds
  refine ⟨?_, fun e => ⟨fun swept => ?_, fun kept => ?_⟩, ?_⟩
  · rw [holds.get? bound, ← ite_not]
    simp only [List.count_eq_zero, Classical.not_not]
  · exact (holds.lost (fun zero => List.count_eq_zero.1 zero swept) bound).edit e
  · rw [get?_edit, if_pos rfl, holds.object (List.count_eq_zero.2 kept)]
    rfl
  · exact start.not_given_again (counted.allocate o) later (by omega)

/-- A heap with one object, at the reference `⟨0, 0⟩`. -/
def lone : Heap := ⟨#[⟨0, false, some ⟨.ordinary, [], none⟩⟩], [], 1⟩

/-- Sweeps unmarked objects and stores another one. -/
def reuse : List Op := [.sweep, .allocate ⟨.ordinary, [], none⟩]

/-- The slot of an object that nothing marks is used again, under another reference. -/
theorem run_resolves_reuse : run {} [] = {} ∧ ({} : Heap).allocate ⟨.ordinary, [], none⟩ = (⟨0, 0⟩, lone) ∧
    lone.freed reuse = [0] ∧ lone.given reuse = [⟨0, 1⟩] ∧ (lone.run reuse).get? ⟨0, 0⟩ = none ∧
      ⟨0, 0⟩ ∉ lone.given reuse := by
  have once : (lone.freed reuse).count 0 < UInt32.size := by
    rw [show lone.freed reuse = [0] from rfl]
    decide
  obtain ⟨resolves, -, unique⟩ := ((run_resolves []).2 ⟨.ordinary, [], none⟩ ⟨0, 0⟩ lone rfl).2.2 reuse once
  exact ⟨rfl, rfl, rfl, by decide +kernel, resolves, unique⟩

end Heap

end ScriptBridge
