import ScriptBridge.Script.Object

/-!
# The heap

Objects live in slots. Freeing a slot moves it on to its next generation, so references to the freed
object resolve to nothing. Free slots are used again, the one freed last first.

* `Heap.get?`: the object that a reference resolves to.
* `Heap.allocate`, `Heap.edit`: a new object, a changed one.
* `Heap.mark` marks what some references reach: a `Marking` takes one reference off its list in each
  turn, until none is left. `Heap.sweep` frees what has no mark, and clears the marks.
-/

namespace ScriptBridge

/-- A place for an object, and how many objects it has held before. -/
structure Slot where
  generation : UInt32
  /-- Set while a collection knows that the object stays. -/
  marked : Bool
  occupant : Option Object
  deriving Inhabited

/-- Objects in numbered slots, which are used again after a collection. -/
structure Heap where
  slots : Array Slot := #[]
  /-- Indices of empty slots. -/
  free : List Nat := []
  live : Nat := 0
  deriving Inhabited

namespace Heap

/-- The object that a reference leads to, unless its slot was emptied since. -/
def get? (h : Heap) (r : Ref) : Option Object :=
  match h.slots[r.index]? with
  | some s => if s.generation = r.generation then s.occupant else none
  | none => none

/-- Whether a reference still leads to its object. -/
def isLive (h : Heap) (r : Ref) : Bool := (h.get? r).isSome

/-- Stores an object: in the slot freed last, or in a new one. -/
def allocate (h : Heap) (o : Object) : Ref × Heap :=
  match h with
  | ⟨slots, [], live⟩ => (⟨slots.size, 0⟩, ⟨slots.push ⟨0, false, some o⟩, [], live + 1⟩)
  | ⟨slots, i :: free, live⟩ =>
    (⟨i, (slots[i]?.map Slot.generation).getD 0⟩,
      ⟨slots.modify i fun s => { s with marked := false, occupant := some o }, free, live + 1⟩)

/-- Changes the object that a reference resolves to. -/
def edit (h : Heap) (r : Ref) (e : Edit) : Heap :=
  match h with
  | ⟨slots, free, live⟩ =>
    let edited := slots.modify r.index fun s =>
      match s with
      | ⟨generation, marked, occupant⟩ =>
        if generation = r.generation then ⟨generation, marked, occupant.map (·.edit e)⟩
        else ⟨generation, marked, occupant⟩
    ⟨edited, free, live⟩

/-! ## Marking -/

/-- The object of a reference, unless it has its mark. -/
def unmarked? (h : Heap) (r : Ref) : Option Object :=
  match h.slots[r.index]? with
  | some s => if s.generation = r.generation && !s.marked then s.occupant else none
  | none => none

/-- Marks a slot. -/
def setMark (h : Heap) (i : Nat) : Heap :=
  match h with
  | ⟨slots, free, live⟩ => ⟨slots.modify i fun s => { s with marked := true }, free, live⟩

end Heap

/-- Whether a slot has no mark. -/
def Slot.isUnmarked (s : Slot) : Bool := !s.marked

/-- How many slots have no mark. -/
def Heap.unmarkedCount (h : Heap) : Nat := h.slots.toList.countP Slot.isUnmarked

/-- What a change of one item does to the number of items with a property. -/
theorem countP_modify {α : Type} {p : α → Bool} {f : α → α} {l : List α} {i : Nat} {a : α}
    (at_i : l[i]? = some a) :
    (l.modify i f).countP p + (if p a then 1 else 0) = l.countP p + (if p (f a) then 1 else 0) := by
  induction l generalizing i with
  | nil => simp at at_i
  | cons head tail ih =>
    cases i with
    | zero =>
      obtain rfl : head = a := by simpa using at_i
      simp only [List.modify_zero_cons, List.countP_cons]
      omega
    | succ i =>
      have := ih (by simpa using at_i)
      simp only [List.modify_succ_cons, List.countP_cons]
      omega

/-- A new mark leaves fewer slots without one. -/
theorem Heap.unmarkedCount_setMark {h : Heap} {r : Ref} {o : Object} (fresh : h.unmarked? r = some o) :
    (h.setMark r.index).unmarkedCount < h.unmarkedCount := by
  obtain ⟨slots, free, live⟩ := h
  simp only [Heap.unmarked?] at fresh
  split at fresh
  · rename_i s at_r
    split at fresh
    · rename_i current
      have unmarked : s.isUnmarked = true := by simp_all [Slot.isUnmarked]
      have change := countP_modify (p := Slot.isUnmarked) (f := fun s => { s with marked := true })
        (l := slots.toList) (i := r.index) (a := s) (by simpa using at_r)
      simp only [Heap.unmarkedCount, Heap.setMark, Array.toList_modify]
      simp only [unmarked] at change
      simp [Slot.isUnmarked] at change ⊢
      omega
    · nomatch fresh
  · nomatch fresh

/-- A marking under way: the heap with its marks so far, their number, and the references still to
look at. -/
structure Marking where
  heap : Heap
  marked : Nat
  todo : List Ref

namespace Marking

/-- Looks at one reference: its object gets a mark and adds its own references, unless it is gone or
has its mark. -/
def turn (k : Marking) : Marking :=
  match k with
  | ⟨heap, marked, []⟩ => ⟨heap, marked, []⟩
  | ⟨heap, marked, r :: rest⟩ =>
    match heap.unmarked? r with
    | some o => ⟨heap.setMark r.index, marked + 1, o.references ++ rest⟩
    | none => ⟨heap, marked, rest⟩

/-- Takes turns until no reference is left. -/
def run (k : Marking) : Marking :=
  match k with
  | ⟨heap, marked, []⟩ => ⟨heap, marked, []⟩
  | ⟨heap, marked, r :: rest⟩ => (turn ⟨heap, marked, r :: rest⟩).run
termination_by (k.heap.unmarkedCount, k.todo.length)
decreasing_by
  simp only [turn]
  split
  · rename_i fresh
    exact Prod.Lex.left _ _ (Heap.unmarkedCount_setMark fresh)
  · exact Prod.Lex.right _ (by simp)

end Marking

namespace Heap

/-- Marks what some references reach, and counts the marks. -/
def mark (h : Heap) (roots : List Ref) : Heap × Nat :=
  let done := Marking.run ⟨h, 0, roots⟩
  (done.heap, done.marked)

end Heap

/-! ## Sweeping -/

namespace Slot

/-- Whether the object in a slot goes: there is one, and it has no mark. -/
def isGarbage (s : Slot) : Bool := s.occupant.isSome && !s.marked

/-- The slot after a sweep: a marked object loses its mark, another one goes. -/
def swept (s : Slot) : Slot :=
  match s with
  | ⟨generation, marked, none⟩ => ⟨generation, marked, none⟩
  | ⟨generation, true, some o⟩ => ⟨generation, false, some o⟩
  | ⟨generation, false, some _⟩ => ⟨generation + 1, false, none⟩

end Slot

namespace Heap

/-- The slots whose objects go. -/
def garbage (h : Heap) : List Nat :=
  (List.range h.slots.size).filter fun i => h.slots[i]?.any Slot.isGarbage

/-- Frees every object without a mark and clears the marks; gives the number of freed ones. -/
def sweep (h : Heap) : Nat × Heap :=
  let freed := h.garbage
  match h with
  | ⟨slots, free, live⟩ =>
    (freed.length, ⟨slots.map Slot.swept, freed.reverse ++ free, live - freed.length⟩)

end Heap

end ScriptBridge
