import ScriptBridge.Proofs.Moments

/-!
# What a collection frees and what it leaves

`Machine.Reclaims` says what a collection is to do: free the objects that no root leads to, leave every
other one as it was, count both, and leave no mark. The roots are those of `Machine.IsRoot`, and what they
lead to is `Heap.Reaches`, which knows nothing of marks and lists.

* `Machine.Sound.reclaims`: a collection of a machine that keeps its books does that.
* `Moment.Reachable.collect_reclaims`: so does one at any moment, with the callbacks of others still to run.

Proof-only: not reachable from `ScriptBridge.Session.Run`.
-/

namespace ScriptBridge

/-- A marking starts from the references that resolve, whatever stale ones are among them. -/
theorem Heap.mark_congr (h : Heap) {roots roots' : List Ref}
    (same : roots.filter h.isLive = roots'.filter h.isLive) : h.mark roots = h.mark roots' := by
  unfold Heap.mark
  rw [Marking.run_congr ⟨h, 0, roots⟩ roots' same]

theorem Heap.mark_ends (h : Heap) (roots : List Ref) : ∃ n, (Marking.turn^[n] ⟨h, 0, roots⟩).todo = [] ∧
    h.mark roots = ((Marking.turn^[n] ⟨h, 0, roots⟩).heap, (Marking.turn^[n] ⟨h, 0, roots⟩).marked) := by
  obtain ⟨n, run, done⟩ := Marking.run_eq_iterate ⟨h, 0, roots⟩
  refine ⟨n, done, ?_⟩
  unfold Heap.mark
  rw [run]

namespace Machine

variable {m : Machine} {waiting : List WeakEntry}

/-- What a collection is to do. -/
structure Reclaims (m : Machine) : Prop where
  /-- A live object is freed if and only if no root leads to it. -/
  freed : ∀ r, m.heap.isLive r = true → (m.collect.2.heap.isLive r = false ↔ ¬m.heap.Reaches m.IsRoot r)
  /-- What is left is what the roots lead to, each object under its reference and as it was. -/
  kept : ∀ r o, m.collect.2.object? r = some o ↔ m.object? r = some o ∧ m.heap.Reaches m.IsRoot r
  /-- Every live object was marked or freed. -/
  counted : m.collect.1.marked + m.collect.1.freed = m.heap.live
  before : m.heap.live = m.heap.slots.toList.countP Slot.isOccupied
  /-- The marked ones are what is left. -/
  left : m.collect.2.heap.live = m.collect.1.marked
  after : m.collect.2.heap.live = m.collect.2.heap.slots.toList.countP Slot.isOccupied
  /-- No mark is left. -/
  unmarked : ∀ s ∈ m.collect.2.heap.slots, s.marked = false
  /-- Stale references among the roots change nothing, wherever they stand. -/
  stale : ∀ roots, roots.filter m.heap.isLive = m.roots.filter m.heap.isLive → m.heap.mark roots = m.heap.mark m.roots
  /-- A marking ends, on this and every other heap: it takes some number of turns, and then no reference is
  left to look at. -/
  ends : ∀ (h : Heap) (roots : List Ref), ∃ n, (Marking.turn^[n] ⟨h, 0, roots⟩).todo = [] ∧
    h.mark roots = ((Marking.turn^[n] ⟨h, 0, roots⟩).heap, (Marking.turn^[n] ⟨h, 0, roots⟩).marked)
  /-- The callbacks touch no object. -/
  swept : m.collect.1 = m.sweep.1.cycle ∧ m.collect.2.heap = m.sweep.2.heap

/-- The callbacks of a collection leave the heap as the sweep left it. -/
theorem heap_collect (m : Machine) : m.collect.2.heap = (m.heap.reclaim m.roots).2 := by
  obtain ⟨contexts, eq⟩ := m.sweep.2.foldl_dropWrapper_eq m.sweep.1.callbacks
  rw [Machine.collect_eq_finish, eq, Machine.sweep_eq]
  rfl

theorem object?_collect (heap : m.heap.Sound) (r : Ref) (o : Object) :
    m.collect.2.object? r = some o ↔ m.object? r = some o ∧ m.heap.Reaches m.IsRoot r := by
  rw [object?, heap_collect]
  exact object?_reclaim heap r o

/-- Who keeps a context that lives anyway does not matter to a collection. -/
theorem collect_holdContext {id : Nat} (alive : m.contextAlive id = true) :
    (m.holdContext id).collect.2.releaseContext = m.collect.2 := by
  -- What a collection reads of the holds is which contexts live, and no other context does for this one.
  have contexts : (m.holdContext id).liveContexts = m.liveContexts := by
    unfold liveContexts
    rw [contextAlive_holdContext alive]
    rfl
  have shrunk (direct : Array Bool) (n : Nat) : ∀ living,
      (m.holdContext id).shrink direct n living = m.shrink direct n living := by
    induction n with
    | zero => exact fun _ => rfl
    | succ n ih =>
      intro living
      simp only [shrink, ih]
      rfl
  have survivors : (m.holdContext id).survivors = m.survivors := by
    unfold survivors directHolds registryHolds
    rw [contexts, shrunk]
    rfl
  have roots : (m.holdContext id).roots = m.roots := by
    unfold Machine.roots
    rw [contexts, survivors]
    rfl
  have swept : (m.holdContext id).sweep = (m.sweep.1, m.sweep.2.holdContext id) := by
    simp only [sweep_eq, roots]
    rfl
  have dropped (es : List WeakEntry) : ∀ m : Machine,
      es.foldl dropWrapper (m.holdContext id) = (es.foldl dropWrapper m).holdContext id := by
    induction es with
    | nil => exact fun _ => rfl
    | cons e es ih => exact fun m => ih (m.dropWrapper e)
  rw [collect_eq_finish, swept, dropped]
  rfl

/-- A collection does what it is to do on a machine that keeps its books. -/
theorem Sound.reclaims (sound : m.Sound waiting) : m.Reclaims := by
  have heap := m.heap_collect
  have cycle : m.collect.1 = m.sweep.1.cycle := rfl
  have marked : m.collect.1.marked = (m.heap.mark m.roots).2 := by rw [cycle, sweep_eq]
  have freed : m.collect.1.freed = (m.heap.reclaim m.roots).1 := by rw [cycle, sweep_eq]
  obtain ⟨whole, left⟩ := Heap.reclaim_books sound.heap m.roots
  have books := sound.heap.reclaim m.roots
  refine ⟨fun r live => ?_, object?_collect sound.heap, ?_, sound.heap.live_eq, ?_, ?_, fun s hs => ?_, fun roots => ?_, ?_,
    cycle, ?_⟩
  · rw [heap, ← Bool.not_eq_true, isLive_sweep sound.heap]
    exact not_congr (and_iff_right live)
  · rw [marked, freed]
    exact whole
  · rw [heap, marked]
    exact left
  · rw [heap]
    exact books.live_eq
  · rw [heap] at hs
    obtain ⟨i, hi⟩ := Array.mem_iff_getElem?.1 hs
    exact books.unmarked i s hi
  · exact m.heap.mark_congr
  · exact Heap.mark_ends
  · rw [heap, sweep_eq]

end Machine

namespace Moment

variable {t : Moment}

/-- At every moment that can be reached, a collection frees exactly what the roots do not lead to. -/
theorem Reachable.collect_reclaims (reachable : t.Reachable) : t.machine.Reclaims :=
  reachable.sound.machine.reclaims

/-- Two objects that refer to each other only, and a third one that is the function of an active call
with a stale argument. -/
def circle : Moment :=
  (start {} 0).after (.allocate ⟨.ordinary, [], none⟩)
    |>.after (.allocate ⟨.ordinary, [], some ⟨0, 0⟩⟩)
    |>.after (.edit ⟨0, 0⟩ (.setPrototype (some ⟨1, 0⟩)))
    |>.after (.allocate ⟨.ordinary, [], none⟩)
    |>.after (.beginCall ⟨.undefined, ⟨2, 0⟩, [.object ⟨7, 0⟩]⟩ {})

theorem reachable_circle : circle.Reachable := by
  have first : (start {} 0).Reachable := reachable_start {} 0
  have second := first.after (a := .allocate ⟨.ordinary, [], none⟩) rfl id
  have third := second.after (a := .allocate ⟨.ordinary, [], some ⟨0, 0⟩⟩) rfl id
  have fourth := third.after (a := .edit ⟨0, 0⟩ (.setPrototype (some ⟨1, 0⟩))) trivial id
  have fifth := fourth.after (a := .allocate ⟨.ordinary, [], none⟩) rfl id
  exact fifth.after ⟨rfl, by decide⟩ id

theorem roots_circle {r : Ref} : circle.machine.IsRoot r ↔ r = ⟨2, 0⟩ ∨ r = ⟨7, 0⟩ := by
  have roots : circle.machine.roots = [⟨2, 0⟩, ⟨7, 0⟩] := rfl
  rw [← Machine.mem_roots, roots, List.mem_cons, List.mem_singleton]

/-- Neither root leads any further. -/
theorem reaches_circle {r : Ref} (reached : circle.machine.heap.Reaches circle.machine.IsRoot r) :
    r = ⟨2, 0⟩ ∨ r = ⟨7, 0⟩ := by
  refine reached.induct (p := fun r => r = ⟨2, 0⟩ ∨ r = ⟨7, 0⟩) (fun r => roots_circle.1) fun a b at_a edge => ?_
  obtain ⟨o, ho, refers⟩ := edge
  rcases at_a with rfl | rfl
  · obtain rfl : ⟨.ordinary, [], none⟩ = o := Option.some.inj ho
    nomatch Object.mem_references.2 refers
  · nomatch ho

/-- The circle goes, and the function of the call stays. -/
theorem collect_circle : circle.machine.Reclaims ∧
    circle.machine.collect.2.heap.isLive ⟨0, 0⟩ = false ∧ circle.machine.collect.2.heap.isLive ⟨1, 0⟩ = false ∧
    circle.machine.collect.2.object? ⟨2, 0⟩ = some ⟨.ordinary, [], none⟩ := by
  have reclaims := reachable_circle.collect_reclaims
  refine ⟨reclaims, ?_, ?_, ?_⟩
  · exact (reclaims.freed ⟨0, 0⟩ rfl).2 fun reached => by simpa using reaches_circle reached
  · exact (reclaims.freed ⟨1, 0⟩ rfl).2 fun reached => by simpa using reaches_circle reached
  · exact (reclaims.kept ⟨2, 0⟩ _).2 ⟨rfl, .root (roots_circle.2 (.inl rfl))⟩

end Moment

end ScriptBridge
