import Mathlib.Data.List.Nodup
import ScriptBridge.Script.Heap

/-!
# The heap keeps its books

`Heap.Sound` says that the books of a heap are right: the free list has exactly the empty slots, each
once, the count of live objects is the number of occupied slots, and no mark is left over from a
collection. Storing and changing objects keeps it.

* `Heap.get?_allocate`, `Heap.get?_edit`: what every reference resolves to afterwards.
* `Heap.Sound.allocate`, `Heap.Sound.edit`: the books stay right.

Proof-only: not reachable from `ScriptBridge.Session.Run`.
-/

namespace ScriptBridge

/-- Whether a slot has an object. -/
def Slot.isOccupied (s : Slot) : Bool := s.occupant.isSome

namespace Heap

variable {h : Heap} {o : Object} {r q : Ref}

/-- The free list has exactly the empty slots, each once, and the count of live objects is the number of
occupied slots. Collections may be under way. -/
structure Counted (h : Heap) : Prop where
  free_nodup : h.free.Nodup
  mem_free : ∀ i : Nat, i ∈ h.free ↔ ∃ s, h.slots[i]? = some s ∧ s.occupant = none
  live_eq : h.live = h.slots.toList.countP Slot.isOccupied

/-- The books of a heap between collections. -/
structure Sound (h : Heap) : Prop where
  free_nodup : h.free.Nodup
  mem_free : ∀ i : Nat, i ∈ h.free ↔ ∃ s, h.slots[i]? = some s ∧ s.occupant = none
  live_eq : h.live = h.slots.toList.countP Slot.isOccupied
  unmarked : ∀ (i : Nat) (s : Slot), h.slots[i]? = some s → s.marked = false

theorem Sound.counted (sound : h.Sound) : h.Counted := ⟨sound.free_nodup, sound.mem_free, sound.live_eq⟩

theorem Counted.sound (counted : h.Counted)
    (unmarked : ∀ (i : Nat) (s : Slot), h.slots[i]? = some s → s.marked = false) : h.Sound :=
  ⟨counted.free_nodup, counted.mem_free, counted.live_eq, unmarked⟩

theorem Counted.empty : Counted {} where
  free_nodup := List.nodup_nil
  mem_free i := by simp
  live_eq := rfl

theorem Sound.empty : Sound {} := Counted.empty.sound fun i s hs => by simp at hs

theorem get?_eq_some : h.get? r = some o ↔
    ∃ s, h.slots[r.index]? = some s ∧ s.generation = r.generation ∧ s.occupant = some o := by
  unfold get?
  split <;> rename_i hs
  · split <;> simp_all
  · simp_all

theorem isLive_iff : h.isLive r = true ↔ ∃ o, h.get? r = some o := by
  rw [isLive, Option.isSome_iff_exists]

/-- Slots that agree on generation and occupant resolve a reference alike. -/
theorem get?_congr {g : Heap} (same : (h.slots[r.index]?).map (fun s => (s.generation, s.occupant)) =
    (g.slots[r.index]?).map (fun s => (s.generation, s.occupant))) : h.get? r = g.get? r := by
  unfold get?
  cases hs : h.slots[r.index]? <;> cases gs : g.slots[r.index]? <;> simp_all

/-- The object of a reference was freed, so that no new object takes the reference up. -/
def Lost (h : Heap) (r : Ref) : Prop := ∃ s, h.slots[r.index]? = some s ∧ s.generation ≠ r.generation

theorem Lost.get?_eq_none (lost : h.Lost r) : h.get? r = none := by
  obtain ⟨s, hs, other⟩ := lost
  unfold get?
  rw [hs]
  exact if_neg other

theorem Lost.isLive_eq_false (lost : h.Lost r) : h.isLive r = false := by
  unfold isLive
  rw [lost.get?_eq_none]
  rfl

theorem Lost.of_generation {h' : Heap} (lost : h.Lost r) (same : ∀ (i : Nat) (s : Slot), h.slots[i]? = some s →
    ∃ t, h'.slots[i]? = some t ∧ t.generation = s.generation) : h'.Lost r := by
  obtain ⟨s, hs, other⟩ := lost
  obtain ⟨t, ht, eq⟩ := same r.index s hs
  exact ⟨t, ht, eq ▸ other⟩

/-! ## Storing an object -/

/-- A new object goes to a new slot, or to the empty one that was freed last. -/
theorem allocate_cases (counted : h.Counted) (o : Object) :
    (h.free = [] ∧ h.allocate o = (⟨h.slots.size, 0⟩, ⟨h.slots.push ⟨0, false, some o⟩, [], h.live + 1⟩)) ∨
    ∃ i rest g marked, h.free = i :: rest ∧ h.slots[i]? = some ⟨g, marked, none⟩ ∧
      h.allocate o = (⟨i, g⟩,
        ⟨h.slots.modify i fun s => { s with marked := false, occupant := some o }, rest, h.live + 1⟩) := by
  obtain ⟨slots, free, live⟩ := h
  cases free with
  | nil => exact .inl ⟨rfl, rfl⟩
  | cons i rest =>
    obtain ⟨⟨g, marked, _⟩, at_i, rfl⟩ := (counted.mem_free i).1 List.mem_cons_self
    exact .inr ⟨i, rest, g, marked, rfl, at_i, by simp only [allocate]; rw [at_i]; rfl⟩

/-- The new reference resolves to the new object, every other one to what it did before. -/
theorem get?_allocate (counted : h.Counted) (o : Object) (q : Ref) :
    (h.allocate o).2.get? q = if q = (h.allocate o).1 then some o else h.get? q := by
  obtain ⟨index, generation⟩ := q
  rcases allocate_cases counted o with ⟨-, e⟩ | ⟨i, rest, g, marked, -, at_i, e⟩
  · rw [e]
    simp only [get?, Array.getElem?_push, Ref.mk.injEq]
    by_cases hi : index = h.slots.size
    · subst hi
      by_cases hg : generation = 0
      · simp [hg]
      · simp [hg, Ne.symm hg]
    · simp [hi]
  · rw [e]
    simp only [get?, Array.getElem?_modify, Ref.mk.injEq]
    by_cases hi : i = index
    · subst hi
      by_cases hg : generation = g
      · simp [at_i, hg]
      · simp [at_i, hg, Ne.symm hg]
    · simp [hi, Ne.symm hi]

/-- The slot of a new object had none. -/
theorem vacant_of_allocate (counted : h.Counted) (o : Object) {s : Slot}
    (hs : h.slots[(h.allocate o).1.index]? = some s) : s.occupant = none := by
  rcases allocate_cases counted o with ⟨-, e⟩ | ⟨i, rest, g, marked, -, at_i, e⟩
  · rw [e] at hs
    simp at hs
  · rw [e] at hs
    simp only [at_i, Option.some.injEq] at hs
    exact hs ▸ rfl

/-- The reference of a new object resolved to nothing before. -/
theorem get?_new (counted : h.Counted) (o : Object) : h.get? (h.allocate o).1 = none := by
  rw [Option.eq_none_iff_forall_ne_some]
  intro p hp
  obtain ⟨s, hs, -, occupied⟩ := get?_eq_some.1 hp
  rw [vacant_of_allocate counted o hs] at occupied
  nomatch occupied

/-- What resolved before still does. -/
theorem get?_allocate_of_some (counted : h.Counted) {p : Object} (hr : h.get? r = some p) :
    (h.allocate o).2.get? r = some p := by
  rw [get?_allocate counted, if_neg, hr]
  rintro rfl
  rw [get?_new counted] at hr
  nomatch hr

/-- Slots that were there before keep their generation. -/
theorem generation_allocate (counted : h.Counted) {i : Nat} {s : Slot} (hs : h.slots[i]? = some s) :
    ∃ t, (h.allocate o).2.slots[i]? = some t ∧ t.generation = s.generation := by
  have inside := (Array.getElem?_eq_some_iff.1 hs).1
  rcases allocate_cases counted o with ⟨-, e⟩ | ⟨j, rest, g, marked, -, at_j, e⟩
  · rw [e]
    refine ⟨s, ?_, rfl⟩
    simp only [Array.getElem?_push]
    rw [if_neg (by omega), hs]
  · rw [e]
    simp only [Array.getElem?_modify]
    by_cases hj : j = i
    · subst hj; simp [hs]
    · simp [hj, hs]

/-- With no slot free, an object goes to a new one. -/
theorem Counted.push (counted : h.Counted) (free : h.free = []) (o : Object) :
    (⟨h.slots.push ⟨0, false, some o⟩, [], h.live + 1⟩ : Heap).Counted := by
  refine ⟨List.nodup_nil, fun i => ?_, ?_⟩
  · simp only [List.not_mem_nil, false_iff, Array.getElem?_push]
    rintro ⟨s, hs, empty⟩
    split at hs
    · obtain rfl := Option.some.inj hs
      nomatch empty
    · have mem := (counted.mem_free i).2 ⟨s, hs, empty⟩
      rw [free] at mem
      nomatch mem
  · simp [Slot.isOccupied, counted.live_eq]

/-- An object goes to the slot that was freed last. -/
theorem Counted.reuse (counted : h.Counted) {i : Nat} {rest : List Nat} {g : UInt32} {marked : Bool}
    (free : h.free = i :: rest) (at_i : h.slots[i]? = some ⟨g, marked, none⟩) (o : Object) :
    (⟨h.slots.modify i fun s => { s with marked := false, occupant := some o }, rest, h.live + 1⟩ : Heap).Counted := by
  have nodup := counted.free_nodup
  rw [free, List.nodup_cons] at nodup
  refine ⟨nodup.2, fun j => ?_, ?_⟩
  · have mem := counted.mem_free j
    simp only [free, List.mem_cons] at mem
    simp only [Array.getElem?_modify]
    by_cases hj : i = j
    · subst hj
      simp [at_i, nodup.1]
    · simp only [if_neg hj, ← mem, Ne.symm hj, false_or]
  · have change := countP_modify (p := Slot.isOccupied)
      (f := fun s => { s with marked := false, occupant := some o }) (l := h.slots.toList) (i := i)
      (a := ⟨g, marked, none⟩) (by simpa using at_i)
    simp only [Slot.isOccupied, Option.isSome_none, Option.isSome_some, Bool.false_eq_true,
      if_false, if_true, Nat.add_zero] at change
    simp only [Array.toList_modify, counted.live_eq]
    exact change.symm

theorem Counted.allocate (counted : h.Counted) (o : Object) : (h.allocate o).2.Counted := by
  rcases allocate_cases counted o with ⟨free, e⟩ | ⟨i, rest, g, marked, free, at_i, e⟩
  · rw [e]
    exact counted.push free o
  · rw [e]
    exact counted.reuse free at_i o

theorem Sound.allocate (sound : h.Sound) (o : Object) : (h.allocate o).2.Sound := by
  refine (sound.counted.allocate o).sound fun j s hs => ?_
  rcases allocate_cases sound.counted o with ⟨-, e⟩ | ⟨i, rest, g, marked, -, at_i, e⟩
  · simp only [e, Array.getElem?_push] at hs
    split at hs
    · obtain rfl := Option.some.inj hs
      rfl
    · exact sound.unmarked j s hs
  · simp only [e, Array.getElem?_modify] at hs
    by_cases hj : i = j
    · subst hj
      rw [if_pos rfl, at_i] at hs
      obtain rfl := Option.some.inj hs
      rfl
    · rw [if_neg hj] at hs
      exact sound.unmarked j s hs

/-! ## Changing an object -/

/-- A slot after a change of the object of a reference. -/
def editSlot (r : Ref) (e : Edit) (s : Slot) : Slot :=
  if s.generation = r.generation then { s with occupant := s.occupant.map (·.edit e) } else s

theorem edit_eq (h : Heap) (r : Ref) (e : Edit) :
    h.edit r e = ⟨h.slots.modify r.index (editSlot r e), h.free, h.live⟩ := rfl

theorem getElem?_edit (h : Heap) (r : Ref) (e : Edit) (i : Nat) : (h.edit r e).slots[i]? =
    if r.index = i then (h.slots[i]?).map (editSlot r e) else h.slots[i]? := by
  rw [edit_eq, Array.getElem?_modify]

theorem get?_edit (h : Heap) (r : Ref) (e : Edit) (q : Ref) :
    (h.edit r e).get? q = if q = r then (h.get? q).map (·.edit e) else h.get? q := by
  obtain ⟨i, g⟩ := r
  obtain ⟨j, k⟩ := q
  simp only [get?, getElem?_edit, Ref.mk.injEq]
  by_cases hi : i = j
  · subst hi
    cases hs : h.slots[i]? with
    | none => simp
    | some s =>
      by_cases hg : s.generation = g
      · by_cases hk : s.generation = k
        · simp_all [editSlot]
        · have : k ≠ g := fun e => hk (hg.trans e.symm)
          simp [editSlot, hg, this, Ne.symm this]
      · have : s.generation = k → k ≠ g := fun e e' => hg (e.trans e')
        by_cases hk : s.generation = k <;> simp_all [editSlot]
  · simp [hi, Ne.symm hi]

theorem editSlot_generation (r : Ref) (e : Edit) (s : Slot) :
    (editSlot r e s).generation = s.generation := by unfold editSlot; split <;> rfl

theorem editSlot_marked (r : Ref) (e : Edit) (s : Slot) : (editSlot r e s).marked = s.marked := by
  unfold editSlot; split <;> rfl

theorem editSlot_isOccupied (r : Ref) (e : Edit) (s : Slot) :
    (editSlot r e s).isOccupied = s.isOccupied := by
  unfold editSlot; split <;> simp [Slot.isOccupied]

theorem Counted.edit (counted : h.Counted) (r : Ref) (e : Edit) : (h.edit r e).Counted := by
  refine ⟨counted.free_nodup, fun i => ?_, ?_⟩
  · refine (counted.mem_free i).trans ?_
    rw [getElem?_edit]
    split
    · constructor
      · rintro ⟨s, hs, empty⟩
        refine ⟨editSlot r e s, by rw [hs]; rfl, ?_⟩
        unfold editSlot; split <;> simp [empty]
      · rintro ⟨t, ht, empty⟩
        obtain ⟨s, hs, rfl⟩ := Option.map_eq_some_iff.1 ht
        have := editSlot_isOccupied r e s
        simp only [Slot.isOccupied, empty, Option.isSome_none] at this
        exact ⟨s, hs, by simpa using this.symm⟩
    · rfl
  · change h.live = _
    rw [counted.live_eq, edit_eq, Array.toList_modify]
    rcases hs : h.slots[r.index]? with _ | s
    · rw [List.modify_eq_self (by simpa using hs)]
    · have change := countP_modify (p := Slot.isOccupied) (f := editSlot r e) (l := h.slots.toList)
        (i := r.index) (a := s) (by simpa using hs)
      rw [editSlot_isOccupied] at change
      omega

theorem Sound.edit (sound : h.Sound) (r : Ref) (e : Edit) : (h.edit r e).Sound := by
  refine (sound.counted.edit r e).sound fun i s hs => ?_
  rw [getElem?_edit] at hs
  split at hs
  · obtain ⟨t, ht, rfl⟩ := Option.map_eq_some_iff.1 hs
    rw [editSlot_marked]
    exact sound.unmarked i t ht
  · exact sound.unmarked i s hs

/-- Slots keep their generation when an object changes. -/
theorem generation_edit {i : Nat} {s : Slot} (r : Ref) (e : Edit) (hs : h.slots[i]? = some s) :
    ∃ t, (h.edit r e).slots[i]? = some t ∧ t.generation = s.generation := by
  rw [getElem?_edit]
  split
  · exact ⟨editSlot r e s, by rw [hs]; rfl, editSlot_generation r e s⟩
  · exact ⟨s, hs, rfl⟩

end Heap

end ScriptBridge
