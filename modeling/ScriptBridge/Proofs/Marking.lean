import Mathlib.Logic.Function.Iterate
import Mathlib.Logic.Relation
import ScriptBridge.Proofs.Heap

/-!
# What marking and sweeping do

* `Object.Refers`: one object holds a reference, through its prototype, a property or an item.
  `Heap.Reaches` follows such references from a set of roots. It speaks of no worklist.
* `Marking.Inv` is kept by every turn of a marking. When no reference is left, it says that the marks
  are exactly on the objects that the roots reach (`Heap.mark_marked`), and how many there are.
* `Marking.run_eq_iterate`: a marking is a number of turns after which no reference is left, on every
  heap, circles included. `Marking.run_congr`: stale references change nothing.
* `Heap.reclaim`: marking and sweeping together. `Heap.get?_reclaim` says what each reference
  resolves to afterwards, `Heap.reclaim_books` counts, and `Heap.Sound.reclaim` keeps the books right.

Proof-only: not reachable from `ScriptBridge.Session.Run`.
-/

namespace ScriptBridge

/-! ## Reaching -/

/-- An object refers to another: through its prototype, a data property, an accessor or an item. -/
inductive Object.Refers (o : Object) : Ref → Prop
  | prototype {r : Ref} (h : o.prototype = some r) : Refers o r
  | data {key : String} {p : Property} {r : Ref} {w : Bool} (mem : (key, p) ∈ o.properties)
      (h : p.slot = .data (.object r) w) : Refers o r
  | getter {key : String} {p : Property} {r : Ref} {setter : Option Ref} (mem : (key, p) ∈ o.properties)
      (h : p.slot = .accessor (some r) setter) : Refers o r
  | setter {key : String} {p : Property} {r : Ref} {getter : Option Ref} (mem : (key, p) ∈ o.properties)
      (h : p.slot = .accessor getter (some r)) : Refers o r
  | item {items : Array Value} {r : Ref} (h : o.payload = .array items) (mem : .object r ∈ items) :
      Refers o r

theorem Value.ref?_eq_some {v : Value} {r : Ref} : v.ref? = some r ↔ v = .object r := by
  cases v <;> simp [Value.ref?]

theorem PropertySlot.mem_references {slot : PropertySlot} {r : Ref} : r ∈ slot.references ↔
    (∃ w, slot = .data (.object r) w) ∨ (∃ setter, slot = .accessor (some r) setter) ∨
      ∃ getter, slot = .accessor getter (some r) := by
  cases slot with
  | data v w => simp [PropertySlot.references, Value.ref?_eq_some]
  | accessor getter setter => simp [PropertySlot.references]

/-- What an object lists is what it refers to. -/
theorem Object.mem_references {o : Object} {r : Ref} : r ∈ o.references ↔ o.Refers r := by
  have items : r ∈ (o.items?.getD #[]).toList.filterMap Value.ref? ↔
      ∃ items, o.payload = .array items ∧ .object r ∈ items := by
    unfold Object.items?
    cases o.payload <;> simp [Value.ref?_eq_some]
  simp only [Object.references, List.mem_append, Option.mem_toList, List.mem_flatMap, items,
    PropertySlot.mem_references]
  constructor
  · rintro ((h | ⟨⟨key, p⟩, mem, ⟨w, h⟩ | ⟨setter, h⟩ | ⟨getter, h⟩⟩) | ⟨items, h, mem⟩)
    · exact .prototype h
    · exact .data mem h
    · exact .getter mem h
    · exact .setter mem h
    · exact .item h mem
  · intro h
    cases h with
    | prototype h => exact .inl (.inl h)
    | data mem h => exact .inl (.inr ⟨_, mem, .inl ⟨_, h⟩⟩)
    | getter mem h => exact .inl (.inr ⟨_, mem, .inr (.inl ⟨_, h⟩)⟩)
    | setter mem h => exact .inl (.inr ⟨_, mem, .inr (.inr ⟨_, h⟩)⟩)
    | item h mem => exact .inr ⟨_, h, mem⟩

namespace Heap

/-- The object of one reference refers to another. -/
def Edge (h : Heap) (a b : Ref) : Prop := ∃ o, h.get? a = some o ∧ o.Refers b

/-- Some roots lead to a reference. -/
def Reaches (h : Heap) (roots : Ref → Prop) (r : Ref) : Prop :=
  ∃ root, roots root ∧ Relation.ReflTransGen h.Edge root r

variable {h : Heap} {roots : Ref → Prop} {r q : Ref} {o : Object}

theorem Reaches.root (hr : roots r) : h.Reaches roots r := ⟨r, hr, .refl⟩

theorem Reaches.step (reached : h.Reaches roots r) (edge : h.Edge r q) : h.Reaches roots q := by
  obtain ⟨root, hroot, path⟩ := reached
  exact ⟨root, hroot, path.tail edge⟩

theorem Reaches.mono {more : Ref → Prop} (sub : ∀ r, roots r → more r) (reached : h.Reaches roots r) :
    h.Reaches more r := by
  obtain ⟨root, hroot, path⟩ := reached
  exact ⟨root, sub root hroot, path⟩

/-- What the roots have and references keep, everything reached has. -/
theorem Reaches.induct {p : Ref → Prop} (start : ∀ r, roots r → p r) (keep : ∀ a b, p a → h.Edge a b → p b)
    (reached : h.Reaches roots r) : p r := by
  obtain ⟨root, hroot, path⟩ := reached
  induction path with
  | refl => exact start root hroot
  | tail _ edge ih => exact keep _ _ ih edge

/-- From an empty object nothing else is reached. -/
theorem Reaches.eq_of_empty {q : Ref} (start : ∀ r, roots r → r = q) (empty : h.get? q = some ⟨.ordinary, [], none⟩)
    (reached : h.Reaches roots r) : r = q := by
  refine reached.induct (p := fun r => r = q) start fun a b at_a edge => ?_
  obtain ⟨o, ho, refers⟩ := edge
  subst at_a
  obtain rfl : ⟨.ordinary, [], none⟩ = o := Option.some.inj (empty.symm.trans ho)
  nomatch Object.mem_references.2 refers

/-- What is no root, and what no object refers to, is not reached. -/
theorem not_reaches (apart : ¬roots r)
    (unreferenced : ∀ s ∈ h.slots, ∀ o, s.occupant = some o → r ∉ o.references) : ¬h.Reaches roots r := by
  rintro ⟨root, isRoot, path⟩
  cases path with
  | refl => exact apart isRoot
  | tail _ edge =>
    obtain ⟨o, there, refers⟩ := edge
    obtain ⟨s, slot, -, occupied⟩ := get?_eq_some.1 there
    exact unreferenced s (Array.mem_of_getElem? slot) o occupied (Object.mem_references.2 refers)

end Heap

/-! ## Turns -/

/-- A slot as it is without its mark. -/
def Slot.bare (s : Slot) : Slot := { s with marked := false }

namespace Heap

variable {h g : Heap} {r q : Ref} {o : Object} {i : Nat} {s : Slot}

theorem unmarked?_eq_some : h.unmarked? r = some o ↔ ∃ s, h.slots[r.index]? = some s ∧
    s.generation = r.generation ∧ s.marked = false ∧ s.occupant = some o := by
  unfold unmarked?
  split <;> rename_i hs
  · rename_i t
    by_cases current : t.generation = r.generation <;> cases marked : t.marked <;> simp_all
  · simp_all

theorem getElem?_setMark (h : Heap) (i j : Nat) : (h.setMark i).slots[j]? =
    if i = j then (h.slots[j]?).map fun s => { s with marked := true } else h.slots[j]? := by
  obtain ⟨slots, free, live⟩ := h
  exact Array.getElem?_modify ..

/-- A mark changes nothing but marks. -/
theorem bare_setMark (h : Heap) (i j : Nat) :
    ((h.setMark i).slots[j]?).map Slot.bare = (h.slots[j]?).map Slot.bare := by
  rw [getElem?_setMark]
  split
  · rw [Option.map_map]; rfl
  · rfl

theorem unmarked?_setMark_self (h : Heap) (r : Ref) : (h.setMark r.index).unmarked? r = none := by
  rw [Option.eq_none_iff_forall_ne_some]
  rintro o ho
  obtain ⟨s, hs, -, unmarked, -⟩ := unmarked?_eq_some.1 ho
  rw [getElem?_setMark, if_pos rfl] at hs
  obtain ⟨t, -, rfl⟩ := Option.map_eq_some_iff.1 hs
  nomatch unmarked

/-- What needs no mark still needs none after another mark. -/
theorem unmarked?_setMark_of_none (hq : h.unmarked? q = none) : (h.setMark i).unmarked? q = none := by
  rw [Option.eq_none_iff_forall_ne_some] at hq ⊢
  intro o ho
  obtain ⟨s, hs, current, unmarked, occupied⟩ := unmarked?_eq_some.1 ho
  rw [getElem?_setMark] at hs
  split at hs
  · obtain ⟨t, -, rfl⟩ := Option.map_eq_some_iff.1 hs
    nomatch unmarked
  · exact hq o (unmarked?_eq_some.2 ⟨s, hs, current, unmarked, occupied⟩)

/-- A slot after another mark is the marked one, or what it was. -/
theorem slot_setMark (fresh : h.unmarked? r = some o) (hs : (h.setMark r.index).slots[i]? = some s) :
    (⟨i, s.generation⟩ = r ∧ s.occupant = some o) ∨ h.slots[i]? = some s := by
  obtain ⟨t, ht, current, -, occupied⟩ := unmarked?_eq_some.1 fresh
  rw [getElem?_setMark] at hs
  by_cases at_i : r.index = i
  · subst at_i
    rw [if_pos rfl, ht, Option.map_some] at hs
    obtain rfl := Option.some.inj hs
    refine .inl ⟨?_, occupied⟩
    show (⟨r.index, t.generation⟩ : Ref) = r
    rw [current]
  · rw [if_neg at_i] at hs
    exact .inr hs

end Heap

/-- How many slots have a mark. -/
def Heap.markedCount (h : Heap) : Nat := h.slots.toList.countP Slot.marked

theorem Heap.markedCount_setMark {h : Heap} {r : Ref} {o : Object} (fresh : h.unmarked? r = some o) :
    (h.setMark r.index).markedCount = h.markedCount + 1 := by
  obtain ⟨slots, free, live⟩ := h
  obtain ⟨s, hs, -, unmarked, -⟩ := Heap.unmarked?_eq_some.1 fresh
  have change := countP_modify (p := Slot.marked) (f := fun s => { s with marked := true })
    (l := slots.toList) (i := r.index) (a := s) (by simpa using hs)
  simp only [unmarked, Bool.false_eq_true, if_false, if_true, Nat.add_zero] at change
  simpa only [Heap.markedCount, Heap.setMark, Array.toList_modify] using change

namespace Marking

variable {h : Heap} {roots : Ref → Prop} {k : Marking}

/-- What holds between the turns of a marking of `h`: marks are on reached objects only, and whatever a
root or a marked object leads to is listed, or needs no mark. -/
structure Inv (h : Heap) (roots : Ref → Prop) (k : Marking) : Prop where
  bare : ∀ i : Nat, (k.heap.slots[i]?).map Slot.bare = h.slots[i]?
  free : k.heap.free = h.free
  live : k.heap.live = h.live
  reached : ∀ (i : Nat) (s : Slot), k.heap.slots[i]? = some s → s.marked = true →
    s.isOccupied = true ∧ h.Reaches roots ⟨i, s.generation⟩
  listed : ∀ r ∈ k.todo, h.Reaches roots r
  roots : ∀ r, roots r → r ∈ k.todo ∨ k.heap.unmarked? r = none
  closed : ∀ (i : Nat) (s : Slot) (o : Object), k.heap.slots[i]? = some s → s.marked = true →
    s.occupant = some o → ∀ q ∈ o.references, q ∈ k.todo ∨ k.heap.unmarked? q = none
  count : k.marked = k.heap.markedCount

theorem Inv.start (sound : h.Sound) (todo : List Ref) : Inv h (· ∈ todo) ⟨h, 0, todo⟩ where
  bare i := by
    rcases hs : h.slots[i]? with _ | ⟨g, marked, o⟩
    · rfl
    · obtain rfl := sound.unmarked i _ hs; rfl
  free := rfl
  live := rfl
  reached i s hs marked := by rw [sound.unmarked i s hs] at marked; nomatch marked
  listed r hr := .root hr
  roots r hr := .inl hr
  closed i s o hs marked := by rw [sound.unmarked i s hs] at marked; nomatch marked
  count := by
    refine (List.countP_eq_zero.2 fun s hs => ?_).symm
    obtain ⟨i, hi⟩ := List.mem_iff_getElem?.1 hs
    rw [sound.unmarked i s (by simpa using hi)]
    exact Bool.false_ne_true

/-- A marking sees the objects of the heap that it started on. -/
theorem Inv.get?_of_slot (inv : Inv h roots k) {i : Nat} {s : Slot} {o : Object}
    (hs : k.heap.slots[i]? = some s) (occupied : s.occupant = some o) :
    h.get? ⟨i, s.generation⟩ = some o := by
  have bare := inv.bare i
  rw [hs, Option.map_some] at bare
  exact Heap.get?_eq_some.2 ⟨s.bare, bare.symm, rfl, occupied⟩

theorem turn_of_fresh {heap : Heap} {marked : Nat} {r : Ref} {rest : List Ref} {o : Object}
    (fresh : heap.unmarked? r = some o) :
    turn ⟨heap, marked, r :: rest⟩ = ⟨heap.setMark r.index, marked + 1, o.references ++ rest⟩ := by
  unfold turn
  simp only [fresh]

theorem turn_of_seen {heap : Heap} {marked : Nat} {r : Ref} {rest : List Ref} (seen : heap.unmarked? r = none) :
    turn ⟨heap, marked, r :: rest⟩ = ⟨heap, marked, rest⟩ := by
  unfold turn
  simp only [seen]

section

variable {heap : Heap} {marked : Nat} {r : Ref} {rest : List Ref} {o : Object}

/-- An object gets its mark, and what it refers to is listed in its place. -/
theorem Inv.mark (inv : Inv h roots ⟨heap, marked, r :: rest⟩) (fresh : heap.unmarked? r = some o) :
    Inv h roots ⟨heap.setMark r.index, marked + 1, o.references ++ rest⟩ := by
  have reached : h.Reaches roots r := inv.listed r List.mem_cons_self
  have object : h.get? r = some o := by
    obtain ⟨s, hs, current, -, occupied⟩ := Heap.unmarked?_eq_some.1 fresh
    have seen := inv.get?_of_slot hs occupied
    rwa [current] at seen
  have keep {q : Ref} (hq : q ∈ r :: rest ∨ heap.unmarked? q = none) :
      q ∈ o.references ++ rest ∨ (heap.setMark r.index).unmarked? q = none := by
    rcases hq with hq | hq
    · rcases List.mem_cons.1 hq with rfl | hq
      · exact .inr (Heap.unmarked?_setMark_self heap q)
      · exact .inl (List.mem_append_right _ hq)
    · exact .inr (Heap.unmarked?_setMark_of_none hq)
  refine ⟨fun i => (Heap.bare_setMark ..).trans (inv.bare i), inv.free, inv.live, ?_, ?_,
    fun q hq => keep (inv.roots q hq), ?_, ?_⟩
  · intro i s hs hm
    rcases Heap.slot_setMark fresh hs with ⟨at_r, occupied⟩ | before
    · rw [at_r]
      exact ⟨by rw [Slot.isOccupied, occupied]; rfl, reached⟩
    · exact inv.reached i s before hm
  · intro q hq
    rcases List.mem_append.1 hq with hq | hq
    · exact reached.step ⟨o, object, Object.mem_references.1 hq⟩
    · exact inv.listed q (List.mem_cons_of_mem _ hq)
  · intro i s p hs hm hp q hq
    rcases Heap.slot_setMark fresh hs with ⟨-, occupied⟩ | before
    · obtain rfl : o = p := Option.some.inj (occupied.symm.trans hp)
      exact .inl (List.mem_append_left _ hq)
    · exact keep (inv.closed i s p before hm hp q hq)
  · show marked + 1 = (heap.setMark r.index).markedCount
    rw [Heap.markedCount_setMark fresh]
    exact congrArg (· + 1) inv.count

/-- A reference that is stale, or whose object has its mark, is passed over. -/
theorem Inv.pass (inv : Inv h roots ⟨heap, marked, r :: rest⟩) (seen : heap.unmarked? r = none) :
    Inv h roots ⟨heap, marked, rest⟩ := by
  have keep {q : Ref} (hq : q ∈ r :: rest ∨ heap.unmarked? q = none) : q ∈ rest ∨ heap.unmarked? q = none := by
    rcases hq with hq | hq
    · rcases List.mem_cons.1 hq with rfl | hq
      · exact .inr seen
      · exact .inl hq
    · exact .inr hq
  exact ⟨inv.bare, inv.free, inv.live, inv.reached, fun q hq => inv.listed q (List.mem_cons_of_mem _ hq),
    fun q hq => keep (inv.roots q hq), fun i s p hs hm hp q hq => keep (inv.closed i s p hs hm hp q hq), inv.count⟩

end

/-- Every turn keeps the invariant. -/
theorem Inv.turn (inv : Inv h roots k) : Inv h roots k.turn := by
  obtain ⟨heap, marked, todo⟩ := k
  cases todo with
  | nil => exact inv
  | cons r rest =>
    cases hr : heap.unmarked? r with
    | some o =>
      rw [turn_of_fresh hr]
      exact inv.mark hr
    | none =>
      rw [turn_of_seen hr]
      exact inv.pass hr

theorem run_nil (heap : Heap) (marked : Nat) : run ⟨heap, marked, []⟩ = ⟨heap, marked, []⟩ := by
  rw [run]

theorem run_cons (heap : Heap) (marked : Nat) (r : Ref) (rest : List Ref) :
    run ⟨heap, marked, r :: rest⟩ = (turn ⟨heap, marked, r :: rest⟩).run := by rw [run]

/-- A marking ends: after some number of turns no reference is left. -/
theorem run_eq_iterate (k : Marking) : ∃ n, k.run = turn^[n] k ∧ (turn^[n] k).todo = [] := by
  induction k using run.induct with
  | case1 heap marked => exact ⟨0, run_nil heap marked, rfl⟩
  | case2 heap marked r rest ih =>
    obtain ⟨n, eq, done⟩ := ih
    exact ⟨n + 1, by rw [run_cons, eq, Function.iterate_succ_apply],
      by rw [Function.iterate_succ_apply, done]⟩

/-- A marking is any number of turns after which no reference is left. -/
theorem run_of_iterate {k : Marking} (n : Nat) (done : (turn^[n] k).todo = []) : k.run = turn^[n] k := by
  induction n generalizing k with
  | zero =>
    obtain ⟨heap, marked, todo⟩ := k
    obtain rfl : todo = [] := done
    exact run_nil heap marked
  | succ n ih =>
    rw [Function.iterate_succ_apply] at done ⊢
    obtain ⟨heap, marked, _ | ⟨r, rest⟩⟩ := k
    · have still : turn ⟨heap, marked, []⟩ = ⟨heap, marked, []⟩ := rfl
      rw [still] at done ⊢
      exact ih done
    · rw [run_cons]
      exact ih done

theorem Inv.iterate (inv : Inv h roots k) (n : Nat) : Inv h roots (Marking.turn^[n] k) := by
  induction n with
  | zero => exact inv
  | succ n ih =>
    rw [Function.iterate_succ_apply']
    exact ih.turn

theorem Inv.run (inv : Inv h roots k) : Inv h roots k.run ∧ k.run.todo = [] := by
  obtain ⟨n, eq, done⟩ := run_eq_iterate k
  rw [eq]
  exact ⟨inv.iterate n, done⟩

/-- Once no reference is left, every object that the roots reach has its mark. -/
theorem Inv.unmarked?_of_reaches (inv : Inv h roots k) (done : k.todo = []) {r : Ref}
    (reached : h.Reaches roots r) : k.heap.unmarked? r = none := by
  obtain ⟨root, hroot, path⟩ := reached
  induction path with
  | refl =>
    have := inv.roots root hroot
    rwa [done, or_iff_right List.not_mem_nil] at this
  | @tail a b _ edge ih =>
    obtain ⟨o, ho, refers⟩ := edge
    obtain ⟨s, hs, current, occupied⟩ := Heap.get?_eq_some.1 ho
    have bare := inv.bare a.index
    rw [hs] at bare
    obtain ⟨t, ht, rfl⟩ := Option.map_eq_some_iff.1 bare
    have marked : t.marked = true := by
      rw [← Bool.not_eq_false]
      intro unmarked
      rw [Heap.unmarked?_eq_some.2 ⟨t, ht, current, unmarked, occupied⟩] at ih
      nomatch ih
    have := inv.closed a.index t o ht marked occupied b (Object.mem_references.2 refers)
    rwa [done, or_iff_right List.not_mem_nil] at this

/-- A marking changes nothing but marks. -/
theorem bare_run (k : Marking) (i : Nat) :
    (k.run.heap.slots[i]?).map Slot.bare = (k.heap.slots[i]?).map Slot.bare ∧ k.run.heap.free = k.heap.free ∧
      k.run.heap.live = k.heap.live := by
  induction k using run.induct with
  | case1 heap marked => rw [run_nil]; exact ⟨rfl, rfl, rfl⟩
  | case2 heap marked r rest ih =>
    rw [run_cons]
    obtain ⟨bare, free, live⟩ := ih
    cases hr : heap.unmarked? r with
    | some o =>
      rw [turn_of_fresh hr] at bare free live ⊢
      exact ⟨bare.trans (heap.bare_setMark ..), free, live⟩
    | none =>
      rw [turn_of_seen hr] at bare free live ⊢
      exact ⟨bare, free, live⟩

/-! ### Stale references -/

/-- A mark changes nothing of what references resolve to. -/
theorem isLive_setMark (h : Heap) (i : Nat) : (h.setMark i).isLive = h.isLive := by
  funext r
  unfold Heap.isLive
  rw [Heap.get?_congr]
  have bare := congrArg (Option.map fun s : Slot => (s.generation, s.occupant)) (h.bare_setMark i r.index)
  rwa [Option.map_map, Option.map_map] at bare

/-- A turn passes over a stale reference. -/
theorem turn_of_stale {heap : Heap} {marked : Nat} {r : Ref} {rest : List Ref} (stale : ¬heap.isLive r = true) :
    turn ⟨heap, marked, r :: rest⟩ = ⟨heap, marked, rest⟩ := by
  refine turn_of_seen (Option.eq_none_iff_forall_ne_some.2 fun o ho => stale ?_)
  obtain ⟨s, hs, current, -, occupied⟩ := Heap.unmarked?_eq_some.1 ho
  exact Heap.isLive_iff.2 ⟨o, Heap.get?_eq_some.2 ⟨s, hs, current, occupied⟩⟩

theorem run_stales {heap : Heap} {stales : List Ref} (stale : ∀ r ∈ stales, ¬heap.isLive r = true) (marked : Nat)
    (rest : List Ref) :
    run ⟨heap, marked, stales ++ rest⟩ = run ⟨heap, marked, rest⟩ := by
  induction stales with
  | nil => rfl
  | cons r stales ih =>
    show run ⟨heap, marked, r :: (stales ++ rest)⟩ = _
    rw [run_cons, turn_of_stale (stale r List.mem_cons_self)]
    exact ih fun q hq => stale q (List.mem_cons_of_mem r hq)

/-- Only the references that resolve count, in their order. -/
theorem run_congr (k : Marking) (todo : List Ref)
    (same : k.todo.filter k.heap.isLive = todo.filter k.heap.isLive) : k.run = run ⟨k.heap, k.marked, todo⟩ := by
  induction k using run.induct generalizing todo with
  | case1 heap marked =>
    have stale : ∀ r ∈ todo, ¬heap.isLive r = true := List.filter_eq_nil_iff.1 same.symm
    have passed := run_stales stale marked []
    rw [List.append_nil] at passed
    exact passed.symm
  | case2 heap marked r rest ih =>
    have same : (r :: rest).filter heap.isLive = todo.filter heap.isLive := same
    by_cases live : heap.isLive r = true
    · rw [List.filter_cons_of_pos live] at same
      obtain ⟨stales, others, rfl, stale, -, same⟩ := List.filter_eq_cons_iff.1 same.symm
      show run ⟨heap, marked, r :: rest⟩ = run ⟨heap, marked, stales ++ r :: others⟩
      rw [run_stales stale, run_cons, run_cons]
      cases hr : heap.unmarked? r with
      | some o =>
        rw [turn_of_fresh hr] at ih ⊢
        rw [turn_of_fresh hr]
        refine ih (o.references ++ others) ?_
        show (o.references ++ rest).filter _ = (o.references ++ others).filter _
        rw [isLive_setMark, List.filter_append, List.filter_append, same]
      | none =>
        rw [turn_of_seen hr] at ih ⊢
        rw [turn_of_seen hr]
        exact ih others same.symm
    · rw [List.filter_cons_of_neg live] at same
      rw [turn_of_stale live] at ih
      rw [run_cons, turn_of_stale live]
      exact ih todo same

end Marking

/-! ## Sweeping -/

/-- There are as many positions of items with a property as there are such items. -/
theorem length_filter_range {α : Type} (p : α → Bool) (l : List α) :
    ((List.range l.length).filter fun i => l[i]?.any p).length = l.countP p := by
  induction l with
  | nil => rfl
  | cons a l ih =>
    rw [List.length_cons, List.range_succ_eq_map, List.filter_cons, List.filter_map, List.countP_cons, ← ih]
    cases ha : p a <;> simp [ha, Function.comp_def]

namespace Slot

variable {s : Slot}

theorem swept_of_empty (empty : s.occupant = none) : s.swept = s := by
  obtain ⟨g, marked, o⟩ := s
  obtain rfl := empty
  rfl

theorem swept_of_marked (occupied : s.isOccupied = true) : (swept { s with marked := true }) = s.bare := by
  obtain ⟨g, marked, o⟩ := s
  obtain ⟨o, rfl⟩ := Option.isSome_iff_exists.1 occupied
  rfl

theorem swept_of_unmarked (occupied : s.isOccupied = true) :
    (swept { s with marked := false }) = ⟨s.generation + 1, false, none⟩ := by
  obtain ⟨g, marked, o⟩ := s
  obtain ⟨o, rfl⟩ := Option.isSome_iff_exists.1 occupied
  rfl

end Slot

namespace Heap

variable {h : Heap} {roots : List Ref} {r : Ref} {o : Object} {i : Nat} {s : Slot}

/-- Marks what some roots reach, and frees the rest. -/
def reclaim (h : Heap) (roots : List Ref) : Nat × Heap := (h.mark roots).1.sweep

theorem mark_inv (sound : h.Sound) (roots : List Ref) :
    Marking.Inv h (· ∈ roots) (Marking.run ⟨h, 0, roots⟩) ∧ (Marking.run ⟨h, 0, roots⟩).todo = [] :=
  (Marking.Inv.start sound roots).run

theorem slots_sweep (h : Heap) (i : Nat) : h.sweep.2.slots[i]? = (h.slots[i]?).map Slot.swept :=
  Array.getElem?_map ..

theorem slots_reclaim (h : Heap) (roots : List Ref) (i : Nat) :
    (h.reclaim roots).2.slots[i]? = ((h.mark roots).1.slots[i]?).map Slot.swept :=
  slots_sweep ..

/-- The mark of a slot says whether its object is reached. -/
theorem mark_slot (sound : h.Sound) (roots : List Ref) (hs : h.slots[i]? = some s) :
    ∃ marked, (h.mark roots).1.slots[i]? = some { s with marked } ∧
      (marked = true ↔ s.isOccupied = true ∧ h.Reaches (· ∈ roots) ⟨i, s.generation⟩) := by
  obtain ⟨inv, done⟩ := mark_inv sound roots
  have bare := inv.bare i
  rw [hs] at bare
  obtain ⟨t, ht, rfl⟩ := Option.map_eq_some_iff.1 bare
  refine ⟨t.marked, ht, fun marked => inv.reached i t ht marked, fun ⟨occupied, reached⟩ => ?_⟩
  obtain ⟨o, ho⟩ := Option.isSome_iff_exists.1 occupied
  rw [← Bool.not_eq_false]
  intro unmarked
  have := inv.unmarked?_of_reaches done reached
  rw [unmarked?_eq_some.2 ⟨t, ht, rfl, unmarked, ho⟩] at this
  nomatch this

theorem mark_slot_of_unreached (sound : h.Sound) (hs : h.slots[i]? = some s)
    (unreached : ¬h.Reaches (· ∈ roots) ⟨i, s.generation⟩) :
    (h.mark roots).1.slots[i]? = some { s with marked := false } := by
  obtain ⟨marked, ht, marked_iff⟩ := mark_slot sound roots hs
  obtain rfl : marked = false := by
    rw [← Bool.not_eq_true]
    exact fun marked => unreached (marked_iff.1 marked).2
  exact ht

/-- A slot whose object is reached stays as it is, and so does an empty one. -/
theorem slot_reclaim_of_kept (sound : h.Sound) (hs : h.slots[i]? = some s)
    (kept : s.occupant = none ∨ h.Reaches (· ∈ roots) ⟨i, s.generation⟩) :
    (h.reclaim roots).2.slots[i]? = some s := by
  obtain ⟨marked, ht, marked_iff⟩ := mark_slot sound roots hs
  have bare : s.bare = s := by
    obtain ⟨g, m, o⟩ := s
    obtain rfl := sound.unmarked i _ hs
    rfl
  rw [slots_reclaim, ht, Option.map_some, Option.some.injEq]
  cases hm : marked with
  | true =>
    rw [Slot.swept_of_marked (marked_iff.1 hm).1, bare]
  | false =>
    have empty : s.occupant = none := by
      refine kept.elim id fun reached => ?_
      rw [hm, iff_comm] at marked_iff
      simpa [Slot.isOccupied, reached] using marked_iff
    rw [Slot.swept_of_empty (s := { s with marked := false }) empty]
    exact bare

/-- A slot whose object is not reached loses it and goes on to its next generation. -/
theorem slot_reclaim_of_freed (sound : h.Sound) (hs : h.slots[i]? = some s) (occupied : s.isOccupied = true)
    (unreached : ¬h.Reaches (· ∈ roots) ⟨i, s.generation⟩) :
    (h.reclaim roots).2.slots[i]? = some ⟨s.generation + 1, false, none⟩ := by
  rw [slots_reclaim, mark_slot_of_unreached sound hs unreached, Option.map_some, Slot.swept_of_unmarked occupied]

/-- After a collection exactly the reached objects are there, unchanged. -/
theorem get?_reclaim (sound : h.Sound) (roots : List Ref) (r : Ref) (o : Object) :
    (h.reclaim roots).2.get? r = some o ↔ h.get? r = some o ∧ h.Reaches (· ∈ roots) r := by
  obtain ⟨i, g⟩ := r
  simp only [get?_eq_some]
  rcases hs : h.slots[i]? with _ | s
  · have : (h.reclaim roots).2.slots[i]? = none := by
      have bare := (mark_inv sound roots).1.bare i
      rw [hs, Option.map_eq_none_iff] at bare
      rw [slots_reclaim, Option.map_eq_none_iff]
      exact bare
    simp [this]
  · by_cases kept : s.occupant = none ∨ h.Reaches (· ∈ roots) ⟨i, s.generation⟩
    · rw [slot_reclaim_of_kept sound hs kept]
      constructor
      · rintro ⟨t, ht, rfl, occupied⟩
        obtain rfl := Option.some.inj ht
        refine ⟨⟨s, rfl, rfl, occupied⟩, kept.resolve_left ?_⟩
        rw [occupied]
        exact Option.some_ne_none o
      · exact And.left
    · obtain ⟨occupied, unreached⟩ := not_or.1 kept
      rw [slot_reclaim_of_freed sound hs (Option.isSome_iff_ne_none.2 occupied) unreached]
      constructor
      · rintro ⟨t, ht, -, ho⟩
        obtain rfl := Option.some.inj ht
        nomatch ho
      · rintro ⟨⟨t, ht, rfl, -⟩, reached⟩
        obtain rfl := Option.some.inj ht
        exact absurd reached unreached

/-! ### Counting -/

/-- Marked and unmarked objects together are all objects. -/
theorem countP_occupied {l : List Slot} (marked : ∀ s ∈ l, s.marked = true → s.isOccupied = true) :
    l.countP Slot.marked + l.countP Slot.isGarbage = l.countP Slot.isOccupied := by
  induction l with
  | nil => rfl
  | cons s l ih =>
    have rest := ih fun s hs => marked s (List.mem_cons_of_mem _ hs)
    have head := marked s List.mem_cons_self
    have garbage : s.isGarbage = (s.isOccupied && !s.marked) := rfl
    simp only [List.countP_cons, garbage]
    cases hm : s.marked <;> cases ho : s.isOccupied <;> simp_all <;> omega

theorem mem_garbage : i ∈ h.garbage ↔ ∃ s, h.slots[i]? = some s ∧ s.isGarbage = true := by
  simp only [garbage, List.mem_filter, List.mem_range, Option.any_eq_true]
  refine and_iff_right_of_imp ?_
  rintro ⟨s, hs, -⟩
  exact (Array.getElem?_eq_some_iff.1 hs).1

theorem length_garbage (h : Heap) : h.garbage.length = h.slots.toList.countP Slot.isGarbage := by
  rw [← length_filter_range]
  simp [garbage]

/-- Marked objects are among the occupied slots. -/
theorem occupied_of_marked (sound : h.Sound) (roots : List Ref) :
    ∀ s ∈ (h.mark roots).1.slots.toList, s.marked = true → s.isOccupied = true := by
  intro s hs marked
  obtain ⟨i, hi⟩ := List.mem_iff_getElem?.1 hs
  have at_i : (h.mark roots).1.slots[i]? = some s := by simpa using hi
  exact ((mark_inv sound roots).1.reached i s at_i marked).1

theorem countP_mark (sound : h.Sound) (roots : List Ref) :
    (h.mark roots).1.slots.toList.countP Slot.isOccupied = h.live := by
  have bare : (h.mark roots).1.slots.toList.map Slot.bare = h.slots.toList := by
    refine List.ext_getElem? fun i => ?_
    have := (mark_inv sound roots).1.bare i
    simpa [mark] using this
  rw [sound.live_eq, ← bare, List.countP_map]
  exact List.countP_congr fun s _ => Iff.rfl

/-- The objects that are marked and those that are freed add up to what was live, and the marked ones
are what is live afterwards. -/
theorem reclaim_books (sound : h.Sound) (roots : List Ref) :
    (h.mark roots).2 + (h.reclaim roots).1 = h.live ∧ (h.reclaim roots).2.live = (h.mark roots).2 := by
  have inv := (mark_inv sound roots).1
  have count := countP_occupied (occupied_of_marked sound roots)
  rw [countP_mark sound, ← length_garbage] at count
  have marked : (h.mark roots).2 = (h.mark roots).1.slots.toList.countP Slot.marked := inv.count
  have freed : (h.reclaim roots).1 = (h.mark roots).1.garbage.length := rfl
  have live : (h.reclaim roots).2.live = h.live - (h.mark roots).1.garbage.length :=
    congrArg (· - (h.mark roots).1.garbage.length) inv.live
  omega

/-! ### The books -/

theorem nodup_garbage (h : Heap) : h.garbage.Nodup := List.nodup_range.filter _

/-- Books do not speak of marks. -/
theorem Counted.of_bare (counted : h.Counted) {g : Heap}
    (bare : ∀ i : Nat, (g.slots[i]?).map Slot.bare = (h.slots[i]?).map Slot.bare)
    (free : g.free = h.free) (live : g.live = h.live) : g.Counted := by
  refine ⟨free ▸ counted.free_nodup, fun i => ?_, ?_⟩
  · have at_i := bare i
    rw [free, counted.mem_free i]
    cases hs : g.slots[i]? <;> cases hk : h.slots[i]? <;> simp_all [Slot.bare]
  · have slots : g.slots.toList.map Slot.bare = h.slots.toList.map Slot.bare := by
      refine List.ext_getElem? fun i => ?_
      simpa using bare i
    have occupied (l : List Slot) : l.countP Slot.isOccupied = (l.map Slot.bare).countP Slot.isOccupied := by
      rw [List.countP_map]
      exact List.countP_congr fun s _ => Iff.rfl
    rw [live, counted.live_eq, occupied, ← slots, ← occupied]

theorem Counted.mark (counted : h.Counted) (roots : List Ref) : (h.mark roots).1.Counted :=
  counted.of_bare (fun i => (Marking.bare_run ⟨h, 0, roots⟩ i).1) (Marking.bare_run ⟨h, 0, roots⟩ 0).2.1
    (Marking.bare_run ⟨h, 0, roots⟩ 0).2.2

/-- What is there is what a sweep frees and what it leaves. -/
theorem countP_swept (l : List Slot) :
    l.countP Slot.isGarbage + l.countP (Slot.isOccupied ∘ Slot.swept) = l.countP Slot.isOccupied := by
  induction l with
  | nil => rfl
  | cons s l ih =>
    obtain ⟨g, marked, o⟩ := s
    simp only [List.countP_cons, Function.comp_apply]
    cases marked <;> cases o <;> simp [Slot.swept, Slot.isOccupied, Slot.isGarbage] <;> omega

theorem Counted.sweep (counted : h.Counted) : h.sweep.2.Counted := by
  refine ⟨List.nodup_append.2 ⟨List.nodup_reverse.2 h.nodup_garbage, counted.free_nodup, ?_⟩, fun i => ?_, ?_⟩
  · rintro i freed _ free rfl
    obtain ⟨s, hs, garbage⟩ := mem_garbage.1 (List.mem_reverse.1 freed)
    obtain ⟨t, ht, empty⟩ := (counted.mem_free i).1 free
    obtain rfl := Option.some.inj (hs.symm.trans ht)
    simp [Slot.isGarbage, empty] at garbage
  · show i ∈ h.garbage.reverse ++ h.free ↔ _
    rw [List.mem_append, List.mem_reverse, mem_garbage, counted.mem_free i, slots_sweep]
    rcases h.slots[i]? with _ | ⟨g, marked, o⟩
    · simp
    · cases marked <;> cases o <;> simp [Slot.swept, Slot.isGarbage]
  · have count := countP_swept h.slots.toList
    have live : h.sweep.2.live = h.live - h.garbage.length := rfl
    have swept : h.sweep.2.slots.toList = h.slots.toList.map Slot.swept := Array.toList_map ..
    rw [live, swept, length_garbage, counted.live_eq, List.countP_map]
    omega

theorem Sound.reclaim (sound : h.Sound) (roots : List Ref) : (h.reclaim roots).2.Sound := by
  refine (sound.counted.mark roots).sweep.sound fun i s hs => ?_
  rw [slots_sweep] at hs
  obtain ⟨t, ht, rfl⟩ := Option.map_eq_some_iff.1 hs
  have occupied := occupied_of_marked sound roots t (Array.mem_toList_iff.2 (Array.mem_of_getElem? ht))
  obtain ⟨g, marked, o⟩ := t
  cases marked <;> cases o <;> simp_all [Slot.swept, Slot.isOccupied]

end Heap

end ScriptBridge
