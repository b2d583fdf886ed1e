import ScriptBridge.Proofs.Heap
import ScriptBridge.Script.Chain

/-!
# What reading and writing find

* `Object.own?_of_free`, `Object.own?_of_item`: an array has its items and its length under their keys, and under all
  others what its properties have.
* `Heap.lookup_of_own`, `Heap.lookup_of_prototype`: what an object has itself comes before its chain.
* `Heap.Assignable`: a chain on which nothing guards a key, so that an assignment stores into the object
  itself.
* `Heap.Ends`: a chain that new objects do not make longer, so that assignments meet the same on it.

Proof-only: not reachable from `ScriptBridge.Session.Run`.
-/

namespace ScriptBridge

variable {h : Heap} {r : Ref} {o : Object} {key : String} {v : Value} {writable : Bool}

theorem isElementKey_eq_false : isElementKey key = false ↔ key ≠ "length" ∧ arrayIndex? key = none := by
  rw [isElementKey, Bool.or_eq_false_iff, beq_eq_false_iff_ne, Option.isSome_eq_false_iff, Option.isNone_iff_eq_none]

theorem ne_length_of_index {i : Nat} (index : arrayIndex? key = some i) : key ≠ "length" := by
  rintro rfl
  exact Option.some_ne_none i (index.symm.trans (by decide))

/-- An index names an element. -/
theorem isElementKey_of_index {i : Nat} (index : arrayIndex? key = some i) : isElementKey key = true := by
  simp [isElementKey, index]

namespace Object

theorem exists_items (array : o.isArray = true) : ∃ items, o.items? = some items := Option.isSome_iff_exists.1 array

theorem items?_of_plain (plain : o.isArray = false) : o.items? = none :=
  Option.not_isSome_iff_eq_none.1 (by rw [← isArray, plain]; exact Bool.false_ne_true)

/-- Only arrays have something under a key that is no property, and only under the keys of elements. -/
theorem own?_of_free (free : (o.isArray && isElementKey key) = false) :
    o.own? key = (o.properties.get? key).map Property.slot := by
  unfold own?
  rcases Bool.and_eq_false_iff.1 free with plain | noElement
  · rw [items?_of_plain plain]
    rfl
  · obtain ⟨noLength, noIndex⟩ := isElementKey_eq_false.1 noElement
    cases o.items? with
    | none => rfl
    | some items => simp only [Option.bind_eq_bind, Option.bind_some, if_neg noLength, noIndex, Option.bind_none]

theorem own?_of_rewritten (free : (o.isArray && isElementKey key) = false) (ps : Properties) :
    Object.own? { o with properties := ps } key = (ps.get? key).map Property.slot :=
  own?_of_free (o := { o with properties := ps }) free

/-- Where there are no elements, every key is one of a property. -/
theorem free_of_plain (plain : o.isArray = false) (key : String) : (o.isArray && isElementKey key) = false := by
  rw [plain, Bool.false_and]

theorem own?_of_plain (plain : o.isArray = false) (key : String) :
    o.own? key = (o.properties.get? key).map Property.slot := own?_of_free (free_of_plain plain key)

theorem own?_of_item {items : Array Value} {i : Nat} (is : o.items? = some items) (index : arrayIndex? key = some i)
    (there : items[i]? = some v) : o.own? key = some (.data v true) := by
  unfold own?
  simp only [is, Option.bind_eq_bind, Option.bind_some, if_neg (ne_length_of_index index), index, there]

theorem own?_length {items : Array Value} (is : o.items? = some items) :
    o.own? "length" = some (.data (.number (.ofNat items.size)) true) := by
  unfold own?
  rw [is]
  rfl

/-- A property is there, perhaps behind an item. -/
theorem isSome_own? (found : (o.properties.get? key).isSome = true) : (o.own? key).isSome = true := by
  unfold own?
  dsimp only
  split
  · rfl
  · rwa [Option.isSome_map]

end Object

theorem Heap.lookup_of_own (ho : h.get? r = some o) (own : o.own? key = some (.data v writable)) :
    h.lookup r key = .value v := by
  unfold lookup lookupFrom
  simp only [ho, own]

/-- What an object does not have itself is looked for in its prototype. -/
theorem Heap.lookup_of_prototype {p : Ref} {o' : Object} (ho : h.get? r = some o) (absent : o.own? key = none)
    (link : o.prototype = some p) (hp : h.get? p = some o') (own : o'.own? key = some (.data v writable)) :
    h.lookup r key = .value v := by
  unfold lookup
  rw [lookupFrom, ho]
  simp only [absent, link]
  rw [show maxChain = 9999 + 1 from rfl, lookupFrom, hp]
  simp only [own]

/-! ## Assignments -/

namespace Heap

/-- Along at most `n` objects of a chain a key has neither an accessor nor a property that cannot be written.
A reference that leads to nothing, where the chain ends, is that of a freed object. -/
def Assignable (h : Heap) (key : String) : Nat → Option Ref → Prop
  | 0, _ => True
  | _ + 1, none => True
  | n + 1, some r =>
    match h.get? r with
    | none => h.Lost r
    | some o =>
      (∀ p, o.properties.get? key = some p → ∃ v, p.slot = .data v true) ∧ h.Assignable key n o.prototype

theorem Assignable.writeTargetFrom_eq {n : Nat} {next : Option Ref} (free : h.Assignable key n next) :
    h.writeTargetFrom key n next = .own := by
  induction n generalizing next with
  | zero => rfl
  | succ n ih =>
    cases next with
    | none => rfl
    | some r =>
      unfold writeTargetFrom
      unfold Assignable at free
      cases ho : h.get? r with
      | none => rfl
      | some o =>
        simp only [ho] at free ⊢
        cases found : o.properties.get? key with
        | none => exact ih free.2
        | some p =>
          obtain ⟨v, slot⟩ := free.1 p found
          simp only [Option.map_some, slot, if_true]

/-- New objects are on no chain that was there before. -/
theorem Assignable.mono {h' : Heap} {n : Nat} {next : Option Ref} (free : h.Assignable key n next)
    (kept : ∀ r o, h.get? r = some o → h'.get? r = some o) (lost : ∀ r, h.Lost r → h'.Lost r) :
    h'.Assignable key n next := by
  induction n generalizing next with
  | zero => trivial
  | succ n ih =>
    cases next with
    | none => trivial
    | some r =>
      unfold Assignable at free ⊢
      cases ho : h.get? r with
      | none =>
        simp only [ho] at free
        have gone := lost r free
        simp only [gone.get?_eq_none]
        exact gone
      | some o =>
        simp only [ho] at free
        simp only [kept r o ho]
        exact ⟨free.1, ih free.2⟩

/-- An object without a property of its own under the key takes the assignment itself. -/
theorem Assignable.writeTarget_eq (free : h.Assignable key (maxChain + 1) (some r)) : h.writeTarget r key = .own := by
  unfold writeTarget
  split
  · split
    · rfl
    · exact free.writeTargetFrom_eq
  · rfl

/-! ## Assignments to new objects -/

/-- A chain is made of objects that are there, and ends after at most `n` of them or at a freed one. It does not lead to
an object that is still to be made. -/
def Ends (h : Heap) : Nat → Option Ref → Prop
  | 0, _ => True
  | _ + 1, none => True
  | n + 1, some r =>
    match h.get? r with
    | none => h.Lost r
    | some o => h.Ends n o.prototype

/-- New objects change nothing on a chain that was there before. -/
theorem Ends.mono {h' : Heap} {n : Nat} {next : Option Ref} (ends : h.Ends n next)
    (kept : ∀ r o, h.get? r = some o → h'.get? r = some o) (lost : ∀ r, h.Lost r → h'.Lost r) :
    h'.Ends n next ∧ ∀ key, h'.writeTargetFrom key n next = h.writeTargetFrom key n next := by
  induction n generalizing next with
  | zero => exact ⟨trivial, fun _ => rfl⟩
  | succ n ih =>
    cases next with
    | none => exact ⟨trivial, fun _ => rfl⟩
    | some r =>
      unfold Ends at ends ⊢
      unfold writeTargetFrom
      cases ho : h.get? r with
      | none =>
        simp only [ho] at ends
        have gone := lost r ends
        simp only [gone.get?_eq_none]
        exact ⟨gone, fun _ => trivial⟩
      | some o =>
        simp only [ho] at ends
        obtain ⟨ends', same⟩ := ih ends
        simp only [kept r o ho, same]
        exact ⟨ends', fun _ => trivial⟩

end Heap

end ScriptBridge
