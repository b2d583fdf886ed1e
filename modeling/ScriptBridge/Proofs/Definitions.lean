import ScriptBridge.Proofs.Listing

/-!
# What becomes of a definition

A property that is defined is there until it is changed, and reading, assigning, deleting and listing go by it. Two kinds
of keys are different. Under the key of an element or of the length of an array data is assigned, and its attributes are
for nothing. Under a name that its native object exports, a wrapper asks the native object first, and only lists what was
defined.

* `Machine.Accessible`, `Point.Step.accessible`: the sides of accessors are functions, at every point of a session.
* `Scope.Obeys`: what is done with a property. `Scope.Delegates`: what is done with an exported name.
* `Scope.HoldsItem`, `Scope.HasLength`: what is done with an element and with the length of an array.
* `Scope.Heeds`: what is done under a key. `Scope.Defines`: what a definition makes of it, or why it is refused.
* `Session.definitions_heeded`: both at every point of a session.

Proof-only: not reachable from `ScriptBridge.Session.Run`.
-/

namespace ScriptBridge

open Routine

/-! ## The functions of accessors -/

/-- What is assigned is data. -/
theorem Property.isAccessor_store (found : Option Property) (v : Value) : (store found v).isAccessor = false := by
  cases found with
  | none => rfl
  | some p =>
    obtain ⟨slot, enumerable, configurable⟩ := p
    cases slot <;> rfl

namespace Machine

variable {m : Machine} {r : Ref} {o : Object} {e : Edit}

theorem isFunction_object : m.isFunction (.object r) = true ↔ ∃ d, m.function? (.object r) = some (r, d) := by
  refine Option.isSome_iff_exists.trans ⟨?_, fun ⟨d, function⟩ => ⟨_, function⟩⟩
  rintro ⟨⟨q, d⟩, function⟩
  cases (function?_eq_some.1 function).1
  exact ⟨d, function⟩

/-- No edit makes a function of an object, or something else of a function. -/
theorem function?_edit (m : Machine) (r : Ref) (e : Edit) (v : Value) :
    function? { m with heap := m.heap.edit r e } v = m.function? v := by
  refine Option.ext fun ⟨q, d⟩ => ?_
  rw [function?_eq_some, function?_eq_some]
  refine and_congr_right fun _ => ?_
  unfold object?
  rw [Heap.get?_edit]
  split
  · constructor
    · rintro ⟨_, edited, does⟩
      obtain ⟨o, there, rfl⟩ := Option.map_eq_some_iff.1 edited
      exact ⟨o, there, (o.function?_edit e).symm.trans does⟩
    · rintro ⟨o, there, does⟩
      exact ⟨_, congrArg (Option.map _) there, (o.function?_edit e).trans does⟩
  · rfl

theorem Accesses.edit {p : Property} (accesses : m.Accesses p) (r : Ref) (e : Edit) :
    Accesses { m with heap := m.heap.edit r e } p := by
  intro accessor f mem
  unfold isFunction
  rw [function?_edit]
  exact accesses accessor f mem

/-- The sides of the accessors of an object are functions after an edit that fits. -/
theorem accesses_of_edit (accesses : ∀ entry ∈ o.properties, m.Accesses entry.2) (fits : m.Fits r e) :
    ∀ entry ∈ (o.edit e).properties, m.Accesses entry.2 := by
  intro entry mem
  cases e with
  | define key p =>
    rcases Properties.eq_or_mem_of_mem_insert mem with rfl | mem
    · exact fits.2
    · exact accesses entry mem
  | store key v =>
    rcases Properties.eq_or_mem_of_mem_insert mem with rfl | mem
    · exact fun accessor => absurd ((Property.isAccessor_store ..).symm.trans accessor) Bool.false_ne_true
    · exact accesses entry mem
  | remove key => exact accesses entry ((Properties.erase_sublist ..).subset mem)
  | setPrototype => exact accesses entry mem
  | storeItem | clearItem | resize =>
    rw [Object.edit, Object.properties_editItems] at mem
    exact accesses entry mem

/-- The sides of all accessors are functions. -/
def Accessible (m : Machine) : Prop := ∀ r o, m.object? r = some o → ∀ entry ∈ o.properties, m.Accesses entry.2

end Machine

/-- An object refers to the sides of its accessors, so they stay with it. -/
theorem Point.Step.accessible {x y : Point} (step : x.Step y) (accessible : x.machine.Accessible) :
    y.machine.Accessible := by
  intro r o' after entry mem accessor f side
  have was : x.machine.isFunction (.object f) = true := by
    rcases step.object? after with ⟨o, there, rfl | ⟨e, -, careful, rfl⟩⟩ | ⟨-, β, a, -, proper, stores⟩
    · exact accessible r _ there entry mem accessor f side
    · exact Machine.accesses_of_edit (accessible r o there) careful.2 entry mem accessor f side
    · exact absurd ((proper.isBlank stores entry mem).1.symm.trans accessor) Bool.false_ne_true
  obtain ⟨d, function⟩ := Machine.isFunction_object.1 was
  obtain ⟨-, p, there, does⟩ := Machine.function?_eq_some.1 function
  have refers : o'.Refers f := Object.mem_references.1
    (List.mem_append_left _ (List.mem_append_right _ (List.mem_flatMap.2 ⟨entry, mem, side⟩)))
  obtain ⟨p', there'⟩ := Heap.isLive_iff.1 (step.isLive_of_refers after refers (Heap.isLive_iff.2 ⟨p, there⟩))
  exact Machine.isFunction_object.2
    ⟨d, Machine.function?_eq_some.2 ⟨rfl, p', there', (step.function? there there').trans does⟩⟩

/-! ## What is done under a key -/

theorem Heap.lookup_of_accessor {h : Heap} {r : Ref} {o : Object} {key : String} {getter setter : Option Ref}
    (ho : h.get? r = some o) (own : o.own? key = some (.accessor getter setter)) : h.lookup r key = .getter getter := by
  unfold lookup lookupFrom
  simp only [ho, own]

namespace Object

variable {o : Object} {items : Array Value} {key : String} {p : Property} {i : Nat}

theorem isArray_of_items? (is : o.items? = some items) : o.isArray = true := Option.isSome_of_eq_some is

theorem payload_of_items? (is : o.items? = some items) : o.payload = .array items := by
  unfold items? at is
  split at is
  · rename_i kind
    exact kind.trans (congrArg _ (Option.some.inj is))
  · nomatch is

/-- Arrays wrap nothing. -/
theorem wrapper?_of_items? (is : o.items? = some items) : o.wrapper? = none := by
  rw [wrapper?, payload_of_items? is]

theorem items?_editItems (is : o.items? = some items) (f : Array Value → Array Value) :
    (o.editItems f).items? = some (f items) := by
  obtain ⟨payload, properties, prototype⟩ := o
  obtain rfl : payload = .array items := payload_of_items? is
  rfl

/-- Of the keys that name no elements, an object lists those of its enumerable properties, if it is no array with more
items than there are array indices. -/
theorem mem_keys_of_free (nodup : (o.properties.map (·.1)).Nodup) (free : (o.isArray && isElementKey key) = false)
    (short : ∀ items, o.items? = some items → items.size ≤ 0xffffffff) (found : o.properties.get? key = some p) :
    key ∈ o.keys ↔ p.enumerable = true := by
  rw [keys_eq, List.mem_append, Properties.mem_listed nodup]
  constructor
  · rintro (index | ⟨q, there, listed⟩)
    · obtain ⟨items, i, is, below, rfl⟩ := mem_indices.1 index
      have spelled : arrayIndex? (toString i) = some i :=
        arrayIndex?_toString (Nat.lt_of_lt_of_le below (short items is))
      rw [isArray_of_items? is, isElementKey, spelled, Option.isSome_some, Bool.or_true] at free
      exact absurd free.symm Bool.false_ne_true
    · obtain rfl := Option.some.inj (found.symm.trans there)
      exact listed
  · exact fun listed => .inr ⟨p, found, listed⟩

end Object

namespace Scope

variable {α : Type} {s : Scope} {m : Machine} {r : Ref} {o : Object} {key : String} {p : Property} {items : Array Value}
  {i : Nat} {v : Value} {d : Descriptor} {writable enumerable configurable : Bool}

/-- What is done with a property of an object goes by its slot and its attributes. -/
structure Obeys (s : Scope) (m : Machine) (r : Ref) (o : Object) (key : String) (p : Property) : Prop where
  /-- Data is read, -/
  reads : ∀ v writable, p.slot = .data v writable → (s.get (.object r) key).Returns m v ((Action.track v).run m).2
  /-- and it is written if it may be. -/
  writes : ∀ v w, p.slot = .data v true → ∃ m' ps, (s.set (.object r) key w).Returns m () m' ∧ m.Rewrites m' r ps ∧
    o.properties.Stores ps key { p with slot := .data w true }
  readonly : ∀ v w, p.slot = .data v false → (s.set (.object r) key w).Returns m () m
  /-- A getter is called on the object, -/
  getter : ∀ f setter, p.slot = .accessor (some f) setter → ∃ d, m.function? (.object f) = some (f, d) ∧
    ∀ job : Runner, (s.get (.object r) key).exec job m = (s.invoke f d (.object r) [] false).exec job m
  /-- and so is a setter, with the value. What it gives is ignored. -/
  setter : ∀ getter f w, p.slot = .accessor getter (some f) → ∃ d, m.function? (.object f) = some (f, d) ∧
    ∀ job : Runner, (s.set (.object r) key w).exec job m =
      Outcome.andThen ((s.invoke f d (.object r) [w] false).exec job m) fun _ m' => (.done (), m')
  noGetter : ∀ setter, p.slot = .accessor none setter → (s.get (.object r) key).Returns m .undefined m
  noSetter : ∀ getter w, p.slot = .accessor getter none → (s.set (.object r) key w).Returns m () m
  /-- A configurable property can be deleted. -/
  stays : p.configurable = false → (s.delete (.object r) key).Returns m false m
  goes : p.configurable = true →
    ∃ m' ps, (s.delete (.object r) key).Returns m true m' ∧ m.Rewrites m' r ps ∧ o.properties.Removes ps key

/-- Under a name that it exports the native object is asked, whatever else the wrapper has there. The name cannot be
deleted. -/
structure Delegates (s : Scope) (m : Machine) (r : Ref) (key : String) (q : PropertyDeclaration) : Prop where
  get : ∀ job : Runner, (s.get (.object r) key).exec job m = (s.raising (s.exportedGet r q) >>= fun v => do
    track v
    return v).exec job m
  readonly : q.setter = none → ∀ w, (s.set (.object r) key w).Returns m () m
  set : ∀ setter w, q.setter = some setter → ∀ job : Runner,
    (s.set (.object r) key w).exec job m = (s.raising (s.exportedSet r q setter w)).exec job m
  delete : (s.delete (.object r) key).Returns m false m
  has : (s.has (.object r) key).Returns m true m

/-- An item of an array is read and listed, can be written and emptied. -/
structure HoldsItem (s : Scope) (m : Machine) (r : Ref) (o : Object) (key : String) (i : Nat) (v : Value) : Prop where
  get : (s.get (.object r) key).Returns m v ((Action.track v).run m).2
  set : i < maxArrayLength → ∀ w,
    (s.set (.object r) key w).Returns m () { m with heap := m.heap.edit r (.storeItem i w) }
  delete : (s.delete (.object r) key).Returns m true { m with heap := m.heap.edit r (.clearItem i) }
  listed : key ∈ o.keys

/-- The length of an array is the number of its items and cannot be deleted. -/
structure HasLength (s : Scope) (m : Machine) (r : Ref) (n : Nat) : Prop where
  get : (s.get (.object r) "length").Returns m (.number (.ofNat n)) m
  delete : (s.delete (.object r) "length").Returns m false m

/-- What an object has under a key decides what is done there. -/
structure Heeds (s : Scope) (m : Machine) (r : Ref) (o : Object) (key : String) : Prop where
  property : ∀ p, o.properties.get? key = some p → (o.isArray && isElementKey key) = false →
    ((m.wrapper? (.object r)).bind (·.table.property? key)) = none → s.Obeys m r o key p
  exported : ∀ q, ((m.wrapper? (.object r)).bind (·.table.property? key)) = some q → s.Delegates m r key q
  /-- Also of an exported name it depends on the property whether it is listed. -/
  listed : ∀ p, o.properties.get? key = some p → (o.isArray && isElementKey key) = false →
    (∀ items, o.items? = some items → items.size ≤ 0xffffffff) → (key ∈ o.keys ↔ p.enumerable = true)
  item : ∀ items i v, o.items? = some items → arrayIndex? key = some i → items[i]? = some v →
    s.HoldsItem m r o key i v
  length : ∀ items, o.items? = some items → s.HasLength m r items.size

/-! ## Under one key -/

theorem exec_callAccessor {f : Ref} {data : FunctionData} {this : Value} {args : List Value}
    (function : m.function? (.object f) = some (f, data)) (job : Runner) :
    (s.callAccessor f this args).exec job m = (s.invoke f data this args false).exec job m := by
  unfold callAccessor
  exact exec_look (f := (·.function? (.object f))) function

section

variable (ho : m.object? r = some o) (free : (o.isArray && isElementKey key) = false)
  (unexported : ((m.wrapper? (.object r)).bind (·.table.property? key)) = none)

include ho free unexported

theorem exec_get_accessor {getter setter : Option Ref} (found : o.properties.get? key = some p)
    (slot : p.slot = .accessor getter setter) (job : Runner) : (s.get (.object r) key).exec job m =
      (match getter with
        | some f => s.callAccessor f (.object r) []
        | none => pure .undefined : Routine Thrown Value).exec job m := by
  have own : o.own? key = some (.accessor getter setter) := by
    rw [Object.own?_of_free free, found, Option.map_some, slot]
  have meets : m.heap.lookup r key = .getter getter := Heap.lookup_of_accessor ho own
  rw [exec_get unexported]
  unfold getOrdinary
  rw [exec_look meets]
  cases getter <;> rfl

theorem exec_set_accessor {getter setter : Option Ref} (found : o.properties.get? key = some p)
    (slot : p.slot = .accessor getter setter) (job : Runner) : (s.set (.object r) key v).exec job m =
      (match setter with
        | some f => s.callAccessor f (.object r) [v] >>= fun _ => pure ()
        | none => pure () : Routine Thrown Unit).exec job m := by
  have target : m.heap.writeTarget r key = .setter setter := by
    rw [Heap.writeTarget_of_free ho free, found, Option.map_some, slot]
    rfl
  rw [exec_set unexported]
  unfold setOrdinary
  rw [exec_look target]
  cases setter <;> rfl

theorem obeys (nodup : (o.properties.map (·.1)).Nodup) (found : o.properties.get? key = some p)
    (accesses : m.Accesses p) : s.Obeys m r o key p where
  reads v writable slot := by
    have own : o.own? key = some (.data v writable) := by
      rw [Object.own?_of_free free, found, Option.map_some, slot]
    exact get_returns ho unexported own
  writes v w slot := by
    have target : m.heap.writeTarget r key = .own := by
      rw [Heap.writeTarget_of_free ho free, found, Option.map_some, slot]
      rfl
    obtain ⟨m', ps, sets, rewrites, stores, -⟩ := set_stored (s := s) ho free unexported target w
    rw [found] at stores
    exact ⟨m', ps, sets, rewrites, stores⟩
  readonly v w slot := by
    refine set_of_setOrdinary unexported (setOrdinary_ignored (.inl ?_))
    rw [Heap.writeTarget_of_free ho free, found, Option.map_some, slot]
    rfl
  getter f setter slot := by
    obtain ⟨data, function⟩ := Machine.isFunction_object.1
      (accesses (by rw [Property.isAccessor, slot]) f (PropertySlot.mem_references.2 (.inr (.inl ⟨setter, slot⟩))))
    refine ⟨data, function, fun job => ?_⟩
    rw [exec_get_accessor ho free unexported found slot, exec_callAccessor function]
  setter getter f w slot := by
    obtain ⟨data, function⟩ := Machine.isFunction_object.1
      (accesses (by rw [Property.isAccessor, slot]) f (PropertySlot.mem_references.2 (.inr (.inr ⟨getter, slot⟩))))
    refine ⟨data, function, fun job => ?_⟩
    rw [exec_set_accessor ho free unexported found slot, exec_bind, exec_callAccessor function]
    rfl
  noGetter setter slot job := exec_get_accessor ho free unexported found slot job
  noSetter getter w slot job := exec_set_accessor ho free unexported found slot job
  stays fixed := delete_refuses ho free unexported found fixed
  goes loose := delete_removes ho free unexported nodup fun q there => Option.some.inj (found.symm.trans there) ▸ loose

end

theorem delegates {q : PropertyDeclaration}
    (exported : ((m.wrapper? (.object r)).bind (·.table.property? key)) = some q) : s.Delegates m r key q := by
  have listed : ((m.wrapper? (.object r)).any fun w => (w.table.property? key).isSome) = true := by
    obtain ⟨w, wrapper, there⟩ := Option.bind_eq_some_iff.1 exported
    rw [wrapper, Option.any_some, there]
    rfl
  refine ⟨fun job => ?_, fun readonly w => ?_, fun setter w writable job => ?_, .look ?_, .look ?_⟩
  · unfold get
    rw [exec_look rfl, exported]
  · unfold set
    refine .look ?_
    rw [exported]
    dsimp only
    rw [readonly]
    exact .pure
  · unfold set
    rw [exec_look rfl, exported]
    dsimp only
    rw [writable]
  · rw [listed]
    exact .pure
  · rw [listed]
    exact .pure

/-! ### Elements -/

section

variable (ho : m.object? r = some o) (is : o.items? = some items)

include ho is

theorem not_exported (key : String) : ((m.wrapper? (.object r)).bind (·.table.property? key)) = none :=
  unexported_of_bare ho (Object.wrapper?_of_items? is) key

/-- An element of an array is assigned by writing it. -/
theorem exec_set_element (element : isElementKey key = true) (job : Runner) :
    (s.set (.object r) key v).exec job m = (s.writeOwn r key v).exec job m := by
  have target : m.heap.writeTarget r key = .own := by
    have there : m.heap.get? r = some o := ho
    unfold Heap.writeTarget
    simp only [there, Object.isArray_of_items? is, element, Bool.and_self, if_true]
  rw [exec_set (not_exported ho is key)]
  unfold setOrdinary
  rw [exec_look target]

/-- Data for an element is assigned as well. -/
theorem exec_define_element (element : isElementKey key = true) (job : Runner) :
    (s.define (.object r) key (.data v writable) enumerable configurable).exec job m =
      (s.writeOwn r key v).exec job m := by
  have array : m.isArray (.object r) = true :=
    (congrArg (Option.any Object.isArray) ho).trans (Object.isArray_of_items? is)
  unfold define
  rw [exec_look array, element, Bool.and_self, if_pos rfl]

theorem exec_writeOwn_item (index : arrayIndex? key = some i) (job : Runner) : (s.writeOwn r key v).exec job m =
    (if maxArrayLength ≤ i then s.throwRange "Invalid array length" else edit r (.storeItem i v)).exec job m := by
  have array : m.isArray (.object r) = true :=
    (congrArg (Option.any Object.isArray) ho).trans (Object.isArray_of_items? is)
  unfold writeOwn
  rw [exec_look array, if_pos rfl, if_neg (ne_length_of_index index), index]

theorem exec_writeOwn_length (job : Runner) : (s.writeOwn r "length" v).exec job m =
    Outcome.andThen ((s.numberOf v).exec job m) fun x m' =>
      (match arrayLength? x with
        | some length => edit r (.resize length)
        | none => s.throwRange "Invalid array length" : Routine Thrown Unit).exec job m' := by
  have array : m.isArray (.object r) = true :=
    (congrArg (Option.any Object.isArray) ho).trans (Object.isArray_of_items? is)
  unfold writeOwn
  rw [exec_look array, if_pos rfl, if_pos rfl]
  exact exec_bind job (s.numberOf v) _ m

omit ho in
/-- Deleting an element empties it. -/
theorem deletion_of_index (index : arrayIndex? key = some i) : deletion o key = (some (.clearItem i), true) := by
  unfold deletion
  rw [Object.isArray_of_items? is, beq_false_of_ne (ne_length_of_index index), Bool.and_false, if_neg Bool.false_ne_true,
    if_pos rfl, index]

theorem holdsItem (index : arrayIndex? key = some i) (there : items[i]? = some v) : s.HoldsItem m r o key i v where
  get := get_returns ho (not_exported ho is key) (Object.own?_of_item is index there)
  set small w job := by
    rw [exec_set_element ho is (isElementKey_of_index index), exec_writeOwn_item ho is index,
      if_neg (Nat.not_le_of_lt small)]
    rfl
  delete := delete_deletion ho (not_exported ho is key) (deletion_of_index is index)
  listed := by
    obtain ⟨below, -⟩ := Array.getElem?_eq_some_iff.1 there
    rw [Object.keys_eq, List.mem_append]
    exact .inl (Object.mem_indices.2 ⟨items, i, is, below, toString_of_arrayIndex? index⟩)

theorem hasLength : s.HasLength m r items.size where
  get := length_returns ((congrArg (Option.map Object.payload) ho).trans (congrArg some (Object.payload_of_items? is)))
  delete := by
    have does : deletion o "length" = (none, false) := by
      unfold deletion
      rw [Object.isArray_of_items? is, beq_self_eq_true, Bool.and_self, if_pos rfl]
    exact delete_deletion ho (not_exported ho is "length") does

end

theorem heeds (ho : m.object? r = some o) (nodup : (o.properties.map (·.1)).Nodup)
    (accesses : ∀ p, o.properties.get? key = some p → m.Accesses p) : s.Heeds m r o key where
  property p found free unexported := obeys ho free unexported nodup found (accesses p found)
  exported _ exported := delegates exported
  listed _ found free short := Object.mem_keys_of_free nodup free short found
  item _ _ _ is index there := holdsItem ho is index there
  length _ is := hasLength ho is

/-! ## Definitions -/

/-- A routine throws a new `RangeError` about the length of an array, and whatever was there is as it was. -/
structure Exceeds (s : Scope) (x : Routine Thrown α) (m : Machine) : Prop where
  throws : x.Throws m ⟨.object (m.allocate (m.errorObject s .rangeError "Invalid array length")).1⟩
    (m.allocate (m.errorObject s .rangeError "Invalid array length")).2
  keeps : ∀ q p, m.object? q = some p →
    (m.allocate (m.errorObject s .rangeError "Invalid array length")).2.object? q = some p

/-- A definition takes effect or throws. -/
structure Defines (s : Scope) (m : Machine) (r : Ref) (o : Object) (key : String) : Prop where
  /-- Under a key that names no element a property is put in place, and heeded from then on, -/
  property : ∀ d enumerable configurable, (o.isArray && isElementKey key) = false → m.uncallable? d = none →
    (∀ p, o.properties.get? key = some p → p.configurable = true) →
    ∃ m' ps, (s.define (.object r) key d enumerable configurable).Returns m () m' ∧ m.Rewrites m' r ps ∧
      o.properties.Stores ps key ⟨d.slot, enumerable, configurable⟩ ∧
      ∀ s' : Scope, s'.Heeds m' r { o with properties := ps } key
  /-- unless there is one that is not configurable. -/
  fixed : ∀ d enumerable configurable p, (o.isArray && isElementKey key) = false → m.uncallable? d = none →
    o.properties.get? key = some p → p.configurable = false →
    s.Refuses (s.define (.object r) key d enumerable configurable) m ("Cannot redefine property: " ++ key)
  /-- What runs for the text of a side that is no function has run when the message is thrown. -/
  uncallable : ∀ d enumerable configurable side v, m.uncallable? d = some (side, v) → ∀ job : Runner,
    (s.define (.object r) key d enumerable configurable).exec job m =
      Outcome.andThen ((s.textOf v).exec job m) fun t m => s.raised (side ++ " must be a function: " ++ t) m
  /-- Nothing runs for the text of a value that is no error and no array. -/
  quiet : ∀ d enumerable configurable side v, m.uncallable? d = some (side, v) →
    (∀ payload, m.payload? v = some payload → payload.textRuns = false) →
    ∃ t, s.Refuses (s.define (.object r) key d enumerable configurable) m (side ++ " must be a function: " ++ t)
  /-- Data under the key of an element is assigned, whatever its attributes are. -/
  assigns : ∀ v writable enumerable configurable, o.isArray = true → isElementKey key = true → ∀ job : Runner,
    (s.define (.object r) key (.data v writable) enumerable configurable).exec job m =
      (s.set (.object r) key v).exec job m
  /-- Under an index it becomes an item, -/
  item : ∀ items i v writable enumerable configurable, o.items? = some items → arrayIndex? key = some i →
    i < maxArrayLength →
    ∃ m', m' = { m with heap := m.heap.edit r (.storeItem i v) } ∧
      (s.define (.object r) key (.data v writable) enumerable configurable).Returns m () m' ∧
      ∀ s' : Scope, s'.HoldsItem m' r (o.edit (.storeItem i v)) key i v
  /-- unless the array would be too long. -/
  itemExceeds : ∀ i v writable enumerable configurable, o.isArray = true → arrayIndex? key = some i →
    maxArrayLength ≤ i → s.Exceeds (s.define (.object r) key (.data v writable) enumerable configurable) m
  /-- A number becomes the length, -/
  length : ∀ items v x n writable enumerable configurable, o.items? = some items → key = "length" →
    (s.numberOf v : Routine Thrown Double).Returns m x m → arrayLength? x = some n →
    ∃ m', m' = { m with heap := m.heap.edit r (.resize n) } ∧
      (s.define (.object r) key (.data v writable) enumerable configurable).Returns m () m' ∧
      ∀ s' : Scope, s'.HasLength m' r n
  /-- if it can be one. -/
  lengthExceeds : ∀ v x writable enumerable configurable, o.isArray = true → key = "length" →
    (s.numberOf v : Routine Thrown Double).Returns m x m → arrayLength? x = none →
    s.Exceeds (s.define (.object r) key (.data v writable) enumerable configurable) m

theorem exceeds_of_exec {x : Routine Thrown α} (heap : m.heap.Sound) (same : ∀ job : {β : Type} → Job β → Machine →
    Outcome Empty β × Machine, x.exec job m = (s.throwRange "Invalid array length" : Routine Thrown α).exec job m) :
    s.Exceeds x m where
  throws job := same job
  keeps q p hp := by
    rw [Machine.allocate_eq]
    exact Heap.get?_allocate_of_some heap.counted hp

/-- The sides of a new accessor are functions. -/
theorem accesses_slot (callable : m.uncallable? d = none) : m.Accesses ⟨d.slot, enumerable, configurable⟩ := by
  intro accessor f mem
  cases d with
  | data v writable => exact absurd accessor Bool.false_ne_true
  | accessor getter setter =>
    have isFunction (side : Option Value) (checked : m.notFunction? side = none) (is : side.bind Value.ref? = some f) :
        m.isFunction (.object f) = true := by
      obtain ⟨v, rfl, ref⟩ := Option.bind_eq_some_iff.1 is
      obtain rfl := Value.ref?_eq_some.1 ref
      by_contra other
      exact absurd ((if_neg other).symm.trans checked) nofun
    obtain ⟨first, second⟩ := Option.or_eq_none_iff.1 callable
    rcases List.mem_append.1 mem with side | side
    · exact isFunction getter (Option.map_eq_none_iff.1 first) (Option.mem_toList.1 side)
    · exact isFunction setter (Option.map_eq_none_iff.1 second) (Option.mem_toList.1 side)

theorem size_resizeItems (items : Array Value) (n : Nat) : (resizeItems items n).size = n := by
  unfold resizeItems
  split
  · rename_i short
    simpa using short
  · rw [Array.size_append, Array.size_replicate]
    omega

/-- A stored item is there, in an array that has grown if need be. -/
theorem items?_storeItem (is : o.items? = some items) (i : Nat) (v : Value) :
    ∃ items', (o.edit (.storeItem i v)).items? = some items' ∧ items'[i]? = some v := by
  refine ⟨_, Object.items?_editItems is _, Array.getElem?_setIfInBounds_self_of_lt ?_⟩
  split
  · assumption
  · rw [size_resizeItems]
    exact Nat.lt_succ_self i

theorem defines (heap : m.heap.Sound) (ho : m.object? r = some o) (nodup : (o.properties.map (·.1)).Nodup) :
    s.Defines m r o key where
  property d enumerable configurable free callable loose := by
    have stores := o.properties.stores_insert key ⟨d.slot, enumerable, configurable⟩
    have rewrites := m.rewrites_edit ho (e := .define key ⟨d.slot, enumerable, configurable⟩) rfl
    refine ⟨_, _, fun job => ?_, rewrites, stores, fun s' => ?_⟩
    · rw [exec_define ho free callable]
      exact redefine_returns ho loose _ job
    · refine heeds (rewrites.object.trans (congrArg _ ho)) (Properties.nodup_insert nodup _ _) fun p found => ?_
      obtain rfl := Option.some.inj (stores.here.symm.trans found)
      exact (accesses_slot callable).edit r _
  fixed d enumerable configurable p free callable found fixed := by
    refine refuses_of_exec heap fun job => ?_
    rw [exec_define ho free callable]
    exact (redefine_refuses ho heap found fixed _).throws job
  uncallable _ _ _ _ _ uncallable := exec_define_uncallable uncallable
  quiet d enumerable configurable side v uncallable quiet := define_quiet heap uncallable quiet
  assigns v writable enumerable configurable array element job := by
    obtain ⟨items, is⟩ := Object.exists_items array
    rw [exec_define_element ho is element, exec_set_element ho is element]
  item items i v writable enumerable configurable is index small := by
    have element := isElementKey_of_index index
    obtain ⟨items', is', there⟩ := items?_storeItem is i v
    refine ⟨_, rfl, fun job => ?_, fun s' => holdsItem ?_ is' index there⟩
    · rw [exec_define_element ho is element, exec_writeOwn_item ho is index, if_neg (Nat.not_le_of_lt small)]
      rfl
    · exact Machine.object?_edit ho _
  itemExceeds i v writable enumerable configurable array index large := by
    obtain ⟨items, is⟩ := Object.exists_items array
    have element := isElementKey_of_index index
    refine exceeds_of_exec heap fun job => ?_
    rw [exec_define_element ho is element, exec_writeOwn_item ho is index, if_pos large]
  length items v x n writable enumerable configurable is named number fits := by
    subst named
    refine ⟨_, rfl, fun job => ?_, fun s' => ?_⟩
    · rw [exec_define_element ho is rfl, exec_writeOwn_length ho is, number job]
      simp only [Outcome.andThen, fits]
      rfl
    · have sized := hasLength (s := s') (Machine.object?_edit ho (.resize n)) (Object.items?_editItems is (resizeItems · n))
      rwa [size_resizeItems] at sized
  lengthExceeds v x writable enumerable configurable array named number fits := by
    obtain ⟨items, is⟩ := Object.exists_items array
    subst named
    refine exceeds_of_exec heap fun job => ?_
    rw [exec_define_element ho is rfl, exec_writeOwn_length ho is, number job]
    simp only [Outcome.andThen, fits]

end Scope

namespace Session

open Program (Step)

variable {options : Options} {now : Int} {steps : List Step} {depth : Nat} {x : Point} {r : Ref} {o : Object}

theorem accessible_points (mem : x ∈ points options now steps depth) : x.machine.Accessible := by
  obtain ⟨before, after, split⟩ := List.append_of_mem mem
  refine points_induct (P := fun _ m => m.Accessible) ?_ (fun _ _ _ _ _ step => step.accessible) split
  intro r o there
  simp [Machine.object?, Heap.get?] at there

theorem defines_points (mem : x ∈ points options now steps depth) (ho : x.machine.object? r = some o) (s : Scope)
    (key : String) : s.Defines x.machine r o key := by
  obtain ⟨K, known⟩ := (lawful_points mem).machine
  exact Scope.defines known.heap ho (known.objects r o ho).keys

/-- At every point of a session a property that an object has is heeded, as long as it is there: reading gives its data
or calls its getter, assigning writes what may be written or calls the setter, deleting removes what is configurable, and
listing gives what is enumerable. An exported name goes to the native object instead, but for the listing. A definition
puts its property in place, or throws and changes nothing but what the text of a side runs that is no function. Data for
an element or the length of an array is assigned. -/
theorem definitions_heeded (mem : x ∈ points options now steps depth) (ho : x.machine.object? r = some o) (s : Scope)
    (key : String) : s.Heeds x.machine r o key ∧ s.Defines x.machine r o key := by
  obtain ⟨K, known⟩ := (lawful_points mem).machine
  have accesses p (found : o.properties.get? key = some p) : x.machine.Accesses p :=
    accessible_points mem r o ho (key, p) (Properties.mem_of_get? found)
  exact ⟨Scope.heeds ho (known.objects r o ho).keys accesses, defines_points mem ho s key⟩

/-- An object gets a getter that stays. -/
def guarded : List Step :=
  [.machine (.newContext "main") none,
    .execute "main" [.value (.bind (.object [])) (some "o"), .function "f" [] false (some "f"),
      .script (.define (.register "o") "k" (.accessor (some (.register "f")) none) true false) none,
      .script (.keys (.register "o")) none]]

/-- Reading calls the getter, and neither an assignment nor deleting changes anything. -/
theorem definitions_heeded_guarded : ∃ x ∈ points {} 0 guarded 3, ∃ o, x.machine.object? ⟨18, 0⟩ = some o ∧
    (∃ f d, ∀ job : Runner, (Scope.get ⟨0⟩ (.object ⟨18, 0⟩) "k").exec job x.machine =
      (Scope.invoke ⟨0⟩ f d (.object ⟨18, 0⟩) [] false).exec job x.machine) ∧
    (Scope.set ⟨0⟩ (.object ⟨18, 0⟩) "k" .null).Returns x.machine () x.machine ∧
    (Scope.delete ⟨0⟩ (.object ⟨18, 0⟩) "k").Returns x.machine false x.machine ∧
    Scope.Heeds ⟨0⟩ x.machine ⟨18, 0⟩ o "k" ∧ Scope.Defines ⟨0⟩ x.machine ⟨18, 0⟩ o "k" := by
  obtain ⟨x, mem, is⟩ : ∃ x ∈ points {} 0 guarded 3, ((x.machine.object? ⟨18, 0⟩).any fun o =>
      !o.isArray && o.wrapper?.isNone && o.properties.get? "k" == some ⟨.accessor (some ⟨19, 0⟩) none, true, false⟩) = true := by
    decide +kernel
  obtain ⟨o, ho, is⟩ := (Option.any_eq_true ..).1 is
  simp only [Bool.and_eq_true, Bool.not_eq_true', Option.isNone_iff_eq_none, beq_iff_eq] at is
  obtain ⟨⟨plain, bare⟩, found⟩ := is
  obtain ⟨heeds, defines⟩ := definitions_heeded mem ho ⟨0⟩ "k"
  have obeys := heeds.property _ found (Object.free_of_plain plain _) (Scope.unexported_of_bare ho bare _)
  obtain ⟨d, -, reads⟩ := obeys.getter _ _ rfl
  exact ⟨x, mem, o, ho, ⟨_, d, reads⟩, obeys.noSetter _ .null rfl, obeys.stays rfl, heeds, defines⟩

/-- An array is made and read. -/
def filled : List Step :=
  [.machine (.newContext "main") none,
    .execute "main" [.value (.bind (.array [.bool true])) (some "a"), .script (.keys (.register "a")) none]]

/-- An element that is defined as not writable is written. -/
theorem defined_element_writable : ∃ x ∈ points {} 0 filled 3, ∃ m₁ m₂,
    (Scope.define ⟨0⟩ (.object ⟨18, 0⟩) "0" (.data (.bool false) false) true false).Returns x.machine () m₁ ∧
      (Scope.set ⟨0⟩ (.object ⟨18, 0⟩) "0" .null).Returns m₁ () m₂ ∧
      (Scope.get ⟨0⟩ (.object ⟨18, 0⟩) "0").Returns m₂ .null m₂ := by
  obtain ⟨x, mem, is⟩ : ∃ x ∈ points {} 0 filled 3, ((x.machine.object? ⟨18, 0⟩).any Object.isArray) = true := by
    decide +kernel
  obtain ⟨o, ho, array⟩ := (Option.any_eq_true ..).1 is
  obtain ⟨items, is⟩ := Object.exists_items array
  have index : arrayIndex? "0" = some 0 := by decide
  obtain ⟨m₁, rfl, defined, holds⟩ :=
    (defines_points mem ho ⟨0⟩ "0").item items 0 (.bool false) false true false is index (by decide)
  have ho₂ := Machine.object?_edit (Machine.object?_edit ho (.storeItem 0 (.bool false))) (.storeItem 0 .null)
  obtain ⟨items₁, is₁, -⟩ := Scope.items?_storeItem is 0 (.bool false)
  obtain ⟨items₂, is₂, there⟩ := Scope.items?_storeItem is₁ 0 .null
  exact ⟨x, mem, _, _, defined, (holds ⟨0⟩).set (by decide) .null, (Scope.holdsItem ho₂ is₂ index there).get⟩

end Session

end ScriptBridge
