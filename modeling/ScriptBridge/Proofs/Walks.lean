import ScriptBridge.Proofs.Definitions

/-!
# Reading, testing and assigning walk alike

Reading a key, testing for it and assigning to it each walk along the prototypes of an object. All three come to the same
objects, and stop after as many.

* `Heap.trail`: the objects that a walk comes to. `Heap.hasKeyFrom_eq`, `Heap.lookupFrom_eq`, `Heap.writeTargetFrom_eq`:
  what each walk finds is what the first of them has that has the key.
* `written`, `Machine.Refills`: an array gets an item, and all else is as it was.
* `Scope.Creates`: an assignment makes a new property or a new item, which is what it does where no object of the walk has
  the key.
* `Scope.agrees`: what is found by one is found by the others, under any key that no native object exports.
  `Scope.walks_agree`: of an object that wraps nothing, that is every key.

Proof-only: not reachable from `ScriptBridge.Session.Run`.
-/

namespace ScriptBridge

open Routine

/-! ## Objects on the way -/

/-- What reading finds in a slot. -/
def PropertySlot.found : PropertySlot → Found
  | data v _ => .value v
  | accessor getter _ => .getter getter

namespace Heap

variable {h : Heap} {r : Ref} {o : Object} {key : String}

/-- The objects that a walk of at most `n` objects comes to. It ends with the chain, and at an object that was freed. -/
def trail (h : Heap) : Nat → Option Ref → List Object
  | 0, _ => []
  | _ + 1, none => []
  | n + 1, some r =>
    match h.get? r with
    | none => []
    | some o => o :: h.trail n o.prototype

/-- What the first object of a walk has under a key that has anything there. -/
def first? (h : Heap) (r : Ref) (key : String) : Option PropertySlot :=
  (h.trail (maxChain + 1) (some r)).findSome? fun o => o.own? key

theorem trail_of_get? (ho : h.get? r = some o) (n : Nat) :
    h.trail (n + 1) (some r) = o :: h.trail n o.prototype := by simp only [trail, ho]

theorem trail_of_gone (gone : h.get? r = none) (n : Nat) : h.trail n (some r) = [] := by
  cases n with
  | zero => rfl
  | succ n => simp only [trail, gone]

/-- Membership is decided by the objects of the walk. -/
theorem hasKeyFrom_eq (h : Heap) (key : String) (n : Nat) (next : Option Ref) :
    h.hasKeyFrom key n next = ((h.trail n next).findSome? fun o => o.own? key).isSome := by
  induction n generalizing next with
  | zero => rfl
  | succ n ih =>
    cases next with
    | none => rfl
    | some r =>
      cases ho : h.get? r with
      | none => simp only [hasKeyFrom, trail, ho, List.findSome?_nil, Option.isSome_none]
      | some o =>
        rw [trail_of_get? ho, List.findSome?_cons]
        simp only [hasKeyFrom, ho, ih]
        cases o.own? key <;> rfl

/-- Reading finds what the first object of the walk has. -/
theorem lookupFrom_eq (h : Heap) (key : String) (n : Nat) (next : Option Ref) : h.lookupFrom key n next =
    (((h.trail n next).findSome? fun o => o.own? key).map PropertySlot.found).getD .nothing := by
  induction n generalizing next with
  | zero => rfl
  | succ n ih =>
    cases next with
    | none => rfl
    | some r =>
      cases ho : h.get? r with
      | none => simp only [lookupFrom, trail, ho, List.findSome?_nil, Option.map_none, Option.getD_none]
      | some o =>
        rw [trail_of_get? ho, List.findSome?_cons]
        simp only [lookupFrom, ho, ih]
        cases o.own? key with
        | none => rfl
        | some slot => cases slot <;> rfl

/-- An assignment goes by the first property on the walk. Items of arrays do not stop it. -/
theorem writeTargetFrom_eq (h : Heap) (key : String) (n : Nat) (next : Option Ref) : h.writeTargetFrom key n next =
    ((firstProperty? (h.trail n next) key).map (·.slot.writeTarget)).getD .own := by
  induction n generalizing next with
  | zero => rfl
  | succ n ih =>
    cases next with
    | none => rfl
    | some r =>
      cases ho : h.get? r with
      | none => rw [writeTargetFrom_of_gone ho, trail_of_gone ho]; rfl
      | some o =>
        rw [writeTargetFrom_of_get? ho, trail_of_get? ho, ih]
        unfold firstProperty?
        rw [List.findSome?_cons]
        cases o.properties.get? key <;> rfl

theorem hasKey_eq (h : Heap) (r : Ref) (key : String) : h.hasKey r key = (h.first? r key).isSome := hasKeyFrom_eq ..

theorem lookup_eq (h : Heap) (r : Ref) (key : String) :
    h.lookup r key = ((h.first? r key).map PropertySlot.found).getD .nothing := lookupFrom_eq ..

/-- Where no object has a key at all, none has a property under it. -/
theorem firstProperty?_of_unfound {chain : List Object} (unfound : (chain.findSome? fun o => o.own? key) = none) :
    firstProperty? chain key = none := by
  refine List.findSome?_eq_none_iff.2 fun o mem => ?_
  by_contra property
  have own := Object.isSome_own? (Option.isSome_iff_ne_none.2 property)
  rw [List.findSome?_eq_none_iff.1 unfound o mem] at own
  nomatch own

/-- Where reading finds nothing, nothing guards the key. -/
theorem writeTarget_of_unfound (unfound : h.first? r key = none) : h.writeTarget r key = .own := by
  have target : h.writeTargetFrom key (maxChain + 1) (some r) = .own := by
    rw [writeTargetFrom_eq, firstProperty?_of_unfound unfound]
    rfl
  unfold writeTarget
  split
  · split
    · rfl
    · exact target
  · rfl

/-- What is not found on the walk is not in its first object. -/
theorem own?_of_unfound (ho : h.get? r = some o) (unfound : h.first? r key = none) : o.own? key = none := by
  refine List.findSome?_eq_none_iff.1 unfound o ?_
  rw [trail_of_get? ho]
  exact List.mem_cons_self

/-- A freed object cannot be changed. -/
theorem edit_of_gone (gone : h.get? r = none) (e : Edit) : h.edit r e = h := by
  have same : (h.edit r e).slots = h.slots := by
    refine Array.ext_getElem? fun i => ?_
    rw [getElem?_edit]
    split
    · rename_i here
      subst here
      unfold get? at gone
      cases hs : h.slots[r.index]? with
      | none => rfl
      | some s =>
        obtain ⟨generation, marked, occupant⟩ := s
        simp only [hs] at gone
        rw [Option.map_some, editSlot]
        dsimp only
        split
        · rename_i current
          obtain rfl : occupant = none := (if_pos current).symm.trans gone
          rfl
        · rfl
    · rfl
  rw [edit_eq] at same ⊢
  exact congrArg (fun slots => (⟨slots, h.free, h.live⟩ : Heap)) same

end Heap

/-! ## Filling arrays -/

/-- The items of an array with a value at an index. It grows up to the index, and a gap is undefined. -/
def written (items : Array Value) (i : Nat) (v : Value) : Array Value :=
  Array.ofFn fun j : Fin (max items.size (i + 1)) => if j.val = i then v else items[j.val]?.getD .undefined

theorem getElem?_written (items : Array Value) (i : Nat) (v : Value) (j : Nat) : (written items i v)[j]? =
    if j < max items.size (i + 1) then some (if j = i then v else items[j]?.getD .undefined) else none := by
  unfold written
  rw [Array.getElem?_ofFn]
  rfl

namespace Machine

variable {m m' : Machine} {r : Ref} {o : Object} {items items' : Array Value}

/-- An array has other items, and all else is as it was. -/
structure Refills (m m' : Machine) (r : Ref) (items : Array Value) : Prop where
  object : m'.object? r = (m.object? r).map fun o => { o with payload := .array items }
  others : ∀ q, q ≠ r → m'.object? q = m.object? q
  rest : { m' with heap := m.heap } = m

theorem refills_edit (ho : m.object? r = some o) {e : Edit} (edited : o.edit e = { o with payload := .array items }) :
    m.Refills { m with heap := m.heap.edit r e } r items where
  object := by
    rw [object?_edit ho, ho, edited]
    rfl
  others q other := (Heap.get?_edit ..).trans (if_neg other)
  rest := rfl

end Machine

theorem Object.edit_items {o : Object} {items : Array Value} (is : o.items? = some items) (f : Array Value → Array Value) :
    o.editItems f = { o with payload := .array (f items) } := by
  obtain ⟨payload, properties, prototype⟩ := o
  obtain rfl : payload = .array items := Object.payload_of_items? is
  rfl

/-- Storing an item writes it. -/
theorem Object.edit_storeItem {o : Object} {items : Array Value} (is : o.items? = some items) (i : Nat) (v : Value) :
    o.edit (.storeItem i v) = { o with payload := .array (written items i v) } := by
  rw [Object.edit, Object.edit_items is]
  have same : (if i < items.size then items else resizeItems items (i + 1)).setIfInBounds i v = written items i v := by
    refine Array.ext_getElem? fun j => ?_
    rw [getElem?_written]
    unfold resizeItems
    grind
  rw [same]

/-- A property under a new key comes last. -/
theorem Properties.insert_of_absent {ps : Properties} {key : String} {p : Property} (absent : ps.get? key = none) :
    ps.insert key p = ps ++ [(key, p)] := by
  induction ps with
  | nil => rfl
  | cons entry rest ih =>
    obtain ⟨name, q⟩ := entry
    unfold get? at absent
    split at absent
    · cases absent
    · rename_i other
      rw [insert, if_neg other, ih absent]
      rfl

namespace Scope

variable {s : Scope} {m : Machine} {r : Ref} {o : Object} {key : String} {v : Value}

/-- An assignment makes what was not there: a property at the end, or an item past the end of an array. -/
structure Creates (s : Scope) (m : Machine) (r : Ref) (key : String) (v : Value) : Prop where
  /-- It stores into the object itself, whatever its chain is. -/
  own : ∀ job : Runner, (s.set (.object r) key v).exec job m = (s.writeOwn r key v).exec job m
  property : ∀ o, m.object? r = some o → (o.isArray && isElementKey key) = false →
    ∃ m', (s.set (.object r) key v).Returns m () m' ∧ m.Rewrites m' r (o.properties ++ [(key, .plain v)])
  item : ∀ o items i, m.object? r = some o → o.items? = some items → arrayIndex? key = some i → i < maxArrayLength →
    ∃ m', (s.set (.object r) key v).Returns m () m' ∧ items.size ≤ i ∧ m.Refills m' r (written items i v)
  /-- An array does not get too long, -/
  itemExceeds : ∀ o i, m.object? r = some o → o.isArray = true → arrayIndex? key = some i → maxArrayLength ≤ i →
    ∀ job : Runner, (s.set (.object r) key v).exec job m =
      (s.throwRange "Invalid array length" : Routine Thrown Unit).exec job m
  /-- and always has a length. -/
  noLength : ∀ o, m.object? r = some o → o.isArray = true → key ≠ "length"
  /-- Nothing comes of what is stored into an object that was freed. -/
  gone : m.object? r = none → (s.set (.object r) key v).Returns m () m

/-- Reading a key, testing for it and assigning to it agree. -/
structure Agrees (s : Scope) (m : Machine) (r : Ref) (key : String) : Prop where
  /-- A key is there if one of the objects on the walk has it. -/
  has : (s.has (.object r) key).Returns m (m.heap.first? r key).isSome m
  /-- A key that is not there reads as undefined, without a call, and an assignment creates it. -/
  absent : (s.has (.object r) key).Returns m false m →
    (s.get (.object r) key).Returns m .undefined m ∧ ∀ v, s.Creates m r key v
  /-- Of what is there the first is read, -/
  data : ∀ v writable, m.heap.first? r key = some (.data v writable) →
    (s.get (.object r) key).Returns m v ((Action.track v).run m).2
  /-- or its getter called on the object that is asked. -/
  getter : ∀ f setter, m.heap.first? r key = some (.accessor (some f) setter) →
    ∀ job : Runner, (s.get (.object r) key).exec job m = (s.callAccessor f (.object r) []).exec job m
  noGetter : ∀ setter, m.heap.first? r key = some (.accessor none setter) →
    (s.get (.object r) key).Returns m .undefined m
  /-- What reads as something is there. -/
  present : ∀ (job : Runner) v m', (s.get (.object r) key).exec job m = (.done v, m') → v ≠ .undefined →
    (s.has (.object r) key).Returns m true m

section

variable (unexported : ((m.wrapper? (.object r)).bind (·.table.property? key)) = none)

include unexported

/-- Reading does what the first match says. -/
theorem exec_get_first (job : Runner) : (s.get (.object r) key).exec job m =
    (match m.heap.first? r key with
      | some (.data v _) => do
        track v
        return v
      | some (.accessor (some f) _) => s.callAccessor f (.object r) []
      | some (.accessor none _) | none => return .undefined : Routine Thrown Value).exec job m := by
  have looks := m.heap.lookup_eq r key
  rw [exec_get unexported]
  unfold getOrdinary
  rw [exec_look looks]
  cases m.heap.first? r key with
  | none => rfl
  | some slot =>
    cases slot with
    | data v writable => rfl
    | accessor getter setter => cases getter <;> rfl

theorem has_returns_first : (s.has (.object r) key).Returns m (m.heap.first? r key).isSome m := by
  unfold has
  refine .look ?_
  rw [not_listed unexported]
  exact fun job => exec_look (m.heap.hasKey_eq r key)

theorem first?_of_absent (absent : (s.has (.object r) key).Returns m false m) : m.heap.first? r key = none := by
  have same :=
    (has_returns_first (s := s) unexported fun _ m => (.exhausted, m)).symm.trans (absent fun _ m => (.exhausted, m))
  exact Option.not_isSome_iff_eq_none.1 fun there => by simp [there] at same

/-- Where nothing is found, nothing stands in the way of an assignment. -/
theorem exec_set_unfound (unfound : m.heap.first? r key = none) (job : Runner) :
    (s.set (.object r) key v).exec job m = (s.writeOwn r key v).exec job m := by
  rw [exec_set unexported]
  unfold setOrdinary
  rw [exec_look (Heap.writeTarget_of_unfound unfound)]

theorem creates (unfound : m.heap.first? r key = none) (v : Value) : s.Creates m r key v where
  own := exec_set_unfound unexported unfound
  property o ho free := by
    have none : o.properties.get? key = none := Option.map_eq_none_iff.1 <|
      (Object.own?_of_free free).symm.trans (Heap.own?_of_unfound ho unfound)
    refine ⟨_, fun job => (exec_set_unfound unexported unfound job).trans (writeOwn_stores ho free job),
      m.rewrites_edit ho ?_⟩
    rw [Object.edit, none, Properties.insert_of_absent none]
    rfl
  item o items i ho is index small := by
    have past : items.size ≤ i := by
      by_contra below
      have there := Object.own?_of_item is index (Array.getElem?_eq_getElem (Nat.lt_of_not_le below))
      exact Option.some_ne_none _ (there.symm.trans (Heap.own?_of_unfound ho unfound))
    refine ⟨_, fun job => ?_, past, m.refills_edit ho (Object.edit_storeItem is i v)⟩
    rw [exec_set_unfound unexported unfound, exec_writeOwn_item ho is index, if_neg (Nat.not_le_of_lt small)]
    rfl
  itemExceeds o i ho array index large job := by
    obtain ⟨items, is⟩ := Object.exists_items array
    rw [exec_set_unfound unexported unfound, exec_writeOwn_item ho is index, if_pos large]
  noLength o ho array := by
    obtain ⟨items, is⟩ := Object.exists_items array
    rintro rfl
    exact Option.some_ne_none _ ((Object.own?_length is).symm.trans (Heap.own?_of_unfound ho unfound))
  gone gone job := by
    have plain : m.isArray (.object r) = false := congrArg (Option.any Object.isArray) gone
    rw [exec_set_unfound unexported unfound]
    unfold writeOwn
    rw [exec_look plain]
    change (Outcome.done (), { m with heap := m.heap.edit r (.store key v) }) = _
    rw [Heap.edit_of_gone gone]

theorem agrees : s.Agrees m r key where
  has := has_returns_first unexported
  absent absent := by
    have unfound := first?_of_absent unexported absent
    refine ⟨fun job => ?_, fun v => creates unexported unfound v⟩
    rw [exec_get_first unexported, unfound]
    rfl
  data v writable found job := by
    rw [exec_get_first unexported, found]
    rfl
  getter f setter found job := by rw [exec_get_first unexported, found]
  noGetter setter found job := by
    rw [exec_get_first unexported, found]
    rfl
  present job v m' gives some := by
    have has := has_returns_first (s := s) unexported
    cases found : m.heap.first? r key with
    | some slot => rwa [found] at has
    | none =>
      rw [exec_get_first unexported, found] at gives
      cases gives
      exact absurd rfl some

end

/-- The walks of reading, testing and assigning agree on every object that wraps nothing, wherever its chain leads, and
however long it is. -/
theorem walks_agree (s : Scope) (m : Machine) (r : Ref) (key : String) (bare : m.wrapper? (.object r) = none) :
    s.Agrees m r key := by
  refine agrees ?_
  rw [bare]
  rfl

end Scope

namespace Session

open Program (Step)

/-- An array is the prototype of an object. -/
def derived : List Step :=
  [.machine (.newContext "main") none,
    .execute "main" [.value (.bind (.object [])) (some "o"), .value (.bind (.array [.bool true])) (some "a"),
      .script (.setPrototype (.register "o") (.register "a")) none, .script (.keys (.register "o")) none]]

/-- The item of the array is read through the object. A key past it is not there, and becomes a property of the object. -/
theorem walks_agree_derived : ∃ x ∈ points {} 0 derived 3, ∃ o, x.machine.object? ⟨18, 0⟩ = some o ∧
    x.machine.wrapper? (.object ⟨18, 0⟩) = none ∧
    (Scope.get ⟨0⟩ (.object ⟨18, 0⟩) "0").Returns x.machine (.bool true) x.machine ∧
    (Scope.get ⟨0⟩ (.object ⟨18, 0⟩) "1").Returns x.machine .undefined x.machine ∧
    ∃ m', (Scope.set ⟨0⟩ (.object ⟨18, 0⟩) "1" .null).Returns x.machine () m' ∧
      x.machine.Rewrites m' ⟨18, 0⟩ (o.properties ++ [("1", .plain .null)]) := by
  obtain ⟨x, mem, is⟩ : ∃ x ∈ points {} 0 derived 3, ((x.machine.object? ⟨18, 0⟩).any fun o =>
      !o.isArray && o.wrapper?.isNone && x.machine.heap.first? ⟨18, 0⟩ "0" == some (.data (.bool true) true) &&
        (x.machine.heap.first? ⟨18, 0⟩ "1").isNone) = true := by
    decide +kernel
  obtain ⟨o, ho, is⟩ := (Option.any_eq_true ..).1 is
  simp only [Bool.and_eq_true, Bool.not_eq_true', Option.isNone_iff_eq_none, beq_iff_eq] at is
  obtain ⟨⟨⟨plain, bare⟩, first⟩, unfound⟩ := is
  have bare := Scope.not_wrapped ho bare
  have item := Scope.walks_agree ⟨0⟩ x.machine ⟨18, 0⟩ "0" bare
  have past := Scope.walks_agree ⟨0⟩ x.machine ⟨18, 0⟩ "1" bare
  have absent : (Scope.has ⟨0⟩ (.object ⟨18, 0⟩) "1").Returns x.machine false x.machine := by
    have has := past.has
    rwa [unfound] at has
  obtain ⟨reads, creates⟩ := past.absent absent
  exact ⟨x, mem, o, ho, bare, item.data _ _ first, reads, (creates .null).property o ho (Object.free_of_plain plain _)⟩

end Session

end ScriptBridge
