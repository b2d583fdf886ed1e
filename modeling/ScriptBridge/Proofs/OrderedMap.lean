import ScriptBridge.Proofs.Mirror
import ScriptBridge.Scope.Assign

/-!
# Properties are an ordered map

What the operations on properties do with an object under a key that names none of its elements and that its native
object does not export, and with an object that is neither an array nor a wrapper and whose chain is short enough to be
walked to its end.

* `Properties.Stores`, `Properties.Removes`: what an operation does to a map. `Machine.Rewrites`: the map of
  one object is all that changes.
* `Heap.chain?`: the objects along a chain. `Heap.writeTargetFrom_of_chain`: the first property that a chain
  has under a key decides what an assignment does.
* `Scope.set_stored`, `set_ignored`, `delete_refuses`, `delete_removes`, `redefine_returns`, `redefine_refuses`:
  the operations, one case at a time.
* `Scope.exec_define_uncallable`: the text of a value that is no function is part of a message, and what runs
  for it runs before anything is thrown.
* `Scope.OrderedMap`: the laws of all operations. `Scope.orderedMap`: they hold of an object with different keys.

Proof-only: not reachable from `ScriptBridge.Session.Run`.
-/

namespace ScriptBridge

open Routine

/-! ## Maps -/

namespace Properties

variable {ps ps' : Properties} {key k : String} {p : Property}

/-- A key has a property now: in its place if it had one before, at the end otherwise. The others are as they
were. -/
structure Stores (ps ps' : Properties) (key : String) (p : Property) : Prop where
  here : ps'.get? key = some p
  others : ∀ k, k ≠ key → ps'.get? k = ps.get? k
  keys : ps'.map (·.1) = if (ps.get? key).isSome then ps.map (·.1) else ps.map (·.1) ++ [key]

/-- A key has no property any more. The others are as they were, in their order. -/
structure Removes (ps ps' : Properties) (key : String) : Prop where
  gone : ps'.get? key = none
  others : ∀ k, k ≠ key → ps'.get? k = ps.get? k
  keys : ps'.map (·.1) = (ps.map (·.1)).filter (· != key)

theorem isSome_get? (ps : Properties) (k : String) : (ps.get? k).isSome = true ↔ k ∈ ps.map (·.1) := by
  induction ps with
  | nil => simp [get?]
  | cons entry rest ih =>
    obtain ⟨name, q⟩ := entry
    unfold get?
    by_cases here : name = k
    · simp [here]
    · rw [if_neg here, ih, List.map_cons, List.mem_cons, or_iff_right (Ne.symm here)]

theorem mem_of_get? (found : ps.get? k = some p) : (k, p) ∈ ps := by
  induction ps with
  | nil => nomatch found
  | cons entry rest ih =>
    obtain ⟨name, q⟩ := entry
    unfold get? at found
    split at found
    · rename_i here
      obtain rfl := Option.some.inj found
      exact here ▸ List.mem_cons_self
    · exact List.mem_cons_of_mem _ (ih found)

theorem get?_eq_none : ps.get? k = none ↔ k ∉ ps.map (·.1) := by
  rw [← isSome_get?, Bool.not_eq_true, Option.isSome_eq_false_iff, Option.isNone_iff_eq_none]

theorem stores_insert (ps : Properties) (key : String) (p : Property) : ps.Stores (ps.insert key p) key p where
  here := by rw [get?_insert, if_pos rfl]
  others k other := by rw [get?_insert, if_neg other]
  keys := by simp only [keys_insert, isSome_get?]

theorem removes_erase (nodup : (ps.map (·.1)).Nodup) (key : String) : ps.Removes (ps.erase key) key where
  gone := by
    rw [get?_eq_none, keys_erase nodup]
    exact fun mem => nomatch (List.mem_filter.1 mem).2.symm.trans (bne_self_eq_false key)
  others k other := get?_erase_of_ne ps other
  keys := keys_erase nodup key

/-- Listed are the keys of enumerable properties. -/
theorem mem_listed (nodup : (ps.map (·.1)).Nodup) : k ∈ (ps.filter (·.2.enumerable)).map (·.1) ↔
    ∃ p, ps.get? k = some p ∧ p.enumerable = true := by
  simp only [List.mem_map, List.mem_filter]
  constructor
  · rintro ⟨e, ⟨mem, listed⟩, rfl⟩
    exact ⟨e.2, get?_of_mem nodup mem, listed⟩
  · rintro ⟨p, found, listed⟩
    exact ⟨(k, p), ⟨mem_of_get? found, listed⟩, rfl⟩

/-- What is not there is gone already. -/
theorem removes_self (absent : ps.get? key = none) : ps.Removes ps key where
  gone := absent
  others _ _ := rfl
  keys := by
    refine (List.filter_eq_self.2 fun k mem => bne_iff_ne.2 fun same => ?_).symm
    exact get?_eq_none.1 absent (same ▸ mem)

end Properties

namespace Object

variable {o : Object} {k : String}

theorem keys_of_plain (plain : o.isArray = false) : o.keys = (o.properties.filter (·.2.enumerable)).map (·.1) := by
  unfold keys
  rw [items?_of_plain plain]
  rfl

/-- The keys that are listed are those of enumerable properties. -/
theorem mem_keys (plain : o.isArray = false) (nodup : (o.properties.map (·.1)).Nodup) :
    k ∈ o.keys ↔ ∃ p, o.properties.get? k = some p ∧ p.enumerable = true := by
  rw [keys_of_plain plain]
  exact Properties.mem_listed nodup

end Object

/-! ## Chains -/

/-- What an assignment makes of a writable property, or of none. -/
def Property.assigned (v : Value) : Option Property → Property
  | none => .plain v
  | some p => { p with slot := .data v true }

theorem Property.store_eq_assigned {found : Option Property} (v : Value)
    (free : ∀ p, found = some p → ∃ w, p.slot = .data w true) : store found v = .assigned v found := by
  cases found with
  | none => rfl
  | some p =>
    obtain ⟨slot, enumerable, configurable⟩ := p
    obtain ⟨w, rfl⟩ := free _ rfl
    rfl

/-- What an assignment does that meets a property first. -/
def PropertySlot.writeTarget : PropertySlot → WriteTarget
  | data _ writable => if writable then .own else .readonly
  | accessor _ setter => .setter setter

/-- The first property along a chain under a key. -/
def firstProperty? (chain : List Object) (key : String) : Option Property :=
  chain.findSome? fun o => o.properties.get? key

namespace Heap

variable {h : Heap} {r : Ref} {o : Object} {key : String} {chain : List Object}

/-- The objects along a chain, if there are at most `n`. -/
def chain? (h : Heap) : Nat → Option Ref → Option (List Object)
  | _, none => some []
  | 0, some r => if h.isLive r then none else some []
  | n + 1, some r =>
    match h.get? r with
    | none => some []
    | some o => (h.chain? n o.prototype).map (o :: ·)

theorem chain?_of_get? (ho : h.get? r = some o) (n : Nat) :
    h.chain? (n + 1) (some r) = (h.chain? n o.prototype).map (o :: ·) := by simp only [chain?, ho]

/-- A chain ends where it leads to a freed object. -/
theorem chain?_of_gone (gone : h.get? r = none) (n : Nat) : h.chain? n (some r) = some [] := by
  cases n with
  | zero => simp [chain?, isLive, gone]
  | succ n => simp [chain?, gone]

theorem chain?_zero {next : Option Ref} (walked : h.chain? 0 next = some chain) : chain = [] := by
  cases next with
  | none => exact (Option.some.inj walked).symm
  | some r =>
    unfold chain? at walked
    split at walked
    · nomatch walked
    · exact (Option.some.inj walked).symm

theorem writeTargetFrom_of_get? (ho : h.get? r = some o) (n : Nat) : h.writeTargetFrom key (n + 1) (some r) =
    ((o.properties.get? key).map (·.slot.writeTarget)).getD (h.writeTargetFrom key n o.prototype) := by
  simp only [writeTargetFrom, ho]
  cases o.properties.get? key with
  | none => rfl
  | some p =>
    obtain ⟨slot, enumerable, configurable⟩ := p
    cases slot <;> rfl

theorem writeTargetFrom_of_gone (gone : h.get? r = none) (n : Nat) : h.writeTargetFrom key n (some r) = .own := by
  cases n with
  | zero => rfl
  | succ n => simp only [writeTargetFrom, gone]

/-- An assignment does what the first property along the chain says, and stores where there is none. -/
theorem writeTargetFrom_of_chain {n : Nat} {next : Option Ref} (walked : h.chain? n next = some chain) :
    h.writeTargetFrom key n next = ((firstProperty? chain key).map (·.slot.writeTarget)).getD .own := by
  induction n generalizing next chain with
  | zero =>
    obtain rfl := chain?_zero walked
    rfl
  | succ n ih =>
    cases next with
    | none =>
      obtain rfl := Option.some.inj walked
      rfl
    | some r =>
      cases ho : h.get? r with
      | none =>
        rw [chain?_of_gone ho] at walked
        obtain rfl := Option.some.inj walked
        exact writeTargetFrom_of_gone ho (n + 1)
      | some o =>
        rw [chain?_of_get? ho] at walked
        obtain ⟨rest, further, rfl⟩ := Option.map_eq_some_iff.1 walked
        rw [writeTargetFrom_of_get? ho, ih further]
        unfold firstProperty?
        rw [List.findSome?_cons]
        cases o.properties.get? key <;> rfl

/-- Where an object has no property under a key that names none of its elements, its prototype decides. -/
theorem writeTarget_of_free (ho : h.get? r = some o) (free : (o.isArray && isElementKey key) = false) :
    h.writeTarget r key =
      ((o.properties.get? key).map (·.slot.writeTarget)).getD (h.writeTargetFrom key maxChain o.prototype) := by
  unfold writeTarget
  simp only [ho, free, Bool.false_eq_true, if_false]
  exact writeTargetFrom_of_get? ho maxChain

theorem writeTarget_of_chain (ho : h.get? r = some o) (plain : o.isArray = false)
    (walked : h.chain? (maxChain + 1) (some r) = some chain) :
    h.writeTarget r key = ((firstProperty? chain key).map (·.slot.writeTarget)).getD .own := by
  unfold writeTarget
  simp only [ho, Object.free_of_plain plain, Bool.false_eq_true, if_false]
  exact writeTargetFrom_of_chain walked

/-- Where nothing along the chain guards a key, an assignment stores into the object itself. -/
theorem writeTarget_of_unguarded (ho : h.get? r = some o) (plain : o.isArray = false)
    (walked : h.chain? (maxChain + 1) (some r) = some chain)
    (free : ∀ o' ∈ chain, ∀ p, o'.properties.get? key = some p → ∃ w, p.slot = .data w true) :
    h.writeTarget r key = .own := by
  rw [writeTarget_of_chain ho plain walked]
  cases first : firstProperty? chain key with
  | none => rfl
  | some p =>
    obtain ⟨o', mem, found⟩ := List.exists_of_findSome?_eq_some first
    obtain ⟨w, slot⟩ := free o' mem p found
    simp only [Option.map_some, slot]
    rfl

end Heap

/-! ## Machines -/

namespace Machine

variable {m m' : Machine} {s : Scope} {r : Ref} {o : Object} {ps : Properties}

/-- An object has other properties, and all else is as it was. -/
structure Rewrites (m m' : Machine) (r : Ref) (ps : Properties) : Prop where
  object : m'.object? r = (m.object? r).map fun o => { o with properties := ps }
  others : ∀ q, q ≠ r → m'.object? q = m.object? q
  rest : { m' with heap := m.heap } = m

theorem object?_edit (ho : m.object? r = some o) (e : Edit) :
    object? { m with heap := m.heap.edit r e } r = some (o.edit e) :=
  (Heap.get?_edit ..).trans ((if_pos rfl).trans (congrArg _ ho))

theorem rewrites_edit (ho : m.object? r = some o) {e : Edit} (edited : o.edit e = { o with properties := ps }) :
    m.Rewrites { m with heap := m.heap.edit r e } r ps where
  object := by
    rw [object?_edit ho, ho, edited]
    rfl
  others q other := (Heap.get?_edit ..).trans (if_neg other)
  rest := rfl

/-- The object wraps what it did. -/
theorem Rewrites.wrapper? (rewrites : m.Rewrites m' r ps) : m'.wrapper? (.object r) = m.wrapper? (.object r) := by
  change (m'.object? r).bind Object.wrapper? = (m.object? r).bind Object.wrapper?
  rw [rewrites.object, Option.bind_map]
  rfl

theorem rewrites_self (ho : m.object? r = some o) : m.Rewrites m r o.properties where
  object := by
    rw [ho]
    rfl
  others _ _ := rfl
  rest := rfl

/-- A new error, as a scope makes it. -/
def errorObject (m : Machine) (s : Scope) (kind : Program.ErrorKind) (message : String) : Object :=
  ⟨.error m.frames.items none, [("message", .hidden (.text message))],
    some ((m.scopeContext s).intrinsics.ofError kind)⟩

/-- The function that one side of an accessor has to be, and is not. -/
def notFunction? (m : Machine) : Option Value → Option Value
  | none | some .undefined => none
  | some f => if m.isFunction f then none else some f

/-- The first side of an accessor that is no function, with its name. -/
def uncallable? (m : Machine) : Descriptor → Option (String × Value)
  | .data .. => none
  | .accessor getter setter =>
    ((m.notFunction? getter).map ("Getter", ·)).or ((m.notFunction? setter).map ("Setter", ·))

end Machine

/-- The slot that a descriptor asks for. -/
def Descriptor.slot : Descriptor → PropertySlot
  | data v writable => .data v writable
  | accessor getter setter => .accessor (getter.bind Value.ref?) (setter.bind Value.ref?)

/-- Whether functions may run for the text of an object: the getters of an error, or of an error in an array. -/
def Payload.textRuns : Payload → Bool
  | .error .. | .array _ => true
  | _ => false

namespace Scope

variable {ε α : Type} {s : Scope} {m : Machine} {r : Ref} {o : Object} {key : String} {v : Value} {chain : List Object}
  {p : Property} {d : Descriptor} {enumerable configurable : Bool}

/-- A run ends with a new `TypeError`, which is all that it adds to the machine. -/
def raised (s : Scope) (message : String) (m : Machine) : Outcome Thrown α × Machine :=
  (.thrown ⟨.object (m.allocate (m.errorObject s .typeError message)).1⟩,
    (m.allocate (m.errorObject s .typeError message)).2)

theorem exec_throwType (s : Scope) (message : String) (job : Runner) (m : Machine) :
    (s.throwType message : Routine Thrown α).exec job m = s.raised message m := rfl

/-- A routine throws a new `TypeError`, and whatever was there is as it was. -/
structure Refuses (s : Scope) (x : Routine Thrown α) (m : Machine) (message : String) : Prop where
  throws : ∀ job : {β : Type} → Job β → Machine → Outcome Empty β × Machine, x.exec job m = s.raised message m
  keeps : ∀ q p, m.object? q = some p → (s.raised message m : Outcome Thrown α × Machine).2.object? q = some p

theorem refuses_of_exec {x : Routine Thrown α} {message : String} (heap : m.heap.Sound)
    (throws : ∀ job : {β : Type} → Job β → Machine → Outcome Empty β × Machine, x.exec job m = s.raised message m) :
    s.Refuses x m message where
  throws := throws
  keeps q p hp := by
    unfold raised
    rw [Machine.allocate_eq]
    exact Heap.get?_allocate_of_some heap.counted hp

/-! ## Assigning -/

section

variable (ho : m.object? r = some o) (free : (o.isArray && isElementKey key) = false)
  (unexported : ((m.wrapper? (.object r)).bind (·.table.property? key)) = none)

include unexported in
/-- Where no exported property comes first, an object is assigned to by its chain. -/
theorem exec_set (job : Runner) :
    (s.set (.object r) key v).exec job m = (s.setOrdinary r (.object r) key v).exec job m := by
  unfold set
  rw [exec_look rfl, unexported]

include unexported in
theorem set_of_setOrdinary {m' : Machine} (returns : (s.setOrdinary r (.object r) key v).Returns m () m') :
    (s.set (.object r) key v).Returns m () m' := fun job => (exec_set unexported job).trans (returns job)

include ho free unexported

/-- Where an assignment stores into the object itself, a property that it has keeps its attributes, and a new one is
plain. Reading gives the value then. -/
theorem set_stored (target : m.heap.writeTarget r key = .own) (v : Value) :
    ∃ m' ps, (s.set (.object r) key v).Returns m () m' ∧ m.Rewrites m' r ps ∧
      o.properties.Stores ps key (.assigned v (o.properties.get? key)) ∧
      ∀ s' : Scope, (s'.get (.object r) key).Returns m' v ((Action.track v).run m').2 := by
  have writable : ∀ p, o.properties.get? key = some p → ∃ u, p.slot = .data u true := by
    intro p own
    rw [Heap.writeTarget_of_free ho free, own] at target
    obtain ⟨⟨u, writable⟩ | ⟨getter, setter⟩, enumerable, configurable⟩ := p
    · cases writable with
      | true => exact ⟨u, rfl⟩
      | false => cases target
    · cases target
  have rewrites := m.rewrites_edit ho (e := .store key v) rfl
  have stores := o.properties.stores_insert key (.assigned v (o.properties.get? key))
  rw [Property.store_eq_assigned v writable] at rewrites
  refine ⟨_, _, set_of_setOrdinary unexported (setOrdinary_own ho free target), rewrites, stores, fun s' => ?_⟩
  have there := rewrites.object.trans (congrArg _ ho)
  have slot : Object.own? { o with properties := o.properties.insert key (.assigned v (o.properties.get? key)) } key =
      some (.data v true) := by
    rw [Object.own?_of_rewritten free, stores.here]
    cases o.properties.get? key <;> rfl
  exact get_returns there (by rw [rewrites.wrapper?]; exact unexported) slot

omit free in
/-- An assignment that meets a read-only property first, or an accessor without setter, changes nothing. -/
theorem set_ignored (plain : o.isArray = false) (walked : m.heap.chain? (maxChain + 1) (some r) = some chain)
    (first : firstProperty? chain key = some p)
    (guards : (∃ w, p.slot = .data w false) ∨ ∃ getter, p.slot = .accessor getter none) (v : Value) :
    (s.set (.object r) key v).Returns m () m := by
  have target : m.heap.writeTarget r key = p.slot.writeTarget := by
    rw [Heap.writeTarget_of_chain ho plain walked, first]
    rfl
  refine set_of_setOrdinary unexported (setOrdinary_ignored ?_)
  rw [target]
  rcases guards with ⟨w, slot⟩ | ⟨getter, slot⟩
  · exact .inl (by rw [slot]; rfl)
  · exact .inr (by rw [slot]; rfl)

/-! ## Deleting -/

omit free ho in
/-- What nothing exports is not listed in the table of a wrapper. -/
theorem not_listed : ((m.wrapper? (.object r)).any fun w => (w.table.property? key).isSome) = false := by
  cases wrapper : m.wrapper? (.object r) with
  | none => rfl
  | some w =>
    rw [wrapper, Option.bind_some] at unexported
    rw [Option.any_some, unexported]
    rfl

omit free in
/-- Deleting does to the object what `deletion` says. -/
theorem delete_deletion {change : Option Edit} {gone : Bool} (does : deletion o key = (change, gone)) :
    (s.delete (.object r) key).Returns m gone
      (change.elim m fun e => { m with heap := m.heap.edit r e }) := by
  have seen : (m.object? r).map (deletion · key) = some (change, gone) := by rw [ho, Option.map_some, does]
  unfold delete
  refine .look ?_
  rw [not_listed unexported]
  refine .look ?_
  rw [seen]
  cases change with
  | none => exact .pure
  | some e => exact .bind .perform .pure

omit unexported ho in
/-- A key that names no element is that of a property. -/
theorem deletion_of_free : deletion o key =
    ((o.properties.get? key).map fun p => if p.configurable then (some (.remove key), true) else (none, false)).getD
      (none, true) := by
  have noLength : (o.isArray && key == "length") = false := by
    rcases Bool.and_eq_false_iff.1 free with plain | noElement
    · rw [plain, Bool.false_and]
    · rw [beq_false_of_ne (isElementKey_eq_false.1 noElement).1, Bool.and_false]
  have noIndex : (if o.isArray then arrayIndex? key else none) = none := by
    rcases Bool.and_eq_false_iff.1 free with plain | noElement
    · rw [if_neg (by rw [plain]; exact Bool.false_ne_true)]
    · rw [(isElementKey_eq_false.1 noElement).2, ite_self]
  unfold deletion
  rw [noLength, noIndex]
  cases o.properties.get? key <;> rfl

/-- A property that is not configurable stays. -/
theorem delete_refuses (found : o.properties.get? key = some p) (fixed : p.configurable = false) :
    (s.delete (.object r) key).Returns m false m := by
  have does := deletion_of_free free
  rw [found, Option.map_some, fixed] at does
  exact delete_deletion ho unexported does

/-- Any other is gone then. -/
theorem delete_removes (nodup : (o.properties.map (·.1)).Nodup)
    (loose : ∀ p, o.properties.get? key = some p → p.configurable = true) :
    ∃ m' ps, (s.delete (.object r) key).Returns m true m' ∧ m.Rewrites m' r ps ∧ o.properties.Removes ps key := by
  have does := deletion_of_free free
  cases found : o.properties.get? key with
  | none =>
    rw [found] at does
    exact ⟨m, o.properties, delete_deletion ho unexported does, m.rewrites_self ho, Properties.removes_self found⟩
  | some p =>
    rw [found, Option.map_some, loose p found] at does
    exact ⟨_, _, delete_deletion ho unexported does, m.rewrites_edit ho rfl, Properties.removes_erase nodup key⟩

end

/-! ## Defining -/

/-- Undefined stands for no function; any other value has to be one. -/
theorem accessor_cases (s : Scope) (m : Machine) (side : String) (f : Option Value) :
    (m.notFunction? f = none ∧ (s.accessorFunction side f).Returns m (f.bind Value.ref?) m) ∨
      ∃ v, m.notFunction? f = some v ∧ ∀ job : {β : Type} → Job β → Machine → Outcome Empty β × Machine,
        (s.accessorFunction side f).exec job m =
          Outcome.andThen ((s.textOf v).exec job m) fun t m => s.raised (side ++ " must be a function: " ++ t) m := by
  unfold accessorFunction
  split
  · exact .inl ⟨rfl, .pure⟩
  · exact .inl ⟨rfl, .pure⟩
  rename_i f notUndefined
  have seen : m.notFunction? (some f) = if m.isFunction f then none else some f := by
    cases f with
    | undefined => exact absurd rfl notUndefined
    | null | bool | number | text | object => rfl
  rw [seen]
  unfold Machine.isFunction
  cases found : m.function? f with
  | none =>
    refine .inr ⟨f, rfl, fun job => (exec_look found).trans ?_⟩
    simp only [exec_bind, exec_throwType]
  | some callee =>
    obtain ⟨r, data⟩ := callee
    have ref : f.ref? = some r := Value.ref?_eq_some.2 (Machine.function?_eq_some.1 found).1
    refine .inl ⟨rfl, fun job => (exec_look found).trans ?_⟩
    rw [Option.bind_some, ref]
    rfl

section

variable (ho : m.object? r = some o)

include ho

theorem redefine_refuses (heap : m.heap.Sound) (found : o.properties.get? key = some p) (fixed : p.configurable = false)
    (q : Property) : s.Refuses (s.redefine r key q) m ("Cannot redefine property: " ++ key) := by
  refine refuses_of_exec heap fun job => ?_
  have seen : ((m.object? r).bind fun o => o.properties.get? key).any (fun p => !p.configurable) = true := by
    rw [ho, Option.bind_some, found, Option.any_some, fixed]
    rfl
  unfold redefine
  rw [exec_look seen, if_pos rfl, exec_throwType]

theorem redefine_returns (free : ∀ p, o.properties.get? key = some p → p.configurable = true) (q : Property) :
    (s.redefine r key q).Returns m () { m with heap := m.heap.edit r (.define key q) } := by
  have seen : ((m.object? r).bind fun o => o.properties.get? key).any (fun p => !p.configurable) = false := by
    rw [ho, Option.bind_some]
    cases found : o.properties.get? key with
    | none => rfl
    | some p =>
      rw [Option.any_some, free p found]
      rfl
  intro job
  unfold redefine
  rw [exec_look seen]
  rfl

/-- A descriptor with functions on both sides puts its property in place, under a key that names no element. -/
theorem exec_define (free : (o.isArray && isElementKey key) = false) (callable : m.uncallable? d = none) (job : Runner) :
    (s.define (.object r) key d enumerable configurable).exec job m =
      (s.redefine r key ⟨d.slot, enumerable, configurable⟩).exec job m := by
  unfold define
  cases d with
  | data v writable =>
    have seen : m.isArray (.object r) = o.isArray := congrArg (Option.any Object.isArray) ho
    refine (exec_look seen).trans ?_
    simp only [free, Bool.false_eq_true, if_false]
    rfl
  | accessor getter setter =>
    obtain ⟨first, second⟩ := Option.or_eq_none_iff.1 callable
    rcases accessor_cases s m "Getter" getter with ⟨-, getter⟩ | ⟨v, is, -⟩
    · rcases accessor_cases s m "Setter" setter with ⟨-, setter⟩ | ⟨v, is, -⟩
      · exact exec_bind_of_done (getter job) (exec_bind_of_done (setter job) rfl)
      · rw [is] at second
        nomatch second
    · rw [is] at first
      nomatch first

end

theorem andThen_raised {β : Type} (out : Outcome Thrown String × Machine) (text : String → String)
    (next : α → Machine → Outcome Thrown β × Machine) :
    Outcome.andThen (Outcome.andThen out fun t m => s.raised (text t) m) next =
      Outcome.andThen out fun t m => s.raised (text t) m := by
  obtain ⟨outcome, m⟩ := out
  cases outcome <;> rfl

/-- Of a value that is no function the text is made first, and then the message is thrown. -/
theorem exec_define_uncallable {side : String} (uncallable : m.uncallable? d = some (side, v)) (job : Runner) :
    (s.define (.object r) key d enumerable configurable).exec job m =
      Outcome.andThen ((s.textOf v).exec job m) fun t m => s.raised (side ++ " must be a function: " ++ t) m := by
  unfold define
  cases d with
  | data => nomatch uncallable
  | accessor getter setter =>
    change ((m.notFunction? getter).map ("Getter", ·)).or ((m.notFunction? setter).map ("Setter", ·)) = _ at uncallable
    rcases accessor_cases s m "Getter" getter with ⟨callable, returns⟩ | ⟨f, is, throws⟩
    · rw [callable, Option.map_none, Option.none_or] at uncallable
      obtain ⟨f, is, same⟩ := Option.map_eq_some_iff.1 uncallable
      cases same
      refine exec_bind_of_done (returns job) ?_
      rcases accessor_cases s m "Setter" setter with ⟨callable, -⟩ | ⟨f, is', throws⟩
      · rw [callable] at is
        nomatch is
      · obtain rfl := Option.some.inj (is'.symm.trans is)
        rw [exec_bind, throws job, andThen_raised]
    · rw [is, Option.map_some, Option.some_or] at uncallable
      cases uncallable
      rw [exec_bind, throws job, andThen_raised]

/-- For the text of a value that is no error and no array nothing runs. -/
theorem textOf_returns (quiet : ∀ payload, m.payload? v = some payload → payload.textRuns = false) :
    ∃ t, (s.textOf v : Routine ε String).Returns m t m := by
  unfold textOf textAt
  cases v with
  | object r =>
    cases kind : m.payload? (.object r) with
    | none => exact ⟨_, fun job => (exec_look kind).trans rfl⟩
    | some payload =>
      have runs := quiet payload kind
      cases payload with
      | error | array => nomatch runs
      | _ => exact ⟨_, fun job => (exec_look kind).trans rfl⟩
  | _ => exact ⟨_, .pure⟩

theorem define_quiet {side : String} (heap : m.heap.Sound) (uncallable : m.uncallable? d = some (side, v))
    (quiet : ∀ payload, m.payload? v = some payload → payload.textRuns = false) :
    ∃ t, s.Refuses (s.define (.object r) key d enumerable configurable) m (side ++ " must be a function: " ++ t) := by
  obtain ⟨t, text⟩ := textOf_returns (s := s) (ε := Thrown) quiet
  refine ⟨t, refuses_of_exec heap fun job => ?_⟩
  rw [exec_define_uncallable uncallable, text job]
  rfl

/-! ## The laws -/

/-- The own properties of an object are a map in insertion order with different keys, and what is done to them goes
by their attributes. The chain of the object is walked to its end. -/
structure OrderedMap (s : Scope) (m : Machine) (r : Ref) (o : Object) (chain : List Object) : Prop where
  nodup : (o.properties.map (·.1)).Nodup
  /-- Where the chain has neither an accessor nor a read-only property, the value is stored and read again. -/
  set_stores : ∀ key v, (∀ o' ∈ chain, ∀ p, o'.properties.get? key = some p → ∃ w, p.slot = .data w true) →
    ∃ m' ps, (s.set (.object r) key v).Returns m () m' ∧ m.Rewrites m' r ps ∧
      o.properties.Stores ps key (.assigned v (o.properties.get? key)) ∧
      ∀ s' : Scope, (s'.get (.object r) key).Returns m' v ((Action.track v).run m').2
  set_ignored : ∀ key v p, firstProperty? chain key = some p →
    (∃ w, p.slot = .data w false) ∨ (∃ getter, p.slot = .accessor getter none) →
    (s.set (.object r) key v).Returns m () m
  delete_refuses : ∀ key p, o.properties.get? key = some p → p.configurable = false →
    (s.delete (.object r) key).Returns m false m
  delete_removes : ∀ key, (∀ p, o.properties.get? key = some p → p.configurable = true) →
    ∃ m' ps, (s.delete (.object r) key).Returns m true m' ∧ m.Rewrites m' r ps ∧ o.properties.Removes ps key
  define_stores : ∀ key d enumerable configurable, m.uncallable? d = none →
    (∀ p, o.properties.get? key = some p → p.configurable = true) →
    ∃ m' ps, (s.define (.object r) key d enumerable configurable).Returns m () m' ∧ m.Rewrites m' r ps ∧
      o.properties.Stores ps key ⟨d.slot, enumerable, configurable⟩
  define_refuses : ∀ key d enumerable configurable p, m.uncallable? d = none → o.properties.get? key = some p →
    p.configurable = false →
    s.Refuses (s.define (.object r) key d enumerable configurable) m ("Cannot redefine property: " ++ key)
  /-- What runs for the text of a value that is no function has run when the message is thrown. -/
  define_uncallable : ∀ key d enumerable configurable side v, m.uncallable? d = some (side, v) → ∀ job : Runner,
    (s.define (.object r) key d enumerable configurable).exec job m =
      Outcome.andThen ((s.textOf v).exec job m) fun t m => s.raised (side ++ " must be a function: " ++ t) m
  /-- Nothing runs for the text of a value that is no error and no array. -/
  define_quiet : ∀ key d enumerable configurable side v, m.uncallable? d = some (side, v) →
    (∀ payload, m.payload? v = some payload → payload.textRuns = false) →
    ∃ t, s.Refuses (s.define (.object r) key d enumerable configurable) m (side ++ " must be a function: " ++ t)
  ownKeys_lists : (ownKeys (.object r) : Routine Thrown (List String)).Returns m o.keys m ∧
    o.keys.Sublist (o.properties.map (·.1)) ∧
    ∀ k, k ∈ o.keys ↔ ∃ p, o.properties.get? k = some p ∧ p.enumerable = true

theorem orderedMap (heap : m.heap.Sound) (nodup : (o.properties.map (·.1)).Nodup) (ho : m.object? r = some o)
    (plain : o.isArray = false) (bare : o.wrapper? = none)
    (walked : m.heap.chain? (maxChain + 1) (some r) = some chain) : s.OrderedMap m r o chain where
  nodup := nodup
  set_stores key v free := set_stored ho (Object.free_of_plain plain key) (unexported_of_bare ho bare key)
    (Heap.writeTarget_of_unguarded ho plain walked free) v
  set_ignored key v _ first guards := set_ignored ho (unexported_of_bare ho bare key) plain walked first guards v
  delete_refuses key _ found fixed :=
    delete_refuses ho (Object.free_of_plain plain key) (unexported_of_bare ho bare key) found fixed
  delete_removes key loose :=
    delete_removes ho (Object.free_of_plain plain key) (unexported_of_bare ho bare key) nodup loose
  define_stores key d enumerable configurable callable free := by
    have stores := o.properties.stores_insert key ⟨d.slot, enumerable, configurable⟩
    refine ⟨_, _, fun job => ?_, m.rewrites_edit ho (e := .define key ⟨d.slot, enumerable, configurable⟩) rfl, stores⟩
    rw [exec_define ho (Object.free_of_plain plain key) callable]
    exact redefine_returns ho free _ job
  define_refuses key d enumerable configurable p callable found fixed := by
    refine refuses_of_exec heap fun job => ?_
    rw [exec_define ho (Object.free_of_plain plain key) callable]
    exact (redefine_refuses ho heap found fixed _).throws job
  define_uncallable _ _ _ _ _ _ uncallable := exec_define_uncallable uncallable
  define_quiet _ _ _ _ _ _ uncallable quiet := define_quiet heap uncallable quiet
  ownKeys_lists := by
    refine ⟨fun job => ?_, ?_, fun k => Object.mem_keys plain nodup⟩
    · exact exec_look (congrArg (fun found => (found.map Object.keys).getD []) ho)
    · rw [Object.keys_of_plain plain]
      exact List.filter_sublist.map _

end Scope

end ScriptBridge
