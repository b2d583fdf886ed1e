import Mathlib.Data.Fintype.EquivFin
import ScriptBridge.Proofs.Mirror
import ScriptBridge.Proofs.Normal
import ScriptBridge.Proofs.Tidy.Session

/-!
# Shared collections

A conversion remembers the value of each collection that it has met, whatever the depth of the place. So a
collection that is met first near the top passes further down, where a conversion that remembers nothing would go
too deep.

* `Scope.toNativeTree`: the conversion that remembers nothing.
* `Machine.PlainData`: a value of arrays and ordinary objects without cycles. `Machine.PlainData.founded`: it is
  built up from its parts.
* `Machine.tree`: the native value that plain data unfolds to, with so many levels at most. `Machine.tree_room`: only
  the depth of the value matters.
* `Scope.Recalls`: how a part of a conversion compares with what the value unfolds to. `Scope.naturalAt_recalls`.
* `Machine.PlainData.conversions_compare`: both conversions fail, or both give the value, unless it is too deep; then
  only the one that remembers nothing fails. `Session.deeper_passes`: this does happen.

Proof-only: not reachable from `ScriptBridge.Session.Run`.
-/

namespace ScriptBridge

open Routine NativeValue Relation

/-! ## The conversion without a table -/

namespace Scope

/-- An ordered collection, read through `length` and indices. -/
def arrayTree (s : Scope) (item : Value → Routine Fault NativeValue) (r : Ref) : Routine Fault NativeValue := do
  let length := (← s.numberOf (← s.get (.object r) "length")).uint32.toNat
  if maxArrayLength < length then
    .throw (.conversion (.lengthExceeded length maxArrayLength))
  else
    return .array (← (List.range length).mapM fun i => do item (← s.getIndex (.object r) i))

/-- A dictionary of the listed properties. -/
def dictionaryTree (s : Scope) (item : Value → Routine Fault NativeValue) (r : Ref) : Routine Fault NativeValue := do
  let keys ← read fun m => ((m.object? r).map Object.keys).getD []
  return .dictionary (← keys.mapM fun key => do return (.text key, ← item (← s.get (.object r) key)))

/-- The natural conversion of a value with so many levels left, which converts again what it meets again. -/
def treeAt (s : Scope) : (room : Nat) → Value → Routine Fault NativeValue
  | 0, _ => do
    let limit ← read (·.options.maxConversionDepth)
    .throw (.conversion (.depthExceeded limit))
  | n + 1, v =>
    match v with
    | .undefined => return .nil
    | .null => return .null
    | .bool b => return .bool b
    | .number x => return .number x
    | .text t => return .text t
    | .object r => do
      match ← read (·.payload? v) with
      | none => return .nil
      | some (.array _) => s.arrayTree (s.treeAt n) r
      | some (.date millis nanos) => return nativeDate millis nanos
      | some (.buffer bytes) =>
        if ← read (·.options.typedArrays) then return .data bytes
        else .throw (.conversion .buffersDisabled)
      | some (.function f) =>
        match f.callable with
        | .closure c => return .closure c
        | .constructor cls _ => return .classRef cls
        | _ => s.dictionaryTree (s.treeAt n) r
      | some (.wrapper _) => unwrapped v
      | some .ordinary | some (.error ..) | some (.regexp ..) => s.dictionaryTree (s.treeAt n) r

/-- The native value that a script value naturally is, converted without a table. -/
def toNativeTree (s : Scope) (v : Value) : Routine Fault NativeValue := do
  let room ← read (·.options.maxConversionDepth)
  s.treeAt (room + 1) v

end Scope

/-! ## Plain data -/

namespace Object

/-- The listed properties that hold data, in order. -/
def listed (o : Object) : List (String × Value) :=
  o.keys.filterMap fun key =>
    match o.own? key with
    | some (.data v _) => some (key, v)
    | _ => none

/-- What a collection holds: the items of an array, or the values of listed properties. -/
def contents (o : Object) : List Value :=
  match o.items? with
  | some items => items.toList
  | none => o.listed.map (·.2)

/-- An array, or an ordinary object whose listed properties hold data. -/
inductive IsPlain (o : Object) : Prop
  | array {items : Array Value} (kind : o.payload = .array items)
  | ordinary (kind : o.payload = .ordinary) (data : ∀ key ∈ o.keys, ∃ v writable, o.own? key = some (.data v writable))

end Object

namespace Machine

/-- A collection holds a value directly. -/
def Holds (m : Machine) (v u : Value) : Prop := ∃ o, m.objectOf? v = some o ∧ u ∈ o.contents

/-- All objects in a value, at any depth, are live arrays and ordinary objects of data, and none lies in itself. -/
structure PlainData (m : Machine) (v : Value) : Prop where
  plain : ∀ r, ReflTransGen m.Holds v (.object r) → ∃ o, m.object? r = some o ∧ o.IsPlain
  acyclic : ∀ u, ReflTransGen m.Holds v u → ¬TransGen m.Holds u u

/-- Plain data that is built up from its parts. -/
inductive Founded (m : Machine) : Value → Prop
  | primitive {v : Value} (kind : v.isObject = false) : Founded m v
  | object {r : Ref} {o : Object} (found : m.object? r = some o) (plain : o.IsPlain)
      (inside : ∀ u ∈ o.contents, Founded m u) : Founded m (.object r)

variable {m : Machine} {v u : Value} {r : Ref} {o : Object}

theorem holds_of_mem (found : m.object? r = some o) (mem : u ∈ o.contents) : m.Holds (.object r) u := ⟨o, found, mem⟩

theorem not_holds_of_primitive (kind : v.isObject = false) : ¬m.Holds v u := by
  rintro ⟨o, found, -⟩
  cases v with
  | object r => nomatch kind
  | undefined | null | bool | number | text => nomatch found

theorem Founded.of_holds (founded : m.Founded v) (holds : m.Holds v u) : m.Founded u := by
  obtain ⟨o, found, mem⟩ := holds
  cases founded with
  | primitive kind => exact absurd ⟨o, found, mem⟩ (not_holds_of_primitive kind)
  | object found' _ inside =>
    obtain rfl : _ = o := Option.some.inj (found'.symm.trans found)
    exact inside u mem

theorem Founded.of_reaches (founded : m.Founded v) (reaches : ReflTransGen m.Holds v u) : m.Founded u := by
  induction reaches with
  | refl => exact founded
  | tail _ holds ih => exact ih.of_holds holds

/-- What is built up from its parts does not lie in itself. -/
theorem Founded.acyclic (founded : m.Founded v) : ¬TransGen m.Holds v v := by
  induction founded with
  | primitive kind =>
    intro cycle
    obtain ⟨u, holds, -⟩ := TransGen.head'_iff.1 cycle
    exact not_holds_of_primitive kind holds
  | object found plain inside ih =>
    intro cycle
    obtain ⟨u, holds, back⟩ := TransGen.head'_iff.1 cycle
    obtain ⟨o, found', mem⟩ := id holds
    obtain rfl : _ = o := Option.some.inj (found.symm.trans found')
    exact ih u mem (TransGen.tail' back holds)

theorem Founded.plainData (founded : m.Founded v) : m.PlainData v where
  plain r reaches := by
    cases founded.of_reaches reaches with
    | primitive kind => nomatch kind
    | object found plain _ => exact ⟨_, found, plain⟩
  acyclic u reaches := (founded.of_reaches reaches).acyclic

/-- The live objects among some are finitely many. -/
theorem finite_live (m : Machine) (among : Ref → Prop) : Finite {r : Ref // (m.object? r).isSome ∧ among r} := by
  have inside (r : Ref) (live : (m.object? r).isSome) :
      ∃ slot, m.heap.slots[r.index]? = some slot ∧ slot.generation = r.generation := by
    obtain ⟨o, found⟩ := Option.isSome_iff_exists.1 live
    obtain ⟨slot, at_r, generation, -⟩ := Heap.get?_eq_some.1 found
    exact ⟨slot, at_r, generation⟩
  have bounded (r : Ref) (live : (m.object? r).isSome) : r.index < m.heap.slots.size := by
    obtain ⟨slot, at_r, -⟩ := inside r live
    exact (Array.getElem?_eq_some_iff.1 at_r).1
  refine Finite.of_injective (β := Fin m.heap.slots.size) (fun r => ⟨r.1.index, bounded r.1 r.2.1⟩) ?_
  rintro ⟨⟨i, g⟩, live, _⟩ ⟨⟨j, k⟩, live', _⟩ same
  obtain rfl : i = j := congrArg Fin.val same
  obtain ⟨slot, at_i, generation⟩ := inside ⟨i, g⟩ live
  obtain ⟨slot', at_i', generation'⟩ := inside ⟨i, k⟩ live'
  obtain rfl : slot = slot' := Option.some.inj (at_i.symm.trans at_i')
  obtain rfl : g = k := generation.symm.trans generation'
  rfl

/-- Without cycles a walk down plain data ends, since there are finitely many objects. -/
theorem PlainData.founded (data : m.PlainData v) : m.Founded v := by
  let Part := {r : Ref // (m.object? r).isSome ∧ ReflTransGen m.Holds v (.object r)}
  let Inside (q r : Part) : Prop := TransGen m.Holds (.object r.1) (.object q.1)
  have : Finite Part := m.finite_live _
  have : IsTrans Part Inside := ⟨fun _ _ _ first second => second.trans first⟩
  have : Std.Irrefl Inside := ⟨fun r => data.acyclic _ r.2.2⟩
  have live {r : Ref} (reaches : ReflTransGen m.Holds v (.object r)) : (m.object? r).isSome := by
    obtain ⟨o, found, -⟩ := data.plain r reaches
    exact Option.isSome_iff_exists.2 ⟨o, found⟩
  have parts (r : Part) : m.Founded (.object r.1) := by
    induction r using (Finite.wellFounded_of_trans_of_irrefl Inside).induction with
    | _ r ih =>
      obtain ⟨o, found, plain⟩ := data.plain r.1 r.2.2
      refine .object found plain fun u mem => ?_
      have holds := holds_of_mem found mem
      cases u with
      | object q =>
        have reaches := r.2.2.tail holds
        exact ih ⟨q, live reaches, reaches⟩ (.single holds)
      | undefined | null | bool | number | text => exact .primitive rfl
  cases v with
  | object r => exact parts ⟨r, live .refl, .refl⟩
  | undefined | null | bool | number | text => exact .primitive rfl

end Machine

/-! ## What plain data unfolds to -/

namespace Object

theorem mem_contents_of_item {o : Object} {items : Array Value} {i : Nat} {v : Value} (kind : o.payload = .array items)
    (at_i : items[i]? = some v) : v ∈ o.contents := by
  unfold contents items?
  rw [kind]
  exact Array.mem_toList_iff.2 (Array.mem_of_getElem? at_i)

theorem mem_contents_of_listed {o : Object} {v : Value} (kind : o.payload = .ordinary)
    (mem : v ∈ o.listed.map (·.2)) : v ∈ o.contents := by
  unfold contents items?
  rw [kind]
  exact mem

/-- How many items of an array are read. -/
def readLength (items : Array Value) : Nat := (Double.ofNat items.size).uint32.toNat

/-- The items of an array that are read. -/
def readItems (items : Array Value) : List Value := items.toList.take (readLength items)

theorem readLength_le (items : Array Value) : readLength items ≤ items.size := by
  unfold readLength
  by_cases small : items.size < 2 ^ 32
  · rw [Double.uint32_ofNat small, Int.toNat_natCast]
  · unfold Double.uint32
    omega

theorem length_readItems (items : Array Value) : (readItems items).length = readLength items := by
  unfold readItems
  rw [List.length_take, Array.length_toList, Nat.min_eq_left (readLength_le items)]

theorem getElem?_of_readItems {items : Array Value} {i : Nat} {v : Value} (at_i : (readItems items)[i]? = some v) :
    items[i]? = some v := by
  unfold readItems at at_i
  rw [List.getElem?_take] at at_i
  split at at_i
  · exact Array.getElem?_toList ▸ at_i
  · nomatch at_i

theorem items_forall₂ (items : Array Value) :
    List.Forall₂ (fun i v => items[i]? = some v) (List.range (readLength items)) (readItems items) := by
  refine List.forall₂_iff_get.2 ⟨?_, fun i h h' => ?_⟩
  · rw [List.length_range, length_readItems]
  · rw [List.get_eq_getElem, List.getElem_range]
    exact getElem?_of_readItems (List.getElem?_eq_getElem h')

theorem mem_contents_of_readItems {o : Object} {items : Array Value} {v : Value} (kind : o.payload = .array items)
    (mem : v ∈ readItems items) : v ∈ o.contents := by
  obtain ⟨i, at_i⟩ := List.mem_iff_getElem?.1 mem
  exact mem_contents_of_item kind (getElem?_of_readItems at_i)

end Object

theorem depthOfEntries_zip {keys : List String} {ws : List NativeValue} (length : ws.length = keys.length) :
    depthOfEntries ((keys.map .text).zip ws) = depthOfItems ws := by
  induction ws generalizing keys with
  | nil => rw [List.zip_nil_right, depthOfEntries, depthOfItems]
  | cons w rest ih =>
    obtain ⟨key, others, rfl⟩ := List.exists_cons_of_length_eq_add_one length.symm
    rw [List.map_cons, List.zip_cons_cons, depthOfEntries, depthOfItems, ih (Nat.succ.inj length)]

namespace Machine

/-- The failure of a conversion that goes too deep. -/
def tooDeep (m : Machine) : Fault := .conversion (.depthExceeded m.options.maxConversionDepth)

/-- The native value of plain data, with so many levels left. -/
def tree (m : Machine) : (room : Nat) → Value → Except Fault NativeValue
  | 0, _ => .error m.tooDeep
  | _ + 1, .undefined => .ok .nil
  | _ + 1, .null => .ok .null
  | _ + 1, .bool b => .ok (.bool b)
  | _ + 1, .number x => .ok (.number x)
  | _ + 1, .text t => .ok (.text t)
  | n + 1, .object r =>
    match m.object? r with
    | none => .ok .nil
    | some o =>
      match o.items? with
      | some items =>
        if maxArrayLength < Object.readLength items then
          .error (.conversion (.lengthExceeded (Object.readLength items) maxArrayLength))
        else (Object.readItems items).mapM (m.tree n) >>= fun ws => .ok (.array ws)
      | none =>
        (o.listed.map (·.2)).mapM (m.tree n) >>= fun ws =>
          .ok (.dictionary ((o.listed.map fun e => .text e.1).zip ws))

/-- Plain data unfolds to a native value: it gives that, unless there are too few levels for it. -/
def Unfolds (m : Machine) (v : Value) (w : NativeValue) : Prop :=
  ∀ room, m.tree room v = if w.depth < room then .ok w else .error m.tooDeep

variable {m : Machine} {v : Value} {w : NativeValue} {vs : List Value} {ws : List NativeValue} {r : Ref} {o : Object}

theorem Unfolds.primitive (h : ∀ n, m.tree (n + 1) v = .ok w) (flat : w.depth = 0) : m.Unfolds v w := by
  intro room
  rw [flat]
  cases room with
  | zero => rfl
  | succ n => rw [h, if_pos n.succ_pos]

theorem Unfolds.tree_eq (unfolds : m.Unfolds v w) (room : Nat) :
    m.tree room v = .ok w ∨ m.tree room v = .error m.tooDeep := by
  rw [unfolds room]
  split
  · exact .inl rfl
  · exact .inr rfl

/-- The items of a collection go as deep as the deepest. -/
theorem mapM_tree (unfold : List.Forall₂ m.Unfolds vs ws) (room : Nat) :
    vs.mapM (m.tree room) = if depthOfItems ws ≤ room then .ok ws else .error m.tooDeep := by
  induction unfold with
  | nil => rw [List.mapM_nil, depthOfItems, if_pos room.zero_le]; rfl
  | @cons v w vs ws first rest ih =>
    rw [List.mapM_cons, ih, first room, depthOfItems]
    by_cases deep : w.depth < room
    · by_cases deeper : depthOfItems ws ≤ room
      · rw [if_pos deep, if_pos deeper, if_pos (by omega)]
        rfl
      · rw [if_pos deep, if_neg deeper, if_neg (by omega)]
        rfl
    · have deeper : ¬max (w.depth + 1) (depthOfItems ws) ≤ room := by omega
      rw [if_neg deep, if_neg deeper]
      rfl

/-- What a collection of some values unfolds to. -/
theorem mapM_tree_bind (unfold : List.Forall₂ m.Unfolds vs ws) (room : Nat) (w : List NativeValue → NativeValue) :
    (vs.mapM (m.tree room) >>= fun ws => .ok (w ws)) =
      if depthOfItems ws < room + 1 then .ok (w ws) else .error m.tooDeep := by
  simp only [mapM_tree unfold, Nat.lt_succ_iff]
  split <;> rfl

section

variable {items : Array Value} {n : Nat} (found : m.object? r = some o)

include found

theorem tree_array (kind : o.payload = .array items) : m.tree (n + 1) (.object r) =
    if maxArrayLength < Object.readLength items then
      .error (.conversion (.lengthExceeded (Object.readLength items) maxArrayLength))
    else (Object.readItems items).mapM (m.tree n) >>= fun ws => .ok (.array ws) := by
  have isArray : o.items? = some items := by rw [Object.items?, kind]
  unfold tree
  simp only [found, isArray]

theorem tree_ordinary (kind : o.payload = .ordinary) : m.tree (n + 1) (.object r) =
    (o.listed.map (·.2)).mapM (m.tree n) >>= fun ws =>
      .ok (.dictionary ((o.listed.map fun e => .text e.1).zip ws)) := by
  have isPlain : o.items? = none := by rw [Object.items?, kind]
  unfold tree
  simp only [found, isPlain]

theorem Unfolds.array (kind : o.payload = .array items) (short : ¬maxArrayLength < Object.readLength items)
    (inside : List.Forall₂ m.Unfolds (Object.readItems items) ws) : m.Unfolds (.object r) (.array ws) := by
  intro room
  cases room with
  | zero => rfl
  | succ n =>
    rw [tree_array found kind, if_neg short]
    exact mapM_tree_bind inside n .array

theorem Unfolds.dictionary (kind : o.payload = .ordinary) (inside : List.Forall₂ m.Unfolds (o.listed.map (·.2)) ws) :
    m.Unfolds (.object r) (.dictionary ((o.listed.map fun e => .text e.1).zip ws)) := by
  have depth : (NativeValue.dictionary ((o.listed.map fun e => .text e.1).zip ws)).depth = depthOfItems ws := by
    have entries : depthOfEntries (((o.listed.map (·.1)).map .text).zip ws) = depthOfItems ws :=
      depthOfEntries_zip (inside.length_eq.symm.trans (by simp only [List.length_map]))
    rwa [List.map_map] at entries
  intro room
  rw [depth]
  cases room with
  | zero => rfl
  | succ n =>
    rw [tree_ordinary found kind]
    exact mapM_tree_bind inside n fun ws => .dictionary ((o.listed.map fun e => .text e.1).zip ws)

end

end Machine

/-! ## Routines that compute -/

/-- The end of a run that gives a value or throws. -/
def Outcome.ofExcept {ε α : Type} : Except ε α → Outcome ε α
  | .ok a => .done a
  | .error e => .thrown e

/-- From every machine with the heap and the options of one, the routine ends so, however jobs run, and changes
neither. -/
def Routine.Computes {ε α : Type} (r : Routine ε α) (m : Machine) (out : Except ε α) : Prop :=
  ∀ (job : Runner) (n : Machine), n.heap = m.heap → n.options = m.options →
    ∃ n', r.exec job n = (.ofExcept out, n') ∧ n'.heap = m.heap ∧ n'.options = m.options

namespace Routine.Computes

variable {ε α β : Type} {m : Machine}

theorem pure {a : α} : (Pure.pure a : Routine ε α).Computes m (.ok a) := fun _ n heap options => ⟨n, rfl, heap, options⟩

theorem throw {e : ε} : (Routine.throw e : Routine ε α).Computes m (.error e) :=
  fun _ n heap options => ⟨n, rfl, heap, options⟩

theorem bind {x : Routine ε α} {f : α → Routine ε β} {out : Except ε α} {g : α → Except ε β}
    (first : x.Computes m out) (next : ∀ a, out = .ok a → (f a).Computes m (g a)) :
    (x >>= f).Computes m (out >>= g) := by
  intro job n heap options
  obtain ⟨n', run, heap', options'⟩ := first job n heap options
  rw [exec_bind, run]
  cases out with
  | ok a => exact next a rfl job n' heap' options'
  | error e => exact ⟨n', rfl, heap', options'⟩

/-- What comes first gives a value. -/
theorem after {x : Routine ε α} {f : α → Routine ε β} {a : α} {out : Except ε β} (first : x.Computes m (.ok a))
    (next : (f a).Computes m out) : (x >>= f).Computes m out :=
  first.bind (g := fun _ => out) fun _ same => Except.ok.inj same ▸ next

/-- What comes after something that throws is not run. -/
theorem stop {x : Routine ε α} {f : α → Routine ε β} {e : ε} (first : x.Computes m (.error e)) :
    (x >>= f).Computes m (.error e) := first.bind (g := fun _ => .error e) fun _ same => nomatch same

/-- A look at the heap and the options. -/
theorem look {f : Machine → α} {next : α → Routine ε β} {out : Except ε β} {a : α}
    (seen : ∀ n : Machine, n.heap = m.heap → n.options = m.options → f n = a) (h : (next a).Computes m out) :
    (read f >>= next).Computes m out := by
  intro job n heap options
  rw [exec_look (seen n heap options)]
  exact h job n heap options

/-- Reading what is there only hands it out. -/
theorem tracked {x : Routine Thrown Value} {v : Value}
    (h : ∀ n : Machine, n.heap = m.heap → x.Returns n v ((Action.track v).run n).2) :
    (liftM x : Routine Fault Value).Computes m (.ok v) := by
  intro job n heap options
  obtain ⟨regions, eq, -⟩ := Action.run_track n v
  have run := (h n heap).lifted job
  rw [eq] at run
  exact ⟨_, run, heap, options⟩

end Routine.Computes

namespace Scope

variable {s : Scope} {m : Machine} {r : Ref} {o : Object} {key : String} {v : Value}

theorem get_computes {writable : Bool} (found : m.object? r = some o) (plain : o.wrapper? = none)
    (own : o.own? key = some (.data v writable)) :
    (liftM (s.get (.object r) key) : Routine Fault Value).Computes m (.ok v) := by
  refine .tracked fun n heap => ?_
  have found : n.object? r = some o := by
    unfold Machine.object?
    rw [heap]
    exact found
  exact get_returns found (unexported_of_bare found plain key) own

theorem getIndex_computes {items : Array Value} {i : Nat} (found : m.object? r = some o)
    (kind : o.payload = .array items) (at_i : items[i]? = some v) :
    (liftM (s.getIndex (.object r) i) : Routine Fault Value).Computes m (.ok v) := by
  refine .tracked fun n heap => getIndex_returns ?_ at_i
  have found : n.object? r = some o := by
    unfold Machine.object?
    rw [heap]
    exact found
  rw [payload?_of_object? found, kind]

end Scope

/-! ### Pieces -/

/-- The properties that are read of an object. -/
theorem Object.listed_forall₂ {o : Object} (data : ∀ key ∈ o.keys, ∃ v writable, o.own? key = some (.data v writable)) :
    List.Forall₂ (fun key e => e.1 = key ∧ e.2 ∈ o.listed.map (·.2) ∧
      ∃ writable, o.own? key = some (.data e.2 writable)) o.keys o.listed := by
  have all (keys : List String) (among : ∀ key ∈ keys, key ∈ o.keys) :
      List.Forall₂ (fun key e => e.1 = key ∧ e.2 ∈ o.listed.map (·.2) ∧
          ∃ writable, o.own? key = some (.data e.2 writable)) keys
        (keys.filterMap fun key =>
          match o.own? key with
          | some (.data v _) => some (key, v)
          | _ => none) := by
    induction keys with
    | nil => exact .nil
    | cons key rest ih =>
      have here : key ∈ o.keys := among key List.mem_cons_self
      obtain ⟨v, writable, own⟩ := data key here
      have mem : (key, v) ∈ o.listed := List.mem_filterMap.2 ⟨key, here, by rw [own]⟩
      rw [List.filterMap_cons, own]
      have others := ih fun key mem => among key (List.mem_cons_of_mem _ mem)
      exact .cons ⟨rfl, List.mem_map_of_mem mem, writable, own⟩ others
  exact all o.keys fun _ mem => mem

/-- The entries of a dictionary are its keys with the values. -/
theorem bind_mapM_entries {ε α : Type} (f : Value → Except ε NativeValue) (es : List (String × Value))
    (g : List (NativeValue × NativeValue) → Except ε α) :
    (es.mapM fun e => f e.2 >>= fun w => .ok (NativeValue.text e.1, w)) >>= g =
      (es.map (·.2)).mapM f >>= fun ws => g ((es.map fun e => NativeValue.text e.1).zip ws) := by
  induction es generalizing g with
  | nil => rfl
  | cons e rest ih =>
    simp only [List.mapM_cons, List.map_cons, bind_assoc, pure_bind]
    cases f e.2 with
    | error e => rfl
    | ok w => exact ih fun es => g ((.text e.1, w) :: es)

/-! ## The conversion without a table computes what plain data unfolds to -/

namespace Scope

theorem mapM_computes {α β γ ε : Type} {m : Machine} {f : α → Routine ε β} {g : γ → Except ε β} {as : List α}
    {cs : List γ} (each : List.Forall₂ (fun a c => (f a).Computes m (g c)) as cs) :
    (as.mapM f).Computes m (cs.mapM g) := by
  have loop (done : List β) :
      (List.mapM.loop f as done).Computes m (cs.mapM g >>= fun bs => .ok (done.reverse ++ bs)) := by
    induction each generalizing done with
    | nil =>
      simp only [List.mapM_nil, pure_bind, List.append_nil]
      exact .pure
    | cons first _ ih =>
      simp only [List.mapM_cons, bind_assoc, pure_bind]
      refine first.bind fun b _ => ?_
      have rest := ih (b :: done)
      simp only [List.reverse_cons, List.append_assoc, List.singleton_append] at rest
      exact rest
  have whole := loop []
  simp only [List.reverse_nil, List.nil_append] at whole
  exact (bind_pure (cs.mapM g)) ▸ whole

variable {s : Scope} {m : Machine} {r : Ref} {o : Object} {v : Value}

theorem lookOptions_computes {α : Type} {next : Nat → Routine Fault α} {out : Except Fault α}
    (h : (next m.options.maxConversionDepth).Computes m out) :
    (read (·.options.maxConversionDepth) >>= next).Computes m out :=
  .look (fun _ _ options => congrArg Options.maxConversionDepth options) h

theorem tooDeep_computes {α : Type} :
    (do
      let limit ← read (·.options.maxConversionDepth)
      .throw (.conversion (.depthExceeded limit)) : Routine Fault α).Computes m (.error m.tooDeep) :=
  lookOptions_computes .throw

theorem lookPayload_computes {α : Type} {p : Payload} {next : Option Payload → Routine Fault α}
    {out : Except Fault α} (found : m.object? r = some o) (kind : o.payload = p) (h : (next (some p)).Computes m out) :
    (read (·.payload? (.object r)) >>= next).Computes m out := by
  refine .look (fun n heap _ => ?_) h
  rw [payload?_of_object? (show n.object? r = some o by unfold Machine.object?; rwa [heap]), kind]

theorem lookKeys_computes {α : Type} {next : List String → Routine Fault α} {out : Except Fault α}
    (found : m.object? r = some o) (h : (next o.keys).Computes m out) :
    (read (fun m => ((m.object? r).map Object.keys).getD []) >>= next).Computes m out := by
  refine .look (fun n heap _ => ?_) h
  rw [show n.object? r = some o by unfold Machine.object?; rwa [heap]]
  rfl

theorem lookLength_computes {α : Type} {items : Array Value} {next : Double → Routine Fault α} {out : Except Fault α}
    (found : m.object? r = some o) (kind : o.payload = .array items) (h : (next (.ofNat items.size)).Computes m out) :
    ((liftM (s.get (.object r) "length") : Routine Fault Value) >>= fun v => s.numberOf v >>= next).Computes m out := by
  have isArray : o.items? = some items := by rw [Object.items?, kind]
  have own : o.own? "length" = some (.data (.number (.ofNat items.size)) true) := by
    unfold Object.own?
    rw [isArray]
    rfl
  exact .after (get_computes found (by rw [Object.wrapper?, kind]) own) (.after .pure h)

theorem treeAt_computes (founded : m.Founded v) (room : Nat) : (s.treeAt room v).Computes m (m.tree room v) := by
  induction founded generalizing room with
  | @primitive v kind =>
    cases room with
    | zero => exact tooDeep_computes
    | succ n =>
      cases v with
      | object r => nomatch kind
      | undefined | null | bool | number | text => exact .pure
  | @object r o found plain inside ih =>
    cases room with
    | zero => exact tooDeep_computes
    | succ n =>
      unfold treeAt
      cases plain with
      | @array items kind =>
        refine lookPayload_computes found kind (lookLength_computes found kind ?_)
        rw [Machine.tree_array found kind]
        change (ite (maxArrayLength < Object.readLength items) _ _ : Routine Fault NativeValue).Computes m _
        by_cases long : maxArrayLength < Object.readLength items
        · rw [if_pos long, if_pos long]
          exact .throw
        · rw [if_neg long, if_neg long]
          refine (mapM_computes ((Object.items_forall₂ items).imp fun i u at_i => ?_)).bind fun ws _ => .pure
          exact .after (getIndex_computes found kind at_i) (ih u (Object.mem_contents_of_item kind at_i) n)
      | ordinary kind data =>
        refine lookPayload_computes found kind (lookKeys_computes found ?_)
        rw [Machine.tree_ordinary found kind]
        rw [← bind_mapM_entries (m.tree n) o.listed fun es => .ok (NativeValue.dictionary es)]
        refine (mapM_computes ((Object.listed_forall₂ data).imp fun key e is => ?_)).bind fun ws _ => .pure
        obtain ⟨rfl, mem, writable, own⟩ := is
        refine .after (get_computes found (by rw [Object.wrapper?, kind]) own) ?_
        exact (ih e.2 (Object.mem_contents_of_listed kind mem) n).bind fun w _ => .pure

end Scope

/-! ## What the table knows -/

namespace Visited

/-- What is done has been converted to what it unfolds to. -/
def Sound (seen : Visited) (m : Machine) : Prop := ∀ r w, (r, some w) ∈ seen → m.Unfolds (.object r) w

/-- No collection that is still being converted lies in a value. -/
def Clear (seen : Visited) (m : Machine) (v : Value) : Prop :=
  ∀ q, (q, none) ∈ seen → ¬ReflTransGen m.Holds v (.object q)

/-- What is still being converted was so before. -/
def Within (seen' seen : Visited) : Prop := ∀ q, (q, none) ∈ seen' → (q, none) ∈ seen

variable {seen seen' : Visited} {m : Machine} {v u : Value}

theorem Clear.of_within (clear : seen.Clear m v) (within : seen'.Within seen) : seen'.Clear m v :=
  fun q mem => clear q (within q mem)

theorem Sound.enter (sound : seen.Sound m) (r : Ref) : Sound ((r, none) :: seen) m := by
  intro q w mem
  rcases List.mem_cons.1 mem with same | mem
  · nomatch same
  · exact sound q w mem

/-- Inside a collection that was entered, neither it nor one around it lies. -/
theorem Clear.inside {r : Ref} (clear : seen.Clear m (.object r)) (founded : m.Founded (.object r))
    (holds : m.Holds (.object r) u) : Clear ((r, none) :: seen) m u := by
  intro q mem reaches
  rcases List.mem_cons.1 mem with same | mem
  · obtain rfl : q = r := congrArg Prod.fst same
    exact founded.acyclic (TransGen.head' holds reaches)
  · exact clear q mem (.head holds reaches)

end Visited

/-- Part of a conversion gives something with a property where a conversion without a table computes that or goes too
deep, or fails where that fails so or goes too deep. -/
def Routine.Recalls {α : Type} (c : Routine Fault (α × Visited)) (m : Machine) (seen : Visited) (P : α → Prop)
    (direct : Except Fault α) : Prop :=
  (∃ a seen', c.Computes m (.ok (a, seen')) ∧ P a ∧ seen'.Sound m ∧ seen'.Within seen) ∨
    ∃ e, c.Computes m (.error e) ∧ (direct = .error e ∨ direct = .error m.tooDeep)

namespace Routine.Recalls

variable {α β γ : Type} {m : Machine} {seen : Visited} {P : α → Prop} {Q : β → Prop} {direct : Except Fault α}

theorem pure {a : α} (sound : seen.Sound m) (holds : P a) :
    (Pure.pure (a, seen) : Routine Fault (α × Visited)).Recalls m seen P direct :=
  .inl ⟨a, seen, .pure, holds, sound, fun _ mem => mem⟩

theorem throw {e : Fault} : (Routine.throw e : Routine Fault (α × Visited)).Recalls m seen P (.error e) :=
  .inr ⟨e, .throw, .inl rfl⟩

/-- What comes first converts nothing. -/
theorem of_computes {c c' : Routine Fault (α × Visited)} (same : ∀ out, c.Computes m out → c'.Computes m out)
    (h : c.Recalls m seen P direct) : c'.Recalls m seen P direct := by
  rcases h with ⟨a, seen', returns, holds, rest⟩ | ⟨e, throws, fails⟩
  · exact .inl ⟨a, seen', same _ returns, holds, rest⟩
  · exact .inr ⟨e, same _ throws, fails⟩

theorem bind {c : Routine Fault (α × Visited)} {f : α × Visited → Routine Fault (β × Visited)}
    {g : α → Except Fault β} (first : c.Recalls m seen P direct)
    (deep : ∀ a, P a → direct = .ok a ∨ direct = .error m.tooDeep)
    (next : ∀ a seen', P a → seen'.Sound m → seen'.Within seen → (f (a, seen')).Recalls m seen' Q (g a)) :
    (c >>= f).Recalls m seen Q (direct >>= g) := by
  rcases first with ⟨a, seen', returns, holds, sound, within⟩ | ⟨e, throws, fails⟩
  · rcases next a seen' holds sound within with ⟨b, seen'', returns', holds', sound', within'⟩ | ⟨e, throws, fails⟩
    · exact .inl ⟨b, seen'', returns.after returns', holds', sound', fun q mem => within q (within' q mem)⟩
    · refine .inr ⟨e, returns.after throws, ?_⟩
      rcases deep a holds with same | same <;> rw [same]
      · exact fails
      · exact .inr rfl
  · refine .inr ⟨e, throws.stop, ?_⟩
    rcases fails with rfl | rfl
    · exact .inl rfl
    · exact .inr rfl

theorem imp {P' : α → Prop} {c : Routine Fault (α × Visited)} (h : c.Recalls m seen P direct)
    (weaker : ∀ a, P a → P' a) : c.Recalls m seen P' direct := by
  rcases h with ⟨a, seen', returns, holds, rest⟩ | fails
  · exact .inl ⟨a, seen', returns, weaker a holds, rest⟩
  · exact .inr fails

/-- What is made of the values of a list once they are there. -/
theorem collect {vs : List Value} {n : Nat} {c : Routine Fault (α × Visited)} {F : List NativeValue → α} {G : α → β}
    (loop : c.Recalls m seen (fun a => ∃ ws, a = F ws ∧ List.Forall₂ m.Unfolds vs ws)
      (vs.mapM (m.tree n) >>= fun ws => .ok (F ws)))
    (made : ∀ ws, List.Forall₂ m.Unfolds vs ws → Q (G (F ws))) :
    (c >>= fun p => Pure.pure (G p.1, p.2)).Recalls m seen Q (vs.mapM (m.tree n) >>= fun ws => .ok (G (F ws))) := by
  have whole := loop.bind (f := fun p => Pure.pure (G p.1, p.2)) (g := fun a => .ok (G a)) (Q := Q)
    (by
      rintro _ ⟨ws, rfl, unfold⟩
      rw [Machine.mapM_tree unfold]
      split
      · exact .inl rfl
      · exact .inr rfl)
    (by
      rintro _ seen' ⟨ws, rfl, unfold⟩ sound -
      exact .pure sound (made ws unfold))
  rw [bind_assoc] at whole
  exact whole

/-- A collection that is not known is converted, and known from then on. -/
theorem visiting {r : Ref} {convert : Visited → Conversion} {d : Except Fault NativeValue} (sound : seen.Sound m)
    (clear : (r, none) ∉ seen)
    (converts : (convert ((r, none) :: seen)).Recalls m ((r, none) :: seen) (m.Unfolds (.object r)) d) :
    (Scope.visiting r seen convert).Recalls m seen (m.Unfolds (.object r)) d := by
  unfold Scope.visiting
  cases found : seen.find? (·.1 == r) with
  | some e =>
    obtain ⟨q, state⟩ := e
    have mem := List.mem_of_find?_eq_some found
    obtain rfl : q = r := by simpa using List.find?_some found
    cases state with
    | none => exact absurd mem clear
    | some w => exact .pure sound (sound q w mem)
  | none =>
    rcases converts with ⟨w, seen', returns, unfolds, sound', within⟩ | ⟨e, throws, fails⟩
    · refine .inl ⟨w, (r, some w) :: seen'.filter (·.1 != r), returns.after .pure, unfolds, ?_, ?_⟩
      · intro q x mem
        rcases List.mem_cons.1 mem with same | mem
        · cases same
          exact unfolds
        · exact sound' q x (List.mem_filter.1 mem).1
      · intro q mem
        rcases List.mem_cons.1 mem with same | mem
        · nomatch same
        · obtain ⟨mem, other⟩ := List.mem_filter.1 mem
          rcases List.mem_cons.1 (within q mem) with same | old
          · cases same
            exact absurd rfl (bne_iff_ne.1 other)
          · exact old
    · exact .inr ⟨e, throws.stop, fails⟩

end Routine.Recalls

namespace Scope

variable {s : Scope} {m : Machine} {r : Ref} {o : Object} {v : Value} {n : Nat}

/-- The conversion of a value compares so, whatever was converted before. -/
def ConvertsAsTree (m : Machine) (s : Scope) (n : Nat) (v : Value) : Prop :=
  ∀ seen : Visited, seen.Sound m → seen.Clear m v →
    (s.naturalAt n v seen).Recalls m seen (m.Unfolds v) (m.tree n v)

/-- Items are converted in order. -/
theorem arrayItems_recalls {items : Array Value} (found : m.object? r = some o) (kind : o.payload = .array items) :
    ∀ (vs : List Value) (index : Nat) (seen : Visited) (done : List NativeValue),
      (∀ i v, vs[i]? = some v → items[index + i]? = some v) → (∀ v ∈ vs, ConvertsAsTree m s n v) → seen.Sound m →
      (∀ v ∈ vs, seen.Clear m v) →
      (s.arrayItems (s.naturalAt n) (.object r) vs.length index seen done).Recalls m seen
        (fun ws => ∃ more, ws = done.reverse ++ more ∧ List.Forall₂ m.Unfolds vs more)
        (vs.mapM (m.tree n) >>= fun ws => .ok (done.reverse ++ ws))
  | [], _, _, _, _, _, sound, _ => .pure sound ⟨[], (List.append_nil _).symm, .nil⟩
  | v :: rest, index, seen, done, items_eq, converts, sound, clear => by
    simp only [List.mapM_cons, bind_assoc, pure_bind]
    refine .of_computes (fun _ => .after (getIndex_computes found kind (items_eq 0 v rfl))) ?_
    refine .bind (converts v List.mem_cons_self seen sound (clear v List.mem_cons_self))
      (fun w unfolds => unfolds.tree_eq n) fun w seen' unfolds sound' within => ?_
    have others := arrayItems_recalls found kind rest (index + 1) seen' (w :: done)
      (fun i u at_i => by rw [Nat.add_assoc, Nat.add_comm 1]; exact items_eq (i + 1) u at_i)
      (fun u mem => converts u (List.mem_cons_of_mem _ mem)) sound'
      (fun u mem => (clear u (List.mem_cons_of_mem _ mem)).of_within within)
    simp only [List.reverse_cons, List.append_assoc, List.singleton_append] at others
    refine others.imp ?_
    rintro _ ⟨more, rfl, unfold⟩
    exact ⟨w :: more, rfl, .cons unfolds unfold⟩

/-- Entries are converted in order. -/
theorem dictionaryEntries_recalls (found : m.object? r = some o) (plain : o.wrapper? = none) :
    ∀ (keys : List String) (es : List (String × Value)) (seen : Visited) (done : List (NativeValue × NativeValue)),
      List.Forall₂ (fun key e => e.1 = key ∧ e.2 ∈ o.listed.map (·.2) ∧
        ∃ writable, o.own? key = some (.data e.2 writable)) keys es →
      (∀ e ∈ es, ConvertsAsTree m s n e.2) → seen.Sound m → (∀ e ∈ es, seen.Clear m e.2) →
      (s.dictionaryEntries (s.naturalAt n) (.object r) keys seen done).Recalls m seen
        (fun entries => ∃ ws, entries = done.reverse ++ (es.map fun e => .text e.1).zip ws ∧
          List.Forall₂ m.Unfolds (es.map (·.2)) ws)
        ((es.map (·.2)).mapM (m.tree n) >>= fun ws => .ok (done.reverse ++ (es.map fun e => .text e.1).zip ws))
  | _, _, _, _, .nil, _, sound, _ => .pure sound ⟨[], (List.append_nil _).symm, .nil⟩
  | _, _, seen, done, @List.Forall₂.cons _ _ _ key e keys es is rest, converts, sound, clear => by
    obtain ⟨rfl, -, writable, own⟩ := is
    simp only [List.map_cons, List.mapM_cons, bind_assoc, pure_bind]
    refine .of_computes (fun _ => .after (get_computes found plain own)) ?_
    refine .bind (converts e List.mem_cons_self seen sound (clear e List.mem_cons_self))
      (fun w unfolds => unfolds.tree_eq n) fun w seen' unfolds sound' within => ?_
    have others := dictionaryEntries_recalls found plain keys es seen' ((.text e.1, w) :: done) rest
      (fun u mem => converts u (List.mem_cons_of_mem _ mem)) sound'
      (fun u mem => (clear u (List.mem_cons_of_mem _ mem)).of_within within)
    simp only [List.reverse_cons, List.append_assoc, List.singleton_append] at others
    refine others.imp ?_
    rintro _ ⟨ws, rfl, unfold⟩
    exact ⟨w :: ws, rfl, .cons unfolds unfold⟩

theorem naturalAt_recalls (founded : m.Founded v) (room : Nat) : ConvertsAsTree m s room v := by
  induction founded generalizing room with
  | @primitive v kind =>
    intro seen sound _
    cases room with
    | zero => exact .inr ⟨m.tooDeep, tooDeep_computes, .inl rfl⟩
    | succ n =>
      cases v with
      | object r => nomatch kind
      | undefined | null | bool | number | text => exact .pure sound (.primitive (fun _ => rfl) rfl)
  | @object r o found plain inside ih =>
    intro seen sound clear
    have new : (r, none) ∉ seen := fun mem => clear r mem .refl
    have below (u : Value) (mem : u ∈ o.contents) : Visited.Clear ((r, none) :: seen) m u :=
      clear.inside (.object found plain inside) (Machine.holds_of_mem found mem)
    cases room with
    | zero => exact .inr ⟨m.tooDeep, tooDeep_computes, .inl rfl⟩
    | succ n =>
      unfold naturalAt
      cases plain with
      | @array items kind =>
        refine .of_computes (fun _ => lookPayload_computes found kind) (.visiting sound new ?_)
        refine .of_computes (fun _ => lookLength_computes found kind) ?_
        rw [Machine.tree_array found kind]
        change (ite (maxArrayLength < Object.readLength items) _ _ : Conversion).Recalls m _ _ _
        by_cases long : maxArrayLength < Object.readLength items
        · rw [if_pos long, if_pos long]
          exact .throw
        · rw [if_neg long, if_neg long]
          have loop := arrayItems_recalls (s := s) found kind (Object.readItems items) 0 _ []
            (fun i u at_i => by rw [Nat.zero_add]; exact Object.getElem?_of_readItems at_i)
            (fun u mem => ih u (Object.mem_contents_of_readItems kind mem) n) (sound.enter r)
            (fun u mem => below u (Object.mem_contents_of_readItems kind mem))
          rw [Object.length_readItems] at loop
          exact loop.collect fun ws unfold => .array found kind long unfold
      | ordinary kind data =>
        refine .of_computes (fun _ => lookPayload_computes found kind) (.visiting sound new ?_)
        refine .of_computes (fun _ => lookKeys_computes found) ?_
        rw [Machine.tree_ordinary found kind]
        have loop := dictionaryEntries_recalls (s := s) (n := n) found (by rw [Object.wrapper?, kind]) _ _ _ []
          (Object.listed_forall₂ data)
          (fun e mem => ih e.2 (Object.mem_contents_of_listed kind (List.mem_map_of_mem mem)) n) (sound.enter r)
          (fun e mem => below e.2 (Object.mem_contents_of_listed kind (List.mem_map_of_mem mem)))
        exact loop.collect fun ws unfold => .dictionary found kind unfold

/-- The conversion of any value starts at the top, with an empty table. -/
theorem toNative_exec (s : Scope) (v : Value) (job : Runner) (m : Machine) :
    (s.toNative v).exec job m =
      (do
        let p ← s.naturalAt (m.options.maxConversionDepth + 1) v []
        return p.1 : Routine Fault NativeValue).exec job m := by
  cases v <;> rfl

end Scope

/-! ## The comparison -/

/-- Of the conversions of plain data with and without a table both fail, or both give the same value unless it is too
deep. Then only the one without a table fails, and so it may where the other fails otherwise. -/
theorem Machine.PlainData.conversions_compare {m : Machine} {v : Value} (data : m.PlainData v) (s : Scope)
    (job : Runner) :
    (∃ w, ((s.toNative v).exec job m).1 = .done w ∧
      ((s.toNativeTree v).exec job m).1 =
        if w.depth ≤ m.options.maxConversionDepth then .done w
        else .thrown (.conversion (.depthExceeded m.options.maxConversionDepth))) ∨
    ∃ e, ((s.toNative v).exec job m).1 = .thrown e ∧
      (((s.toNativeTree v).exec job m).1 = .thrown e ∨
        ((s.toNativeTree v).exec job m).1 = .thrown (.conversion (.depthExceeded m.options.maxConversionDepth))) := by
  have direct : ((s.toNativeTree v).exec job m).1 = .ofExcept (m.tree (m.options.maxConversionDepth + 1) v) := by
    have computes : (s.toNativeTree v).Computes m _ := Scope.lookOptions_computes (Scope.treeAt_computes data.founded _)
    obtain ⟨_, run, -⟩ := computes job m rfl rfl
    rw [run]
  rw [direct, s.toNative_exec]
  rcases Scope.naturalAt_recalls (s := s) data.founded (m.options.maxConversionDepth + 1) [] nofun nofun with
    ⟨w, seen, returns, unfolds, -⟩ | ⟨e, throws, fails⟩
  · obtain ⟨_, run, -⟩ := (returns.after (f := fun p => pure p.1) .pure) job m rfl rfl
    refine .inl ⟨w, by rw [run]; rfl, ?_⟩
    simp only [unfolds _, Nat.lt_succ_iff]
    split <;> rfl
  · obtain ⟨_, run, -⟩ := (throws.stop (f := fun p => pure p.1)) job m rfl rfl
    refine .inr ⟨e, by rw [run]; rfl, ?_⟩
    exact fails.imp (fun same => by rw [same]; rfl) fun same => by rw [same]; rfl

/-! ## Checking -/

namespace Outcome

variable {α : Type} {out : Outcome Fault α} {limit : Nat}

/-- Whether a conversion went too deep. -/
def isTooDeep (limit : Nat) : Outcome Fault α → Bool
  | .thrown (.error (.conversion (.depthExceeded n))) => n == limit
  | _ => false

theorem of_isTooDeep (is : out.isTooDeep limit = true) : out = .thrown (.conversion (.depthExceeded limit)) := by
  unfold isTooDeep at is
  split at is
  · rw [beq_iff_eq.1 is]
    rfl
  · nomatch is

theorem of_given {a : α} (given : out.given? = some a) : out = .done a := by
  cases out with
  | done b => exact congrArg _ (Option.some.inj given)
  | thrown | panicked | exhausted => nomatch given

end Outcome

/-- Whether an object is an array, or an ordinary object whose listed properties hold data. -/
def Object.isPlain (o : Object) : Bool :=
  match o.payload with
  | .array _ => true
  | .ordinary => o.keys.all fun key => o.listed.any (·.1 == key)
  | _ => false

theorem Object.isPlain_of {o : Object} (is : o.isPlain = true) : o.IsPlain := by
  unfold isPlain at is
  split at is
  · rename_i items kind
    exact .array kind
  · rename_i kind
    refine .ordinary kind fun key mem => ?_
    obtain ⟨⟨_, v⟩, listed, same⟩ := List.any_eq_true.1 (List.all_eq_true.1 is key mem)
    obtain rfl := beq_iff_eq.1 same
    obtain ⟨key, _, here⟩ := List.mem_filterMap.1 listed
    split at here
    · rename_i writable own
      cases here
      exact ⟨v, writable, own⟩
    · nomatch here
  · nomatch is

namespace Machine

/-- Whether a value is plain data of so many levels at most. -/
def plainWithin (m : Machine) : (levels : Nat) → Value → Bool
  | 0, v => !v.isObject
  | n + 1, v => !v.isObject || (m.objectOf? v).any fun o => o.isPlain && o.contents.all (m.plainWithin n)

theorem founded_of_plainWithin {m : Machine} {levels : Nat} {v : Value} (is : m.plainWithin levels v = true) :
    m.Founded v := by
  induction levels generalizing v with
  | zero => exact .primitive (by simpa [plainWithin] using is)
  | succ n ih =>
    rcases Bool.or_eq_true_iff.1 is with primitive | is
    · exact .primitive (by simpa using primitive)
    · obtain ⟨o, found, is⟩ := (Option.any_eq_true ..).1 is
      obtain ⟨plain, inside⟩ := Bool.and_eq_true_iff.1 is
      cases v with
      | object r => exact .object found (Object.isPlain_of plain) fun u mem => ih (List.all_eq_true.1 inside u mem)
      | undefined | null | bool | number | text => exact .primitive rfl

end Machine

namespace Session

open Program

/-- An array is shared by an object and by an object in it: first near the top in one, first further down in another. -/
def sharing : List Step :=
  [.machine (.newContext "main") none,
    .execute "main" [.value (.bind (.array [.null])) (some "x"),
      .value (.bind (.object [("a", .register "x"), ("b", .object [("c", .register "x")])])) none,
      .value (.bind (.object [("b", .object [("c", .register "x")]), ("a", .register "x")])) none,
      .script (.keys (.register "x")) none]]

/-- The conversion of an object of the session, with a table and without. -/
def shared (m : Machine) (index : Nat) : Outcome Fault NativeValue × Machine :=
  (Scope.toNative ⟨0⟩ (.object ⟨index, 0⟩)).exec (Job.exec Job.routine 3) m

def unshared (m : Machine) (index : Nat) : Outcome Fault NativeValue × Machine :=
  (Scope.toNativeTree ⟨0⟩ (.object ⟨index, 0⟩)).exec (Job.exec Job.routine 3) m

/-- The first object is plain data, and its conversions compare. -/
theorem conversions_compare_sharing : ∃ x ∈ points { maxConversionDepth := 2 } 0 sharing 3, ∃ limit,
    limit = x.machine.options.maxConversionDepth ∧ x.machine.PlainData (.object ⟨19, 0⟩) ∧
    ((∃ w, (shared x.machine 19).1 = .done w ∧ (unshared x.machine 19).1 =
        if w.depth ≤ limit then .done w else .thrown (.conversion (.depthExceeded limit))) ∨
      ∃ e, (shared x.machine 19).1 = .thrown e ∧
        ((unshared x.machine 19).1 = .thrown e ∨
          (unshared x.machine 19).1 = .thrown (.conversion (.depthExceeded limit)))) := by
  obtain ⟨x, mem, is⟩ : ∃ x ∈ points { maxConversionDepth := 2 } 0 sharing 3,
      x.machine.plainWithin 4 (.object ⟨19, 0⟩) = true := by
    decide +kernel
  have data := (Machine.founded_of_plainWithin is).plainData
  exact ⟨x, mem, _, rfl, data, data.conversions_compare ⟨0⟩ (Job.exec Job.routine 3)⟩

/-- Where values may nest two deep, an array that was met near the top passes further down, so that a value of depth
three arises. Met in the other order it fails, and so does the conversion without a table. -/
theorem deeper_passes : ∃ x ∈ points { maxConversionDepth := 2 } 0 sharing 3,
    x.machine.options.maxConversionDepth = 2 ∧
    x.machine.PlainData (.object ⟨19, 0⟩) ∧ x.machine.PlainData (.object ⟨21, 0⟩) ∧
    (∃ w, (shared x.machine 19).1 = .done w ∧ w.depth = 3) ∧
    (unshared x.machine 19).1 = .thrown (.conversion (.depthExceeded 2)) ∧
    (shared x.machine 21).1 = .thrown (.conversion (.depthExceeded 2)) := by
  obtain ⟨x, mem, limit, first, second, passes, fails, other⟩ : ∃ x ∈ points { maxConversionDepth := 2 } 0 sharing 3,
      x.machine.options.maxConversionDepth = 2 ∧ x.machine.plainWithin 4 (.object ⟨19, 0⟩) = true ∧
      x.machine.plainWithin 4 (.object ⟨21, 0⟩) = true ∧
      (shared x.machine 19).1.given?.any (·.depth == 3) = true ∧ (unshared x.machine 19).1.isTooDeep 2 = true ∧
      (shared x.machine 21).1.isTooDeep 2 = true := by
    decide +kernel
  refine ⟨x, mem, limit, (Machine.founded_of_plainWithin first).plainData,
    (Machine.founded_of_plainWithin second).plainData, ?_, Outcome.of_isTooDeep fails, Outcome.of_isTooDeep other⟩
  obtain ⟨w, given, depth⟩ := (Option.any_eq_true ..).1 passes
  exact ⟨w, Outcome.of_given given, beq_iff_eq.1 depth⟩

end Session

end ScriptBridge
