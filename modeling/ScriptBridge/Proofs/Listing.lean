import Mathlib.Data.List.Nodup
import ScriptBridge.Proofs.OrderedMap
import ScriptBridge.Proofs.Steps

/-!
# The listed keys of an object

The listed keys of an array are the indices of its items and the keys of its enumerable properties. What assigns to an
element or defines data there changes the items, so that a key is in one place. An accessor is defined among the
properties whatever its key is, and is listed beside the item of its index.

* `arrayIndex?_toString`, `toString_of_arrayIndex?`: the key of an index is its decimal text.
* `Object.Doubles`, `Object.nodup_keys_iff`: what is listed twice.
* `Point.Step.apart`, `Session.apart_points`: the properties of an array under the keys of its elements are accessors, or
  they are not listed.
* `Scope.Lists`, `Session.keys_listed`: at every point of a session the listed keys are different, unless an accessor is
  among them as well as the item of its index; all of them are there; and they are the keys of a dictionary that the
  object is converted to.

Proof-only: not reachable from `ScriptBridge.Session.Run`.
-/

namespace ScriptBridge

open Routine

/-! ## Indices as keys -/

/-- The digits of a number begin with a zero only if it is zero. -/
theorem exists_toDigits {n : Nat} (positive : 0 < n) : ∃ c rest, Nat.toDigits 10 n = c :: rest ∧ c ≠ '0' := by
  induction n using Nat.strongRecOn with
  | ind n ih =>
    rw [Nat.toDigits_eq_if (by decide)]
    by_cases small : n < 10
    · rw [if_pos small]
      have digit : ∀ n < 10, 0 < n → n.digitChar ≠ '0' := by decide
      exact ⟨_, _, rfl, digit n small positive⟩
    · rw [if_neg small]
      obtain ⟨c, rest, digits, other⟩ := ih (n / 10) (by omega) (by omega)
      exact ⟨c, rest ++ [(n % 10).digitChar], by rw [digits]; rfl, other⟩

theorem toList_toString (i : Nat) : (toString i).toList = Nat.toDigits 10 i := by
  rw [Nat.toString_eq_ofList_toDigits, String.toList_ofList]

theorem natOfDigits_toString (i : Nat) : natOfDigits (toString i).toList = i := by
  rw [toList_toString]
  exact Nat.ofDigitChars_ten_toDigits

theorem toString_injective {i j : Nat} (same : toString i = toString j) : i = j := by
  rw [← natOfDigits_toString i, same, natOfDigits_toString]

/-- The decimal digits of an index spell it. -/
theorem arrayIndex?_toString {i : Nat} (small : i < 0xffffffff) : arrayIndex? (toString i) = some i := by
  rcases Nat.eq_zero_or_pos i with rfl | positive
  · decide
  · have value := natOfDigits_toString i
    have all : (toString i).toList.all isDigit = true := by
      rw [toList_toString]
      exact List.all_eq_true.2 fun c mem => Nat.isDigit_of_mem_toDigits (by decide) (by decide) mem
    obtain ⟨c, rest, spelled, other⟩ := exists_toDigits positive
    rw [← toList_toString] at spelled
    unfold arrayIndex?
    rw [spelled] at value all ⊢
    simp [other, all, value, small]

theorem exists_digitChar {c : Char} (digit : isDigit c = true) : ∃ d < 10, c = d.digitChar ∧ c.val.toNat - 48 = d := by
  have bounds : 48 ≤ c.toNat ∧ c.toNat ≤ 57 := by
    simpa [isDigit, Char.le_def, UInt32.le_iff_toNat_le] using digit
  have is : c.toNat = (c.toNat - 48).digitChar.toNat := by rw [Nat.toNat_digitChar_of_lt_ten (by omega)]; omega
  exact ⟨c.toNat - 48, by omega, Char.toNat_inj.1 is, rfl⟩

/-- Digits without a leading zero are those of the number that they spell. -/
theorem toDigits_natOfDigits {c : Char} {rest : List Char} (digits : (c :: rest).all isDigit = true) (leads : c ≠ '0') :
    0 < natOfDigits (c :: rest) ∧ Nat.toDigits 10 (natOfDigits (c :: rest)) = c :: rest := by
  induction rest using List.reverseRecOn with
  | nil =>
    obtain ⟨d, small, rfl, value⟩ := exists_digitChar (List.all_eq_true.1 digits c List.mem_cons_self)
    have is : natOfDigits [d.digitChar] = d := (Nat.zero_add _).trans value
    rw [is, Nat.toDigits_of_lt_base small]
    exact ⟨Nat.pos_of_ne_zero fun zero => leads (Nat.digitChar_eq_zero.2 zero), rfl⟩
  | append_singleton rest last ih =>
    rw [← List.cons_append, List.all_append, Bool.and_eq_true] at digits
    obtain ⟨positive, spelled⟩ := ih digits.1
    obtain ⟨d, small, rfl, value⟩ := exists_digitChar (List.all_eq_true.1 digits.2 last List.mem_cons_self)
    have is : natOfDigits (c :: (rest ++ [d.digitChar])) = 10 * natOfDigits (c :: rest) + d := by
      rw [natOfDigits, ← List.cons_append, List.foldl_append, List.foldl_cons, List.foldl_nil, value]
      rfl
    rw [is, ← Nat.toDigits_append_toDigits (by decide) positive small, spelled, Nat.toDigits_of_lt_base small]
    exact ⟨by omega, rfl⟩

/-- A key that spells an index is its decimal text. -/
theorem toString_of_arrayIndex? {key : String} {i : Nat} (index : arrayIndex? key = some i) : toString i = key := by
  refine String.toList_inj.1 ?_
  rw [toList_toString]
  unfold arrayIndex? at index
  split at index
  · nomatch index
  · rename_i c rest spelled
    rw [spelled]
    split at index
    · nomatch index
    rename_i noZero
    split at index
    · nomatch index
    rename_i digits
    obtain ⟨-, same⟩ := Option.ite_none_right_eq_some.1 index
    obtain rfl := Option.some.inj same
    by_cases leads : c = '0'
    · obtain rfl : rest = [] := by simpa [leads] using noZero
      subst leads
      rfl
    · exact (toDigits_natOfDigits (by simpa using digits) leads).2

/-! ## What is listed twice -/

namespace Object

variable {o : Object} {e : Edit} {key : String}

/-- An enumerable property of an array is under the index of one of its items. -/
def Doubles (o : Object) (i : Nat) (p : Property) : Prop :=
  (∃ items, o.items? = some items ∧ i < items.size) ∧ o.properties.get? (toString i) = some p ∧ p.enumerable = true

/-- The indices of the items, as keys. -/
def indices (o : Object) : List String := (List.range ((o.items?.map Array.size).getD 0)).map toString

theorem keys_eq (o : Object) : o.keys = o.indices ++ (o.properties.filter (·.2.enumerable)).map (·.1) := rfl

theorem nodup_indices (o : Object) : o.indices.Nodup :=
  List.nodup_range.map fun _ _ => toString_injective

theorem mem_indices : key ∈ o.indices ↔ ∃ items i, o.items? = some items ∧ i < items.size ∧ toString i = key := by
  unfold indices
  cases o.items? <;> simp

/-- What is listed twice is the index of an item and the key of a property. -/
theorem nodup_keys_iff (nodup : (o.properties.map (·.1)).Nodup) : o.keys.Nodup ↔ ∀ i p, ¬o.Doubles i p := by
  rw [keys_eq, List.nodup_append]
  constructor
  · rintro ⟨-, -, apart⟩ i p ⟨⟨items, is, below⟩, found, listed⟩
    exact apart _ (mem_indices.2 ⟨items, i, is, below, rfl⟩) _ ((Properties.mem_listed nodup).2 ⟨p, found, listed⟩) rfl
  · intro apart
    refine ⟨o.nodup_indices, nodup.sublist (List.filter_sublist.map _), ?_⟩
    rintro _ index _ name rfl
    obtain ⟨items, i, is, below, rfl⟩ := mem_indices.1 index
    obtain ⟨p, found, listed⟩ := (Properties.mem_listed nodup).1 name
    exact apart i p ⟨⟨items, is, below⟩, found, listed⟩

/-- What is listed is there, if the array is not so long that its last indices are no array indices. -/
theorem isSome_own?_of_mem_keys (short : ∀ items, o.items? = some items → items.size ≤ 0xffffffff)
    (nodup : (o.properties.map (·.1)).Nodup) (mem : key ∈ o.keys) : (o.own? key).isSome = true := by
  rcases List.mem_append.1 (keys_eq o ▸ mem) with index | name
  · obtain ⟨items, i, is, below, rfl⟩ := mem_indices.1 index
    have spelled : arrayIndex? (toString i) = some i := arrayIndex?_toString (Nat.lt_of_lt_of_le below (short items is))
    exact Option.isSome_of_eq_some (own?_of_item is spelled (Array.getElem?_eq_getElem below))
  · obtain ⟨p, found, -⟩ := (Properties.mem_listed nodup).1 name
    exact isSome_own? (Option.isSome_of_eq_some found)

end Object

/-! ## What steps keep -/

/-- Of the properties of an array under the keys of elements, accessors only are listed. -/
def Object.Apart (o : Object) : Prop :=
  o.isArray = true → ∀ e ∈ o.properties, isElementKey e.1 = true → e.2.enumerable = true → e.2.isAccessor = true

/-- An edit that fits leaves elements and properties apart. -/
theorem Object.Apart.edit {m : Machine} {r : Ref} {o : Object} {e : Edit} (apart : o.Apart)
    (there : m.object? r = some o) (fits : m.Fits r e) : (o.edit e).Apart := by
  intro array
  rw [isArray_edit] at array
  have seen : m.isArray (.object r) = true := (congrArg (Option.any Object.isArray) there).trans array
  have old := apart array
  cases e with
  | define key p =>
    intro entry mem element listed
    rcases Properties.eq_or_mem_of_mem_insert mem with rfl | mem
    · exact fits.1 seen element listed
    · exact old entry mem element listed
  | store key v =>
    intro entry mem element listed
    rcases Properties.eq_or_mem_of_mem_insert mem with rfl | mem
    · exact absurd ((fits seen).symm.trans element) Bool.false_ne_true
    · exact old entry mem element listed
  | remove key => exact fun entry mem => old entry ((Properties.erase_sublist ..).subset mem)
  | setPrototype => exact old
  | storeItem | clearItem | resize =>
    rw [Object.edit, properties_editItems]
    exact old

/-- Objects are stored without accessors and without listed properties. -/
theorem Action.Proper.isBlank {β : Type} {a : Action β} {m : Machine} {o : Object} (proper : a.Proper m)
    (stores : a.stores? = some o) : ∀ e ∈ o.properties, e.2.isAccessor = false ∧ e.2.enumerable = false := by
  have blank : o.isBlank = true := by
    cases a with
    | allocate p => exact Option.some.inj stores ▸ proper.careful.1
    | addWrapper id key p => exact Option.some.inj stores ▸ proper.careful.2.2
    | _ => nomatch stores
  simpa [Object.isBlank] using blank

/-- In every array elements and properties are apart. -/
def Machine.Apart (m : Machine) : Prop := ∀ r o, m.object? r = some o → o.Apart

theorem Point.Step.apart {x y : Point} (step : x.Step y) (apart : x.machine.Apart) : y.machine.Apart := by
  intro r o' after
  rcases step.object? after with ⟨o, there, rfl | ⟨e, -, careful, rfl⟩⟩ | ⟨-, β, a, -, proper, stores⟩
  · exact apart r _ there
  · exact (apart r o there).edit there careful.2
  · exact fun _ e mem _ listed => absurd ((proper.isBlank stores e mem).2.symm.trans listed) Bool.false_ne_true

/-! ## What is done with the keys -/

theorem Heap.hasKey_of_own {h : Heap} {r : Ref} {o : Object} {key : String} (ho : h.get? r = some o)
    (own : (o.own? key).isSome = true) : h.hasKey r key = true := by
  unfold hasKey hasKeyFrom
  simp only [ho, own, Bool.true_or]

namespace Scope

variable {s : Scope} {m m' : Machine} {r : Ref} {o : Object} {key : String} {job : Runner}

theorem has_returns (ho : m.object? r = some o) (own : (o.own? key).isSome = true) :
    (s.has (.object r) key).Returns m true m := by
  unfold has
  refine .look ?_
  split
  · exact .pure
  · have there : m.heap.hasKey r key = true := Heap.hasKey_of_own ho own
    exact fun job => (exec_look (a := true) there).trans rfl

/-- The entries of a dictionary have the keys that were read, in their order. -/
theorem keys_dictionaryEntries {item : Value → Visited → Conversion} {source : Value} {keys : List String}
    {seen seen' : Visited} {done entries : List (NativeValue × NativeValue)}
    (gives : (s.dictionaryEntries item source keys seen done).exec job m = (.done (entries, seen'), m')) :
    entries.map (·.1) = done.reverse.map (·.1) ++ keys.map .text := by
  induction keys generalizing m seen done with
  | nil =>
    cases gives
    rw [List.map_nil, List.append_nil]
  | cons key rest ih =>
    obtain ⟨v, m₁, -, gives⟩ := done_of_bind gives
    obtain ⟨⟨converted, seen₁⟩, m₂, -, gives⟩ := done_of_bind gives
    rw [ih gives, List.reverse_cons, List.map_append, List.append_assoc]
    rfl

/-- An object that is converted to a dictionary gives the listed keys that it has at the start. -/
theorem keys_dictionaryWith {item : Value → Visited → Conversion} {seen seen' : Visited} {v : NativeValue}
    (ho : m.object? r = some o) (unseen : seen.find? (·.1 == r) = none)
    (gives : (s.dictionaryWith item r seen).exec job m = (.done (v, seen'), m')) :
    ∃ entries, v = .dictionary entries ∧ entries.map (·.1) = o.keys.map .text := by
  unfold dictionaryWith visiting at gives
  rw [unseen] at gives
  obtain ⟨⟨w, seen₁⟩, m₁, converts, ends⟩ := done_of_bind gives
  cases ends
  have listed : ((m.object? r).map Object.keys).getD [] = o.keys := by rw [ho]; rfl
  rw [exec_look listed] at converts
  obtain ⟨⟨entries, seen₂⟩, m₂, reads, ends⟩ := done_of_bind converts
  cases ends
  exact ⟨entries, rfl, keys_dictionaryEntries reads⟩

/-- What the listed keys of an object are good for. -/
structure Lists (s : Scope) (m : Machine) (r : Ref) (o : Object) : Prop where
  lists : (ownKeys (.object r) : Routine Thrown (List String)).Returns m o.keys m
  distinct : o.keys.Nodup ↔ ∀ i p, ¬o.Doubles i p
  /-- What is listed beside an item is an accessor. -/
  accessors : ∀ i p, i < 0xffffffff → o.Doubles i p → p.isAccessor = true
  has : (∀ items, o.items? = some items → items.size ≤ 0xffffffff) → ∀ key ∈ o.keys,
    (s.has (.object r) key).Returns m true m
  /-- A dictionary that the object is converted to, whatever its items become. -/
  dictionary : ∀ (item : Value → Visited → Conversion) (seen : Visited), seen.find? (·.1 == r) = none →
    ∀ (job : Runner) v seen' m', (s.dictionaryWith item r seen).exec job m = (.done (v, seen'), m') →
      ∃ entries, v = .dictionary entries ∧ entries.map (·.1) = o.keys.map .text ∧
        ((entries.map (·.1)).Nodup ↔ ∀ i p, ¬o.Doubles i p)

theorem lists_of_apart (ho : m.object? r = some o) (nodup : (o.properties.map (·.1)).Nodup) (apart : o.Apart) :
    s.Lists m r o where
  lists job := exec_look (congrArg (fun found => (found.map Object.keys).getD []) ho)
  distinct := Object.nodup_keys_iff nodup
  accessors i p small := by
    rintro ⟨⟨items, is, -⟩, found, listed⟩
    have element : isElementKey (toString i) = true := by
      unfold isElementKey
      rw [arrayIndex?_toString small, Option.isSome_some, Bool.or_true]
    exact apart (Option.isSome_of_eq_some is) _ (Properties.mem_of_get? found) element listed
  has short key mem := has_returns ho (Object.isSome_own?_of_mem_keys short nodup mem)
  dictionary item seen unseen job v seen' m' gives := by
    obtain ⟨entries, is, keys⟩ := keys_dictionaryWith ho unseen gives
    refine ⟨entries, is, keys, ?_⟩
    rw [keys, ← Object.nodup_keys_iff nodup]
    exact List.nodup_map_iff fun _ _ same => NativeValue.text.inj same

end Scope

namespace Session

open Program (Step)

variable {options : Options} {now : Int} {steps : List Step} {depth : Nat} {x : Point} {r : Ref} {o : Object}

theorem apart_points (mem : x ∈ points options now steps depth) : x.machine.Apart := by
  obtain ⟨before, after, split⟩ := List.append_of_mem mem
  refine points_induct (P := fun _ m => m.Apart) ?_ (fun _ _ _ _ _ step => step.apart) split
  intro r o there
  simp [Machine.object?, Heap.get?] at there

/-- At every point of a session, the listed keys of an object are different, unless it is an array with an enumerable
property under the index of an item, which is an accessor then. All of them are there, if an array has no more items
than there are array indices. A dictionary that the object is converted to has the listed keys. -/
theorem keys_listed (mem : x ∈ points options now steps depth) (ho : x.machine.object? r = some o) (s : Scope) :
    s.Lists x.machine r o := by
  obtain ⟨K, known⟩ := (lawful_points mem).machine
  exact Scope.lists_of_apart ho (known.objects r o ho).keys (apart_points mem r o ho)

/-- An array gets an accessor under the index of its item. -/
def doubled : List Step :=
  [.machine (.newContext "main") none,
    .execute "main" [.value (.bind (.array [.bool true])) (some "a"), .function "f" [] false (some "f"),
      .script (.define (.register "a") "0" (.accessor (some (.register "f")) none) true false) none,
      .script (.keys (.register "a")) none]]

/-- The index is listed twice then, and so it is in a dictionary. -/
theorem keys_listed_doubled : ∃ x ∈ points {} 0 doubled 3, ∃ o, x.machine.object? ⟨18, 0⟩ = some o ∧
    o.keys = ["0", "0"] ∧ ¬o.keys.Nodup ∧ Scope.Lists ⟨0⟩ x.machine ⟨18, 0⟩ o := by
  obtain ⟨x, mem, is⟩ : ∃ x ∈ points {} 0 doubled 3,
      ((x.machine.object? ⟨18, 0⟩).any fun o => o.keys == ["0", "0"]) = true := by
    decide +kernel
  obtain ⟨o, ho, keys⟩ := (Option.any_eq_true ..).1 is
  have keys : o.keys = ["0", "0"] := eq_of_beq keys
  exact ⟨x, mem, o, ho, keys, by rw [keys]; decide, keys_listed mem ho ⟨0⟩⟩

end Session

end ScriptBridge
