import ScriptBridge.Declare.Export
import ScriptBridge.Options.Basic
import ScriptBridge.Proofs.Dates
import ScriptBridge.Script.Object

/-!
# What scripts keep of a native value

Scripts see the entries of a dictionary that have text keys, each key once, and the name of a selector.

* `NativeValue.norm`: what is left of a value. `NativeValue.norm_eq`: all of it, where keys are different
  texts and there are no selectors.
* `NativeValue.depth`: how deep its collections nest, and `NativeValue.textKeys`: the keys that it assigns.
* `NativeValue.Same`: equality of data by structure, numbers by their bits, and of the rest by identity.
* `NativeValue.Portable`: what a value must be for scripts to have it, apart from its depth.

Proof-only: not reachable from `ScriptBridge.Session.Run`.
-/

namespace ScriptBridge

/-- The exports of a class and of its superclasses have no clash, so that its template builds. -/
def Class.Exports (c : Class) : Prop := ∀ a ∈ c.ancestors, (ExportTable.build a).isOk = true

namespace NativeValue

/-! ## Definitions -/

mutual

/-- How deep collections nest. Of the entries of a dictionary those with text keys count. -/
def depth : NativeValue → Nat
  | array items => depthOfItems items
  | dictionary entries => depthOfEntries entries
  | _ => 0

def depthOfItems : List NativeValue → Nat
  | [] => 0
  | v :: rest => max (depth v + 1) (depthOfItems rest)

def depthOfEntries : List (NativeValue × NativeValue) → Nat
  | [] => 0
  | (text _, v) :: rest => max (depth v + 1) (depthOfEntries rest)
  | _ :: rest => depthOfEntries rest

end

mutual

/-- The text keys of the dictionaries in a value. -/
def textKeys : NativeValue → List String
  | array items => textKeysOfItems items
  | dictionary entries => textKeysOfEntries entries
  | _ => []

def textKeysOfItems : List NativeValue → List String
  | [] => []
  | v :: rest => textKeys v ++ textKeysOfItems rest

def textKeysOfEntries : List (NativeValue × NativeValue) → List String
  | [] => []
  | (text key, v) :: rest => key :: textKeys v ++ textKeysOfEntries rest
  | _ :: rest => textKeysOfEntries rest

end

/-- Sets the entry of a text key: in its place if there is one, at the end otherwise. -/
def put (key : String) (v : NativeValue) : List (NativeValue × NativeValue) → List (NativeValue × NativeValue)
  | [] => [(text key, v)]
  | (k, w) :: rest => if k.text? = some key then (k, v) :: rest else (k, w) :: put key v rest

mutual

/-- A value without the entries whose keys are no texts, with the last value of a repeated key in the place
of the first, and with names for selectors. -/
def norm : NativeValue → NativeValue
  | array items => array (normItems items)
  | dictionary entries => dictionary (normEntries [] entries)
  | selector s => text s.name
  | v => v

def normItems : List NativeValue → List NativeValue
  | [] => []
  | v :: rest => norm v :: normItems rest

/-- Adds entries to those that are done. -/
def normEntries (done : List (NativeValue × NativeValue)) :
    List (NativeValue × NativeValue) → List (NativeValue × NativeValue)
  | [] => done
  | (text key, v) :: rest => normEntries (put key (norm v) done) rest
  | _ :: rest => normEntries done rest

end

mutual

/-- Equality of data by structure, numbers by their bits, and of the rest by identity. -/
def Same : NativeValue → NativeValue → Prop
  | nil, nil | null, null => True
  | bool a, bool b => a = b
  | number a, number b => a = b
  | text a, text b => a = b
  | array a, array b => SameItems a b
  | dictionary a, dictionary b => SameEntries a b
  | date a, date b => a = b
  | data a, data b => a = b
  | closure a, closure b => a.id = b.id
  | object a, object b => a.serial = b.serial
  | classRef a, classRef b => a.id = b.id
  | selector a, selector b => a = b
  | script a, script b => a = b
  | _, _ => False

def SameItems : List NativeValue → List NativeValue → Prop
  | [], [] => True
  | a :: as, b :: bs => Same a b ∧ SameItems as bs
  | _, _ => False

def SameEntries : List (NativeValue × NativeValue) → List (NativeValue × NativeValue) → Prop
  | [], [] => True
  | (k, a) :: as, (l, b) :: bs => Same k l ∧ Same a b ∧ SameEntries as bs
  | _, _ => False

end

mutual

/-- A value that scripts can have, unless it is too deep. Dates lie in the supported years, arrays are not
too long, closures can be called, classes can be exported, and byte buffers need their option. -/
def Portable (o : Options) : NativeValue → Prop
  | array items => items.length ≤ maxArrayLength ∧ PortableItems o items
  | dictionary entries => PortableEntries o entries
  | date t => t.Proper
  | data _ => o.typedArrays = true
  | closure c => c.signature.isMarshalable = true
  | object h => h.cls.Exports
  | classRef c => c.Exports
  | script _ => False
  | nil | null | bool _ | number _ | text _ | selector _ => True

def PortableItems (o : Options) : List NativeValue → Prop
  | [] => True
  | v :: rest => Portable o v ∧ PortableItems o rest

/-- What is under other keys than texts does not get to scripts. -/
def PortableEntries (o : Options) : List (NativeValue × NativeValue) → Prop
  | [] => True
  | (text _, v) :: rest => Portable o v ∧ PortableEntries o rest
  | _ :: rest => PortableEntries o rest

end

mutual

/-- The keys of dictionaries are different texts, and there are no selectors. -/
def Keyed : NativeValue → Prop
  | array items => KeyedItems items
  | dictionary entries => KeyedEntries entries
  | selector _ => False
  | _ => True

def KeyedItems : List NativeValue → Prop
  | [] => True
  | v :: rest => Keyed v ∧ KeyedItems rest

def KeyedEntries : List (NativeValue × NativeValue) → Prop
  | [] => True
  | (text key, v) :: rest => (∀ e ∈ rest, e.1.text? ≠ some key) ∧ Keyed v ∧ KeyedEntries rest
  | _ :: _ => False

end

/-! ## Setting entries -/

theorem put_of_new {key : String} {v : NativeValue} {done : List (NativeValue × NativeValue)}
    (new : ∀ e ∈ done, e.1.text? ≠ some key) : put key v done = done ++ [(text key, v)] := by
  induction done with
  | nil => rfl
  | cons e rest ih =>
    obtain ⟨k, w⟩ := e
    unfold put
    rw [if_neg (new (k, w) List.mem_cons_self), ih fun e he => new e (List.mem_cons_of_mem _ he)]
    rfl

theorem depthOfEntries_cons (k v : NativeValue) (rest : List (NativeValue × NativeValue)) :
    depthOfEntries ((k, v) :: rest) = max (if k.text?.isSome then v.depth + 1 else 0) (depthOfEntries rest) := by
  cases k with
  | text key => rfl
  | _ => exact (Nat.zero_max _).symm

theorem depthOfEntries_put (key : String) (v : NativeValue) (done : List (NativeValue × NativeValue)) :
    depthOfEntries (put key v done) ≤ max (v.depth + 1) (depthOfEntries done) := by
  induction done with
  | nil => exact Nat.le_refl _
  | cons e rest ih =>
    obtain ⟨k, w⟩ := e
    unfold put
    by_cases here : k.text? = some key
    · rw [if_pos here, depthOfEntries_cons, depthOfEntries_cons, here]
      simp only [Option.isSome_some, if_true]
      omega
    · rw [if_neg here, depthOfEntries_cons, depthOfEntries_cons]
      omega

/-! ## The normal form -/

theorem length_normItems (items : List NativeValue) : (normItems items).length = items.length := by
  induction items with
  | nil => rfl
  | cons v rest ih => exact congrArg (· + 1) ih

mutual

/-- What is left of a value lies no deeper than it did. -/
theorem depth_norm_le : ∀ v : NativeValue, v.norm.depth ≤ v.depth
  | array items => depthOfItems_normItems_le items
  | dictionary entries => by
    have := depthOfEntries_normEntries_le [] entries
    rwa [depthOfEntries, Nat.zero_max] at this
  | selector _ => Nat.le_refl _
  | nil | null | bool _ | number _ | text _ | date _ | data _ | closure _ | object _ | classRef _ | script _ =>
    Nat.le_refl _

theorem depthOfItems_normItems_le : ∀ items : List NativeValue, depthOfItems (normItems items) ≤ depthOfItems items
  | [] => Nat.le_refl _
  | v :: rest => by
    have first := depth_norm_le v
    have others := depthOfItems_normItems_le rest
    simp only [normItems, depthOfItems]
    omega

theorem depthOfEntries_normEntries_le : ∀ done entries : List (NativeValue × NativeValue),
    depthOfEntries (normEntries done entries) ≤ max (depthOfEntries done) (depthOfEntries entries)
  | done, [] => Nat.le_max_left ..
  | done, (k, v) :: rest => by
    cases k with
    | text key =>
      have first := depth_norm_le v
      have set := depthOfEntries_put key v.norm done
      have others := depthOfEntries_normEntries_le (put key v.norm done) rest
      simp only [normEntries, depthOfEntries]
      omega
    | _ => exact depthOfEntries_normEntries_le done rest

end

mutual

/-- Where keys are different texts and there are no selectors, all of a value is left. -/
theorem norm_eq : ∀ v : NativeValue, v.Keyed → v.norm = v
  | array items, keyed => congrArg array (normItems_eq items keyed)
  | dictionary entries, keyed => congrArg dictionary (normEntries_eq [] entries keyed fun _ _ _ mem => nomatch mem)
  | nil, _ | null, _ | bool _, _ | number _, _ | text _, _ | date _, _ | data _, _ | closure _, _ | object _, _
  | classRef _, _ | script _, _ => rfl

theorem normItems_eq : ∀ items : List NativeValue, KeyedItems items → normItems items = items
  | [], _ => rfl
  | v :: rest, ⟨keyed, others⟩ => by rw [normItems, norm_eq v keyed, normItems_eq rest others]

theorem normEntries_eq : ∀ done entries : List (NativeValue × NativeValue), KeyedEntries entries →
    (∀ e ∈ entries, ∀ d ∈ done, d.1.text? ≠ e.1.text?) → normEntries done entries = done ++ entries
  | done, [], _, _ => (List.append_nil done).symm
  | done, (text key, v) :: rest, ⟨fresh, keyed, others⟩, new => by
    have set : put key v.norm done = done ++ [(text key, v)] := by
      rw [norm_eq v keyed]
      exact put_of_new fun d hd => new _ List.mem_cons_self d hd
    have apart : ∀ e ∈ rest, ∀ d ∈ done ++ [(text key, v)], d.1.text? ≠ e.1.text? := by
      intro e he d hd
      rcases List.mem_append.1 hd with hd | hd
      · exact new e (List.mem_cons_of_mem _ he) d hd
      · rw [List.mem_singleton.1 hd]
        exact (fresh e he).symm
    rw [normEntries, set, normEntries_eq _ rest others apart, List.append_assoc]
    rfl

end

end NativeValue

end ScriptBridge
