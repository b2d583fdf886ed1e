import ScriptBridge.Proofs.OrderedMap
import ScriptBridge.Proofs.RoundTrip

/-!
# Dictionaries become objects

Scripts may put anything on the prototype of all objects, and a dictionary is converted by assignments. As long as
these meet no setter function, no script code runs: a conversion gives the same value or fails in the same way, whatever
jobs do. Entries that meet a readonly property, or an accessor without a setter, are dropped.

* `Properties.insertAll`: plain properties that are stored in order. Each key stays where it was first, with its last
  value.
* `Machine.Calm`: what a conversion counts on.
* `Scope.toScriptAt_settles`: what becomes of a native value. `Scope.Fills`: what becomes of a dictionary.
* `Moment.Reachable.dictionary_fills`: at every moment.
* `Moment.guarded_interferes`: what a readonly property and a setter do to entries.

Proof-only: not reachable from `ScriptBridge.Session.Run`.
-/

namespace ScriptBridge

open Routine NativeValue

/-! ## Properties in order -/

/-- The entries of a dictionary whose keys are texts. -/
def NativeValue.textEntries (entries : List (NativeValue × NativeValue)) : List (String × NativeValue) :=
  entries.filterMap fun e => e.1.text?.map (·, e.2)

namespace Properties

/-- The properties after plain ones are stored in order. -/
def insertAll (ps : Properties) (es : List (String × Value)) : Properties :=
  es.foldl (fun ps e => ps.insert e.1 (.plain e.2)) ps

variable {ps : Properties} {es : List (String × Value)} {key : String}

/-- New keys come in the order in which they are stored first. -/
theorem keys_insertAll : (ps.insertAll es).map (·.1) =
    ps.map (·.1) ++ ((es.map (·.1)).removeAll (ps.map (·.1))).eraseDups := by
  induction es generalizing ps with
  | nil => simp [insertAll]
  | cons e es ih =>
    obtain ⟨name, x⟩ := e
    have rest : (ps.insertAll ((name, x) :: es)).map (·.1) = ((ps.insert name (.plain x)).insertAll es).map (·.1) := rfl
    rw [rest, ih, keys_insert, List.map_cons, List.cons_removeAll]
    by_cases known : name ∈ ps.map (·.1)
    · rw [if_pos known, List.contains_iff_mem.2 known, if_neg (by simp)]
    · have absent : (ps.map (·.1)).contains name = false := by simpa using known
      have others : (es.map (·.1)).removeAll (ps.map (·.1) ++ [name]) =
          ((es.map (·.1)).removeAll (ps.map (·.1))).filter fun k => !k == name := by
        unfold List.removeAll
        rw [List.filter_filter]
        exact List.filter_congr fun k _ => by grind
      rw [if_neg known, absent, if_pos rfl, List.eraseDups_cons, others, List.append_assoc]
      rfl

/-- A key has what is stored last under it. -/
theorem get?_insertAll : (ps.insertAll es).get? key = ((es.reverse.lookup key).map .plain).or (ps.get? key) := by
  induction es generalizing ps with
  | nil => rfl
  | cons e es ih =>
    obtain ⟨name, x⟩ := e
    have rest : (ps.insertAll ((name, x) :: es)).get? key = ((ps.insert name (.plain x)).insertAll es).get? key := rfl
    rw [rest, ih, get?_insert, List.reverse_cons, List.lookup_append, List.lookup_cons]
    cases es.reverse.lookup key with
    | some y => rfl
    | none =>
      by_cases here : key = name
      · simp [here]
      · simp [here, beq_false_of_ne here]

end Properties

section

variable {α β : Type} {R : α → β → Prop} {key : String} {as : List (String × α)} {bs : List (String × β)}

theorem keys_of_forall₂ (all : List.Forall₂ (fun a b => a.1 = b.1 ∧ R a.2 b.2) as bs) :
    bs.map (·.1) = as.map (·.1) := by
  induction all with
  | nil => rfl
  | cons first _ ih => rw [List.map_cons, List.map_cons, ih, first.1]

theorem lookup_of_forall₂ {b : β} (all : List.Forall₂ (fun a b => a.1 = b.1 ∧ R a.2 b.2) as bs)
    (found : bs.lookup key = some b) : ∃ a, as.lookup key = some a ∧ R a b := by
  induction all with
  | nil => nomatch found
  | @cons a b' as bs first _ ih =>
    rw [List.lookup_cons] at found ⊢
    rw [first.1]
    split at found
    · obtain rfl := Option.some.inj found
      exact ⟨a.2, rfl, first.2⟩
    · exact ih found

theorem lookup_of_filter {p : String → Bool} {a : α} (found : (as.filter fun e => p e.1).lookup key = some a) :
    as.lookup key = some a := by
  have kept : p key = true := by
    obtain ⟨l, l', split, -⟩ := List.lookup_eq_some_iff.1 found
    have mem : (key, a) ∈ as.filter fun e => p e.1 := by simp [split]
    exact (List.mem_filter.1 mem).2
  induction as with
  | nil => nomatch found
  | cons e rest ih =>
    rw [List.filter_cons] at found
    rw [List.lookup_cons]
    by_cases here : key = e.1
    · rw [← here, kept, if_pos rfl, List.lookup_cons] at found
      simpa [here] using found
    · rw [beq_false_of_ne here]
      refine ih ?_
      split at found
      · rwa [List.lookup_cons, beq_false_of_ne here] at found
      · exact found

end

/-! ## Quiet conversions -/

namespace Machine

variable {m m' : Machine} {s : Scope} {keys : List String} {key : String}

/-- What assigning to a new object of a context meets. -/
def newTarget (m : Machine) (s : Scope) (key : String) : WriteTarget :=
  m.heap.writeTargetFrom key maxChain (some (m.scopeContext s).intrinsics.object)

/-- Whether new objects of a context take a key. -/
def accepts (m : Machine) (s : Scope) (key : String) : Bool := m.newTarget s key == .own

theorem newTarget_cases (refused : m.accepts s key = false) (quiet : ∀ f, m.newTarget s key ≠ .setter (some f)) :
    m.newTarget s key = .readonly ∨ m.newTarget s key = .setter none := by
  cases target : m.newTarget s key with
  | own =>
    rw [accepts, target] at refused
    nomatch refused
  | readonly => exact .inl rfl
  | setter f =>
    cases f with
    | none => exact .inr rfl
    | some f => exact absurd target (quiet f)

/-- What a quiet conversion counts on: the context lives, and no key that is assigned meets a setter function. -/
structure Calm (m : Machine) (s : Scope) (keys : List String) : Prop where
  steady : m.Steady
  alive : m.contextAlive s.context = true
  ends : m.heap.Ends maxChain (some (m.scopeContext s).intrinsics.object)
  quiet : ∀ key ∈ keys, ∀ f, m.newTarget s key ≠ .setter (some f)

namespace Calm

/-- What is added to a machine is on no chain that was there before. -/
theorem of_extends (calm : m.Calm s keys) (adds : m.Extends m') :
    m'.Calm s keys ∧ ∀ key, m'.newTarget s key = m.newTarget s key := by
  have lost (r : Ref) (lost : m.heap.Lost r) : m'.heap.Lost r := by
    obtain ⟨slot, hs, other⟩ := lost
    obtain ⟨t, ht, same⟩ := adds.generations r.index slot hs
    exact ⟨t, ht, same ▸ other⟩
  obtain ⟨ends, same⟩ := calm.ends.mono adds.objects lost
  have same (key : String) : m'.newTarget s key = m.newTarget s key := by
    unfold newTarget
    rw [adds.intrinsics, same]
  refine ⟨⟨adds.steady, (adds.alive _).trans calm.alive, ?_, fun key mem f => ?_⟩, same⟩
  · rw [adds.intrinsics]
    exact ends
  · rw [same]
    exact calm.quiet key mem f

theorem of_subset {fewer : List String} (calm : m.Calm s keys) (sub : ∀ key ∈ fewer, key ∈ keys) : m.Calm s fewer :=
  ⟨calm.steady, calm.alive, calm.ends, fun key mem => calm.quiet key (sub key mem)⟩

theorem furnishes (calm : m.Calm s keys) : m.Furnishes m := .refl calm.steady

end Calm

end Machine

namespace Scope

variable {s : Scope} {m m₀ m' : Machine} {depth : Nat} {α : Type}

/-- Somewhere on the way a value is converted. What comes of it stays, but an object that was there may change. -/
def ConvertsTo (s : Scope) (m : Machine) (depth : Nat) (r : Ref) (m' : Machine) (v : NativeValue) (x : Value) : Prop :=
  ∃ m₁ m₂, m.Extends m₁ ∧ m₁.heap.isLive r = true ∧ (s.toScriptAt depth v).Returns m₁ x m₂ ∧ m₂.Spares m' {r}ᶜ

/-- What a dictionary becomes: a new object with a plain property for each text key that new objects take, in the order
in which the keys come first. Each has the converted value of the last entry with its key. -/
structure Fills (s : Scope) (m : Machine) (depth : Nat) (entries : List (NativeValue × NativeValue)) (r : Ref)
    (properties : Properties) (m' : Machine) : Prop where
  new : m.object? r = none
  object : m'.object? r = some ⟨.ordinary, properties, some (m.scopeContext s).intrinsics.object⟩
  keys : properties.map (·.1) = (((textEntries entries).map (·.1)).filter (m.accepts s)).eraseDups
  values : ∀ key p, properties.get? key = some p → ∃ v x, (textEntries entries).reverse.lookup key = some v ∧
    p = .plain x ∧ s.ConvertsTo m (depth + 1) r m' v x

/-! ### Values that are no collections -/

/-- The depth is looked at first. -/
theorem guard_settles {c : Options → Routine Fault α} {P : α → Machine → Prop} (settles : (c m.options).Settles m P) :
    (do
      let options ← Routine.read (·.options)
      if options.maxConversionDepth < depth then
        .throw (.conversion (.depthExceeded options.maxConversionDepth))
      else c options : Routine Fault α).Settles m P := by
  refine .look ?_
  split
  · exact .throws .throw
  · exact settles

/-- A new object that stands for nothing native. -/
theorem allocate_settles (adds : m₀.Extends m) {o : Object} (plain : o.twin? = none) :
    (allocate o : Routine Fault Value).Settles m fun _ m' => m₀.Extends m' :=
  .returns (.bind .perform .pure) (adds.trans (adds_allocate adds.steady o plain).1)

theorem newDate_settles (steady : m.Steady) (millis : Double) (nanos : Nat) :
    (s.newDate millis nanos : Routine Fault Value).Settles m fun _ m' => m.Extends m' := by
  unfold newDate
  refine .look (allocate_settles (Machine.Furnishes.refl steady).toExtends ?_)
  split <;> rfl

theorem managedValue_settles (steady : m.Steady) (id : Nat) :
    (managedValue id : Routine Fault (Option Value)).Settles m fun _ m' => m.Extends m' := by
  have start := Machine.Furnishes.refl steady
  unfold managedValue
  refine .look ?_
  split
  · exact .returns (.bind .perform .pure) (start.track _).toExtends
  · exact .returns .pure start.toExtends

/-! ### Collections -/

/-- What becomes of a value: nothing that was there changes, and a dictionary becomes an object. -/
def Becomes (s : Scope) (m : Machine) (depth : Nat) (v : NativeValue) (x : Value) (m' : Machine) : Prop :=
  m.Extends m' ∧ ∀ entries, v = .dictionary entries → ∃ r properties, x = .object r ∧
    s.Fills m depth entries r properties m'

/-- An object that was not there at first, while it takes the entries of a dictionary. -/
structure Filling (s : Scope) (m₀ m : Machine) (r : Ref) (properties : Properties) : Prop where
  adds : m₀.Extends m
  new : m₀.object? r = none
  found : m.object? r = some ⟨.ordinary, properties, some (m₀.scopeContext s).intrinsics.object⟩
  plain : ∀ key p, properties.get? key = some p → m₀.accepts s key = true ∧ ∃ x, p = .plain x

namespace Filling

variable {r : Ref} {properties : Properties} {key : String}

theorem grow (filling : s.Filling m₀ m r properties) (adds : m.Extends m') : s.Filling m₀ m' r properties :=
  ⟨filling.adds.trans adds, filling.new, adds.objects r _ filling.found, filling.plain⟩

/-- An assignment meets what the object has, and then what any new object meets. -/
theorem writeTarget_eq {keys : List String} (filling : s.Filling m₀ m r properties) (calm : m₀.Calm s keys) :
    m.heap.writeTarget r key = ((properties.get? key).map (·.slot.writeTarget)).getD (m₀.newTarget s key) := by
  rw [Heap.writeTarget_of_free filling.found rfl, ← (calm.of_extends filling.adds).2, Machine.newTarget,
    filling.adds.intrinsics]

/-- Assigning stores under a key that new objects take, and does nothing else. -/
theorem assign {keys : List String} (filling : s.Filling m₀ m r properties) (calm : m₀.Calm s keys) (mem : key ∈ keys)
    (x : Value) : ∃ m', (s.setOrdinary r (.object r) key x).Returns m () m' ∧ m.Spares m' {r}ᶜ ∧
      s.Filling m₀ m' r (if m₀.accepts s key then properties.insert key (.plain x) else properties) := by
  have target : m.heap.writeTarget r key = _ := filling.writeTarget_eq calm
  cases accepted : m₀.accepts s key with
  | true =>
    have own : m.heap.writeTarget r key = .own := by
      rw [target, beq_iff_eq.1 accepted]
      cases there : properties.get? key with
      | none => rfl
      | some p =>
        obtain ⟨-, y, rfl⟩ := filling.plain key p there
        rfl
    have itself : r ∉ ({r}ᶜ : Set Ref) := fun other => other rfl
    have spares := Machine.spares_edit filling.found rfl itself (.store key x)
    have stored := object?_store (x := x) filling.found fun p there => (filling.plain key p there).2
    refine ⟨_, setOrdinary_own filling.found rfl own, spares,
      filling.adds.edit filling.new _, filling.new, stored, fun k p there => ?_⟩
    rw [if_pos rfl, Properties.get?_insert] at there
    split at there
    · rename_i same
      exact ⟨same ▸ accepted, x, (Option.some.inj there).symm⟩
    · exact filling.plain k p there
  | false =>
    have absent : properties.get? key = none := by
      refine Option.eq_none_iff_forall_ne_some.2 fun p there => ?_
      exact Bool.false_ne_true (accepted.symm.trans (filling.plain key p there).1)
    rw [absent] at target
    refine ⟨m, setOrdinary_ignored ?_, .refl m _, filling⟩
    rw [target]
    exact Machine.newTarget_cases accepted (calm.quiet key mem)

end Filling

/-- The entries that were assigned make the object. -/
theorem Filling.fills {entries : List (NativeValue × NativeValue)} {r : Ref} {es : List (String × Value)}
    (filling : s.Filling m m' r (.insertAll [] es))
    (all : List.Forall₂ (fun e y => e.1 = y.1 ∧ s.ConvertsTo m (depth + 1) r m' e.2 y.2)
      ((textEntries entries).filter fun e => m.accepts s e.1) es) :
    s.Fills m depth entries r (.insertAll [] es) m' where
  new := filling.new
  object := filling.found
  keys := by
    have names := keys_of_forall₂ all
    rw [Properties.keys_insertAll, names, List.map_nil, List.removeAll_nil, List.nil_append, List.filter_map]
    rfl
  values key p found := by
    rw [Properties.get?_insertAll] at found
    have found : (es.reverse.lookup key).map Property.plain = some p := by
      rwa [Properties.get?, Option.or_none] at found
    obtain ⟨x, last, rfl⟩ := Option.map_eq_some_iff.1 found
    obtain ⟨v, entry, converts⟩ := lookup_of_forall₂ (List.forall₂_reverse_iff.2 all) last
    rw [← List.filter_reverse] at entry
    exact ⟨v, x, lookup_of_filter entry, rfl, converts⟩

mutual

/-- Converting a value settles, and adds objects only. -/
theorem toScriptAt_settles : ∀ (v : NativeValue) {m : Machine} {depth : Nat}, m.Calm s v.textKeys →
    (s.toScriptAt depth v).Settles m (s.Becomes m depth v)
  | .nil, m, depth, calm | .null, m, depth, calm | .bool _, m, depth, calm | .number _, m, depth, calm
  | .text _, m, depth, calm | .selector _, m, depth, calm => by
    unfold toScriptAt
    exact guard_settles (.returns .pure ⟨calm.furnishes.toExtends, nofun⟩)
  | .array items, m, depth, calm => by
    unfold toScriptAt
    refine guard_settles (.bind (itemsToScript_settles items calm) fun vs m₁ _ adds => ?_)
    exact .imp (fun _ _ adds => ⟨adds, nofun⟩) (.look (allocate_settles adds rfl))
  | .dictionary entries, m, depth, calm => by
    unfold toScriptAt
    let p : Object := ⟨.ordinary, [], some (m.scopeContext s).intrinsics.object⟩
    obtain ⟨adds, ⟨new, live⟩, stored⟩ := adds_allocate calm.steady p rfl
    have made : (s.newObject : Routine Fault Value).Returns m (.object (m.allocate p).1) (m.allocate p).2 :=
      .look (.bind .perform .pure)
    refine guard_settles (.after made ?_)
    refine .bind (entriesToScript_settles entries calm ⟨adds, new, stored, nofun⟩) fun _ m₁ _ filled => ?_
    obtain ⟨-, es, filling, all⟩ := filled
    refine .returns .pure ⟨filling.adds, fun _ same => ?_⟩
    obtain rfl := NativeValue.dictionary.inj same
    exact ⟨_, _, rfl, filling.fills all⟩
  | .date t, m, depth, calm => by
    unfold toScriptAt
    exact guard_settles (.imp (fun _ _ adds => ⟨adds, nofun⟩) (newDate_settles calm.steady ..))
  | .data bytes, m, depth, calm => by
    unfold toScriptAt
    refine guard_settles ?_
    cases typed : m.options.typedArrays with
    | true => exact .imp (fun _ _ adds => ⟨adds, nofun⟩) (.look (allocate_settles calm.furnishes.toExtends rfl))
    | false => exact .throws .throw
  | .closure c, m, depth, calm => by
    unfold toScriptAt
    refine guard_settles ?_
    rcases functionFor_settles calm.steady calm.alive c with ⟨r, m', returns, adds, -⟩ | ⟨-, e, throws⟩
    · exact .returns returns ⟨adds, nofun⟩
    · exact .throws throws
  | .object h, m, depth, calm => by
    unfold toScriptAt
    refine guard_settles ?_
    rcases wrapperFor_settles calm.steady calm.alive h with ⟨r, m', returns, adds, -⟩ | ⟨-, e, m', throws⟩
    · exact .returns returns ⟨adds, nofun⟩
    · exact .throws throws
  | .classRef c, m, depth, calm => by
    unfold toScriptAt
    refine guard_settles ?_
    rcases templateFor_settles (s := s) calm.alive c calm.furnishes with ⟨t, m', makes, adds, -⟩ | ⟨-, e, m', throws⟩
    · exact .returns (makes.bind (.bind .perform .pure)) ⟨(adds.track _).toExtends, nofun⟩
    · exact .throws throws.bind
  | .script (.managed id), m, depth, calm => by
    unfold toScriptAt
    refine guard_settles (.bind (managedValue_settles calm.steady id) fun _ _ _ adds => ?_)
    exact .returns .pure ⟨adds, nofun⟩
  | .script (.foreign _), m, depth, calm => by
    unfold toScriptAt
    exact guard_settles (.throws .throw)

/-- Items are converted in order. -/
theorem itemsToScript_settles : ∀ (items : List NativeValue) {m : Machine} {depth : Nat} {done : Array Value},
    m.Calm s (textKeysOfItems items) → (s.itemsToScript depth done items).Settles m fun _ m' => m.Extends m'
  | [], m, depth, done, calm => .returns .pure calm.furnishes.toExtends
  | v :: rest, m, depth, done, calm => by
    unfold itemsToScript
    have here := calm.of_subset fun key (mem : key ∈ v.textKeys) => List.mem_append_left _ mem
    have later := calm.of_subset fun key (mem : key ∈ textKeysOfItems rest) => List.mem_append_right _ mem
    refine .bind (toScriptAt_settles v here) fun x m₁ _ becomes => ?_
    have adds := becomes.1
    exact .imp (fun _ _ adds' => adds.trans adds') (itemsToScript_settles rest (later.of_extends adds).1)

/-- Entries are assigned in order. -/
theorem entriesToScript_settles : ∀ (entries : List (NativeValue × NativeValue)) {m₀ m : Machine} {depth : Nat}
    {r : Ref} {properties : Properties}, m₀.Calm s (textKeysOfEntries entries) → s.Filling m₀ m r properties →
    (s.entriesToScript depth r entries).Settles m fun _ m' => m.Spares m' {r}ᶜ ∧
      ∃ es, s.Filling m₀ m' r (properties.insertAll es) ∧
        List.Forall₂ (fun e y => e.1 = y.1 ∧ s.ConvertsTo m₀ (depth + 1) r m' e.2 y.2)
          ((textEntries entries).filter fun e => m₀.accepts s e.1) es
  | [], m₀, m, depth, r, properties, calm, filling => .returns .pure ⟨.refl m _, [], filling, .nil⟩
  | (k, v) :: rest, m₀, m, depth, r, properties, calm, filling => by
    cases k with
    | text key =>
      have all := fun k (mem : k ∈ v.textKeys ++ textKeysOfEntries rest) => List.mem_cons_of_mem key mem
      have here := calm.of_subset fun k (mem : k ∈ v.textKeys) => all k (List.mem_append_left _ mem)
      have later := calm.of_subset fun k (mem : k ∈ textKeysOfEntries rest) => all k (List.mem_append_right _ mem)
      unfold entriesToScript
      refine .bind (toScriptAt_settles v (here.of_extends filling.adds).1) fun x m₁ returns becomes => ?_
      have adds₁ := becomes.1
      obtain ⟨m₂, assigns, spares, filling₂⟩ := (filling.grow adds₁).assign calm List.mem_cons_self x
      refine .after assigns.lifted (.imp ?_ (entriesToScript_settles rest later filling₂))
      rintro - m' ⟨spares', es, filling', all⟩
      have first : ((textEntries ((text key, v) :: rest)).filter fun e => m₀.accepts s e.1) =
          if m₀.accepts s key then (key, v) :: (textEntries rest).filter fun e => m₀.accepts s e.1
          else (textEntries rest).filter fun e => m₀.accepts s e.1 := List.filter_cons
      have lives := Heap.isLive_iff.2 ⟨_, filling.found⟩
      refine ⟨(adds₁.spares _).trans (spares.trans spares'), ?_⟩
      rw [first]
      cases accepted : m₀.accepts s key with
      | true =>
        rw [accepted] at filling'
        exact ⟨(key, x) :: es, filling', .cons ⟨rfl, m, m₁, filling.adds, lives, returns, spares.trans spares'⟩ all⟩
      | false =>
        rw [accepted] at filling'
        exact ⟨es, filling', all⟩
    | _ => exact entriesToScript_settles rest calm filling

end

end Scope

namespace Moment

variable {t : Moment} {s : Scope} {v : NativeValue}

/-- At every moment, in every living context: if no text key of a native value, however deep, meets a setter function on
the prototype of all objects or above it, then converting the value runs no script code. It fails, or a dictionary
becomes a new object with its entries, but for those whose keys meet a readonly property or an accessor without a setter
there. A chain `Ends` unless it leads to a reference that no object was made for. -/
theorem Reachable.dictionary_fills (reachable : t.Reachable) (alive : t.machine.contextAlive s.context = true)
    (ends : t.machine.heap.Ends maxChain (some (t.machine.scopeContext s).intrinsics.object))
    (quiet : ∀ key ∈ v.textKeys, ∀ f, t.machine.newTarget s key ≠ .setter (some f)) (depth : Nat) :
    (s.toScriptAt depth v).Settles t.machine fun x m => t.machine.Extends m ∧ ∀ entries, v = .dictionary entries →
      ∃ r properties, x = .object r ∧ s.Fills t.machine depth entries r properties m := by
  have steady : t.machine.Steady := ⟨t.waiting, reachable.sound.machine, fun e => reachable.sound.lost⟩
  exact Scope.toScriptAt_settles v ⟨steady, alive, ends, quiet⟩

/-- A key that comes twice has its last value in its first place. -/
theorem dictionary_fills_parcel : ∃ entries x m, parcel = .dictionary entries ∧
    (Scope.toScript ⟨0⟩ parcel).Returns bridged.machine x m ∧ ∃ r properties, x = .object r ∧
      Scope.Fills ⟨0⟩ bridged.machine 0 entries r properties m ∧ properties.map (·.1) = ["list", "when"] := by
  have own (key : String) : bridged.machine.newTarget ⟨0⟩ key = .own := rfl
  have quiet : ∀ key ∈ parcel.textKeys, ∀ f, bridged.machine.newTarget ⟨0⟩ key ≠ .setter (some f) := by
    intro key _ f
    rw [own]
    exact nofun
  have gives : ((Scope.toScript ⟨0⟩ parcel).exec (fun _ m => (.exhausted, m)) bridged.machine).1.given?.isSome :=
    by decide +kernel
  rcases reachable_bridged.dictionary_fills (s := ⟨0⟩) rfl trivial quiet 0 with
    ⟨x, m, returns, -, fills⟩ | ⟨e, m, throws⟩
  · obtain ⟨r, properties, is, fills⟩ := fills _ rfl
    refine ⟨_, x, m, rfl, returns, r, properties, is, fills, fills.keys.trans ?_⟩
    decide +kernel
  · rw [show (Scope.toScript ⟨0⟩ parcel).exec _ _ = _ from throws _] at gives
    nomatch gives

/-- Scripts defined a readonly property and a setter on the prototype of all objects. -/
def guarded : Moment :=
  opened.after (.edit ⟨0, 0⟩ (.define "kept" (.fixed .null)))
    |>.after (.allocate setter)
    |>.after (.edit ⟨0, 0⟩ (.define "caught" ⟨.accessor none (some ⟨1, 0⟩), false, true⟩))
where
  setter : Object := ⟨.function ⟨"", .host [] false, 0⟩, [], some ⟨0, 0⟩⟩

theorem reachable_guarded : guarded.Reachable := by
  have first := reachable_opened.after (a := .edit ⟨0, 0⟩ (.define "kept" (.fixed .null))) trivial id
  have second := first.after (a := .allocate guarded.setter) rfl id
  exact second.after (a := .edit ⟨0, 0⟩ (.define "caught" ⟨.accessor none (some ⟨1, 0⟩), false, true⟩)) trivial id

/-- An entry under the readonly key is dropped. One under the other key runs the setter: where jobs do not end, nor does
the conversion. -/
theorem guarded_interferes : guarded.Reachable ∧
    (∃ m, (Scope.toScript ⟨0⟩ (.dictionary [(.text "kept", .bool true)])).Returns guarded.machine (.object ⟨2, 0⟩) m ∧
      m.object? ⟨2, 0⟩ = some ⟨.ordinary, [], some ⟨0, 0⟩⟩) ∧
    ∃ m, (Scope.toScript ⟨0⟩ (.dictionary [(.text "caught", .bool true)])).exec (fun _ m => (.exhausted, m))
      guarded.machine = (.exhausted, m) :=
  ⟨reachable_guarded, ⟨_, fun _ => rfl, rfl⟩, _, rfl⟩

end Moment

end ScriptBridge
