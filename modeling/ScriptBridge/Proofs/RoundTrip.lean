import ScriptBridge.Bridge.ToScript
import ScriptBridge.Proofs.Mirror

/-!
# There and back

A native value that scripts can have becomes a script value exactly if it nests no deeper than the options
allow, and reading that script value gives the normal form of the native one.

* `Scope.toScriptAt_fits`: the conversion gives a mirror of the normal form, or fails because of the depth.
* `Moment.Reachable.round_trip`: converting there and back, at every moment between collections.

Proof-only: not reachable from `ScriptBridge.Session.Run`.
-/

namespace ScriptBridge

open Routine NativeValue

namespace Machine

variable {m₀ m m' m'' : Machine} {s : Scope} {o : Options} {r : Ref} {keys : List String}

/-! ## New objects -/

/-- The objects that a later machine has and an earlier one does not. -/
def added (m m' : Machine) : Set Ref := {r | m.object? r = none ∧ m'.heap.isLive r = true}

theorem added_subset (next : m'.Extends m'') : m.added m' ⊆ m.added m'' :=
  fun _ hr => ⟨hr.1, next.grows.isLive hr.2⟩

/-- What is added later is not what was there before. -/
theorem ne_of_added (hr : r ∈ m.added m') {q : Ref} {p : Object} (hq : m.object? q = some p) : r ≠ q :=
  (ne_of_new hr.1 hq).symm

theorem object?_of_added (hr : r ∈ m.added m') : ∃ p, m'.object? r = some p := Heap.isLive_iff.1 hr.2

theorem added_subset_sdiff (first : m.Extends m') : m'.added m'' ⊆ m.added m'' \ m.added m' := by
  intro r hr
  refine ⟨⟨first.absent hr.1, hr.2⟩, fun old => ?_⟩
  obtain ⟨p, hp⟩ := object?_of_added old
  exact ne_of_added hr hp rfl

/-- What a conversion in a context counts on: the context lives, and nothing on the chain of its objects guards
the keys that are assigned. -/
structure Hosts (m : Machine) (s : Scope) (o : Options) (keys : List String) : Prop where
  steady : m.Steady
  alive : m.contextAlive s.context = true
  options : m.options = o
  assignable : ∀ key ∈ keys, m.heap.Assignable key maxChain (some (m.scopeContext s).intrinsics.object)

theorem Hosts.of_extends (h : m.Hosts s o keys) (adds : m.Extends m') : m'.Hosts s o keys where
  steady := adds.steady
  alive := (adds.alive _).trans h.alive
  options := adds.options.trans h.options
  assignable key mem := by
    rw [adds.intrinsics]
    refine (h.assignable key mem).mono adds.objects fun r lost => ?_
    obtain ⟨slot, hs, other⟩ := lost
    obtain ⟨t, ht, same⟩ := adds.generations r.index slot hs
    exact ⟨t, ht, same ▸ other⟩

theorem Hosts.of_subset {fewer : List String} (h : m.Hosts s o keys) (sub : ∀ key ∈ fewer, key ∈ keys) :
    m.Hosts s o fewer :=
  ⟨h.steady, h.alive, h.options, fun key mem => h.assignable key (sub key mem)⟩

theorem Hosts.furnishes (h : m.Hosts s o keys) : m.Furnishes m := .refl h.steady

/-! ## Mirrors of dictionaries -/

theorem MirrorsEntries.plain : ∀ {entries : List (NativeValue × NativeValue)} {properties : Properties}
    {among : Set Ref} {key : String} {p : Property}, m.MirrorsEntries s entries properties among → properties.get? key = some p →
    ∃ x, p = .plain x
  | [], _, _, _, _, h, found => by
    obtain rfl : _ = [] := h
    nomatch found
  | (_, _) :: _, _, _, _, _, h, found => by
    obtain ⟨k, x, others, part, rfl, rfl, -, -, next⟩ := h
    unfold Properties.get? at found
    split at found
    · exact ⟨x, (Option.some.inj found).symm⟩
    · exact next.plain found

/-- Storing a mirror under a key of a mirror sets the entry. -/
theorem MirrorsEntries.insert (key : String) {v : NativeValue} {x : Value} {part : Set Ref}
    (mirrors : m.Mirrors s v x part) :
    ∀ {entries : List (NativeValue × NativeValue)} {properties : Properties} {among : Set Ref},
      m.MirrorsEntries s entries properties among → (∀ q ∈ part, q ∉ among) →
      m.MirrorsEntries s (put key v entries) (properties.insert key (.plain x)) (among ∪ part)
  | [], _, among, h, _ => by
    obtain rfl : _ = [] := h
    exact ⟨key, x, [], part, rfl, rfl, Set.subset_union_right, mirrors, rfl⟩
  | (k, w) :: rest, properties, among, h, apart => by
    obtain ⟨name, y, others, inner, rfl, rfl, sub, first, next⟩ := h
    unfold put Properties.insert
    by_cases here : name = key
    · subst here
      have same : (text name).text? = some name := rfl
      rw [if_pos rfl, if_pos same]
      refine ⟨name, x, others, part, rfl, rfl, Set.subset_union_right, mirrors, ?_⟩
      refine next.of_subset fun q hq => ⟨.inl hq.1, fun hp => ?_⟩
      exact apart q hp hq.1
    · have other : (text name).text? ≠ some key := fun same => here (Option.some.inj same)
      rw [if_neg other, if_neg here]
      refine ⟨name, y, _, inner, rfl, rfl, sub.trans Set.subset_union_left, first, ?_⟩
      have rest := insert key mirrors next fun q hp hq => apart q hp hq.1
      refine rest.of_subset fun q hq => ?_
      rcases hq with hq | hq
      · exact ⟨.inl hq.1, hq.2⟩
      · exact ⟨.inr hq, fun mem => apart q hq (sub mem)⟩

/-- Changing an ordinary object leaves the kinds of all objects, and all other objects. -/
theorem spares_edit {p : Object} {among : Set Ref} (hp : m.object? r = some p) (plain : p.isArray = false)
    (other : r ∉ among) (e : Edit) : m.Spares { m with heap := m.heap.edit r e } among where
  payloads x payload hx := by
    cases x with
    | undefined | null | bool | number | text => nomatch hx
    | object q =>
      obtain ⟨o, ho, rfl⟩ := Option.map_eq_some_iff.1 hx
      have ho : m.heap.get? q = some o := ho
      change ((m.heap.edit r e).get? q).map Object.payload = _
      rw [Heap.get?_edit, ho]
      split
      · rename_i same
        subst same
        obtain rfl : p = o := Option.some.inj (hp.symm.trans ho)
        exact congrArg some (Object.payload_edit plain e)
      · rfl
  objects q hq o ho := by
    have apart : q ≠ r := fun same => other (same ▸ hq)
    change (m.heap.edit r e).get? q = some o
    rw [Heap.get?_edit, if_neg apart]
    exact ho
  options := rfl

end Machine

/-! ## Native values become mirrors -/

namespace Scope

variable {s : Scope} {m m₀ : Machine} {o : Options} {α β : Type}

/-- A conversion gives something with a property if what it converts lies no deeper than the options allow, and
fails because of the depth otherwise. -/
def Fits (o : Options) (c : Routine Fault α) (m : Machine) (bottom : Nat) (P : α → Machine → Prop) : Prop :=
  (bottom ≤ o.maxConversionDepth → ∃ a m', c.Returns m a m' ∧ P a m') ∧
    (o.maxConversionDepth < bottom → ∃ m', c.Throws m (.conversion (.depthExceeded o.maxConversionDepth)) m')

namespace Fits

variable {bottom first rest depth : Nat} {P : α → Machine → Prop} {Q : β → Machine → Prop} {a : α} {m' : Machine}

theorem returns {c : Routine Fault α} (returns : c.Returns m a m') (holds : P a m')
    (fits : bottom ≤ o.maxConversionDepth) : Fits o c m bottom P :=
  ⟨fun _ => ⟨a, m', returns, holds⟩, fun deep => absurd deep (Nat.not_lt.2 fits)⟩

theorem imp {P' : α → Machine → Prop} {c : Routine Fault α} (weaker : ∀ a m', P a m' → P' a m')
    (fits : Fits o c m bottom P) : Fits o c m bottom P' := by
  refine ⟨fun shallow => ?_, fits.2⟩
  obtain ⟨a, m', returns, holds⟩ := fits.1 shallow
  exact ⟨a, m', returns, weaker a m' holds⟩

/-- After a look at the machine, it is still the same. -/
theorem look {γ : Type} {f : Machine → γ} {next : γ → Routine Fault α} (fits : Fits o (next (f m)) m bottom P) :
    Fits o (Routine.read f >>= next) m bottom P := fits

/-- What is done first fails before what is done next. -/
theorem bind {c : Routine Fault α} {f : α → Routine Fault β} (fits : Fits o c m first P)
    (next : ∀ a m', P a m' → Fits o (f a) m' rest Q) (lowest : max first rest = bottom) :
    Fits o (c >>= f) m bottom Q := by
  subst lowest
  constructor
  · intro shallow
    obtain ⟨a, m', returns, holds⟩ := fits.1 (by omega)
    obtain ⟨b, m'', returns', holds'⟩ := (next a m' holds).1 (by omega)
    exact ⟨b, m'', returns.bind returns', holds'⟩
  · intro deep
    by_cases here : o.maxConversionDepth < first
    · obtain ⟨m', throws⟩ := fits.2 here
      exact ⟨m', throws.bind⟩
    · obtain ⟨a, m', returns, holds⟩ := fits.1 (by omega)
      obtain ⟨m'', throws⟩ := (next a m' holds).2 (by omega)
      exact ⟨m'', .after returns throws⟩

theorem after {c : Routine Fault α} {f : α → Routine Fault β} (returns : c.Returns m a m')
    (next : Fits o (f a) m' bottom Q) : Fits o (c >>= f) m bottom Q := by
  constructor
  · intro shallow
    obtain ⟨b, m'', returns', holds⟩ := next.1 shallow
    exact ⟨b, m'', returns.bind returns', holds⟩
  · intro deep
    obtain ⟨m'', throws⟩ := next.2 deep
    exact ⟨m'', .after returns throws⟩

/-- The depth is looked at first. -/
theorem guard {c : Options → Routine Fault α} (options : m.options = o) (below : depth ≤ bottom)
    (fits : depth ≤ o.maxConversionDepth → Fits o (c m.options) m bottom P) :
    Fits o (do
      let options ← Routine.read (·.options)
      if options.maxConversionDepth < depth then
        .throw (.conversion (.depthExceeded options.maxConversionDepth))
      else c options) m bottom P := by
  refine .look ?_
  rw [options] at fits ⊢
  by_cases deep : o.maxConversionDepth < depth
  · rw [if_pos deep]
    exact ⟨fun shallow => absurd deep (by omega), fun _ => ⟨m, .throw⟩⟩
  · rw [if_neg deep]
    exact fits (Nat.le_of_not_lt deep)

end Fits

/-- A conversion makes a mirror of a native value, of new objects. -/
def Makes (s : Scope) (m : Machine) (v : NativeValue) (x : Value) (m' : Machine) : Prop :=
  m.Extends m' ∧ m'.Mirrors s v x (m.added m')

theorem Fits.makes {c : Routine Fault Value} {v : NativeValue} {bottom : Nat}
    (made : ∃ x m', c.Returns m x m' ∧ s.Makes m₀ v x m') (fits : bottom ≤ o.maxConversionDepth) :
    Fits o c m bottom (s.Makes m₀ v) := by
  obtain ⟨x, m', returns, makes⟩ := made
  exact .returns returns makes fits

theorem pure_makes {v : NativeValue} {x : Value} (steady : m.Steady) (mirrors : m.Mirrors s v x (m.added m)) :
    ∃ y m', (pure x : Routine Fault Value).Returns m y m' ∧ s.Makes m v y m' :=
  ⟨x, m, .pure, (Machine.Furnishes.refl steady).toExtends, mirrors⟩

/-- A new object that stands for nothing is an object more. -/
theorem adds_allocate (steady : m.Steady) (p : Object) (plain : p.twin? = none) :
    m.Extends (m.allocate p).2 ∧ (m.allocate p).1 ∈ m.added (m.allocate p).2 ∧
      (m.allocate p).2.object? (m.allocate p).1 = some p := by
  have adds := ((Machine.Furnishes.refl steady).allocate plain).toExtends
  have stored := Machine.object?_allocate_self steady.heap p
  exact ⟨adds, ⟨Machine.object?_new steady.heap p, Heap.isLive_iff.2 ⟨p, stored⟩⟩, stored⟩

/-- A new array of mirrors is none of the objects that they are made of. -/
theorem newArray_makes {items : List NativeValue} {vs : Array Value} (adds : m₀.Extends m)
    (short : items.length ≤ maxArrayLength) (mirrors : m.MirrorsItems s items vs.toList (m₀.added m)) :
    ∃ x m', (s.newArray vs : Routine Fault Value).Returns m x m' ∧ s.Makes m₀ (.array items) x m' := by
  let p : Object := ⟨.array vs, [], some (m.scopeContext s).intrinsics.array⟩
  obtain ⟨adds', ⟨new, live⟩, stored⟩ := adds_allocate adds.steady p rfl
  have length : vs.size ≤ maxArrayLength := by rwa [← Array.length_toList, ← mirrors.length_eq]
  refine ⟨.object (m.allocate p).1, (m.allocate p).2, .look (.bind .perform .pure), adds.trans adds', _, vs, rfl,
    ⟨adds.absent new, live⟩, payload?_of_object? stored, length, ?_⟩
  refine mirrors.keep (adds'.spares _) fun q hq => ⟨Machine.added_subset adds' hq, ?_⟩
  obtain ⟨_, hq⟩ := Machine.object?_of_added hq
  exact (Machine.ne_of_added ⟨new, live⟩ hq).symm

theorem newBuffer_makes (steady : m.Steady) (bytes : ByteArray) (typed : m.options.typedArrays = true) :
    ∃ x m', (s.newBuffer bytes : Routine Fault Value).Returns m x m' ∧ s.Makes m (.data bytes) x m' := by
  let p : Object := ⟨.buffer bytes, [], some (m.scopeContext s).intrinsics.buffer⟩
  obtain ⟨adds, -, stored⟩ := adds_allocate steady p rfl
  exact ⟨.object (m.allocate p).1, (m.allocate p).2, .look (.bind .perform .pure), adds, payload?_of_object? stored,
    adds.options ▸ typed⟩

/-- The date of a script keeps the milliseconds, which are no more than time values can be, and the rest. -/
theorem newDate_makes (steady : m.Steady) {t : Instant} (proper : t.Proper) :
    ∃ x m', (s.newDate (.ofInt t.millis) t.subMillis : Routine Fault Value).Returns m x m' ∧
      s.Makes m (.date t) x m' := by
  let p : Object := ⟨.date (.ofInt t.millis) t.subMillis, [], some (m.scopeContext s).intrinsics.date⟩
  obtain ⟨adds, -, stored⟩ := adds_allocate steady p rfl
  refine ⟨.object (m.allocate p).1, (m.allocate p).2, ?_, adds, _, _, payload?_of_object? stored,
    Instant.nativeDate_ofInt proper⟩
  have bound := Instant.millis_le proper
  have small : t.millis.natAbs < 2 ^ 53 := Nat.lt_of_le_of_lt bound (by decide)
  have inRange : ((Double.ofInt t.millis).isFinite && (Double.ofInt t.millis).abs.le maxTime) = true := by
    rw [Double.isFinite_ofInt small, Bool.true_and]
    exact (Double.abs_le_iff (by decide)).2 bound
  have rest : t.subMillis % 1000000 = t.subMillis := Nat.mod_mod _ _
  unfold newDate
  simp only [inRange, if_true, rest, Double.whole_ofInt small]
  exact .look (.bind .perform .pure)

theorem functionFor_makes (steady : m.Steady) (alive : m.contextAlive s.context = true) {c : Closure}
    (marshalable : c.signature.isMarshalable = true) :
    ∃ x m', (s.functionFor c : Routine Fault Value).Returns m x m' ∧ s.Makes m (.closure c) x m' := by
  obtain ⟨r, m', returns, adds, p, hp, twin⟩ := functionFor_extends steady alive marshalable
  refine ⟨_, m', returns, adds, ?_⟩
  rcases Object.twin?_eq_some.1 twin with ⟨w, -, -, same⟩ | ⟨name, d, payload, same⟩
  · nomatch same
  · exact ⟨name, d, _, (payload?_of_object? hp).trans (congrArg some payload), NativeKey.closure.inj same⟩

theorem wrapperFor_makes (steady : m.Steady) (alive : m.contextAlive s.context = true) {h : Handle}
    (exports : h.cls.Exports) :
    ∃ x m', (s.wrapperFor h : Routine Fault Value).Returns m x m' ∧ s.Makes m (.object h) x m' := by
  obtain ⟨r, m', returns, adds, p, hp, twin⟩ := wrapperFor_extends steady alive exports
  refine ⟨_, m', returns, adds, ?_⟩
  rcases Object.twin?_eq_some.1 twin with ⟨w, payload, context, same⟩ | ⟨name, d, -, same⟩
  · exact ⟨w, (payload?_of_object? hp).trans (congrArg some payload), context, NativeKey.object.inj same⟩
  · nomatch same

/-- The constructor of a class, once it is known. -/
theorem classRef_makes (steady : m.Steady) (alive : m.contextAlive s.context = true) {c : Class}
    (exports : c.Exports) :
    ∃ x m', (do
        let constructor := Value.object (← s.templateFor c).constructor
        track constructor
        return constructor : Routine Fault Value).Returns m x m' ∧ s.Makes m (.classRef c) x m' := by
  obtain ⟨t, m₁, makes, h₁, ⟨p, name, hp, function⟩, same⟩ :=
    templateFor_furnishes alive c (Machine.Furnishes.refl steady) exports
  have tracked := h₁.track (.object t.constructor)
  refine ⟨.object t.constructor, _, makes.bind (.bind .perform .pure), tracked.toExtends, ?_⟩
  have payload := Object.payload_of_function? function
  have found := ((Machine.Furnishes.refl h₁.steady).track (.object t.constructor)).objects _ p hp
  exact ⟨name, t.cls, t.table, s.context, (payload?_of_object? found).trans (congrArg some payload), same⟩

variable {r : Ref} {key : String} {properties : Properties} {prototype : Ref} {x : Value}

/-- Nothing guards the key, neither in the object itself nor along its chain. -/
theorem setOrdinary_returns (found : m.object? r = some ⟨.ordinary, properties, some prototype⟩)
    (plain : ∀ p, properties.get? key = some p → ∃ y, p = .plain y)
    (free : m.heap.Assignable key maxChain (some prototype)) {receiver : Value} :
    (s.setOrdinary r receiver key x).Returns m () { m with heap := m.heap.edit r (.store key x) } := by
  have found : m.heap.get? r = some ⟨.ordinary, properties, some prototype⟩ := found
  have whole : m.heap.Assignable key (maxChain + 1) (some r) := by
    unfold Heap.Assignable
    rw [found]
    refine ⟨fun p hp => ?_, free⟩
    obtain ⟨y, rfl⟩ := plain p hp
    exact ⟨y, rfl⟩
  exact setOrdinary_own found rfl whole.writeTarget_eq

/-- The stored property is plain. -/
theorem object?_store (found : m.object? r = some ⟨.ordinary, properties, some prototype⟩)
    (plain : ∀ p, properties.get? key = some p → ∃ y, p = .plain y) :
    ({ m with heap := m.heap.edit r (.store key x) } : Machine).object? r =
      some ⟨.ordinary, properties.insert key (.plain x), some prototype⟩ := by
  have found : m.heap.get? r = some ⟨.ordinary, properties, some prototype⟩ := found
  have stored : Property.store (properties.get? key) x = .plain x := by
    cases there : properties.get? key with
    | none => rfl
    | some p =>
      obtain ⟨y, rfl⟩ := plain p there
      rfl
  change (m.heap.edit r (.store key x)).get? r = _
  rw [Heap.get?_edit, if_pos rfl, found, ← stored]
  rfl

mutual

/-- Converting a native value gives a mirror of its normal form. -/
theorem toScriptAt_fits : ∀ (v : NativeValue) {m : Machine} {depth : Nat}, m.Hosts s o v.textKeys → v.Portable o →
    Fits o (s.toScriptAt depth v) m (depth + v.depth) (s.Makes m v.norm)
  | .nil, m, depth, hosts, _ => by
    unfold toScriptAt
    exact .guard hosts.options (Nat.le_add_right ..) (.makes (pure_makes hosts.steady rfl))
  | .null, m, depth, hosts, _ => by
    unfold toScriptAt
    exact .guard hosts.options (Nat.le_add_right ..) (.makes (pure_makes hosts.steady rfl))
  | .bool b, m, depth, hosts, _ => by
    unfold toScriptAt
    exact .guard hosts.options (Nat.le_add_right ..) (.makes (pure_makes hosts.steady rfl))
  | .number a, m, depth, hosts, _ => by
    unfold toScriptAt
    exact .guard hosts.options (Nat.le_add_right ..) (.makes (pure_makes hosts.steady rfl))
  | .text t, m, depth, hosts, _ => by
    unfold toScriptAt
    exact .guard hosts.options (Nat.le_add_right ..) (.makes (pure_makes hosts.steady rfl))
  | .selector sel, m, depth, hosts, _ => by
    unfold toScriptAt
    exact .guard hosts.options (Nat.le_add_right ..) (.makes (pure_makes hosts.steady rfl))
  | .array items, m, depth, hosts, ⟨short, portable⟩ => by
    unfold toScriptAt
    refine .guard hosts.options (Nat.le_add_right ..) fun fits => ?_
    have lowest : max (depth + depthOfItems items) depth = depth + depthOfItems items := by omega
    refine .bind (itemsToScript_fits items hosts portable fits) ?_ lowest
    rintro vs m₁ ⟨adds, xs, same, mirrors⟩
    obtain rfl : vs.toList = xs := same
    exact .makes (newArray_makes adds ((length_normItems items).trans_le short) mirrors) fits
  | .dictionary entries, m, depth, hosts, portable => by
    unfold toScriptAt
    refine .guard hosts.options (Nat.le_add_right ..) fun fits => ?_
    let p : Object := ⟨.ordinary, [], some (m.scopeContext s).intrinsics.object⟩
    obtain ⟨adds, ⟨new, live⟩, stored⟩ := adds_allocate hosts.steady p rfl
    have made : (s.newObject : Routine Fault Value).Returns m (.object (m.allocate p).1) (m.allocate p).2 :=
      .look (.bind .perform .pure)
    refine .after made ?_
    have lowest : max (depth + depthOfEntries entries) depth = depth + depthOfEntries entries := by omega
    have bare : (m.allocate p).2.MirrorsEntries s [] [] (m.added (m.allocate p).2 \ {(m.allocate p).1}) := rfl
    refine .bind (entriesToScript_fits entries hosts portable fits adds new stored List.nodup_nil bare) ?_ lowest
    rintro - m₂ ⟨adds₂, properties, found, nodup, mirrors⟩
    have added := And.intro new (Heap.isLive_iff.2 ⟨_, found⟩)
    refine .returns .pure ⟨adds₂, _, properties, _, rfl, added, found, nodup, mirrors⟩ fits
  | .date t, m, depth, hosts, proper => by
    unfold toScriptAt
    exact .guard hosts.options (Nat.le_add_right ..) (.makes (newDate_makes hosts.steady proper))
  | .data bytes, m, depth, hosts, allowed => by
    have typed : m.options.typedArrays = true := by rw [hosts.options]; exact allowed
    unfold toScriptAt
    refine .guard hosts.options (Nat.le_add_right ..) ?_
    simp only [typed, if_true]
    exact .makes (newBuffer_makes hosts.steady bytes typed)
  | .closure c, m, depth, hosts, marshalable => by
    unfold toScriptAt
    have made := functionFor_makes hosts.steady hosts.alive marshalable
    exact .guard hosts.options (Nat.le_add_right ..) (.makes made)
  | .object h, m, depth, hosts, exports => by
    unfold toScriptAt
    have made := wrapperFor_makes hosts.steady hosts.alive exports
    exact .guard hosts.options (Nat.le_add_right ..) (.makes made)
  | .classRef c, m, depth, hosts, exports => by
    unfold toScriptAt
    have made := classRef_makes hosts.steady hosts.alive exports
    exact .guard hosts.options (Nat.le_add_right ..) (.makes made)
  | .script _, _, _, _, portable => nomatch portable

/-- Items are converted in order. -/
theorem itemsToScript_fits : ∀ (items : List NativeValue) {m : Machine} {depth : Nat} {done : Array Value},
    m.Hosts s o (textKeysOfItems items) → PortableItems o items → depth ≤ o.maxConversionDepth →
    Fits o (s.itemsToScript depth done items) m (depth + depthOfItems items) fun vs m' => m.Extends m' ∧
      ∃ xs, vs.toList = done.toList ++ xs ∧ m'.MirrorsItems s (normItems items) xs (m.added m')
  | [], m, depth, done, hosts, _, fits =>
    .returns .pure ⟨hosts.furnishes.toExtends, [], (List.append_nil _).symm, rfl⟩ fits
  | v :: rest, m, depth, done, hosts, ⟨portable, others⟩, fits => by
    unfold itemsToScript
    have here := hosts.of_subset fun key (mem : key ∈ v.textKeys) => List.mem_append_left _ mem
    have lowest : max (depth + 1 + v.depth) (depth + depthOfItems rest) = depth + depthOfItems (v :: rest) := by
      rw [depthOfItems]
      omega
    refine .bind (toScriptAt_fits v here portable) ?_ lowest
    rintro x m₁ ⟨adds, mirror⟩
    have later := hosts.of_subset fun key (mem : key ∈ textKeysOfItems rest) => List.mem_append_right _ mem
    refine Fits.imp ?_ (itemsToScript_fits rest (later.of_extends adds) others fits)
    rintro vs m₂ ⟨adds₂, xs, same, mirrors⟩
    refine ⟨adds.trans adds₂, x :: xs, ?_, x, xs, m.added m₁, rfl, Machine.added_subset adds₂,
      mirror.keep (adds₂.spares _) subset_rfl, mirrors.of_subset (Machine.added_subset_sdiff adds)⟩
    rw [same, Array.toList_push, List.append_assoc]
    rfl

/-- Entries with text keys are assigned in order to an object that was not there at first. -/
theorem entriesToScript_fits : ∀ (entries : List (NativeValue × NativeValue)) {m₀ m : Machine} {depth : Nat} {r : Ref}
    {done : List (NativeValue × NativeValue)} {properties : Properties}, m₀.Hosts s o (textKeysOfEntries entries) →
    PortableEntries o entries → depth ≤ o.maxConversionDepth → m₀.Extends m → m₀.object? r = none →
    m.object? r = some ⟨.ordinary, properties, some (m₀.scopeContext s).intrinsics.object⟩ →
    (properties.map (·.1)).Nodup → m.MirrorsEntries s done properties (m₀.added m \ {r}) →
    Fits o (s.entriesToScript depth r entries) m (depth + depthOfEntries entries) fun _ m' => m₀.Extends m' ∧
      ∃ properties', m'.object? r = some ⟨.ordinary, properties', some (m₀.scopeContext s).intrinsics.object⟩ ∧
        (properties'.map (·.1)).Nodup ∧ m'.MirrorsEntries s (normEntries done entries) properties' (m₀.added m' \ {r})
  | [], m₀, m, depth, r, done, properties, _, _, fits, adds, _, found, nodup, mirrors =>
    .returns .pure ⟨adds, properties, found, nodup, mirrors⟩ fits
  | (k, v) :: rest, m₀, m, depth, r, done, properties, hosts, portable, fits, adds, new, found, nodup, mirrors => by
    cases k with
    | text key =>
      have all := fun k (mem : k ∈ v.textKeys ++ textKeysOfEntries rest) => List.mem_cons_of_mem key mem
      have here := hosts.of_subset fun k (mem : k ∈ v.textKeys) => all k (List.mem_append_left _ mem)
      have later := hosts.of_subset fun k (mem : k ∈ textKeysOfEntries rest) => all k (List.mem_append_right _ mem)
      have lowest : max (depth + 1 + v.depth) (depth + depthOfEntries rest) =
          depth + depthOfEntries ((text key, v) :: rest) := by
        rw [depthOfEntries]
        omega
      refine .bind (toScriptAt_fits v (here.of_extends adds) portable.1) ?_ lowest
      rintro x m₁ ⟨adds₁, mirror⟩
      have found₁ := adds₁.objects r _ found
      have adds₂ := adds.trans adds₁
      have free := (hosts.of_extends adds₂).assignable key List.mem_cons_self
      rw [adds₂.intrinsics] at free
      have plain : ∀ p, properties.get? key = some p → ∃ y, p = .plain y := fun _ => mirrors.plain
      refine .after (setOrdinary_returns found₁ plain free).lifted ?_
      refine entriesToScript_fits rest later portable.2 fits (adds₂.edit new _) new (object?_store found₁ plain)
        (Properties.nodup_insert nodup ..) ?_
      have apart : ∀ q ∈ m.added m₁, q ∉ m₀.added m \ {r} := by
        intro q hq old
        obtain ⟨p, hp⟩ := Machine.object?_of_added old.1
        exact Machine.ne_of_added hq hp rfl
      have union := Machine.MirrorsEntries.insert key mirror (mirrors.keep (adds₁.spares _) subset_rfl) apart
      have other {q : Ref} (hq : q ∈ (m₀.added m \ {r}) ∪ m.added m₁) : q ≠ r :=
        hq.elim (fun old => old.2) fun new => Machine.ne_of_added new found
      refine union.keep (Machine.spares_edit found₁ rfl (fun mem => other mem rfl) _) fun q hq => ⟨?_, other hq⟩
      have live : q ∈ m₀.added m₁ :=
        hq.elim (fun old => Machine.added_subset adds₁ old.1) fun new => (Machine.added_subset_sdiff adds new).1
      exact ⟨live.1, (Machine.grows_edit m₁ r _).isLive live.2⟩
    | _ => exact entriesToScript_fits rest hosts portable fits adds new found nodup mirrors

end

end Scope

end ScriptBridge

namespace ScriptBridge

open NativeValue

namespace Moment

variable {t : Moment} {s : Scope} {v : NativeValue}

/-- At every moment, in every living context on the chain of whose objects nothing guards the keys: a native value
that scripts can have becomes a script value if it nests no deeper than the options allow, and then reading
that gives the normal form, which is the value itself where its keys are different texts and it has no
selectors. Otherwise the conversion fails because of the depth. -/
theorem Reachable.round_trip (reachable : t.Reachable) (alive : t.machine.contextAlive s.context = true)
    (portable : v.Portable t.machine.options) (assignable : ∀ key ∈ v.textKeys,
      t.machine.heap.Assignable key maxChain (some (t.machine.scopeContext s).intrinsics.object)) :
    (v.depth ≤ t.machine.options.maxConversionDepth → ∃ x m, (s.toScript v).Returns t.machine x m ∧
      ∃ w m', (s.toNative x).Returns m w m' ∧ w.Same v.norm ∧ (v.Keyed → w.Same v)) ∧
    (t.machine.options.maxConversionDepth < v.depth → ∃ m, (s.toScript v).Throws t.machine
      (.conversion (.depthExceeded t.machine.options.maxConversionDepth)) m) := by
  have steady : t.machine.Steady := ⟨t.waiting, reachable.sound.machine, fun e => reachable.sound.lost⟩
  have hosts : t.machine.Hosts s t.machine.options v.textKeys := ⟨steady, alive, rfl, assignable⟩
  have fits : Scope.Fits _ (s.toScript v) t.machine (0 + v.depth) _ := Scope.toScriptAt_fits v hosts portable
  rw [Nat.zero_add] at fits
  refine ⟨fun shallow => ?_, fits.2⟩
  obtain ⟨x, m, returns, adds, mirrors⟩ := fits.1 shallow
  have above : v.norm.depth ≤ m.options.maxConversionDepth := by
    rw [adds.options]
    exact (depth_norm_le v).trans shallow
  obtain ⟨w, m', reads, same⟩ := Scope.toNative_mirrors adds.steady ((adds.alive _).trans alive) mirrors above
  refine ⟨x, m, returns, w, m', reads, same, fun keyed => ?_⟩
  rwa [norm_eq v keyed] at same

/-- Collections with a date before the epoch, a repeated key, a key that is no text, a selector and what
scripts see by identity. -/
def parcel : NativeValue :=
  .dictionary [
    (.text "list", .null),
    (.text "when", .date ⟨-1, 999999999⟩),
    (.number .zero, .text "dropped"),
    (.text "list", .array [.nil, .number .nan, .selector ⟨"count"⟩, .object ⟨1, default⟩, .classRef default])]

theorem exports_default : (default : Class).Exports := by
  unfold Class.Exports
  decide

theorem round_trip_parcel : ∃ x m, (Scope.toScript ⟨0⟩ parcel).Returns bridged.machine x m ∧
    ∃ w m', (Scope.toNative ⟨0⟩ x).Returns m w m' ∧ w.Same (.dictionary [
      (.text "list", .array [.nil, .number .nan, .text "count", .object ⟨1, default⟩, .classRef default]),
      (.text "when", .date ⟨-1, 999999999⟩)]) := by
  have portable : parcel.Portable bridged.machine.options := by
    refine ⟨trivial, ⟨by decide, by decide⟩, ⟨by decide, trivial, trivial, trivial, exports_default, exports_default,
      trivial⟩, trivial⟩
  have assignable : ∀ key ∈ parcel.textKeys,
      bridged.machine.heap.Assignable key maxChain (some (bridged.machine.scopeContext ⟨0⟩).intrinsics.object) := by
    intro key _
    exact ⟨fun p hp => (nomatch hp), trivial⟩
  obtain ⟨x, m, returns, w, m', reads, same, -⟩ :=
    (reachable_bridged.round_trip (s := ⟨0⟩) rfl portable assignable).1 (by decide)
  exact ⟨x, m, returns, w, m', reads, same⟩

end Moment

end ScriptBridge
