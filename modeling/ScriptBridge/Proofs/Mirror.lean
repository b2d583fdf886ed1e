import Mathlib.Order.BooleanAlgebra.Set
import ScriptBridge.Proofs.Chain
import ScriptBridge.Proofs.Edits
import ScriptBridge.Proofs.Furnish

/-!
# Script values that mirror native ones

`Machine.Mirrors` says that a script value has the shape of a native value: its collections are new arrays
and objects, each of which is reached once, and its other objects stand for what the native value holds.

* `Machine.Mirrors.keep`: it stays so as long as its collections do not change and no object becomes
  another kind.
* `Scope.naturalAt_mirrors`: reading such a value gives the native value.

Proof-only: not reachable from `ScriptBridge.Session.Run`.
-/

namespace ScriptBridge

open Routine NativeValue

namespace Machine

mutual

/-- A script value mirrors a native value. The collections in it are among some objects, each in one place. -/
def Mirrors (m : Machine) (s : Scope) : NativeValue → Value → Set Ref → Prop
  | .nil, x, _ => x = .undefined
  | .null, x, _ => x = .null
  | .bool b, x, _ => x = .bool b
  | .number a, x, _ => x = .number a
  | .text t, x, _ => x = .text t
  | .array items, x, among =>
    ∃ r vs, x = .object r ∧ r ∈ among ∧ m.payload? x = some (.array vs) ∧ vs.size ≤ maxArrayLength ∧
      m.MirrorsItems s items vs.toList (among \ {r})
  | .dictionary entries, x, among =>
    ∃ r properties prototype, x = .object r ∧ r ∈ among ∧ m.object? r = some ⟨.ordinary, properties, prototype⟩ ∧
      (properties.map (·.1)).Nodup ∧ m.MirrorsEntries s entries properties (among \ {r})
  | .date t, x, _ => ∃ millis nanos, m.payload? x = some (.date millis nanos) ∧ nativeDate millis nanos = .date t
  | .data bytes, x, _ => m.payload? x = some (.buffer bytes) ∧ m.options.typedArrays = true
  | .closure c, x, _ =>
    ∃ name d id, m.payload? x = some (.function ⟨name, .closure d, id⟩) ∧ d.id = c.id
  | .object h, x, _ =>
    ∃ w, m.payload? x = some (.wrapper w) ∧ w.context = s.context ∧ w.native.serial = h.serial
  | .classRef c, x, _ =>
    ∃ name cls table id, m.payload? x = some (.function ⟨name, .constructor cls table, id⟩) ∧ cls.id = c.id
  | .selector _, _, _ | .script _, _, _ => False

def MirrorsItems (m : Machine) (s : Scope) : List NativeValue → List Value → Set Ref → Prop
  | [], xs, _ => xs = []
  | v :: rest, xs, among =>
    ∃ x others part, xs = x :: others ∧ part ⊆ among ∧ m.Mirrors s v x part ∧
      m.MirrorsItems s rest others (among \ part)

/-- The properties of an object are plain and mirror the entries of a dictionary, in order. -/
def MirrorsEntries (m : Machine) (s : Scope) : List (NativeValue × NativeValue) → Properties → Set Ref → Prop
  | [], properties, _ => properties = []
  | (k, v) :: rest, properties, among =>
    ∃ key x others part, k = .text key ∧ properties = (key, .plain x) :: others ∧ part ⊆ among ∧
      m.Mirrors s v x part ∧ m.MirrorsEntries s rest others (among \ part)

end

variable {m m' : Machine} {s : Scope} {among : Set Ref}

/-- Objects are of the kinds that they were, and some of them have not changed at all. -/
structure Spares (m m' : Machine) (among : Set Ref) : Prop where
  payloads : ∀ x p, m.payload? x = some p → m'.payload? x = some p
  objects : ∀ r ∈ among, ∀ o, m.object? r = some o → m'.object? r = some o
  options : m'.options = m.options

theorem Spares.refl (m : Machine) (among : Set Ref) : m.Spares m among := ⟨fun _ _ h => h, fun _ _ _ h => h, rfl⟩

theorem Spares.trans {m'' : Machine} (first : m.Spares m' among) (next : m'.Spares m'' among) : m.Spares m'' among where
  payloads x p hx := next.payloads x p (first.payloads x p hx)
  objects r mem o ho := next.objects r mem o (first.objects r mem o ho)
  options := next.options.trans first.options

theorem Spares.of_subset {part : Set Ref} (spares : m.Spares m' among) (sub : part ⊆ among) : m.Spares m' part :=
  ⟨spares.payloads, fun r hr => spares.objects r (sub hr), spares.options⟩

theorem Extends.spares (h : m.Extends m') (among : Set Ref) : m.Spares m' among where
  payloads x p hx := by
    cases x with
    | object r =>
      obtain ⟨o, ho, rfl⟩ := Option.map_eq_some_iff.1 hx
      exact congrArg (Option.map Object.payload) (h.objects r o ho)
    | undefined | null | bool | number | text => nomatch hx
  objects r _ o ho := h.objects r o ho
  options := h.options

theorem MirrorsItems.length_eq : ∀ {items : List NativeValue} {xs : List Value} {among : Set Ref},
    m.MirrorsItems s items xs among → items.length = xs.length
  | [], _, _, h => by
    obtain rfl : _ = [] := h
    rfl
  | v :: rest, xs, among, h => by
    obtain ⟨x, others, part, rfl, -, -, next⟩ := h
    exact congrArg (· + 1) next.length_eq

/-- The keys that a mirror lists are those of all its properties. -/
theorem MirrorsEntries.keys_eq : ∀ {entries : List (NativeValue × NativeValue)} {properties : Properties}
    {among : Set Ref}, m.MirrorsEntries s entries properties among →
      (properties.filter (·.2.enumerable)).map (·.1) = properties.map (·.1)
  | [], _, _, h => by
    obtain rfl : _ = [] := h
    rfl
  | (k, v) :: rest, properties, among, h => by
    obtain ⟨key, x, others, part, rfl, rfl, -, -, next⟩ := h
    exact congrArg (key :: ·) next.keys_eq

mutual

/-- A value stays a mirror as long as its collections stay the same. -/
theorem Mirrors.keep : ∀ {v : NativeValue} {x : Value} {among more : Set Ref}, m.Mirrors s v x among →
    m.Spares m' among → among ⊆ more → m'.Mirrors s v x more
  | .nil, _, _, _, h, _, _ | .null, _, _, _, h, _, _ | .bool _, _, _, _, h, _, _ | .number _, _, _, _, h, _, _
  | .text _, _, _, _, h, _, _ => h
  | .array items, x, among, more, h, spares, sub => by
    obtain ⟨r, vs, rfl, mem, payload, short, mirrors⟩ := h
    refine ⟨r, vs, rfl, sub mem, spares.payloads _ _ payload, short, ?_⟩
    exact MirrorsItems.keep mirrors (spares.of_subset Set.sdiff_subset) (Set.sdiff_subset_sdiff_left sub)
  | .dictionary entries, x, among, more, h, spares, sub => by
    obtain ⟨r, properties, prototype, rfl, mem, found, nodup, mirrors⟩ := h
    refine ⟨r, properties, prototype, rfl, sub mem, spares.objects r mem _ found, nodup, ?_⟩
    exact MirrorsEntries.keep mirrors (spares.of_subset Set.sdiff_subset) (Set.sdiff_subset_sdiff_left sub)
  | .date _, _, _, _, h, spares, _ => by
    obtain ⟨millis, nanos, payload, date⟩ := h
    exact ⟨millis, nanos, spares.payloads _ _ payload, date⟩
  | .data _, _, _, _, h, spares, _ => ⟨spares.payloads _ _ h.1, by rw [spares.options]; exact h.2⟩
  | .closure _, _, _, _, h, spares, _ => by
    obtain ⟨name, d, id, payload, same⟩ := h
    exact ⟨name, d, id, spares.payloads _ _ payload, same⟩
  | .object _, _, _, _, h, spares, _ => by
    obtain ⟨w, payload, context, same⟩ := h
    exact ⟨w, spares.payloads _ _ payload, context, same⟩
  | .classRef _, _, _, _, h, spares, _ => by
    obtain ⟨name, cls, table, id, payload, same⟩ := h
    exact ⟨name, cls, table, id, spares.payloads _ _ payload, same⟩
  | .selector _, _, _, _, h, _, _ | .script _, _, _, _, h, _, _ => nomatch h

theorem MirrorsItems.keep : ∀ {items : List NativeValue} {xs : List Value} {among more : Set Ref},
    m.MirrorsItems s items xs among → m.Spares m' among → among ⊆ more → m'.MirrorsItems s items xs more
  | [], _, _, _, h, _, _ => h
  | v :: rest, xs, among, more, h, spares, sub => by
    obtain ⟨x, others, part, rfl, inside, first, next⟩ := h
    refine ⟨x, others, part, rfl, inside.trans sub, first.keep (spares.of_subset inside) subset_rfl, ?_⟩
    exact MirrorsItems.keep next (spares.of_subset Set.sdiff_subset) (Set.sdiff_subset_sdiff_left sub)

theorem MirrorsEntries.keep : ∀ {entries : List (NativeValue × NativeValue)} {properties : Properties}
    {among more : Set Ref}, m.MirrorsEntries s entries properties among → m.Spares m' among → among ⊆ more →
      m'.MirrorsEntries s entries properties more
  | [], _, _, _, h, _, _ => h
  | (k, v) :: rest, properties, among, more, h, spares, sub => by
    obtain ⟨key, x, others, part, rfl, rfl, inside, first, next⟩ := h
    refine ⟨key, x, others, part, rfl, rfl, inside.trans sub, first.keep (spares.of_subset inside) subset_rfl, ?_⟩
    exact MirrorsEntries.keep next (spares.of_subset Set.sdiff_subset) (Set.sdiff_subset_sdiff_left sub)

end

theorem MirrorsItems.of_subset {items : List NativeValue} {xs : List Value} {more : Set Ref}
    (h : m.MirrorsItems s items xs among) (sub : among ⊆ more) : m.MirrorsItems s items xs more :=
  h.keep (.refl m among) sub

theorem MirrorsEntries.of_subset {entries : List (NativeValue × NativeValue)} {properties : Properties}
    {more : Set Ref} (h : m.MirrorsEntries s entries properties among) (sub : among ⊆ more) :
    m.MirrorsEntries s entries properties more :=
  h.keep (.refl m among) sub

end Machine

/-! ## Reading mirrors -/

namespace Machine

variable {m m' m₀ : Machine}

theorem Furnishes.track (h : m₀.Furnishes m) (v : Value) : m₀.Furnishes ((Action.track v).run m).2 := by
  cases v with
  | object r => exact h.record r
  | undefined | null | bool | number | text => exact h

theorem Furnishes.hold (h : m₀.Furnishes m) (v : NativeValue) : m₀.Furnishes ((Action.hold v).run m).2 := by
  obtain ⟨holds, eq⟩ := Action.run_hold m v
  rw [eq]
  exact h.of_same rfl rfl rfl rfl (fun _ => rfl) id

end Machine

/-- The collections that a conversion knows. -/
def Visited.known (seen : Visited) : List Ref := seen.map (·.1)

namespace Scope

variable {s : Scope} {m : Machine} {r : Ref} {o : Object} {key : String} {v : Value} {seen : Visited}

/-- Where no exported property comes first, an object is read along its chain. -/
theorem exec_get (unexported : ((m.wrapper? (.object r)).bind (·.table.property? key)) = none) (job : Runner) :
    (s.get (.object r) key).exec job m = (s.getOrdinary r (.object r) key).exec job m := by
  unfold get
  rw [exec_look rfl, unexported]

theorem not_wrapped (ho : m.object? r = some o) (bare : o.wrapper? = none) : m.wrapper? (.object r) = none :=
  (congrArg (Option.bind · Object.wrapper?) ho).trans bare

/-- What wraps nothing exports nothing. -/
theorem unexported_of_bare (ho : m.object? r = some o) (bare : o.wrapper? = none) (key : String) :
    ((m.wrapper? (.object r)).bind (·.table.property? key)) = none := by
  rw [not_wrapped ho bare]
  rfl

/-- Reading gives the object's own data. -/
theorem get_returns {writable : Bool} (ho : m.object? r = some o)
    (unexported : ((m.wrapper? (.object r)).bind (·.table.property? key)) = none)
    (own : o.own? key = some (.data v writable)) :
    (s.get (.object r) key).Returns m v ((Action.track v).run m).2 := fun job =>
  (exec_get unexported job).trans (getOrdinary_returns (Heap.lookup_of_own ho own) job)

theorem getIndex_returns {vs : Array Value} {i : Nat} (payload : m.payload? (.object r) = some (.array vs))
    (at_i : vs[i]? = some v) : (s.getIndex (.object r) i).Returns m v ((Action.track v).run m).2 := by
  obtain ⟨o, ho, kind⟩ := Option.map_eq_some_iff.1 payload
  have ho : m.objectOf? (.object r) = some o := ho
  have plain : o.wrapper? = none := by rw [Object.wrapper?, kind]
  have items : o.items? = some vs := by rw [Object.items?, kind]
  have unwrapped : m.wrapper? (.object r) = none := by
    unfold Machine.wrapper?
    rw [ho]
    exact plain
  unfold getIndex
  refine .look ?_
  rw [unwrapped]
  refine .look ?_
  simp only [ho, items, at_i, Option.bind_some]
  exact .bind .perform .pure

theorem visiting_returns {convert : Visited → Conversion} {w : NativeValue} {seen' : Visited} {m' : Machine}
    (new : r ∉ seen.known) (converts : (convert ((r, none) :: seen)).Returns m (w, seen') m') :
    (visiting r seen convert).Returns m (w, (r, some w) :: seen'.filter (·.1 != r)) m' := by
  have absent : seen.find? (·.1 == r) = none := by
    refine List.find?_eq_none.2 fun e he same => new ?_
    exact List.mem_map.2 ⟨e, he, by simpa using same⟩
  unfold visiting
  rw [absent]
  exact .bind converts .pure

theorem ref_of_payload {x : Value} {p : Payload} (payload : m.payload? x = some p) : ∃ r, x = .object r := by
  cases x with
  | object r => exact ⟨r, rfl⟩
  | undefined | null | bool | number | text => nomatch payload

/-- The length of an array is read as the number that it is. -/
theorem length_returns {vs : Array Value} (payload : m.payload? (.object r) = some (.array vs)) :
    (s.get (.object r) "length").Returns m (.number (.ofNat vs.size)) m := by
  obtain ⟨o, ho, kind⟩ := Option.map_eq_some_iff.1 payload
  have ho : m.object? r = some o := ho
  have bare : o.wrapper? = none := by rw [Object.wrapper?, kind]
  have items : o.items? = some vs := by rw [Object.items?, kind]
  exact get_returns ho (unexported_of_bare ho bare _) (Object.own?_length items)

/-- Part of a conversion gives something with a property. It adds nothing, and knows no further collections
but some. -/
def Reads {α : Type} (c : Routine Fault (α × Visited)) (m : Machine) (P : α → Prop) (seen : Visited)
    (among : Set Ref) : Prop :=
  ∃ a seen' m', c.Returns m (a, seen') m' ∧ P a ∧ m.Extends m' ∧ ∀ r ∈ seen'.known, r ∈ seen.known ∨ r ∈ among

namespace Reads

variable {α β : Type} {P : α → Prop} {Q : β → Prop} {among part : Set Ref} {m' : Machine}

theorem pure {a : α} (steady : m.Steady) (holds : P a) : Reads (Pure.pure (a, seen)) m P seen among :=
  ⟨a, seen, m, .pure, holds, (Machine.Furnishes.refl steady).toExtends, fun _ hr => .inl hr⟩

theorem imp {P Q : α → Prop} {c : Routine Fault (α × Visited)} (weaker : ∀ a, P a → Q a)
    (h : Reads c m P seen among) : Reads c m Q seen among := by
  obtain ⟨a, seen', m', returns, holds, adds, known⟩ := h
  exact ⟨a, seen', m', returns, weaker a holds, adds, known⟩

/-- After a look at the machine, it is still the same. -/
theorem look {γ : Type} {f : Machine → γ} {next : γ → Routine Fault (α × Visited)}
    (h : Reads (next (f m)) m P seen among) : Reads (Routine.read f >>= next) m P seen among := h

/-- What comes before does not read collections. -/
theorem after {γ : Type} {x : Routine Fault γ} {c : γ} {f : γ → Routine Fault (α × Visited)}
    (first : x.Returns m c m') (adds : m.Extends m') (next : Reads (f c) m' P seen among) :
    Reads (x >>= f) m P seen among := by
  obtain ⟨a, seen', m'', returns, holds, adds', known⟩ := next
  exact ⟨a, seen', m'', first.bind returns, holds, adds.trans adds', known⟩

theorem bind {c : Routine Fault (α × Visited)} {f : α × Visited → Routine Fault (β × Visited)}
    (first : Reads c m P seen part) (sub : part ⊆ among)
    (next : ∀ a seen' m', P a → m.Extends m' → (∀ r ∈ seen'.known, r ∈ seen.known ∨ r ∈ part) →
      Reads (f (a, seen')) m' Q seen' (among \ part)) : Reads (c >>= f) m Q seen among := by
  obtain ⟨a, seen', m', returns, holds, adds, known⟩ := first
  obtain ⟨b, seen'', m'', returns', holds', adds', known'⟩ := next a seen' m' holds adds known
  refine ⟨b, seen'', m'', returns.bind returns', holds', adds.trans adds', fun r hr => ?_⟩
  rcases known' r hr with old | new
  · exact (known r old).imp_right fun mem => sub mem
  · exact .inr new.1

/-- A collection that is not known is converted, and known from then on. -/
theorem visiting {convert : Visited → Conversion} {P : NativeValue → Prop} (new : r ∉ seen.known) (mem : r ∈ among)
    (converts : Reads (convert ((r, none) :: seen)) m P ((r, none) :: seen) (among \ {r})) :
    Reads (visiting r seen convert) m P seen among := by
  obtain ⟨w, seen', m', returns, holds, adds, known⟩ := converts
  refine ⟨w, _, m', visiting_returns new returns, holds, adds, fun q hq => ?_⟩
  rcases List.mem_cons.1 hq with rfl | hq
  · exact .inr mem
  · obtain ⟨e, he, rfl⟩ := List.mem_map.1 hq
    rcases known e.1 (List.mem_map_of_mem (List.mem_filter.1 he).1) with old | later
    · rcases List.mem_cons.1 old with same | old
      · rw [same]
        exact .inr mem
      · exact .inl old
    · exact .inr later.1

end Reads

/-- The object behind a wrapper is there. -/
theorem unwrapped_reads {h : Handle} {w : WrapperData} {among : Set Ref} (steady : m.Steady)
    (alive : m.contextAlive s.context = true) (payload : m.payload? (.object r) = some (.wrapper w))
    (context : w.context = s.context) (same : w.native.serial = h.serial) :
    Reads (do return (← unwrapped (.object r), seen)) m (·.Same (.object h)) seen among := by
  obtain ⟨o, ho, kind⟩ := Option.map_eq_some_iff.1 payload
  have ho : m.object? r = some o := ho
  have stands : m.Stands r s.context (.object w.native.serial) :=
    ⟨o, ho, Object.twin?_eq_some.2 (.inl ⟨w, kind, context, rfl⟩)⟩
  obtain ⟨waiting, sound, -⟩ := id steady
  have behind : m.nativeBehind? (.object r) = some w.native := by
    unfold Machine.nativeBehind?
    rw [wrapperState_of_object? ho kind (sound.nativeAlive alive stands)]
  have held := (Machine.Furnishes.refl steady).hold (.object w.native)
  refine .after (c := .object w.native) ?_ held.toExtends
    (.pure (a := NativeValue.object w.native) held.steady same)
  unfold unwrapped
  refine .look ?_
  rw [behind]
  exact .bind .perform .pure

/-- What is converted next is none of the collections that are known. -/
theorem apart_of_new {among : Set Ref} (new : ∀ q ∈ among, q ∉ seen.known) :
    ∀ q ∈ among \ {r}, q ∉ Visited.known ((r, none) :: seen) := by
  intro q hq known
  rcases List.mem_cons.1 known with same | known
  · exact hq.2 same
  · exact new q hq.1 known

theorem apart_of_known {seen' : Visited} {among part : Set Ref} (new : ∀ q ∈ among, q ∉ seen.known)
    (known : ∀ q ∈ seen'.known, q ∈ seen.known ∨ q ∈ part) : ∀ q ∈ among \ part, q ∉ seen'.known := by
  intro q hq mem
  rcases known q mem with old | done
  · exact new q hq.1 old
  · exact hq.2 done

mutual

/-- Reading a value that mirrors a native one gives that, unless it nests too deep. -/
theorem naturalAt_mirrors : ∀ (v : NativeValue) {m : Machine} {x : Value} {seen : Visited} {among : Set Ref}
    {room : Nat}, m.Steady → m.contextAlive s.context = true → m.Mirrors s v x among → v.depth < room →
    (∀ r ∈ among, r ∉ seen.known) → Reads (s.naturalAt room x seen) m (·.Same v) seen among
  | _, _, _, _, _, 0, _, _, _, deep, _ => absurd deep (Nat.not_lt_zero _)
  | .nil, m, x, seen, among, n + 1, steady, _, mirrors, _, _ => by
    obtain rfl : x = .undefined := mirrors
    exact .pure steady trivial
  | .null, m, x, seen, among, n + 1, steady, _, mirrors, _, _ => by
    obtain rfl : x = .null := mirrors
    exact .pure steady trivial
  | .bool b, m, x, seen, among, n + 1, steady, _, mirrors, _, _ => by
    obtain rfl : x = .bool b := mirrors
    exact .pure steady rfl
  | .number a, m, x, seen, among, n + 1, steady, _, mirrors, _, _ => by
    obtain rfl : x = .number a := mirrors
    exact .pure steady rfl
  | .text t, m, x, seen, among, n + 1, steady, _, mirrors, _, _ => by
    obtain rfl : x = .text t := mirrors
    exact .pure steady rfl
  | .array items, m, x, seen, among, n + 1, steady, alive, mirrors, shallow, new => by
    obtain ⟨r, vs, rfl, mem, payload, short, inside⟩ := mirrors
    unfold naturalAt
    refine .look ?_
    rw [payload]
    refine .visiting (new r mem) mem ?_
    refine .after (length_returns payload).lifted (Machine.Furnishes.refl steady).toExtends ?_
    refine .after (c := .ofNat vs.size) .pure (Machine.Furnishes.refl steady).toExtends ?_
    have size : items.length = vs.size := inside.length_eq.trans Array.length_toList
    have length : (Double.ofNat vs.size).uint32.toNat = items.length := by
      rw [Double.uint32_ofNat (Nat.lt_of_le_of_lt short (by decide)), Int.toNat_natCast, size]
    rw [length, if_neg (by omega)]
    refine .bind (arrayItems_mirrors items steady alive payload inside (Nat.le_of_lt_succ shallow) (apart_of_new new))
      subset_rfl ?_
    rintro ws seen' m' ⟨more, rfl, same⟩ adds -
    exact .pure adds.steady same
  | .dictionary entries, m, x, seen, among, n + 1, steady, alive, mirrors, shallow, new => by
    obtain ⟨r, properties, prototype, rfl, mem, found, nodup, inside⟩ := mirrors
    have payload : m.payload? (.object r) = some .ordinary := payload?_of_object? found
    unfold naturalAt
    refine .look ?_
    rw [payload]
    refine .visiting (new r mem) mem ?_
    refine .look ?_
    have keys : ((m.object? r).map Object.keys).getD [] = properties.map (·.1) := by
      rw [found]
      exact inside.keys_eq
    rw [keys]
    refine .bind (dictionaryEntries_mirrors entries steady alive found (fun _ mem => Properties.get?_of_mem nodup mem)
      inside (Nat.le_of_lt_succ shallow) (apart_of_new new)) subset_rfl ?_
    rintro ws seen' m' ⟨more, rfl, same⟩ adds -
    exact .pure adds.steady same
  | .date t, m, x, seen, among, n + 1, steady, _, mirrors, _, _ => by
    obtain ⟨millis, nanos, payload, date⟩ := mirrors
    obtain ⟨r, rfl⟩ := ref_of_payload payload
    unfold naturalAt
    refine .look ?_
    rw [payload]
    exact .pure steady (by rw [date]; rfl)
  | .data bytes, m, x, seen, among, n + 1, steady, _, mirrors, _, _ => by
    obtain ⟨payload, allowed⟩ := mirrors
    obtain ⟨r, rfl⟩ := ref_of_payload payload
    unfold naturalAt
    refine .look ?_
    rw [payload]
    refine .look ?_
    rw [if_pos allowed]
    exact .pure steady rfl
  | .closure c, m, x, seen, among, n + 1, steady, _, mirrors, _, _ => by
    obtain ⟨name, d, id, payload, same⟩ := mirrors
    obtain ⟨r, rfl⟩ := ref_of_payload payload
    unfold naturalAt
    refine .look ?_
    rw [payload]
    exact .pure steady same
  | .object h, m, x, seen, among, n + 1, steady, alive, mirrors, _, _ => by
    obtain ⟨w, payload, context, same⟩ := mirrors
    obtain ⟨r, rfl⟩ := ref_of_payload payload
    unfold naturalAt
    refine .look ?_
    rw [payload]
    exact unwrapped_reads steady alive payload context same
  | .classRef c, m, x, seen, among, n + 1, steady, _, mirrors, _, _ => by
    obtain ⟨name, cls, table, id, payload, same⟩ := mirrors
    obtain ⟨r, rfl⟩ := ref_of_payload payload
    unfold naturalAt
    refine .look ?_
    rw [payload]
    exact .pure steady same
  | .selector _, _, _, _, _, _ + 1, _, _, mirrors, _, _ => nomatch mirrors
  | .script _, _, _, _, _, _ + 1, _, _, mirrors, _, _ => nomatch mirrors

/-- Items are read in order. -/
theorem arrayItems_mirrors : ∀ (items : List NativeValue) {m : Machine} {r : Ref} {vs : Array Value} {index n : Nat}
    {done : List NativeValue} {seen : Visited} {among : Set Ref}, m.Steady → m.contextAlive s.context = true →
    m.payload? (.object r) = some (.array vs) → m.MirrorsItems s items (vs.toList.drop index) among →
    depthOfItems items ≤ n → (∀ r ∈ among, r ∉ seen.known) →
    Reads (s.arrayItems (s.naturalAt n) (.object r) items.length index seen done) m
      (fun ws => ∃ more, ws = done.reverse ++ more ∧ SameItems more items) seen among
  | [], _, _, _, _, _, done, _, _, steady, _, _, _, _, _ =>
    .pure steady ⟨[], (List.append_nil _).symm, trivial⟩
  | v :: rest, m, r, vs, index, n, done, seen, among, steady, alive, payload, mirrors, shallow, new => by
    obtain ⟨x, others, part, split, sub, first, next⟩ := mirrors
    have at_i : vs[index]? = some x := by
      have head : (vs.toList.drop index)[0]? = some x := by rw [split]; rfl
      rwa [List.getElem?_drop, Array.getElem?_toList] at head
    have tail : others = vs.toList.drop (index + 1) := by
      rw [← List.tail_drop, split]
      rfl
    have deep : v.depth < n ∧ depthOfItems rest ≤ n := by
      unfold depthOfItems at shallow
      omega
    have tracked := ((Machine.Furnishes.refl steady).track x).toExtends
    refine .after (getIndex_returns payload at_i).lifted tracked ?_
    refine .bind (naturalAt_mirrors v tracked.steady ((tracked.alive _).trans alive)
      (first.keep (tracked.spares _) subset_rfl) deep.1 fun q hq => new q (sub hq)) sub ?_
    intro w seen' m' same adds known
    have all := tracked.trans adds
    have spares := all.spares among
    have mirrors : m'.MirrorsItems s rest (vs.toList.drop (index + 1)) (among \ part) := by
      rw [← tail]
      exact next.keep (spares.of_subset Set.sdiff_subset) subset_rfl
    refine .imp ?_ (arrayItems_mirrors rest adds.steady ((all.alive _).trans alive) (spares.payloads _ _ payload)
      mirrors deep.2 (apart_of_known new known))
    rintro _ ⟨more, rfl, others⟩
    refine ⟨w :: more, ?_, same, others⟩
    rw [List.reverse_cons, List.append_assoc]
    rfl

/-- Entries are read in order. -/
theorem dictionaryEntries_mirrors : ∀ (entries : List (NativeValue × NativeValue)) {m : Machine} {r : Ref}
    {all properties : Properties} {prototype : Option Ref} {n : Nat} {done : List (NativeValue × NativeValue)}
    {seen : Visited} {among : Set Ref}, m.Steady → m.contextAlive s.context = true →
    m.object? r = some ⟨.ordinary, all, prototype⟩ → (∀ e ∈ properties, all.get? e.1 = some e.2) →
    m.MirrorsEntries s entries properties among → depthOfEntries entries ≤ n → (∀ r ∈ among, r ∉ seen.known) →
    Reads (s.dictionaryEntries (s.naturalAt n) (.object r) (properties.map (·.1)) seen done) m
      (fun ws => ∃ more, ws = done.reverse ++ more ∧ SameEntries more entries) seen among
  | [], _, _, _, _, _, _, done, _, _, steady, _, _, _, mirrors, _, _ => by
    obtain rfl : _ = [] := mirrors
    exact .pure steady ⟨[], (List.append_nil _).symm, trivial⟩
  | (k, v) :: rest, m, r, all, properties, prototype, n, done, seen, among, steady, alive, found, own, mirrors,
      shallow, new => by
    obtain ⟨key, x, others, part, rfl, rfl, sub, first, next⟩ := mirrors
    have plain : (⟨.ordinary, all, prototype⟩ : Object).own? key = some (.data x true) := by
      rw [Object.own?_of_plain rfl, own _ List.mem_cons_self]
      rfl
    have deep : v.depth < n ∧ depthOfEntries rest ≤ n := by
      unfold depthOfEntries at shallow
      omega
    have tracked := ((Machine.Furnishes.refl steady).track x).toExtends
    refine .after (get_returns found (unexported_of_bare found rfl _) plain).lifted tracked ?_
    refine .bind (naturalAt_mirrors v tracked.steady ((tracked.alive _).trans alive)
      (first.keep (tracked.spares _) subset_rfl) deep.1 fun q hq => new q (sub hq)) sub ?_
    intro w seen' m' same adds known
    have grown := tracked.trans adds
    refine .imp ?_ (dictionaryEntries_mirrors rest adds.steady ((grown.alive _).trans alive) (grown.objects _ _ found)
      (fun e he => own e (List.mem_cons_of_mem _ he)) (next.keep (grown.spares _) subset_rfl) deep.2
      (apart_of_known new known))
    rintro _ ⟨more, rfl, others⟩
    refine ⟨(.text key, w) :: more, ?_, rfl, same, others⟩
    rw [List.reverse_cons, List.append_assoc]
    rfl

end

/-- A value that mirrors a native one is that, naturally. -/
theorem toNative_mirrors {x : Value} {among : Set Ref} (steady : m.Steady) (alive : m.contextAlive s.context = true)
    {v : NativeValue} (mirrors : m.Mirrors s v x among) (shallow : v.depth ≤ m.options.maxConversionDepth) :
    ∃ w m', (s.toNative x).Returns m w m' ∧ w.Same v := by
  have reads : Reads (s.naturalAt (m.options.maxConversionDepth + 1) x []) m (·.Same v) [] among :=
    naturalAt_mirrors v steady alive mirrors (Nat.lt_succ_of_le shallow) fun _ _ => List.not_mem_nil
  obtain ⟨w, seen', m', returns, same, -, -⟩ := reads
  refine ⟨w, m', ?_, same⟩
  cases x with
  | object r => exact toNative_returns seen' returns
  | undefined | null | bool | number | text =>
    have first : ((s.naturalAt _ _ []) >>= fun p => pure p.1).Returns m w m' := returns.bind .pure
    exact first

end Scope

end ScriptBridge
