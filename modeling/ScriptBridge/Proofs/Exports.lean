import ScriptBridge.Declare.Export

/-!
# What a class exports

What scripts may run of a class, said by its declarations and not by its export table.

* `Class.Adopts`: a protocol that the class or an ancestor adopts, or one above such a protocol.
* `Class.Grants`: the operations that scripts may run, each with how it is reached and with how many
  arguments: what an exported protocol declares that the class adopts (`Class.Declares`).
* `ExportTable.Of`: a table lists only what a class grants. `ExportTable.build_of`: what a class builds
  does, and `Class.Offers.mono`: what an ancestor grants, the class grants.
* `Protocol.Fits`: methods take as many arguments as their selectors say. `Protocol.declare` refuses all
  others (`Protocol.fits_declare`). Accessors of properties are not checked.

Proof-only: not reachable from `ScriptBridge.Session.Run`.
-/

namespace ScriptBridge

/-- What two steps together give, the second gives after the first. -/
theorem Except.bind_eq_ok {α β ε : Type} {x : Except ε α} {f : α → Except ε β} {b : β} :
    (x >>= f) = .ok b ↔ ∃ a, x = .ok a ∧ f a = .ok b := by
  cases x with
  | error e => exact ⟨nofun, nofun⟩
  | ok a => exact ⟨fun h => ⟨a, rfl, h⟩, fun ⟨a', same, h⟩ => Except.ok.inj same ▸ h⟩

/-- What every step keeps, a run that ends well keeps. -/
theorem foldlM_keeps {α β ε : Type} {f : β → α → Except ε β} (P : β → Prop) {l : List α} {b b' : β}
    (step : ∀ a ∈ l, ∀ b b', f b a = .ok b' → P b → P b') (start : P b) (run : l.foldlM f b = .ok b') : P b' := by
  induction l generalizing b with
  | nil =>
    obtain rfl : b = b' := Except.ok.inj run
    exact start
  | cons a l ih =>
    rw [List.foldlM_cons] at run
    obtain ⟨b₁, first, rest⟩ := Except.bind_eq_ok.1 run
    exact ih (fun a' mem => step a' (List.mem_cons_of_mem a mem)) (step a List.mem_cons_self b b₁ first start) rest

namespace Protocol

variable {p q r : Protocol}

/-- The second protocol is the first, or stands above it. -/
inductive Inherits : Protocol → Protocol → Prop
  | refl (p : Protocol) : Inherits p p
  | step {p q r : Protocol} (parent : q ∈ p.parents) (above : Inherits q r) : Inherits p r

mutual

/-- Collecting a protocol adds nothing but what it inherits. -/
theorem inherits_of_mem_collect (p : Protocol) {q : Protocol} {out : List Protocol} (mem : q ∈ collect out p) :
    q ∈ out ∨ p.Inherits q := by
  obtain ⟨id, name, parents, marked, methods, properties, renames⟩ := p
  unfold collect at mem
  split at mem
  · exact .inl mem
  · rcases inherits_of_mem_collectAll parents mem with mem | ⟨parent, listed, above⟩
    · rcases List.mem_append.1 mem with mem | same
      · exact .inl mem
      · exact .inr (List.mem_singleton.1 same ▸ .refl _)
    · exact .inr (.step listed above)

theorem inherits_of_mem_collectAll (ps : List Protocol) {q : Protocol} {out : List Protocol}
    (mem : q ∈ collectAll out ps) : q ∈ out ∨ ∃ p ∈ ps, p.Inherits q := by
  cases ps with
  | nil => exact .inl mem
  | cons p ps =>
    unfold collectAll at mem
    rcases inherits_of_mem_collectAll ps mem with mem | ⟨p', listed, above⟩
    · rcases inherits_of_mem_collect p mem with mem | above
      · exact .inl mem
      · exact .inr ⟨p, List.mem_cons_self, above⟩
    · exact .inr ⟨p', List.mem_cons_of_mem p listed, above⟩

end

/-- The methods of a protocol, and of those above it, take as many arguments as their selectors say. -/
def Fits (p : Protocol) : Prop := ∀ q, p.Inherits q → ∀ d ∈ q.methods, d.signature.arity = d.selector.arity

theorem fits_of_parents (own : ∀ d ∈ p.methods, d.signature.arity = d.selector.arity)
    (parents : ∀ q ∈ p.parents, q.Fits) : p.Fits := by
  intro r inherits
  cases inherits with
  | refl => exact own
  | step parent above => exact parents _ parent r above

end Protocol

/-! ## Declaring -/

namespace Protocol

/-- The methods of a draft take as many arguments as their selectors say. -/
def Draft.Fits (d : Draft) : Prop := ∀ m ∈ d.methods, m.signature.arity = m.selector.arity

theorem Draft.Fits.addMethod {d d' : Draft} {kind : MethodKind} {selector types : String} (fits : d.Fits)
    (added : d.addMethod kind selector types = .ok d') : d'.Fits := by
  unfold Draft.addMethod at added
  split at added
  · nomatch added
  · rename_i signature _
    by_cases same : signature.arity = Selector.arity ⟨selector⟩
    · simp only [same, ne_eq, not_true_eq_false, if_false] at added
      obtain rfl := Except.ok.inj added
      intro m mem
      rcases List.mem_append.1 mem with mem | new
      · exact fits m mem
      · exact List.mem_singleton.1 new ▸ same
    · simp only [same, ne_eq, not_false_eq_true, if_true] at added
      nomatch added

/-- A property adds no method, whatever its accessors take. -/
theorem Draft.Fits.addProperty {d d' : Draft} {name encoding : String} {getter : Selector} {setter : Option Selector}
    (fits : d.Fits) (added : d.addProperty name encoding getter setter = .ok d') : d'.Fits := by
  unfold Draft.addProperty at added
  split at added
  · nomatch added
  · obtain rfl := Except.ok.inj added
    exact fits

theorem Draft.Fits.add {d d' : Draft} {item : Program.DeclareItem} (fits : d.Fits) (added : d.add item = .ok d') :
    d'.Fits := by
  cases item with
  | method | classMethod | initializer => exact fits.addMethod added
  | property | readonly | accessors => exact fits.addProperty added
  | exportAs | exportNullaryAs =>
    obtain rfl := Except.ok.inj added
    exact fits

/-- Renames change nothing else. -/
theorem addRenames_eq {p p' : Protocol} {rs : List (Rename × Bool)} (added : p.addRenames rs = .ok p') :
    ∃ renames, p' = { p with renames } := by
  induction rs generalizing p with
  | nil =>
    obtain rfl := Except.ok.inj added
    obtain ⟨id, name, parents, marked, methods, properties, renames⟩ := p
    exact ⟨renames, rfl⟩
  | cons r rs ih =>
    obtain ⟨r, nullary⟩ := r
    unfold addRenames at added
    split at added
    · nomatch added
    · obtain ⟨renames, eq⟩ := ih added
      exact ⟨renames, eq⟩

/-- A declared protocol has methods that fit, if its parents have. -/
theorem fits_declare {id : Nat} {name : String} {parents : List Protocol} {marked : Bool}
    {items : List Program.DeclareItem} {p : Protocol} (above : ∀ q ∈ parents, q.Fits)
    (declared : declare id name parents marked items = .ok p) : p.Fits := by
  obtain ⟨d, draft, renamed⟩ := Except.bind_eq_ok.1 declared
  have fits : d.Fits :=
    foldlM_keeps Draft.Fits (fun _ _ _ _ added fits => fits.add added) (fun m mem => by simp at mem) draft
  obtain ⟨renames, rfl⟩ := addRenames_eq renamed
  exact fits_of_parents fits above

end Protocol

/-! ## Classes -/

namespace Class

variable {c a b : Class} {kind : MethodKind} {m : ExportedMethod} {d : PropertyDeclaration}

theorem ancestors_eq (c : Class) : c.ancestors = c :: (c.superclass.elim [] ancestors) := by
  obtain ⟨id, key, name, superclass, protocols, instanceMethods, classMethods, factory⟩ := c
  cases superclass <;> rw [ancestors] <;> rfl

theorem mem_ancestors_self (c : Class) : c ∈ c.ancestors := by
  rw [ancestors_eq]
  exact List.mem_cons_self

theorem mem_ancestors_iff : a ∈ c.ancestors ↔ a = c ∨ ∃ s, c.superclass = some s ∧ a ∈ s.ancestors := by
  rw [ancestors_eq]
  cases c.superclass <;> simp

/-- The ancestors of an ancestor are ancestors. -/
theorem ancestors_trans {a b : Class} (c : Class) (first : a ∈ c.ancestors) (next : b ∈ a.ancestors) :
    b ∈ c.ancestors := by
  obtain ⟨id, key, name, superclass, protocols, instanceMethods, classMethods, factory⟩ := c
  rcases mem_ancestors_iff.1 first with rfl | ⟨s, super, mem⟩
  · exact next
  · cases superclass with
    | none => nomatch super
    | some superclass =>
      obtain rfl : superclass = s := Option.some.inj super
      exact mem_ancestors_iff.2 (.inr ⟨superclass, rfl, ancestors_trans superclass mem next⟩)
termination_by structural c

/-- The class or an ancestor adopts a protocol, or one below it. -/
def Adopts (c : Class) (p : Protocol) : Prop := ∃ a ∈ c.ancestors, ∃ q ∈ a.protocols, q.Inherits p

theorem Adopts.mono {p : Protocol} (adopts : a.Adopts p) (ancestor : a ∈ c.ancestors) : c.Adopts p := by
  obtain ⟨b, mem, adopted⟩ := adopts
  exact ⟨b, ancestors_trans c ancestor mem, adopted⟩

theorem adopts_of_mem_allProtocols {p : Protocol} (mem : p ∈ c.allProtocols) : c.Adopts p := by
  have each (as : List Class) (out : List Protocol)
      (mem : p ∈ as.foldl (fun out a => Protocol.collectAll out a.protocols) out) :
      p ∈ out ∨ ∃ a ∈ as, ∃ q ∈ a.protocols, q.Inherits p := by
    induction as generalizing out with
    | nil => exact .inl mem
    | cons a as ih =>
      rcases ih _ mem with mem | ⟨a', listed, adopted⟩
      · exact (Protocol.inherits_of_mem_collectAll a.protocols mem).imp_right fun adopted =>
          ⟨a, List.mem_cons_self, adopted⟩
      · exact .inr ⟨a', List.mem_cons_of_mem a listed, adopted⟩
  exact (each c.ancestors [] mem).resolve_left List.not_mem_nil

/-- The operations of a class that scripts may run: with how each is reached, its selector and the number
of arguments that it gets. An exported protocol that the class adopts declares it, as a method, or as the
getter or the setter of a property. -/
inductive Grants (c : Class) : MethodKind → Selector → Nat → Prop
  | method {p : Protocol} {d : MethodDeclaration} (adopts : c.Adopts p) (exported : p.isExported = true)
    (mem : d ∈ p.methods) : Grants c d.kind d.selector d.selector.arity
  | getter {p : Protocol} {d : PropertyDeclaration} (adopts : c.Adopts p) (exported : p.isExported = true)
    (mem : d ∈ p.properties) : Grants c .onInstance d.getter 0
  | setter {p : Protocol} {d : PropertyDeclaration} {s : Selector} (adopts : c.Adopts p)
    (exported : p.isExported = true) (mem : d ∈ p.properties) (setter : d.setter = some s) : Grants c .onInstance s 1

/-- An exported protocol that the class adopts declares the selector: as an operation of a kind, or as the getter
or the setter of a property. -/
def Declares (c : Class) (kind : MethodKind) (s : Selector) : Prop :=
  ∃ p, c.Adopts p ∧ p.isExported = true ∧
    ((∃ d ∈ p.methods, d.kind = kind ∧ d.selector = s) ∨
      kind = .onInstance ∧ ∃ d ∈ p.properties, d.getter = s ∨ d.setter = some s)

theorem Grants.declares {s : Selector} {count : Nat} (grants : c.Grants kind s count) : c.Declares kind s := by
  cases grants with
  | method adopts exported mem => exact ⟨_, adopts, exported, .inl ⟨_, mem, rfl, rfl⟩⟩
  | getter adopts exported mem => exact ⟨_, adopts, exported, .inr ⟨rfl, _, mem, .inl rfl⟩⟩
  | setter adopts exported mem setter => exact ⟨_, adopts, exported, .inr ⟨rfl, _, mem, .inr setter⟩⟩

/-- A selector is an accessor of an exported property that the class adopts, and gets so many arguments: the
getter none, the setter the value. -/
def IsAccessor (c : Class) (s : Selector) (count : Nat) : Prop :=
  ∃ p, c.Adopts p ∧ p.isExported = true ∧ ∃ d ∈ p.properties, d.getter = s ∧ count = 0 ∨ d.setter = some s ∧ count = 1

/-- What is no accessor gets as many arguments as its selector takes. -/
theorem Grants.count {s : Selector} {count : Nat} (grants : c.Grants kind s count) :
    count = s.arity ∨ kind = .onInstance ∧ c.IsAccessor s count := by
  cases grants with
  | method => exact .inl rfl
  | getter adopts exported mem => exact .inr ⟨rfl, _, adopts, exported, _, mem, .inl ⟨rfl, rfl⟩⟩
  | setter adopts exported mem setter => exact .inr ⟨rfl, _, adopts, exported, _, mem, .inr ⟨setter, rfl⟩⟩

/-- An exported protocol that the class adopts declares the method. -/
def Offers (c : Class) (kind : MethodKind) (m : ExportedMethod) : Prop :=
  ∃ p, c.Adopts p ∧ p.isExported = true ∧
    ∃ d ∈ p.methods, d.kind = kind ∧ d.selector = m.selector ∧ d.signature = m.signature

/-- An exported protocol that the class adopts declares the property. -/
def OffersProperty (c : Class) (d : PropertyDeclaration) : Prop :=
  ∃ p, c.Adopts p ∧ p.isExported = true ∧ d ∈ p.properties

/-- What an ancestor offers, the class offers. -/
theorem Offers.mono (offers : a.Offers kind m) (ancestor : a ∈ c.ancestors) : c.Offers kind m := by
  obtain ⟨p, adopts, declared⟩ := offers
  exact ⟨p, adopts.mono ancestor, declared⟩

theorem Offers.grants (offers : c.Offers kind m) : c.Grants kind m.selector m.selector.arity := by
  obtain ⟨p, adopts, exported, d, mem, rfl, selector, -⟩ := offers
  rw [← selector]
  exact .method adopts exported mem

theorem OffersProperty.getter (offers : c.OffersProperty d) : c.Grants .onInstance d.getter 0 := by
  obtain ⟨p, adopts, exported, mem⟩ := offers
  exact .getter adopts exported mem

theorem OffersProperty.setter {s : Selector} (offers : c.OffersProperty d) (setter : d.setter = some s) :
    c.Grants .onInstance s 1 := by
  obtain ⟨p, adopts, exported, mem⟩ := offers
  exact .setter adopts exported mem setter

/-- The methods of all protocols that the class adopts take as many arguments as their selectors say. -/
def Fits (c : Class) : Prop := ∀ p, c.Adopts p → ∀ d ∈ p.methods, d.signature.arity = d.selector.arity

theorem Fits.arity (fits : c.Fits) (offers : c.Offers kind m) : m.signature.arity = m.selector.arity := by
  obtain ⟨p, adopts, -, d, mem, -, selector, signature⟩ := offers
  rw [← selector, ← signature]
  exact fits p adopts d mem

theorem fits_of_super (own : ∀ p ∈ c.protocols, p.Fits) (super : ∀ s, c.superclass = some s → s.Fits) : c.Fits := by
  rintro p ⟨a, mem, q, adopted, inherits⟩
  rcases mem_ancestors_iff.1 mem with rfl | ⟨s, isSuper, mem⟩
  · exact own q adopted p inherits
  · exact super s isSuper p ⟨a, mem, q, adopted, inherits⟩

end Class

/-! ## Tables -/

namespace ExportTable

variable {c : Class} {t t' : ExportTable}

/-- A table lists only what a class offers, and only the methods of subscripts as such. -/
structure Of (t : ExportTable) (c : Class) : Prop where
  instanceMethods : ∀ m ∈ t.instanceMethods, c.Offers .onInstance m
  classMethods : ∀ m ∈ t.classMethods, c.Offers .onClass m
  initializers : ∀ m ∈ t.initializers, c.Offers .initializer m
  properties : ∀ d ∈ t.properties, c.OffersProperty d
  indexGetter : ∀ m, t.indexGetter = some m → c.Offers .onInstance m ∧ m.selector = indexGetterSelector
  indexSetter : ∀ m, t.indexSetter = some m → c.Offers .onInstance m ∧ m.selector = indexSetterSelector

theorem mem_insertUnique {className : String} {methods methods' : List ExportedMethod} {m m' : ExportedMethod}
    (inserted : insertUnique className methods m = .ok methods') (mem : m' ∈ methods') : m' ∈ methods ∨ m' = m := by
  unfold insertUnique at inserted
  split at inserted
  · obtain rfl := Except.ok.inj inserted
    exact (List.mem_append.1 mem).imp_right List.mem_singleton.1
  · split at inserted
    · obtain rfl := Except.ok.inj inserted
      exact .inl mem
    · nomatch inserted

theorem Of.addMethod {renames : List Rename} {d : MethodDeclaration} {p : Protocol} (of : t.Of c) (adopts : c.Adopts p)
    (exported : p.isExported = true) (mem : d ∈ p.methods) (added : t.addMethod renames d = .ok t') : t'.Of c := by
  have offers {m : ExportedMethod} (kind : MethodKind) (same : d.kind = kind) (selector : m.selector = d.selector)
      (signature : m.signature = d.signature) : c.Offers kind m :=
    ⟨p, adopts, exported, d, mem, same, selector.symm, signature.symm⟩
  unfold ExportTable.addMethod at added
  split at added
  · rename_i kind
    split at added <;> obtain rfl := Except.ok.inj added
    · exact of
    · refine { of with initializers := fun m mem => ?_ }
      rcases List.mem_append.1 mem with mem | new
      · exact of.initializers m mem
      · exact List.mem_singleton.1 new ▸ offers .initializer kind rfl rfl
  · rename_i kind
    obtain ⟨methods, inserted, result⟩ := Except.bind_eq_ok.1 added
    obtain rfl := Except.ok.inj result
    refine { of with instanceMethods := fun m mem => ?_, indexGetter := fun m is => ?_, indexSetter := fun m is => ?_ }
    · rcases mem_insertUnique inserted mem with mem | rfl
      · exact of.instanceMethods m mem
      · exact offers .onInstance kind rfl rfl
    · dsimp only at is
      split at is
      · rename_i same
        obtain rfl := Option.some.inj is
        exact ⟨offers .onInstance kind rfl rfl, same⟩
      · exact of.indexGetter m is
    · dsimp only at is
      split at is
      · rename_i same
        obtain rfl := Option.some.inj is
        exact ⟨offers .onInstance kind rfl rfl, same⟩
      · exact of.indexSetter m is
  · rename_i kind
    obtain ⟨methods, inserted, result⟩ := Except.bind_eq_ok.1 added
    obtain rfl := Except.ok.inj result
    refine { of with classMethods := fun m mem => ?_ }
    rcases mem_insertUnique inserted mem with mem | rfl
    · exact of.classMethods m mem
    · exact offers .onClass kind rfl rfl

theorem Of.addProperty {d : PropertyDeclaration} (of : t.Of c) (offers : c.OffersProperty d) :
    (t.addProperty d).Of c := by
  unfold ExportTable.addProperty
  split
  · exact of
  · refine { of with properties := fun d' mem => ?_ }
    rcases List.mem_append.1 mem with mem | new
    · exact of.properties d' mem
    · exact List.mem_singleton.1 new ▸ offers

theorem Of.addProtocol {renames : List Rename} {p : Protocol} (of : t.Of c) (adopts : c.Adopts p)
    (exported : p.isExported = true) (added : t.addProtocol renames p = .ok t') : t'.Of c := by
  obtain ⟨t₁, methods, result⟩ := Except.bind_eq_ok.1 added
  have of₁ : t₁.Of c :=
    foldlM_keeps (·.Of c) (fun d mem _ _ added of => of.addMethod adopts exported mem added) of methods
  obtain rfl := Except.ok.inj result
  exact List.foldlRecOn (motive := (·.Of c)) p.properties ExportTable.addProperty of₁ fun t of d mem =>
    of.addProperty ⟨p, adopts, exported, mem⟩

/-- The table that a class builds lists only what the class offers. -/
theorem build_of (built : build c = .ok t) : t.Of c := by
  have empty : ({ className := c.name } : ExportTable).Of c :=
    ⟨nofun, nofun, nofun, nofun, nofun, nofun⟩
  refine foldlM_keeps (·.Of c) (fun p mem _ _ added of => ?_) empty built
  obtain ⟨mem, exported⟩ := List.mem_filter.1 mem
  exact of.addProtocol (Class.adopts_of_mem_allProtocols mem) exported added

end ExportTable

end ScriptBridge
