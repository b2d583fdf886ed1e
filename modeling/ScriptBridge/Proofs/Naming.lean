import Mathlib.Data.List.Nodup
import Mathlib.Data.List.Pairwise
import ScriptBridge.Proofs.Exports

/-!
# Which declarations are exported, and under which names

Protocols of a class may declare an operation again, and rename a selector again. `ExportTable.build`
goes through them from the nearest to the farthest.

* `Firsts`: a list of the first elements with each key.
* `ExportTable.Lists`: what a table lists after declarations, with its step `Lists.addMethod` and its run
  `ExportTable.build_lists`.
* `ExportTable.build_takes`: each operation is taken from the nearest protocol that declares it, and each
  property. The farthest protocol that renames a selector names it, and the farthest declaration of a
  subscript method reads or writes subscripts.
* `ExportTable.build_names`: a table fails exactly where two operations of a kind have one name, and else
  pairs selectors with names.

Proof-only: not reachable from `ScriptBridge.Session.Run`.
-/

namespace ScriptBridge

/-- A run over a list ends well or fails. What steps keep of the elements so far holds at its end, and of a failure
what steps say of it. -/
theorem foldlM_rule {α β ε : Type} {f : β → α → Except ε β} {P : List α → β → Prop} {Q : List α → ε → Prop}
    (step : ∀ past a b, P past b →
      (∃ b', f b a = .ok b' ∧ P (past ++ [a]) b') ∨ ∃ e, f b a = .error e ∧ Q (past ++ [a]) e)
    (later : ∀ past more e, Q past e → Q (past ++ more) e) {past : List α} {b : β} (start : P past b) (l : List α) :
    (∃ b', l.foldlM f b = .ok b' ∧ P (past ++ l) b') ∨ ∃ e, l.foldlM f b = .error e ∧ Q (past ++ l) e := by
  induction l generalizing past b with
  | nil => exact .inl ⟨b, rfl, by rwa [List.append_nil]⟩
  | cons a l ih =>
    rw [List.foldlM_cons, ← List.singleton_append, ← List.append_assoc]
    rcases step past a b start with ⟨b₁, first, keeps⟩ | ⟨e, fails, tells⟩
    · rw [first]
      exact ih keeps
    · rw [fails]
      exact .inr ⟨e, rfl, later _ l e tells⟩

/-- Where all that is found is the same, a search finds what there is, in any order. -/
theorem findSome?_eq_some_iff_of_alike {α β : Type} {f : α → Option β} {l : List α} {b : β}
    (alike : ∀ a ∈ l, ∀ a' ∈ l, ∀ b b', f a = some b → f a' = some b' → b = b') :
    l.findSome? f = some b ↔ ∃ a ∈ l, f a = some b := by
  refine ⟨List.exists_of_findSome?_eq_some, fun ⟨a, mem, found⟩ => ?_⟩
  cases first : l.findSome? f with
  | none => exact absurd found (by simp [List.findSome?_eq_none_iff.1 first a mem])
  | some b' =>
    obtain ⟨a', mem', found'⟩ := List.exists_of_findSome?_eq_some first
    exact congrArg some (alike a' mem' a mem b' b found' found)

/-- Such a search finds the same in another order. -/
theorem findSome?_eq_of_alike {α β : Type} {f : α → Option β} {l l' : List α} (same : ∀ a, a ∈ l' ↔ a ∈ l)
    (alike : ∀ a ∈ l, ∀ a' ∈ l, ∀ b b', f a = some b → f a' = some b' → b = b') :
    l'.findSome? f = l.findSome? f := by
  refine Option.ext fun b => ?_
  rw [findSome?_eq_some_iff_of_alike alike, findSome?_eq_some_iff_of_alike]
  · simp only [same]
  · exact fun a mem a' mem' => alike a ((same a).1 mem) a' ((same a').1 mem')

/-! ## Firsts -/

/-- The elements of a list that are the first with their key. -/
structure Firsts {α κ : Type} [DecidableEq κ] (key : α → κ) (all firsts : List α) : Prop where
  once : (firsts.map key).Nodup
  find : ∀ k, firsts.find? (key · == k) = all.find? (key · == k)

namespace Firsts

variable {α κ : Type} [DecidableEq κ] {key : α → κ} {all firsts : List α} {a b : α}

theorem nil : Firsts key [] [] := ⟨List.nodup_nil, fun _ => rfl⟩

theorem mem (h : Firsts key all firsts) (mem : a ∈ firsts) : all.find? (key · == key a) = some a := by
  rw [← h.find]
  cases found : firsts.find? (key · == key a) with
  | none => exact absurd (List.find?_eq_none.1 found a mem) (by simp)
  | some b =>
    have same : key b = key a := by simpa using List.find?_some found
    exact congrArg some (List.inj_on_of_nodup_map h.once (List.mem_of_find?_eq_some found) mem same)

theorem mem_all (h : Firsts key all firsts) (mem : a ∈ firsts) : a ∈ all := List.mem_of_find?_eq_some (h.mem mem)

/-- Each key of the list is there. -/
theorem mem_keys (h : Firsts key all firsts) (k : κ) : k ∈ firsts.map key ↔ k ∈ all.map key := by
  have found (l : List α) : k ∈ l.map key ↔ (l.find? (key · == k)).isSome = true := by simp
  rw [found, found, h.find]

theorem add (h : Firsts key all firsts) (new : key a ∉ firsts.map key) : Firsts key (all ++ [a]) (firsts ++ [a]) where
  once := by
    rw [List.map_append]
    exact h.once.append (List.nodup_singleton _) (List.disjoint_singleton.2 new)
  find k := by rw [List.find?_append, List.find?_append, h.find]

theorem skip (h : Firsts key all firsts) (old : key a ∈ firsts.map key) : Firsts key (all ++ [a]) firsts where
  once := h.once
  find k := by
    rw [List.find?_append, h.find]
    cases found : all.find? (key · == k) with
    | some b => rfl
    | none =>
      have other : key a ≠ k := by
        rintro rfl
        obtain ⟨b, mem, same⟩ := List.mem_map.1 ((h.mem_keys _).1 old)
        exact List.find?_eq_none.1 found b mem (by simp [same])
      simp [other]

end Firsts

/-! ## Declarations of a class -/

/-- The last name that a protocol gives to a selector. -/
def Protocol.renamed? (p : Protocol) (s : Selector) : Option String :=
  (p.renames.reverse.find? (·.selector == s)).map (·.name)

/-- The declaration is one of an operation: of a kind, with a selector. -/
def MethodDeclaration.declares (kind : MethodKind) (s : Selector) (d : MethodDeclaration) : Bool :=
  decide (d.kind = kind ∧ d.selector = s)

namespace Class

variable {c : Class} {kind : MethodKind} {s : Selector}

/-- The methods that exported protocols declare, those of the nearest first. -/
def exportedMethods (c : Class) : List MethodDeclaration := c.exportedProtocols.flatMap (·.methods)

/-- The properties that exported protocols declare, those of the nearest first. -/
def exportedProperties (c : Class) : List PropertyDeclaration := c.exportedProtocols.flatMap (·.properties)

/-- The renames of exported protocols, those of the nearest first. -/
def exportedRenames (c : Class) : List Rename := c.exportedProtocols.flatMap (·.renames)

/-- An exported protocol declares the operation. -/
def Exposes (c : Class) (kind : MethodKind) (s : Selector) : Prop :=
  ∃ p ∈ c.exportedProtocols, ∃ d ∈ p.methods, d.kind = kind ∧ d.selector = s

/-- The declaration of an operation in the nearest exported protocol that has one. -/
def nearest? (c : Class) (kind : MethodKind) (s : Selector) : Option MethodDeclaration :=
  c.exportedProtocols.findSome? fun p => p.methods.find? (·.declares kind s)

/-- The last declaration of an operation in the farthest exported protocol that has one. -/
def farthest? (c : Class) (kind : MethodKind) (s : Selector) : Option MethodDeclaration :=
  c.exportedProtocols.reverse.findSome? fun p => p.methods.reverse.find? (·.declares kind s)

/-- The name of a selector in the nearest exported protocol that renames it, or its own name. -/
def nearestName (c : Class) (s : Selector) : String :=
  (c.exportedProtocols.findSome? (·.renamed? s)).getD s.scriptName

/-- The name of a selector in the farthest exported protocol that renames it, or its own name. -/
def farthestName (c : Class) (s : Selector) : String :=
  (c.exportedProtocols.reverse.findSome? (·.renamed? s)).getD s.scriptName

/-- The property of a name in the nearest exported protocol that declares one. -/
def nearestProperty? (c : Class) (name : String) : Option PropertyDeclaration :=
  c.exportedProtocols.findSome? fun p => p.properties.find? (·.name == name)

/-- Exported protocols that rename a selector agree on its name. -/
def RenamesAlike (c : Class) (s : Selector) : Prop :=
  ∀ p ∈ c.exportedProtocols, ∀ q ∈ c.exportedProtocols, ∀ n n', p.renamed? s = some n → q.renamed? s = some n' → n = n'

/-- Exported protocols that declare an operation agree on its signature. -/
def DeclaresAlike (c : Class) (kind : MethodKind) (s : Selector) : Prop :=
  ∀ d ∈ c.exportedMethods, ∀ d' ∈ c.exportedMethods, d.declares kind s = true → d'.declares kind s = true →
    d.signature = d'.signature

/-- No two exported protocols rename the same selector. -/
def RenamesApart (c : Class) : Prop :=
  c.exportedProtocols.Pairwise fun p q => ∀ r ∈ p.renames, ∀ r' ∈ q.renames, r.selector ≠ r'.selector

theorem exposes_iff : c.Exposes kind s ↔ ∃ d ∈ c.exportedMethods, d.kind = kind ∧ d.selector = s := by
  unfold Exposes exportedMethods
  simp only [List.mem_flatMap]
  constructor
  · rintro ⟨p, listed, d, mem, is⟩
    exact ⟨d, ⟨p, listed, mem⟩, is⟩
  · rintro ⟨d, ⟨p, listed, mem⟩, is⟩
    exact ⟨p, listed, d, mem, is⟩

theorem nearest?_eq : c.nearest? kind s = c.exportedMethods.find? (·.declares kind s) := List.find?_flatMap.symm

theorem farthest?_eq : c.farthest? kind s = c.exportedMethods.reverse.find? (·.declares kind s) := by
  rw [exportedMethods, List.reverse_flatMap, List.find?_flatMap]
  rfl

theorem nearestProperty?_eq {name : String} : c.nearestProperty? name = c.exportedProperties.find? (·.name == name) :=
  List.find?_flatMap.symm

/-- The last of all renames is the last one of the farthest protocol. -/
theorem exportedName_eq : ExportTable.exportedName c.exportedRenames = c.farthestName := by
  funext s
  have last : (c.exportedRenames.reverse.find? (·.selector == s)).map (·.name) =
      c.exportedProtocols.reverse.findSome? (·.renamed? s) := by
    rw [exportedRenames, List.reverse_flatMap, List.find?_flatMap, List.map_findSome?]
    rfl
  unfold ExportTable.exportedName farthestName
  rw [← last]
  cases c.exportedRenames.reverse.find? (·.selector == s) <;> rfl

theorem farthestName_eq_nearestName (alike : c.RenamesAlike s) : c.farthestName s = c.nearestName s := by
  unfold farthestName nearestName
  rw [findSome?_eq_of_alike (fun p => List.mem_reverse) alike]

theorem RenamesApart.alike (apart : c.RenamesApart) (s : Selector) : c.RenamesAlike s := by
  let Agree (p q : Protocol) : Prop := ∀ n n', p.renamed? s = some n → q.renamed? s = some n' → n = n'
  have symm : Std.Symm Agree := ⟨fun p q agree n n' hn hn' => (agree n' n hn' hn).symm⟩
  have self (p : Protocol) : Agree p p := fun n n' hn hn' => Option.some.inj (hn.symm.trans hn')
  have pairs : c.exportedProtocols.Pairwise Agree := by
    refine apart.imp fun {p q} other n n' hn hn' => ?_
    obtain ⟨r, found, -⟩ := Option.map_eq_some_iff.1 hn
    obtain ⟨r', found', -⟩ := Option.map_eq_some_iff.1 hn'
    have same : r.selector = s := by simpa using List.find?_some found
    have same' : r'.selector = s := by simpa using List.find?_some found'
    have mem := List.mem_reverse.1 (List.mem_of_find?_eq_some found)
    have mem' := List.mem_reverse.1 (List.mem_of_find?_eq_some found')
    exact absurd (same.trans same'.symm) (other r mem r' mem')
  exact fun p mem q mem' => pairs.forall_of_forall (fun p _ => self p) mem mem'

end Class

/-! ## Tables -/

/-- A declared method as the table of a class lists it. -/
def MethodDeclaration.entry (c : Class) (d : MethodDeclaration) : ExportedMethod :=
  ⟨c.farthestName d.selector, d.selector, d.signature⟩

/-- A clash is one of two selectors that are declared with a kind and have one name in a class. -/
structure NameClash.Of (clash : NameClash) (c : Class) (ds : List MethodDeclaration) : Prop where
  className : clash.className = c.name
  differ : clash.first ≠ clash.second
  first : c.farthestName clash.first = clash.name
  second : c.farthestName clash.second = clash.name
  declared : ∃ kind, kind ≠ .initializer ∧ (∃ d ∈ ds, d.kind = kind ∧ d.selector = clash.first) ∧
    ∃ d ∈ ds, d.kind = kind ∧ d.selector = clash.second

theorem NameClash.Of.mono {clash : NameClash} {c : Class} {ds ds' : List MethodDeclaration} (of : clash.Of c ds)
    (more : ds ⊆ ds') : clash.Of c ds' := by
  obtain ⟨kind, named, ⟨d, mem, is⟩, d', mem', is'⟩ := of.declared
  exact { of with declared := ⟨kind, named, ⟨d, more mem, is⟩, d', more mem', is'⟩ }

namespace ExportTable

variable {c : Class} {t t' : ExportTable} {kind : MethodKind} {ds : List MethodDeclaration}
  {qs : List PropertyDeclaration} {d : MethodDeclaration} {m : ExportedMethod} {s : Selector}

/-- The methods that a table lists, by how they are reached. -/
def methods (t : ExportTable) : MethodKind → List ExportedMethod
  | .onInstance => t.instanceMethods
  | .onClass => t.classMethods
  | .initializer => t.initializers

/-- The method that a table lists for a selector. -/
def listed? (t : ExportTable) (kind : MethodKind) (s : Selector) : Option ExportedMethod :=
  (t.methods kind).find? (·.selector == s)

/-- The declarations of a kind, as the table of a class lists them. -/
def entries (c : Class) (kind : MethodKind) (ds : List MethodDeclaration) : List ExportedMethod :=
  (ds.filter (·.kind = kind)).map (·.entry c)

theorem entries_append (d : MethodDeclaration) :
    entries c kind (ds ++ [d]) = entries c kind ds ++ if d.kind = kind then [d.entry c] else [] := by
  unfold entries
  rw [List.filter_append, List.map_append, List.filter_singleton]
  by_cases same : d.kind = kind <;> simp [same]

theorem mem_entries : m ∈ entries c kind ds ↔ ∃ d ∈ ds, d.kind = kind ∧ d.entry c = m := by
  unfold entries
  simp only [List.mem_map, List.mem_filter, decide_eq_true_eq, and_assoc]

theorem find?_entries (ds : List MethodDeclaration) :
    (entries c kind ds).find? (·.selector == s) = (ds.find? (·.declares kind s)).map (·.entry c) := by
  unfold entries
  rw [List.find?_map, List.find?_filter]
  congr 2
  funext d
  simp [MethodDeclaration.declares, MethodDeclaration.entry]

theorem reverse_entries : (entries c kind ds).reverse = entries c kind ds.reverse := by
  unfold entries
  rw [List.filter_reverse, List.map_reverse]

/-- The last entry for a selector is the new one if that is declared. -/
theorem find?_reverse_entries (d : MethodDeclaration) :
    (entries c kind (ds ++ [d])).reverse.find? (·.selector == s) =
      if d.declares kind s then some (d.entry c) else (entries c kind ds).reverse.find? (·.selector == s) := by
  rw [entries_append, List.reverse_append, List.find?_append]
  by_cases same : d.kind = kind
  · by_cases is : d.selector = s <;> simp [MethodDeclaration.declares, MethodDeclaration.entry, same, is]
  · simp [MethodDeclaration.declares, same]

/-- What the table of a class lists after declarations: the first of each operation and of each property, operations
under names that are different, and the last of the subscript methods. -/
structure Lists (c : Class) (ds : List MethodDeclaration) (qs : List PropertyDeclaration) (t : ExportTable) : Prop where
  className : t.className = c.name
  methods : ∀ kind, Firsts (·.selector) (entries c kind ds) (t.methods kind)
  apart : ∀ kind, kind ≠ .initializer → ((t.methods kind).map (·.name)).Nodup
  properties : Firsts (·.name) qs t.properties
  indexGetter : t.indexGetter = (entries c .onInstance ds).reverse.find? (·.selector == indexGetterSelector)
  indexSetter : t.indexSetter = (entries c .onInstance ds).reverse.find? (·.selector == indexSetterSelector)

theorem Lists.name_eq (lists : t.Lists c ds qs) (mem : m ∈ t.methods kind) : m.name = c.farthestName m.selector := by
  obtain ⟨d, -, -, rfl⟩ := mem_entries.1 ((lists.methods kind).mem_all mem)
  rfl

/-- A method is listed under its name, if that is not the name of another one. -/
theorem insertUnique_firsts (className : String) {all methods : List ExportedMethod}
    (firsts : Firsts (·.selector) all methods) (apart : (methods.map (·.name)).Nodup)
    (alike : ∀ e ∈ methods, e.selector = m.selector → e.name = m.name) :
    (∃ methods', insertUnique className methods m = .ok methods' ∧ Firsts (·.selector) (all ++ [m]) methods' ∧
      (methods'.map (·.name)).Nodup) ∨
    ∃ e ∈ methods, e.name = m.name ∧ e.selector ≠ m.selector ∧
      insertUnique className methods m = .error ⟨className, m.name, e.selector, m.selector⟩ := by
  unfold insertUnique
  cases found : methods.find? (·.name == m.name) with
  | none =>
    have free : m.name ∉ methods.map (·.name) := fun mem => by
      obtain ⟨e, listed, same⟩ := List.mem_map.1 mem
      exact List.find?_eq_none.1 found e listed (by simp [same])
    have new : m.selector ∉ methods.map (·.selector) := fun mem => by
      obtain ⟨e, listed, same⟩ := List.mem_map.1 mem
      exact free (List.mem_map.2 ⟨e, listed, alike e listed same⟩)
    refine .inl ⟨_, rfl, firsts.add new, ?_⟩
    rw [List.map_append]
    exact apart.append (List.nodup_singleton _) (List.disjoint_singleton.2 free)
  | some e =>
    have listed := List.mem_of_find?_eq_some found
    have taken : e.name = m.name := by simpa using List.find?_some found
    by_cases same : e.selector = m.selector
    · simp only [same, if_true]
      exact .inl ⟨_, rfl, firsts.skip (List.mem_map.2 ⟨e, listed, same⟩), apart⟩
    · simp only [same, if_false]
      exact .inr ⟨e, listed, taken, same, rfl⟩

/-- A method goes among those of its kind, unless the name of its selector is taken. -/
theorem Lists.insert (lists : t.Lists c ds qs) (named : d.kind ≠ .initializer) :
    (∃ methods', insertUnique t.className (t.methods d.kind) (d.entry c) = .ok methods' ∧
      Firsts (·.selector) (entries c d.kind ds ++ [d.entry c]) methods' ∧ (methods'.map (·.name)).Nodup) ∨
    ∃ clash, insertUnique t.className (t.methods d.kind) (d.entry c) = .error clash ∧ clash.Of c (ds ++ [d]) := by
  have firsts := lists.methods d.kind
  have alike (e : ExportedMethod) (mem : e ∈ t.methods d.kind) (same : e.selector = d.selector) :
      e.name = c.farthestName d.selector := (lists.name_eq mem).trans (congrArg _ same)
  rcases insertUnique_firsts (m := d.entry c) t.className firsts (lists.apart _ named) alike with
    inserted | ⟨e, mem, taken, other, fails⟩
  · exact .inl inserted
  · obtain ⟨e', declared, kind, rfl⟩ := mem_entries.1 (firsts.mem_all mem)
    refine .inr ⟨_, fails, lists.className, other, taken, rfl, d.kind, named, ⟨e', ?_, kind, rfl⟩, d, ?_, rfl, rfl⟩
    · exact List.mem_append_left _ declared
    · exact List.mem_append_right _ List.mem_cons_self

/-- A declaration changes what is listed for its kind, and the subscript methods if it is one. -/
theorem Lists.extend (lists : t.Lists c ds qs) (className : t'.className = t.className)
    (here : Firsts (·.selector) (entries c d.kind ds ++ [d.entry c]) (t'.methods d.kind))
    (apart : d.kind ≠ .initializer → ((t'.methods d.kind).map (·.name)).Nodup)
    (others : ∀ kind, d.kind ≠ kind → t'.methods kind = t.methods kind) (properties : t'.properties = t.properties)
    (getter : t'.indexGetter = if d.declares .onInstance indexGetterSelector then some (d.entry c) else t.indexGetter)
    (setter : t'.indexSetter = if d.declares .onInstance indexSetterSelector then some (d.entry c) else t.indexSetter) :
    t'.Lists c (ds ++ [d]) qs where
  className := className.trans lists.className
  methods kind := by
    rw [entries_append]
    by_cases same : d.kind = kind
    · subst same
      rwa [if_pos rfl]
    · rw [if_neg same, List.append_nil, others kind same]
      exact lists.methods kind
  apart kind named := by
    by_cases same : d.kind = kind
    · subst same
      exact apart named
    · rw [others kind same]
      exact lists.apart kind named
  properties := properties ▸ lists.properties
  indexGetter := by rw [getter, find?_reverse_entries, lists.indexGetter]
  indexSetter := by rw [setter, find?_reverse_entries, lists.indexSetter]

/-- A declared method is exported, unless the name of its selector is taken. -/
theorem Lists.addMethod (lists : t.Lists c ds qs) (d : MethodDeclaration) :
    (∃ t', t.addMethod c.exportedRenames d = .ok t' ∧ t'.Lists c (ds ++ [d]) qs) ∨
    ∃ clash, t.addMethod c.exportedRenames d = .error clash ∧ clash.Of c (ds ++ [d]) := by
  have inserted := lists.insert (d := d)
  obtain ⟨s, signature, kind⟩ := d
  unfold ExportTable.addMethod
  rw [Class.exportedName_eq]
  cases kind with
  | initializer =>
    have firsts := lists.methods .initializer
    refine .inl ?_
    by_cases listed : s ∈ t.initializers.map (·.selector)
    · have found : t.initializers.any (·.selector == s) = true := by simpa using listed
      simp only [found, if_true]
      exact ⟨t, rfl, lists.extend rfl (firsts.skip listed) (absurd rfl) (fun _ _ => rfl) rfl rfl rfl⟩
    · have absent : t.initializers.any (·.selector == s) = false := by simpa using listed
      simp only [absent, Bool.false_eq_true, if_false]
      refine ⟨_, rfl, lists.extend rfl (firsts.add listed) (absurd rfl) (fun kind other => ?_) rfl rfl rfl⟩
      cases kind with
      | initializer => exact absurd rfl other
      | onInstance | onClass => rfl
  | onInstance =>
    rcases inserted nofun with ⟨methods', run, firsts, apart⟩ | ⟨clash, fails, of⟩
    · refine .inl ⟨_, Except.bind_eq_ok.2 ⟨_, run, rfl⟩, ?_⟩
      refine lists.extend rfl firsts (fun _ => apart) (fun kind other => ?_) rfl ?_ ?_
      · cases kind with
        | onInstance => exact absurd rfl other
        | initializer | onClass => rfl
      · simp [MethodDeclaration.declares, MethodDeclaration.entry]
      · simp [MethodDeclaration.declares, MethodDeclaration.entry]
    · exact .inr ⟨clash, congrArg (· >>= _) fails, of⟩
  | onClass =>
    rcases inserted nofun with ⟨methods', run, firsts, apart⟩ | ⟨clash, fails, of⟩
    · refine .inl ⟨_, Except.bind_eq_ok.2 ⟨_, run, rfl⟩, ?_⟩
      refine lists.extend rfl firsts (fun _ => apart) (fun kind other => ?_) rfl rfl rfl
      cases kind with
      | onClass => exact absurd rfl other
      | initializer | onInstance => rfl
    · exact .inr ⟨clash, congrArg (· >>= _) fails, of⟩

/-- A property is listed unless one of its name is. -/
theorem Lists.addProperty (lists : t.Lists c ds qs) (q : PropertyDeclaration) :
    (t.addProperty q).Lists c ds (qs ++ [q]) := by
  have firsts := lists.properties
  unfold ExportTable.addProperty
  by_cases listed : q.name ∈ t.properties.map (·.name)
  · have found : t.properties.any (·.name == q.name) = true := by simpa using listed
    rw [if_pos found]
    exact { lists with properties := firsts.skip listed }
  · have absent : ¬ t.properties.any (·.name == q.name) = true := by simpa using listed
    rw [if_neg absent]
    exact ⟨lists.className, lists.methods, lists.apart, firsts.add listed, lists.indexGetter, lists.indexSetter⟩

theorem Lists.addProperties (lists : t.Lists c ds qs) (qs' : List PropertyDeclaration) :
    (qs'.foldl ExportTable.addProperty t).Lists c ds (qs ++ qs') := by
  induction qs' generalizing t qs with
  | nil => rwa [List.append_nil]
  | cons q qs' ih =>
    rw [← List.singleton_append, ← List.append_assoc]
    exact ih (lists.addProperty q)

/-- A protocol is exported, unless a name is taken. -/
theorem Lists.addProtocol (lists : t.Lists c ds qs) (p : Protocol) :
    (∃ t', t.addProtocol c.exportedRenames p = .ok t' ∧ t'.Lists c (ds ++ p.methods) (qs ++ p.properties)) ∨
    ∃ clash, t.addProtocol c.exportedRenames p = .error clash ∧ clash.Of c (ds ++ p.methods) := by
  have run := foldlM_rule (P := fun ds t => Lists c ds qs t) (Q := fun ds clash => NameClash.Of clash c ds)
    (fun _ d _ lists => lists.addMethod d) (fun _ _ _ of => of.mono (List.subset_append_left ..)) lists p.methods
  rcases run with ⟨t₁, methods, lists₁⟩ | ⟨clash, fails, of⟩
  · exact .inl ⟨_, Except.bind_eq_ok.2 ⟨t₁, methods, rfl⟩, lists₁.addProperties p.properties⟩
  · exact .inr ⟨clash, congrArg (· >>= _) fails, of⟩

/-- A class builds a table of all that it exports, unless two of its operations have one name. -/
theorem build_lists (c : Class) :
    (∃ t, build c = .ok t ∧ t.Lists c c.exportedMethods c.exportedProperties) ∨
    ∃ clash, build c = .error clash ∧ clash.Of c c.exportedMethods := by
  let P (ps : List Protocol) (t : ExportTable) := t.Lists c (ps.flatMap (·.methods)) (ps.flatMap (·.properties))
  let Q (ps : List Protocol) (clash : NameClash) := clash.Of c (ps.flatMap (·.methods))
  have empty : P [] { className := c.name } := by
    refine ⟨rfl, fun kind => ?_, fun kind _ => ?_, .nil, rfl, rfl⟩
    · cases kind <;> exact .nil
    · cases kind <;> exact List.nodup_nil
  refine foldlM_rule (P := P) (Q := Q) (fun past p t lists => ?_) (fun past more clash of => ?_) empty
    c.exportedProtocols
  · have added := Lists.addProtocol lists p
    simp only [P, Q, List.flatMap_append, List.flatMap_singleton]
    exact added
  · refine NameClash.Of.mono of ?_
    rw [List.flatMap_append]
    exact List.subset_append_left ..

theorem lists_of_build (built : build c = .ok t) : t.Lists c c.exportedMethods c.exportedProperties := by
  rcases build_lists c with ⟨t', run, lists⟩ | ⟨clash, fails, -⟩
  · obtain rfl : t' = t := Except.ok.inj (run.symm.trans built)
    exact lists
  · nomatch fails.symm.trans built

/-! ## What is taken from where -/

theorem selector_of_declares (declares : d.declares kind s = true) : d.selector = s :=
  (of_decide_eq_true declares).2

/-- Where all declarations agree on the signature, the last one is listed as the first one is. -/
theorem map_entry_farthest? (alike : c.DeclaresAlike kind s) :
    (c.farthest? kind s).map (·.entry c) = (c.nearest? kind s).map (·.entry c) := by
  rw [Class.farthest?_eq, Class.nearest?_eq]
  cases first : c.exportedMethods.find? (·.declares kind s) with
  | none =>
    have none : c.exportedMethods.reverse.find? (·.declares kind s) = none := by
      rw [List.find?_eq_none] at first ⊢
      exact fun d mem => first d (List.mem_reverse.1 mem)
    rw [none]
  | some d =>
    obtain ⟨d', last⟩ : ∃ d', c.exportedMethods.reverse.find? (·.declares kind s) = some d' := by
      refine Option.isSome_iff_exists.1 (List.find?_isSome.2 ⟨d, ?_, List.find?_some first⟩)
      exact List.mem_reverse.2 (List.mem_of_find?_eq_some first)
    rw [last]
    have declares := List.find?_some first
    have declares' := List.find?_some last
    have mem' := List.mem_reverse.1 (List.mem_of_find?_eq_some last)
    have same := alike d' mem' d (List.mem_of_find?_eq_some first) declares' declares
    simp only [Option.map_some, MethodDeclaration.entry, selector_of_declares declares, selector_of_declares declares',
      same]

namespace Lists

theorem listed?_eq (lists : t.Lists c c.exportedMethods c.exportedProperties) (kind : MethodKind) (s : Selector) :
    t.listed? kind s = (c.nearest? kind s).map (·.entry c) := by
  rw [listed?, (lists.methods kind).find, find?_entries, Class.nearest?_eq]

theorem indexGetter_eq (lists : t.Lists c c.exportedMethods c.exportedProperties) :
    t.indexGetter = (c.farthest? .onInstance indexGetterSelector).map (·.entry c) := by
  rw [lists.indexGetter, reverse_entries, find?_entries, Class.farthest?_eq]

theorem indexSetter_eq (lists : t.Lists c c.exportedMethods c.exportedProperties) :
    t.indexSetter = (c.farthest? .onInstance indexSetterSelector).map (·.entry c) := by
  rw [lists.indexSetter, reverse_entries, find?_entries, Class.farthest?_eq]

/-- Two methods of a named kind with one name are the same. -/
theorem eq_of_name (lists : t.Lists c ds qs) (named : kind ≠ .initializer) {m' : ExportedMethod}
    (mem : m ∈ t.methods kind) (mem' : m' ∈ t.methods kind) (same : m.name = m'.name) : m = m' :=
  List.inj_on_of_nodup_map (lists.apart kind named) mem mem' same

/-- The selectors listed for a kind are those that exported protocols declare. -/
theorem mem_selectors (lists : t.Lists c c.exportedMethods c.exportedProperties) :
    s ∈ (t.methods kind).map (·.selector) ↔ c.Exposes kind s := by
  rw [(lists.methods kind).mem_keys, Class.exposes_iff, List.mem_map]
  constructor
  · rintro ⟨m, mem, rfl⟩
    obtain ⟨d, declared, same, rfl⟩ := mem_entries.1 mem
    exact ⟨d, declared, same, rfl⟩
  · rintro ⟨d, declared, same, rfl⟩
    exact ⟨d.entry c, mem_entries.2 ⟨d, declared, same, rfl⟩, rfl⟩

end Lists

/-- Where a class builds a table, that lists each operation once: with the signature that the nearest exported
protocol declares, under the name that the farthest one gives it, which is the name that the nearest one gives it
where those that rename it agree. Subscripts are read and written by the last declaration, which is the method
listed for the selector where all agree on its signature. A property is that of the nearest protocol. -/
theorem build_takes (built : build c = .ok t) :
    (∀ kind, ((t.methods kind).map (·.selector)).Nodup ∧
      ∀ s, t.listed? kind s = (c.nearest? kind s).map fun d => ⟨c.farthestName s, s, d.signature⟩) ∧
    (∀ s, c.RenamesAlike s → c.farthestName s = c.nearestName s) ∧
    (t.indexGetter = (c.farthest? .onInstance indexGetterSelector).map (·.entry c) ∧
      t.indexSetter = (c.farthest? .onInstance indexSetterSelector).map (·.entry c)) ∧
    ((c.DeclaresAlike .onInstance indexGetterSelector → t.indexGetter = t.listed? .onInstance indexGetterSelector) ∧
      (c.DeclaresAlike .onInstance indexSetterSelector → t.indexSetter = t.listed? .onInstance indexSetterSelector)) ∧
    ∀ name, t.property? name = c.nearestProperty? name := by
  have lists := lists_of_build built
  refine ⟨fun kind => ⟨(lists.methods kind).once, fun s => ?_⟩, fun s => Class.farthestName_eq_nearestName,
    ⟨lists.indexGetter_eq, lists.indexSetter_eq⟩, ⟨fun alike => ?_, fun alike => ?_⟩, fun name => ?_⟩
  · rw [lists.listed?_eq]
    refine Option.map_congr fun d found => ?_
    have declares := List.find?_some (Class.nearest?_eq.symm.trans found)
    rw [← selector_of_declares declares]
    rfl
  · rw [lists.indexGetter_eq, lists.listed?_eq, map_entry_farthest? alike]
  · rw [lists.indexSetter_eq, lists.listed?_eq, map_entry_farthest? alike]
  · rw [property?, lists.properties.find, Class.nearestProperty?_eq]

/-- Declares the method `doFoo:`, renamed, and the reading of subscripts. -/
def foo (id : Nat) (name : String) (read : Encoding) : Protocol where
  id
  name
  parents := []
  marked := true
  methods := [⟨⟨"doFoo:"⟩, ⟨.void, [.double]⟩, .onInstance⟩, ⟨indexGetterSelector, ⟨read, [.double]⟩, .onInstance⟩]
  properties := []
  renames := [⟨name, ⟨"doFoo:"⟩⟩]

/-- A class whose protocol renames and declares again what that of its superclass does. -/
def redeclared : Class where
  id := 2
  key := "Derived"
  name := "Derived"
  superclass := some ⟨1, "Base", "Base", none, [foo 1 "outer" .double], [], [], none⟩
  protocols := [foo 2 "inner" .bool]
  instanceMethods := []
  classMethods := []
  factory := none

theorem build_takes_redeclared : ∃ t, build redeclared = .ok t ∧
    t.listed? .onInstance indexGetterSelector =
      some ⟨"objectAtIndexedSubscript", indexGetterSelector, ⟨.bool, [.double]⟩⟩ := by
  obtain ⟨t, built⟩ : ∃ t, build redeclared = .ok t := ⟨_, rfl⟩
  exact ⟨t, built, (((build_takes built).1 .onInstance).2 indexGetterSelector).trans rfl⟩

/-- The method of the nearest protocol has the name that the farthest one gives it, and the farthest declaration
reads subscripts. -/
theorem redeclared_farthest : ∃ t, build redeclared = .ok t ∧
    (t.listed? .onInstance ⟨"doFoo:"⟩).map (·.name) ≠ some (redeclared.nearestName ⟨"doFoo:"⟩) ∧
    t.indexGetter.map (·.signature) ≠ (t.listed? .onInstance indexGetterSelector).map (·.signature) :=
  ⟨_, rfl, by decide, by decide⟩

/-- Declared selectors of a kind that share a name keep a class from building a table. -/
theorem exists_clash {s s' : Selector} (named : kind ≠ .initializer) (other : s ≠ s') (first : c.Exposes kind s)
    (second : c.Exposes kind s') (same : c.farthestName s = c.farthestName s') : ∃ clash, build c = .error clash := by
  rcases build_lists c with ⟨t, -, lists⟩ | ⟨clash, fails, -⟩
  · obtain ⟨m, mem, rfl⟩ := List.mem_map.1 (lists.mem_selectors.2 first)
    obtain ⟨m', mem', rfl⟩ := List.mem_map.1 (lists.mem_selectors.2 second)
    have sameName : m.name = m'.name := by rw [lists.name_eq mem, lists.name_eq mem', same]
    exact absurd (congrArg (·.selector) (lists.eq_of_name named mem mem' sameName)) other
  · exact ⟨clash, fails⟩

theorem clash_of_build {clash : NameClash} (fails : build c = .error clash) : clash.Of c c.exportedMethods := by
  rcases build_lists c with ⟨t, run, -⟩ | ⟨clash', fails', of⟩
  · nomatch run.symm.trans fails
  · obtain rfl : clash' = clash := Except.error.inj (fails'.symm.trans fails)
    exact of

/-- A class builds no table exactly where two selectors that exported protocols declare with a kind share a name. -/
theorem exists_clash_iff : (∃ clash, build c = .error clash) ↔ ∃ kind s s', kind ≠ .initializer ∧ s ≠ s' ∧
    c.Exposes kind s ∧ c.Exposes kind s' ∧ c.farthestName s = c.farthestName s' := by
  constructor
  · rintro ⟨clash, fails⟩
    have of := clash_of_build fails
    obtain ⟨kind, named, first, second⟩ := of.declared
    exact ⟨kind, clash.first, clash.second, named, of.differ, Class.exposes_iff.2 first, Class.exposes_iff.2 second,
      of.first.trans of.second.symm⟩
  · rintro ⟨kind, s, s', named, other, first, second, same⟩
    exact exists_clash named other first second same

/-- A class builds no table exactly where two selectors that exported protocols declare with a kind have one name,
and such two are told. A table pairs the selectors of a kind with their names. That there is one does not depend
on the order of protocols that rename different selectors. -/
theorem build_names (c : Class) :
    ((∃ clash, build c = .error clash) ↔ ∃ kind s s', kind ≠ .initializer ∧ s ≠ s' ∧ c.Exposes kind s ∧
      c.Exposes kind s' ∧ c.farthestName s = c.farthestName s') ∧
    (∀ clash, build c = .error clash → clash.Of c c.exportedMethods) ∧
    (∀ t, build c = .ok t → ∀ kind, kind ≠ .initializer → ((t.methods kind).map (·.name)).Nodup ∧
      ((t.methods kind).map (·.selector)).Nodup ∧ (∀ s, s ∈ (t.methods kind).map (·.selector) ↔ c.Exposes kind s) ∧
      ∀ m ∈ t.methods kind, m.name = c.farthestName m.selector) ∧
    ∀ c' : Class, c'.exportedProtocols.Perm c.exportedProtocols → c.RenamesApart →
      ((∃ clash, build c' = .error clash) ↔ ∃ clash, build c = .error clash) := by
  refine ⟨exists_clash_iff, fun clash fails => clash_of_build fails, fun t built kind named => ?_,
    fun c' perm apart => ?_⟩
  · have lists := lists_of_build built
    exact ⟨lists.apart kind named, (lists.methods kind).once, fun s => lists.mem_selectors, fun m => lists.name_eq⟩
  · have names : c'.farthestName = c.farthestName := by
      funext s
      have same (p : Protocol) : p ∈ c'.exportedProtocols.reverse ↔ p ∈ c.exportedProtocols :=
        List.mem_reverse.trans perm.mem_iff
      rw [Class.farthestName_eq_nearestName (apart.alike s)]
      unfold Class.farthestName Class.nearestName
      rw [findSome?_eq_of_alike same (apart.alike s)]
    have exposes (kind : MethodKind) (s : Selector) : c'.Exposes kind s ↔ c.Exposes kind s :=
      exists_congr fun p => and_congr_left fun _ => perm.mem_iff
    simp only [exists_clash_iff, names, exposes]

/-- A class with a method whose selector is the name of another method. -/
def contested (protocols : List Protocol) : Class where
  id := 1
  key := "Contested"
  name := "Contested"
  superclass := none
  protocols
  instanceMethods := []
  classMethods := []
  factory := none

/-- Declares a method without arguments. -/
def bare : Protocol := ⟨2, "Bare", [], true, [⟨⟨"outer"⟩, ⟨.void, []⟩, .onInstance⟩], [], []⟩

theorem build_names_contested :
    (∃ clash, build (contested [foo 1 "outer" .double, bare]) = .error clash ∧
      clash.Of (contested [foo 1 "outer" .double, bare]) (contested [foo 1 "outer" .double, bare]).exportedMethods) ∧
    (∃ clash, build (contested [bare, foo 1 "outer" .double]) = .error clash) ∧
    ∃ t, build redeclared = .ok t ∧ ((t.methods .onInstance).map (·.name)).Nodup := by
  obtain ⟨clash, fails⟩ : ∃ clash, build (contested [foo 1 "outer" .double, bare]) = .error clash := ⟨_, rfl⟩
  obtain ⟨t, built⟩ : ∃ t, build redeclared = .ok t := ⟨_, rfl⟩
  have apart : (contested [foo 1 "outer" .double, bare]).RenamesApart := by
    unfold Class.RenamesApart
    decide
  obtain ⟨-, of, -, order⟩ := build_names (contested [foo 1 "outer" .double, bare])
  have other := (order (contested [bare, foo 1 "outer" .double]) (.swap ..) apart).2 ⟨clash, fails⟩
  exact ⟨⟨clash, fails, of clash fails⟩, other, t, built, ((build_names redeclared).2.2.1 t built .onInstance nofun).1⟩

end ExportTable

end ScriptBridge
