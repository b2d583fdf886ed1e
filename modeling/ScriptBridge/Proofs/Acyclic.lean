import Mathlib.Logic.Relation
import ScriptBridge.Proofs.Lineage
import ScriptBridge.Proofs.OrderedMap

/-!
# Circles of prototypes

Setting the prototype of an object walks the chain of the new one, and refuses where it meets the object. The walk ends
after `maxChain` objects, met or not, and the prototype is set then.

* `Heap.Below`, `Heap.Acyclic`: an object and its prototype; no object is above itself.
* `Scope.Relinks`, `Scope.setPrototypeOf_relinks`: what setting a prototype does, and when it closes a circle.
* `Point.Overlooks`, `Point.Revives`: the two ways in which a step closes a circle. `Point.Step.acyclic`: there is no
  other one.
* `Session.prototypes_acyclic`: at every point of a session there is no circle, unless a step before closed it in one of
  the two ways.

Proof-only: not reachable from `ScriptBridge.Session.Run`.
-/

namespace ScriptBridge

open Relation Routine

/-- A circle that one more link closes leads back from the end of the link to its start. -/
theorem transGen_of_link {α : Type} {R R' : α → α → Prop} {a b x : α} (links : ∀ u v, R' u v → R u v ∨ u = a ∧ v = b)
    (circle : TransGen R' x x) : TransGen R x x ∨ ReflTransGen R b a := by
  have cut {u v : α} (path : ReflTransGen R' u v) :
      ReflTransGen R u v ∨ ReflTransGen R u a ∧ ReflTransGen R b v := by
    induction path with
    | refl => exact .inl .refl
    | tail _ link ih =>
      rcases links _ _ link with old | ⟨rfl, rfl⟩
      · exact ih.imp (·.tail old) fun around => ⟨around.1, around.2.tail old⟩
      · exact .inr ⟨ih.elim id (·.1), .refl⟩
  obtain ⟨u, link, path⟩ := TransGen.head'_iff.1 circle
  rcases links _ _ link with old | ⟨rfl, rfl⟩
  · rcases cut path with direct | ⟨up, down⟩
    · exact .inl (.head' old direct)
    · exact .inr (down.trans (.head old up))
  · exact .inr ((cut path).elim id (·.1))

/-! ## Links -/

namespace Heap

variable {h h' : Heap} {r p q : Ref} {o : Object} {n : Nat}

/-- An object hangs directly below another one. -/
def Below (h : Heap) (r q : Ref) : Prop := h.prototype? r = some q

/-- No object is above itself. -/
def Acyclic (h : Heap) : Prop := ∀ r, ¬TransGen h.Below r r

theorem below_iff : h.Below r q ↔ ∃ o, h.get? r = some o ∧ o.prototype = some q := Option.bind_eq_some_iff

theorem onChain_none : h.onChain r n none = false := by cases n <;> rfl

/-- What a walk meets is on the chain. -/
theorem reaches_of_onChain (met : h.onChain r n (some p) = true) : ReflTransGen h.Below p r := by
  induction n generalizing p with
  | zero => exact absurd met Bool.false_ne_true
  | succ n ih =>
    unfold onChain at met
    rcases Bool.or_eq_true_iff.1 met with here | further
    · exact eq_of_beq here ▸ .refl
    · cases next : h.prototype? p with
      | none =>
        rw [next, onChain_none] at further
        exact absurd further Bool.false_ne_true
      | some q =>
        rw [next] at further
        exact .head next (ih further)

/-- A walk to the end of a chain meets all that is on it. -/
theorem onChain_of_reaches {chain : List Object} (walked : h.chain? n (some p) = some chain) (there : h.get? r = some o)
    (reaches : ReflTransGen h.Below p r) : h.onChain r n (some p) = true := by
  induction n generalizing p chain with
  | zero =>
    have gone : h.get? p = none := by
      unfold chain? isLive at walked
      split at walked
      · exact absurd walked.symm (Option.some_ne_none chain)
      · rename_i gone
        simpa using gone
    rcases ReflTransGen.cases_head_iff.1 reaches with rfl | ⟨q, link, -⟩
    · exact absurd (there.symm.trans gone) (Option.some_ne_none o)
    · obtain ⟨o', there, -⟩ := below_iff.1 link
      exact absurd (there.symm.trans gone) (Option.some_ne_none o')
  | succ n ih =>
    unfold onChain
    rcases ReflTransGen.cases_head_iff.1 reaches with rfl | ⟨q, link, further⟩
    · rw [beq_self_eq_true, Bool.true_or]
    · obtain ⟨o', there', above⟩ := below_iff.1 link
      rw [chain?_of_get? there', above] at walked
      obtain ⟨rest, walked, -⟩ := Option.map_eq_some_iff.1 walked
      rw [show h.prototype? p = some q from link, ih walked further, Bool.or_true]

/-- Another prototype of one object is one other link. -/
theorem below_relink {prototype : Option Ref} (there : h'.get? r = some { o with prototype })
    (others : ∀ q, q ≠ r → h'.get? q = h.get? q) {u v : Ref} :
    h'.Below u v ↔ (u ≠ r ∧ h.Below u v) ∨ u = r ∧ prototype = some v := by
  by_cases same : u = r
  · subst same
    simp [below_iff, there]
  · simp [below_iff, others u same, same]

/-- A new prototype closes a circle if and only if the object is on its chain. -/
theorem acyclic_relink {prototype : Option Ref} (acyclic : h.Acyclic) (there : h'.get? r = some { o with prototype })
    (others : ∀ q, q ≠ r → h'.get? q = h.get? q) :
    h'.Acyclic ↔ ∀ p, prototype = some p → ¬ReflTransGen h.Below p r := by
  have links (u v : Ref) : h'.Below u v ↔ (u ≠ r ∧ h.Below u v) ∨ u = r ∧ prototype = some v :=
    below_relink there others
  constructor
  · rintro acyclic' p rfl reaches
    have edge (u v : Ref) (other : u ≠ r) (above : h.Below u v) : h'.Below u v := (links u v).2 (.inl ⟨other, above⟩)
    -- Up to where it meets the object, the old path has used links of other objects only.
    have stays : ReflTransGen h'.Below p r := by
      clear there links
      induction reaches using ReflTransGen.head_induction_on with
      | refl => exact .refl
      | @head u v above _ ih =>
        by_cases same : u = r
        · exact same ▸ .refl
        · exact .head (edge u v same above) ih
    exact acyclic' r (.head' ((links r p).2 (.inr ⟨rfl, rfl⟩)) stays)
  · intro off x circle
    cases prototype with
    | none =>
      refine acyclic x (TransGen.mono (fun u v link => ?_) x x circle)
      exact ((links u v).1 link).elim (·.2) fun absent => nomatch absent.2
    | some p =>
      refine (transGen_of_link (R := h.Below) (a := r) (b := p) (fun u v link => ?_) circle).elim (acyclic x) (off p rfl)
      exact ((links u v).1 link).imp (·.2) fun new => ⟨new.1, (Option.some.inj new.2).symm⟩

end Heap

/-! ## Setting a prototype -/

namespace Scope

variable {s : Scope} {m : Machine} {r : Ref} {o : Object}

/-- Setting the prototype of an object throws and changes nothing where the walk along the new chain meets the object.
Otherwise the prototype is all that changes. -/
structure Relinks (s : Scope) (m : Machine) (r : Ref) (o : Object) (prototype : Option Ref) : Prop where
  refuses : m.heap.onChain r maxChain prototype = true →
    s.Refuses (s.setPrototypeOf (.object r) (prototype.elim .null .object)) m "Cyclic __proto__ value"
  links : m.heap.onChain r maxChain prototype = false → ∃ m',
    (s.setPrototypeOf (.object r) (prototype.elim .null .object)).Returns m () m' ∧
      m'.object? r = some { o with prototype } ∧ (∀ q, q ≠ r → m'.object? q = m.object? q) ∧
      { m' with heap := m.heap } = m ∧
      (m.heap.Acyclic → (m'.heap.Acyclic ↔ ∀ p, prototype = some p → ¬ReflTransGen m.heap.Below p r))
  /-- The walk meets nothing that is not on the chain. -/
  sound : m.heap.onChain r maxChain prototype = true → ∃ p, prototype = some p ∧ ReflTransGen m.heap.Below p r
  /-- It meets the object if it gets to the end of the chain. -/
  complete : (m.heap.chain? maxChain prototype).isSome = true → ∀ p, prototype = some p →
    ReflTransGen m.heap.Below p r → m.heap.onChain r maxChain prototype = true

theorem setPrototypeOf_relinks (heap : m.heap.Sound) (ho : m.object? r = some o) (prototype : Option Ref) :
    s.Relinks m r o prototype := by
  have relinked : (m.heap.edit r (.setPrototype prototype)).get? r = some { o with prototype } := by
    rw [Heap.get?_edit, if_pos rfl, show m.heap.get? r = some o from ho]
    rfl
  have others (q : Ref) (other : q ≠ r) : (m.heap.edit r (.setPrototype prototype)).get? q = m.heap.get? q :=
    (Heap.get?_edit ..).trans (if_neg other)
  have links (returns : (s.setPrototypeOf (.object r) (prototype.elim .null .object)).Returns m ()
      { m with heap := m.heap.edit r (.setPrototype prototype) }) : ∃ m',
      (s.setPrototypeOf (.object r) (prototype.elim .null .object)).Returns m () m' ∧
        m'.object? r = some { o with prototype } ∧ (∀ q, q ≠ r → m'.object? q = m.object? q) ∧
        { m' with heap := m.heap } = m ∧
        (m.heap.Acyclic → (m'.heap.Acyclic ↔ ∀ p, prototype = some p → ¬ReflTransGen m.heap.Below p r)) :=
    ⟨_, returns, relinked, others, rfl, fun acyclic => Heap.acyclic_relink acyclic relinked others⟩
  cases prototype with
  | none =>
    refine ⟨fun met => ?_, fun _ => links .perform, fun met => ?_, fun _ p is => nomatch is⟩
    all_goals rw [Heap.onChain_none] at met; nomatch met
  | some p =>
    refine ⟨fun met => refuses_of_exec heap fun job => ?_, fun off => links fun job => ?_, fun met => ?_, ?_⟩
    · exact (exec_look (a := true) met).trans rfl
    · exact (exec_look (a := false) off).trans rfl
    · exact ⟨p, rfl, Heap.reaches_of_onChain met⟩
    · rintro walked q ⟨⟩ reaches
      obtain ⟨chain, walked⟩ := Option.isSome_iff_exists.1 walked
      exact Heap.onChain_of_reaches walked ho reaches

end Scope

/-! ## What one step keeps -/

/-- The next object that gets a prototype is on the chain of it, behind more objects than a walk follows. -/
def Point.Overlooks (x : Point) : Prop :=
  ∃ r p, x.next = some ⟨Unit, .edit r (.setPrototype (some p))⟩ ∧ ReflTransGen x.machine.heap.Below p r ∧
    x.machine.heap.chain? maxChain (some p) = none

/-- The next object is stored under a reference that is a prototype already, its own or that of an object that is there:
a reference to a freed object leads to the new one, whose slot has run through all generations. -/
def Point.Revives (x : Point) : Prop :=
  ∃ (β : Type) (a : Action β) (o : Object), x.next = some ⟨β, a⟩ ∧ a.stores? = some o ∧
    (o.prototype = some (x.machine.heap.allocate o).1 ∨ ∃ q, x.machine.heap.Below q (x.machine.heap.allocate o).1)

/-- An action stores one object. -/
theorem Action.eq_of_stored {β : Type} {a : Action β} {m : Machine} {r : Ref} {o : Object} (heap : m.heap.Sound)
    (stores : a.stores? = some o) (absent : m.object? r = none) (after : (a.run m).2.object? r = some o) :
    r = (m.heap.allocate o).1 := by
  have stored (after : (m.allocate o).2.object? r = some o) : r = (m.heap.allocate o).1 := by
    rw [Machine.object?_allocate heap] at after
    split at after
    · assumption
    · exact absurd (absent.symm.trans after) nofun
  cases a with
  | allocate p | addWrapper _ _ p =>
    obtain rfl := Option.some.inj stores
    exact stored after
  | _ => nomatch stores

namespace Point.Step

variable {x y : Point} {r q : Ref}

/-- Where a link comes from: it was there, its object was given the prototype, or its object is new. -/
theorem below (step : x.Step y) (link : y.machine.heap.Below r q) : x.machine.heap.Below r q ∨
    (∃ o, x.machine.object? r = some o) ∧ x.next = some ⟨Unit, .edit r (.setPrototype (some q))⟩ ∧
      x.machine.heap.onChain r maxChain (some q) = false ∨
    ∃ (β : Type) (a : Action β) (o : Object), x.next = some ⟨β, a⟩ ∧ a.stores? = some o ∧ o.prototype = some q ∧
      r = (x.machine.heap.allocate o).1 := by
  obtain ⟨o', after, above⟩ := Heap.below_iff.1 link
  rcases step.object? after with ⟨o, there, rfl | ⟨e, next, careful, rfl⟩⟩ | ⟨absent, β, a, next, -, stores⟩
  · exact .inl (Heap.below_iff.2 ⟨_, there, above⟩)
  · by_cases other : ∀ p, e ≠ .setPrototype p
    · exact .inl (Heap.below_iff.2 ⟨o, there, (Object.prototype_edit other).symm.trans above⟩)
    · obtain ⟨p, relinks⟩ := Classical.not_forall_not.1 other
      subst relinks
      obtain rfl : p = some q := above
      exact .inr (.inl ⟨⟨o, there⟩, next, careful.2⟩)
  · refine .inr (.inr ⟨β, a, o', next, stores, above, ?_⟩)
    obtain ⟨same⟩ | ⟨next', ran⟩ := step.follows
    · have after : y.machine.object? r = some o' := after
      rw [same] at after
      exact absurd (absent.symm.trans after) nofun
    · cases next.symm.trans next'
      exact Action.eq_of_stored step.settled.heap stores absent (ran ▸ after)

/-- A step closes no circle but in one of two ways. -/
theorem acyclic (step : x.Step y) (acyclic : x.machine.heap.Acyclic) :
    y.machine.heap.Acyclic ∨ x.Overlooks ∨ x.Revives := by
  by_cases old : ∀ u v, y.machine.heap.Below u v → x.machine.heap.Below u v
  · exact .inl fun z circle => acyclic z (TransGen.mono old z z circle)
  push Not at old
  obtain ⟨r, q, link, new⟩ := old
  rcases step.below link with there | ⟨⟨o, there⟩, next, off⟩ | ⟨β, a, o, next, stores, above, at_r⟩
  · exact absurd there new
  · have links (u v : Ref) (link : y.machine.heap.Below u v) : x.machine.heap.Below u v ∨ u = r ∧ v = q := by
      rcases step.below link with old | ⟨-, next', -⟩ | ⟨β, a, o', next', stores, -⟩
      · exact .inl old
      · cases next.symm.trans next'
        exact .inr ⟨rfl, rfl⟩
      · cases next.symm.trans next'
        nomatch stores
    by_cases reaches : ReflTransGen x.machine.heap.Below q r
    · refine .inr (.inl ⟨r, q, next, reaches, Option.eq_none_iff_forall_ne_some.2 fun chain walked => ?_⟩)
      exact Bool.false_ne_true (off.symm.trans (Heap.onChain_of_reaches walked there reaches))
    · exact .inl fun z circle => (transGen_of_link links circle).elim (acyclic z) reaches
  · have links (u v : Ref) (link : y.machine.heap.Below u v) : x.machine.heap.Below u v ∨ u = r ∧ v = q := by
      rcases step.below link with old | ⟨-, next', -⟩ | ⟨β', a', o', next', stores', above', at_u⟩
      · exact .inl old
      · cases next.symm.trans next'
        nomatch stores
      · cases next.symm.trans next'
        obtain rfl := Option.some.inj (stores.symm.trans stores')
        exact .inr ⟨at_u.trans at_r.symm, Option.some.inj (above'.symm.trans above)⟩
    by_cases reaches : ReflTransGen x.machine.heap.Below q r
    · refine .inr (.inr ⟨β, a, o, next, stores, ?_⟩)
      subst at_r
      rcases ReflTransGen.cases_tail_iff .. |>.1 reaches with same | ⟨u, -, link⟩
      · exact .inl (same ▸ above)
      · exact .inr ⟨u, link⟩
    · exact .inl fun z circle => (transGen_of_link links circle).elim (acyclic z) reaches

end Point.Step

namespace Session

open Program (Step)

variable {options : Options} {now : Int} {steps : List Step} {depth : Nat} {before after : List Point} {x : Point}

theorem acyclic_points (split : points options now steps depth = before ++ x :: after) :
    x.machine.heap.Acyclic ∨ ∃ z ∈ before, z.Overlooks ∨ z.Revives := by
  refine points_induct (P := fun before m => m.heap.Acyclic ∨ ∃ z ∈ before, z.Overlooks ∨ z.Revives) ?_ ?_ split
  · refine .inl fun r circle => ?_
    obtain ⟨q, link, -⟩ := TransGen.head'_iff.1 circle
    simp [Heap.Below, Heap.prototype?, Heap.get?] at link
  · intro before x y after _ step kept
    rcases kept with acyclic | ⟨z, mem, closes⟩
    · exact (step.acyclic acyclic).imp_right fun closes => ⟨x, List.mem_append_right _ List.mem_cons_self, closes⟩
    · exact .inr ⟨z, List.mem_append_left _ mem, closes⟩

/-- At every point of a session the prototypes of live objects form no circle, unless a step before closed one: by a
prototype that has the object on its chain behind more objects than a walk follows, or by the return of a reference to a
freed object. Setting a prototype throws and changes nothing where the walk along the new chain meets the object, as it
does on every chain that it can walk to its end, and the prototype is all that it changes otherwise. -/
theorem prototypes_acyclic (split : points options now steps depth = before ++ x :: after) :
    (x.machine.heap.Acyclic ∨ ∃ z ∈ before, z.Overlooks ∨ z.Revives) ∧
    ∀ (s : Scope) (r : Ref) (o : Object) (prototype : Option Ref), x.machine.object? r = some o →
      s.Relinks x.machine r o prototype := by
  have mem : x ∈ points options now steps depth := split ▸ List.mem_append_right _ List.mem_cons_self
  exact ⟨acyclic_points split, fun s r o prototype ho =>
    Scope.setPrototypeOf_relinks (settled_points mem).heap ho prototype⟩

/-- One object gets below another one, which then cannot get below it. -/
def crossed : List Step :=
  [.machine (.newContext "main") none,
    .execute "main" [.value (.bind (.object [])) (some "a"), .value (.bind (.object [])) (some "b"),
      .script (.setPrototype (.register "b") (.register "a")) none,
      .script (.setPrototype (.register "a") (.register "b")) none]]

/-- The second object is below the first one, so the first one is not put below the second. -/
theorem prototypes_acyclic_crossed : ∃ before x after o, points {} 0 crossed 3 = before ++ x :: after ∧
    x.machine.object? ⟨18, 0⟩ = some o ∧ x.machine.heap.prototype? ⟨19, 0⟩ = some ⟨18, 0⟩ ∧
    Scope.Refuses ⟨0⟩ (Scope.setPrototypeOf ⟨0⟩ (.object ⟨18, 0⟩) (.object ⟨19, 0⟩)) x.machine "Cyclic __proto__ value" ∧
    (x.machine.heap.Acyclic ∨ ∃ z ∈ before, z.Overlooks ∨ z.Revives) ∧
    Scope.Relinks ⟨0⟩ x.machine ⟨18, 0⟩ o (some ⟨19, 0⟩) := by
  obtain ⟨x, mem, is⟩ : ∃ x ∈ points {} 0 crossed 3, ((x.machine.object? ⟨18, 0⟩).isSome &&
      x.machine.heap.prototype? ⟨19, 0⟩ == some ⟨18, 0⟩) = true := by
    decide +kernel
  simp only [Bool.and_eq_true, beq_iff_eq] at is
  obtain ⟨there, link⟩ := is
  obtain ⟨o, there⟩ := Option.isSome_iff_exists.1 there
  obtain ⟨before, after, split⟩ := List.append_of_mem mem
  obtain ⟨acyclic, relinks⟩ := prototypes_acyclic split
  have sets := relinks ⟨0⟩ _ o (some ⟨19, 0⟩) there
  have met : x.machine.heap.onChain ⟨18, 0⟩ maxChain (some ⟨19, 0⟩) = true := by
    rw [show maxChain = 9998 + 1 + 1 from rfl, Heap.onChain, link, Heap.onChain, beq_self_eq_true, Bool.true_or, Bool.or_true]
  exact ⟨before, x, after, o, split, there, link, sets.refuses met, acyclic, sets⟩

end Session

end ScriptBridge
