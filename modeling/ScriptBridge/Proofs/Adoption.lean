import Mathlib.Data.List.Nodup
import ScriptBridge.Proofs.Exports

/-!
# The protocols of a class

The listing of a class goes through the protocols that the class and its ancestors adopt, and from each of them to those
above it, depth first. It passes by what is listed already, with all that stands above it. What stands above a listed
protocol is listed as well by then, or else the protocol stands above the one that led to it, which no protocol does.

* `Protocol.Brings`: what comes in a listing after a protocol begins with what the protocol brings.
* `Protocol.Continues`: how a listing goes on for some more protocols. `Protocol.continues_collect`,
  `Protocol.continues_collectAll` and `Class.continues_ancestors`: collecting goes on so.
* `Class.protocols_listed`: what that makes of the listing of a class.

Proof-only: not reachable from `ScriptBridge.Session.Run`.
-/

namespace ScriptBridge

namespace Protocol

variable {p q r : Protocol} {out more more' ps ps' : List Protocol}

theorem Inherits.trans (first : p.Inherits q) (next : q.Inherits r) : p.Inherits r := by
  induction first with
  | refl => exact next
  | step parent _ ih => exact .step parent (ih next)

/-- No protocol is its own parent. -/
theorem not_mem_parents (p : Protocol) : p ∉ p.parents := by
  intro mem
  have smaller := List.sizeOf_lt_of_mem mem
  obtain ⟨id, name, parents, marked, methods, properties, renames⟩ := p
  simp only [Protocol.mk.sizeOf_spec] at smaller
  omega

/-- Identities tell some protocols apart. -/
def ToldApart (P : Protocol → Prop) : Prop := ∀ p q, P p → P q → p.id = q.id → p = q

/-- Of what comes after a protocol in a listing, the first part is what it brings: protocols above it, its parents among
them as far as they were not listed before. -/
def Brings (before : List Protocol) (p : Protocol) (after : List Protocol) : Prop :=
  ∃ added others, after = added ++ others ∧ (∀ q ∈ added, p.Inherits q) ∧ ∀ q ∈ p.parents, q ∈ before ∨ q ∈ added

/-- A listing goes on for some protocols, after what is listed already. -/
structure Continues (out more ps : List Protocol) : Prop where
  lists : ∀ p ∈ ps, p ∈ out ++ more
  /-- Nothing is added but what the protocols inherit, -/
  inherits : ∀ q ∈ more, ∃ p ∈ ps, p.Inherits q
  /-- nothing that is there, -/
  once : (out.map (·.id)).Nodup → ((out ++ more).map (·.id)).Nodup
  /-- and after each protocol what it brings. -/
  brings : ∀ before p after, more = before ++ p :: after → Brings (out ++ before) p after

namespace Continues

theorem nil : Continues out [] [] := by
  refine ⟨nofun, nofun, fun once => by rwa [List.append_nil], fun before p after split => ?_⟩
  exact absurd split (List.append_ne_nil_of_right_ne_nil before (List.cons_ne_nil p after)).symm

/-- A protocol that is listed is passed by. -/
theorem skip (listed : p ∈ out) : Continues out [] [p] := by
  have stays : Continues out [] [] := nil
  refine { stays with lists := fun q mem => ?_, inherits := nofun }
  rw [List.mem_singleton.1 mem, List.append_nil]
  exact listed

/-- A new protocol is listed, and then what its parents bring. -/
theorem enter (new : ∀ q ∈ out, q.id ≠ p.id) (above : Continues (out ++ [p]) more p.parents) :
    Continues out (p :: more) [p] where
  lists q mem := List.mem_append_right out (List.mem_singleton.1 mem ▸ List.mem_cons_self)
  inherits q mem := by
    refine ⟨p, List.mem_singleton.2 rfl, ?_⟩
    rcases List.mem_cons.1 mem with rfl | mem
    · exact .refl q
    · obtain ⟨parent, listed, inherits⟩ := above.inherits q mem
      exact .step listed inherits
  once once := by
    have entered : ((out ++ [p]).map (·.id)).Nodup := by
      rw [List.map_append, List.nodup_append]
      refine ⟨once, List.pairwise_singleton _ _, ?_⟩
      rintro _ mem _ same rfl
      obtain ⟨q, listed, is⟩ := List.mem_map.1 mem
      exact new q listed (is.trans (List.mem_singleton.1 same))
    have whole := above.once entered
    rwa [List.append_assoc] at whole
  brings before q after split := by
    cases before with
    | nil =>
      obtain ⟨rfl, rfl⟩ := List.cons.inj split
      refine ⟨more, [], (List.append_nil more).symm, fun r mem => ?_, fun r parent => ?_⟩
      · obtain ⟨parent, listed, inherits⟩ := above.inherits r mem
        exact .step listed inherits
      · -- No parent of the protocol is the protocol itself.
        have other : r ∉ [p] := fun mem => p.not_mem_parents (List.mem_singleton.1 mem ▸ parent)
        rcases List.mem_append.1 (above.lists r parent) with mem | mem
        · rw [List.append_nil]
          exact .inl ((List.mem_append.1 mem).resolve_right other)
        · exact .inr mem
    | cons first before =>
      obtain ⟨rfl, later⟩ := List.cons.inj split
      have brings := above.brings before q after later
      rwa [List.append_assoc] at brings

/-- One part of a listing after another. -/
theorem append (first : Continues out more ps) (next : Continues (out ++ more) more' ps') :
    Continues out (more ++ more') (ps ++ ps') where
  lists p mem := by
    rw [← List.append_assoc]
    rcases List.mem_append.1 mem with mem | mem
    · exact List.mem_append_left more' (first.lists p mem)
    · exact next.lists p mem
  inherits q mem := by
    rcases List.mem_append.1 mem with mem | mem
    · obtain ⟨p, listed, inherits⟩ := first.inherits q mem
      exact ⟨p, List.mem_append_left ps' listed, inherits⟩
    · obtain ⟨p, listed, inherits⟩ := next.inherits q mem
      exact ⟨p, List.mem_append_right ps listed, inherits⟩
  once once := by
    rw [← List.append_assoc]
    exact next.once (first.once once)
  brings before p after split := by
    -- The protocol is in the second part, or in the first, which then has all that it brings.
    rcases List.append_eq_append_iff.1 split with ⟨past, rfl, rest⟩ | ⟨rest, head, tail⟩
    · have brings := next.brings past p after rest
      rwa [List.append_assoc] at brings
    · rcases List.append_eq_cons_iff.1 tail.symm with ⟨rfl, rest⟩ | ⟨rest', rfl, rfl⟩
      · rw [List.append_nil] at head
        have brings := next.brings [] p after rest
        rwa [List.append_nil, head] at brings
      · obtain ⟨added, others, rfl, inherits, above⟩ := first.brings before p rest' head
        exact ⟨added, others ++ more', List.append_assoc .., inherits, above⟩

/-- What stands above a listed protocol is listed, in a listing from its start. -/
theorem closed (continues : Continues [] more ps) (listed : p ∈ more) (inherits : p.Inherits q) : q ∈ more := by
  induction inherits with
  | refl => exact listed
  | @step p q r parent _ ih =>
    refine ih ?_
    obtain ⟨before, after, rfl⟩ := List.append_of_mem listed
    obtain ⟨added, others, rfl, -, above⟩ := continues.brings before p after rfl
    rcases above q parent with mem | mem
    · exact List.mem_append_left _ mem
    · exact List.mem_append_right _ (List.mem_cons_of_mem p (List.mem_append_left others mem))

/-- A listing from its start is of what the protocols inherit. -/
theorem mem_iff (continues : Continues [] more ps) : q ∈ more ↔ ∃ p ∈ ps, p.Inherits q :=
  ⟨continues.inherits q, fun ⟨p, mem, inherits⟩ => continues.closed (continues.lists p mem) inherits⟩

end Continues

variable {P : Protocol → Prop}

mutual

/-- Collecting a protocol lists it and what it inherits. -/
theorem continues_collect (apart : ToldApart P) (p : Protocol) (out : List Protocol) (listed : ∀ q ∈ out, P q)
    (above : ∀ q, p.Inherits q → P q) : ∃ more, collect out p = out ++ more ∧ Continues out more [p] := by
  obtain ⟨id, name, parents, marked, methods, properties, renames⟩ := p
  by_cases there : out.any (·.id == id)
  · obtain ⟨q, mem, same⟩ := List.any_eq_true.1 there
    have is := apart q _ (listed q mem) (above _ (.refl _)) (beq_iff_eq.1 same)
    refine ⟨[], ?_, .skip (is ▸ mem)⟩
    rw [collect, if_pos there, List.append_nil]
  · have new : ∀ q ∈ out, q.id ≠ id := fun q mem same => there (List.any_eq_true.2 ⟨q, mem, beq_iff_eq.2 same⟩)
    obtain ⟨more, eq, continues⟩ := continues_collectAll apart parents
      (out ++ [⟨id, name, parents, marked, methods, properties, renames⟩])
      (fun q mem => (List.mem_append.1 mem).elim (listed q) fun mem => List.mem_singleton.1 mem ▸ above _ (.refl _))
      fun parent mem q inherits => above q (.step mem inherits)
    refine ⟨_ :: more, ?_, continues.enter new⟩
    rw [collect, if_neg there, eq, List.append_assoc]
    rfl

theorem continues_collectAll (apart : ToldApart P) (ps out : List Protocol) (listed : ∀ q ∈ out, P q)
    (above : ∀ p ∈ ps, ∀ q, p.Inherits q → P q) :
    ∃ more, collectAll out ps = out ++ more ∧ Continues out more ps := by
  cases ps with
  | nil => exact ⟨[], (List.append_nil out).symm, .nil⟩
  | cons p ps =>
    obtain ⟨more, eq, first⟩ := continues_collect apart p out listed (above p List.mem_cons_self)
    have kept : ∀ q ∈ out ++ more, P q := by
      intro q mem
      rcases List.mem_append.1 mem with mem | mem
      · exact listed q mem
      · obtain ⟨p', only, inherits⟩ := first.inherits q mem
        exact above p List.mem_cons_self q (List.mem_singleton.1 only ▸ inherits)
    obtain ⟨more', eq', next⟩ := continues_collectAll apart ps (out ++ more) kept fun q mem =>
      above q (List.mem_cons_of_mem p mem)
    refine ⟨more ++ more', ?_, first.append next⟩
    rw [collectAll, eq, eq', List.append_assoc]

end

theorem collectAll_append (out ps ps' : List Protocol) :
    collectAll out (ps ++ ps') = collectAll (collectAll out ps) ps' := by
  induction ps generalizing out with
  | nil => rfl
  | cons p ps ih => exact ih (collect out p)

end Protocol

namespace Class

open Protocol

variable {c : Class}

/-- The protocols that some classes adopt, one class after another. -/
def adopted (as : List Class) : List Protocol := as.flatMap (·.protocols)

theorem exists_adopted {P : Protocol → Prop} {as : List Class} :
    (∃ p ∈ adopted as, P p) ↔ ∃ a ∈ as, ∃ p ∈ a.protocols, P p := by
  simp only [adopted, List.mem_flatMap]
  exact ⟨fun ⟨p, ⟨a, mem, adopts⟩, is⟩ => ⟨a, mem, p, adopts, is⟩,
    fun ⟨a, mem, p, adopts, is⟩ => ⟨p, ⟨a, mem, adopts⟩, is⟩⟩

theorem allProtocols_eq (c : Class) : c.allProtocols = collectAll [] (adopted c.ancestors) := by
  have each (as : List Class) (out : List Protocol) :
      as.foldl (fun out a => collectAll out a.protocols) out = collectAll out (adopted as) := by
    induction as generalizing out with
    | nil => rfl
    | cons a as ih =>
      rw [List.foldl_cons, ih, adopted, adopted, List.flatMap_cons, collectAll_append]
  exact each c.ancestors []

/-- The listing of a class begins with that of its nearest ancestors. -/
theorem continues_ancestors (apart : ToldApart c.Adopts) {near far : List Class} (split : c.ancestors = near ++ far) :
    ∃ first rest, c.allProtocols = first ++ rest ∧ Continues [] first (adopted near) ∧
      Continues first rest (adopted far) := by
  have adopts : ∀ p ∈ adopted near ++ adopted far, ∀ q, p.Inherits q → c.Adopts q := by
    intro p mem q inherits
    rw [adopted, adopted, ← List.flatMap_append, ← split] at mem
    exact exists_adopted.1 ⟨p, mem, inherits⟩
  obtain ⟨first, eq, nearest⟩ := continues_collectAll apart (adopted near) [] nofun fun p mem =>
    adopts p (List.mem_append_left _ mem)
  have listed : ∀ q ∈ first, c.Adopts q := by
    intro q mem
    obtain ⟨p, adopted, inherits⟩ := nearest.inherits q mem
    exact adopts p (List.mem_append_left _ adopted) q inherits
  obtain ⟨rest, eq', farther⟩ := continues_collectAll apart (adopted far) first listed fun p mem =>
    adopts p (List.mem_append_right _ mem)
  refine ⟨first, rest, ?_, nearest, farther⟩
  rw [allProtocols_eq, split, adopted, List.flatMap_append, collectAll_append]
  exact (congrArg (collectAll · _) eq).trans eq'

/-- What a class lists as its protocols. -/
structure ListsProtocols (c : Class) : Prop where
  /-- No protocol is there twice, under the same identity or another. -/
  once : (c.allProtocols.map (·.id)).Nodup
  /-- The protocols are those that the class or an ancestor adopts, and those above them. -/
  all (p : Protocol) : p ∈ c.allProtocols ↔ c.Adopts p
  /-- What some nearest ancestors adopt, with all above it, comes before what only the others add. -/
  nearer (near far : List Class) (split : c.ancestors = near ++ far) : ∃ first rest, c.allProtocols = first ++ rest ∧
    ∀ p, p ∈ first ↔ ∃ a ∈ near, ∃ q ∈ a.protocols, q.Inherits p
  /-- A protocol comes before those of its parents that were not listed earlier. -/
  parents (before : List Protocol) (p : Protocol) (after : List Protocol)
    (split : c.allProtocols = before ++ p :: after) : Brings before p after
  /-- What an ancestor lists, the class lists. -/
  inherited : ∀ a ∈ c.ancestors, a.allProtocols ⊆ c.allProtocols

/-- A class lists every protocol that it adopts once, nearest class first and a protocol before its parents, however the
protocols stand above each other and are adopted again. Identities are to tell the protocols apart. -/
theorem protocols_listed (apart : ToldApart c.Adopts) : c.ListsProtocols := by
  have continues : Continues [] c.allProtocols (adopted c.ancestors ++ adopted []) := by
    obtain ⟨first, rest, eq, nearest, farther⟩ := continues_ancestors apart (List.append_nil c.ancestors).symm
    exact eq ▸ nearest.append farther
  have all (p : Protocol) : p ∈ c.allProtocols ↔ c.Adopts p := by
    rw [continues.mem_iff, adopted, adopted, List.flatMap_nil, List.append_nil]
    exact exists_adopted
  have nearer (near far : List Class) (split : c.ancestors = near ++ far) : ∃ first rest,
      c.allProtocols = first ++ rest ∧ ∀ p, p ∈ first ↔ ∃ a ∈ near, ∃ q ∈ a.protocols, q.Inherits p := by
    obtain ⟨first, rest, eq, nearest, -⟩ := continues_ancestors apart split
    exact ⟨first, rest, eq, fun p => nearest.mem_iff.trans exists_adopted⟩
  refine { once := continues.once List.nodup_nil, all, nearer, parents := continues.brings, inherited := ?_ }
  exact fun a ancestor p mem => (all p).2 ((adopts_of_mem_allProtocols mem).mono ancestor)

/-- Protocols in a list that is closed under parents are told apart, if no identity is there twice. -/
theorem toldApart_of_closed {l : List Protocol} (once : (l.map (·.id)).Nodup)
    (own : ∀ a ∈ c.ancestors, ∀ p ∈ a.protocols, p ∈ l) (above : ∀ p ∈ l, ∀ q ∈ p.parents, q ∈ l) :
    ToldApart c.Adopts := by
  have closed {p q : Protocol} (inherits : p.Inherits q) : p ∈ l → q ∈ l := by
    induction inherits with
    | refl => exact fun mem => mem
    | @step p q r parent _ ih => exact fun mem => ih (above p mem q parent)
  intro p q ⟨a, mem, p', adopts, inherits⟩ ⟨a', mem', q', adopts', inherits'⟩ same
  exact List.inj_on_of_nodup_map once (closed inherits (own a mem p' adopts))
    (closed inherits' (own a' mem' q' adopts')) same

/-- A protocol without declarations. -/
private def bare (id : Nat) (name : String) (parents : List Protocol) : Protocol :=
  { id, name, parents, marked := false, methods := [], properties := [], renames := [] }

private def top : Protocol := bare 0 "Top" []

private def left : Protocol := bare 1 "Left" [top]

private def right : Protocol := bare 2 "Right" [top]

/-- A protocol that comes to one above it in two ways. -/
private def joined : Protocol := bare 3 "Joined" [left, right]

private def adopting : Class :=
  ⟨4, "Adopting", "Adopting", none, [right, bare 5 "Other" [right]], [], [], none⟩

/-- A class that adopts what stands above its own protocol once more, as its superclass does. -/
def readopting : Class := ⟨6, "Readopting", "Readopting", some adopting, [joined, top], [], [], none⟩

theorem protocols_listed_readopting : readopting.ListsProtocols ∧
    readopting.allProtocols.map (·.name) = ["Joined", "Left", "Top", "Right", "Other"] := by
  refine ⟨protocols_listed (toldApart_of_closed (l := [joined, left, top, right, bare 5 "Other" [right]]) ?_ ?_ ?_), ?_⟩
  · decide
  · simp [readopting, adopting, ancestors]
  · simp [joined, left, top, right, bare]
  · decide

end Class

end ScriptBridge
