import ScriptBridge.Machine.Action
import ScriptBridge.Proofs.Liveness
import ScriptBridge.Proofs.Marking

/-!
# What a collection starts from

`Machine.IsRoot` lists the sources of roots, one constructor for each, in terms of who lives and what
is held; `Machine.mem_roots` says that the list that a collection computes has exactly these.

Proof-only: not reachable from `ScriptBridge.Session.Run`.
-/

namespace ScriptBridge

namespace Machine

variable {m : Machine} {r : Ref}

/-- The sources of roots. -/
inductive IsRoot (m : Machine) : Ref → Prop
  /-- A handle of an open region. -/
  | handle {region : Region} {r : Ref} (mem : region ∈ m.regions) (handle : r ∈ region.handles) : IsRoot m r
  /-- `this` of an active call. -/
  | this {c : CallRecord} {r : Ref} (mem : c ∈ m.calls.items) (h : c.this = .object r) : IsRoot m r
  /-- The function of an active call. -/
  | callee {c : CallRecord} (mem : c ∈ m.calls.items) : IsRoot m c.callee
  /-- An argument of an active call. -/
  | argument {c : CallRecord} {r : Ref} (mem : c ∈ m.calls.items) (arg : .object r ∈ c.args) : IsRoot m r
  /-- The target of a managed value that is still there and has an owner that lives. -/
  | persistent {e : PersistentEntry} {owner : Nat} (mem : e ∈ m.persistent) (kept : m.ManagedLives e.id)
      (owned : owner ∈ e.owners) (lives : m.NativeLives owner) : IsRoot m e.target
  /-- The global object of a living context. -/
  | global {id : Nat} {c : Context} (alive : m.contextAlive id = true) (h : m.context? id = some c) :
      IsRoot m c.global
  /-- A prototype of a living context. -/
  | intrinsic {id : Nat} {c : Context} {r : Ref} (alive : m.contextAlive id = true)
      (h : m.context? id = some c) (mem : r ∈ c.intrinsics.all) : IsRoot m r
  /-- The constructor of a class bridged into a living context. -/
  | constructor {id : Nat} {c : Context} {t : Template} (alive : m.contextAlive id = true)
      (h : m.context? id = some c) (mem : t ∈ c.templates) : IsRoot m t.constructor
  /-- The prototype of a class bridged into a living context. -/
  | prototype {id : Nat} {c : Context} {t : Template} (alive : m.contextAlive id = true)
      (h : m.context? id = some c) (mem : t ∈ c.templates) : IsRoot m t.prototype
  /-- A wrapper that has properties of its own, while its native object is held outside the wrapper
  tables. -/
  | wrapper {id n : Nat} {c : Context} {r : Ref} {o : Object} (alive : m.contextAlive id = true)
      (h : m.context? id = some c) (mem : (.object n, r) ∈ c.wrappers) (ho : m.object? r = some o)
      (own : o.properties ≠ []) (outside : m.HeldOutside n) : IsRoot m r

theorem mem_callRoots {c : CallRecord} :
    r ∈ callRoots c ↔ c.this = .object r ∨ r = c.callee ∨ .object r ∈ c.args := by
  simp [callRoots, Value.ref?_eq_some]

/-- The cells of the objects that live, as values. -/
theorem mem_livingCells {v : NativeValue} : v ∈ m.livingCells m.survivors ↔
    ∃ owner o, m.NativeLives owner ∧ m.native? owner = some o ∧ ∃ cell ∈ o.cells, cell.2 = v := by
  simp only [livingCells, List.mem_flatMap, List.mem_range]
  constructor
  · rintro ⟨i, -, hi⟩
    split at hi
    · rename_i lives
      split at hi
      · rename_i o ho
        refine ⟨i + 1, o, (flagged_survivors ..).1 (by simpa [flagged] using lives), ?_, by simpa using hi⟩
        rw [native?_succ, ho]
      · simp at hi
    · simp at hi
  · rintro ⟨owner, o, lives, ho, cell⟩
    obtain ⟨nonzero, inside⟩ := isSome_native?.1 (Option.isSome_iff_exists.2 ⟨o, ho⟩)
    obtain ⟨i, rfl⟩ := Nat.exists_eq_succ_of_ne_zero nonzero
    rw [native?_succ] at ho
    refine ⟨i, inside, ?_⟩
    rw [if_pos (by simpa [flagged] using (flagged_survivors m (i + 1)).2 lives), ho]
    simpa using cell

theorem mem_managedSurvivors {id : Nat} : id ∈ m.managedSurvivors m.survivors ↔ m.ManagedLives id := by
  simp only [managedSurvivors, List.mem_append, List.mem_flatMap, mem_livingCells, ManagedLives, or_assoc]
  refine or_congr_right (or_congr_right ?_)
  constructor
  · rintro ⟨_, ⟨owner, o, lives, ho, cell, mem, rfl⟩, token⟩
    exact ⟨owner, o, lives, ho, cell, mem, token⟩
  · rintro ⟨owner, o, lives, ho, cell, mem, token⟩
    exact ⟨_, ⟨owner, o, lives, ho, cell, mem, rfl⟩, token⟩

theorem mem_persistentRoots : r ∈ m.persistentRoots m.survivors ↔
    ∃ e ∈ m.persistent, m.ManagedLives e.id ∧ (∃ owner ∈ e.owners, m.NativeLives owner) ∧ e.target = r := by
  unfold persistentRoots
  split
  · rename_i empty
    rw [List.isEmpty_iff] at empty
    simp [empty]
  · simp only [List.mem_filterMap]
    refine exists_congr fun e => and_congr_right fun _ => ?_
    have kept : (m.managedSurvivors m.survivors).contains e.id = true ↔ m.ManagedLives e.id := by
      rw [List.contains_iff_mem, mem_managedSurvivors]
    have owned : e.owners.any (flagged m.survivors) = true ↔ ∃ owner ∈ e.owners, m.NativeLives owner := by
      simp only [List.any_eq_true, flagged_survivors]
    rw [← kept, ← owned]
    cases (m.managedSurvivors m.survivors).contains e.id <;>
      cases e.owners.any (flagged m.survivors) <;> simp

theorem mem_outsideHolds {n : Nat} : n ∈ m.outsideHolds m.survivors ↔
    m.HeldByValue n ∨ ∃ owner, m.NativeLives owner ∧ m.HeldByCell owner n := by
  simp only [outsideHolds, List.mem_append, List.mem_flatMap, mem_livingCells, HeldByValue, HeldByCell]
  refine or_congr_right ?_
  constructor
  · rintro ⟨_, ⟨owner, o, lives, ho, cell, mem, rfl⟩, held⟩
    exact ⟨owner, lives, o, ho, cell, mem, held⟩
  · rintro ⟨owner, lives, o, ho, cell, mem, held⟩
    exact ⟨_, ⟨owner, o, lives, ho, cell, mem, rfl⟩, held⟩

/-- The flags of what is held outside the wrapper tables. -/
theorem flagged_outside {n : Nat} :
    flagged (setFlags (Array.replicate m.natives.size false) (m.outsideHolds m.survivors)) n = true ↔
      m.HeldOutside n := by
  rw [flagged_direct, mem_outsideHolds, and_comm]
  rfl

theorem mem_wrapperRoots {c : Context} :
    r ∈ m.wrapperRoots (setFlags (Array.replicate m.natives.size false) (m.outsideHolds m.survivors)) c ↔
      ∃ n o, (.object n, r) ∈ c.wrappers ∧ m.object? r = some o ∧ o.properties ≠ [] ∧ m.HeldOutside n := by
  simp only [wrapperRoots, List.mem_filterMap]
  constructor
  · rintro ⟨⟨key, wrapper⟩, mem, h⟩
    cases key with
    | object n =>
      simp only at h
      split at h
      · rename_i both
        obtain rfl := Option.some.inj h
        obtain ⟨outside, own⟩ := (Bool.and_eq_true ..).mp both
        obtain ⟨o, ho, own⟩ := (Option.any_eq_true ..).1 own
        exact ⟨n, o, mem, ho, by simpa using own, flagged_outside.1 outside⟩
      · nomatch h
    | closure id => nomatch h
  · rintro ⟨n, o, mem, ho, own, outside⟩
    refine ⟨_, mem, if_pos ?_⟩
    exact (Bool.and_eq_true ..).mpr ⟨flagged_outside.2 outside, (Option.any_eq_true ..).2 ⟨o, ho, by simpa using own⟩⟩

/-- A collection starts from the roots of every source and from nothing else. -/
theorem mem_roots : r ∈ m.roots ↔ m.IsRoot r := by
  simp only [roots, contextRoots, List.mem_append, List.mem_flatMap, mem_callRoots, mem_persistentRoots,
    List.mem_cons, List.not_mem_nil, or_false, mem_wrapperRoots, mem_liveContexts]
  constructor
  · rintro (((⟨region, mem, handle⟩ | ⟨c, mem, this | rfl | arg⟩) | ⟨e, mem, kept, ⟨owner, owned, lives⟩, rfl⟩) |
      ⟨c, ⟨id, alive, h⟩, ((rfl | intrinsic) | ⟨t, mem, rfl | rfl⟩) | ⟨n, o, mem, ho, own, outside⟩⟩)
    · exact .handle mem handle
    · exact .this mem this
    · exact .callee mem
    · exact .argument mem arg
    · exact .persistent mem kept owned lives
    · exact .global alive h
    · exact .intrinsic alive h intrinsic
    · exact .constructor alive h mem
    · exact .prototype alive h mem
    · exact .wrapper alive h mem ho own outside
  · intro root
    cases root with
    | handle mem handle => exact .inl (.inl (.inl ⟨_, mem, handle⟩))
    | this mem h => exact .inl (.inl (.inr ⟨_, mem, .inl h⟩))
    | callee mem => exact .inl (.inl (.inr ⟨_, mem, .inr (.inl rfl)⟩))
    | argument mem arg => exact .inl (.inl (.inr ⟨_, mem, .inr (.inr arg)⟩))
    | persistent mem kept owned lives => exact .inl (.inr ⟨_, mem, kept, ⟨_, owned, lives⟩, rfl⟩)
    | global alive h => exact .inr ⟨_, ⟨_, alive, h⟩, .inl (.inl (.inl rfl))⟩
    | intrinsic alive h mem => exact .inr ⟨_, ⟨_, alive, h⟩, .inl (.inl (.inr mem))⟩
    | constructor alive h mem => exact .inr ⟨_, ⟨_, alive, h⟩, .inl (.inr ⟨_, mem, .inl rfl⟩)⟩
    | prototype alive h mem => exact .inr ⟨_, ⟨_, alive, h⟩, .inl (.inr ⟨_, mem, .inr rfl⟩)⟩
    | wrapper alive h mem ho own outside =>
      exact .inr ⟨_, ⟨_, alive, h⟩, .inr ⟨_, _, mem, ho, own, outside⟩⟩

end Machine

end ScriptBridge
