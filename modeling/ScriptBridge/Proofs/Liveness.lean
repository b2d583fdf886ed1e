import Mathlib.Order.Basic
import ScriptBridge.Machine.Liveness

/-!
# Who lives

`Machine.NativeLives` says when a native object lives: it belongs to a set of objects each of which
is held directly, or by a cell of one in the set. It is the greatest fixed point, in the form of the
set that witnesses it, and it speaks of no flags and no rounds.

* `Machine.flagged_survivors`: the flags that `Machine.survivors` computes are exactly those objects.
  Its rounds only take flags away, so as many rounds as there are objects reach the fixed point.
* `Machine.nativeAlive_iff`: what `Machine.nativeAlive` answers.
* `Machine.HeldOutside`, `Machine.ManagedLives`: held apart from the wrapper tables; managed values
  that are still there.

Proof-only: not reachable from `ScriptBridge.Session.Run`.
-/

namespace ScriptBridge

namespace Machine

variable {m : Machine} {n k : Nat}

/-! ## Holds -/

/-- The wrapper table of a living context has an entry for a native object. -/
def HeldByRegistry (m : Machine) (n : Nat) : Prop :=
  ∃ id c r, m.contextAlive id = true ∧ m.context? id = some c ∧ (NativeKey.object n, r) ∈ c.wrappers

/-- A register or a running operation holds a native object. -/
def HeldByValue (m : Machine) (n : Nat) : Prop := ∃ v ∈ m.heldValues, n ∈ v.objects

/-- A cell of one native object holds another. -/
def HeldByCell (m : Machine) (owner n : Nat) : Prop :=
  ∃ o, m.native? owner = some o ∧ ∃ cell ∈ o.cells, n ∈ cell.2.objects

/-- A native object lives: it is in a set of objects that are held directly or by one in the set. -/
def NativeLives (m : Machine) (n : Nat) : Prop :=
  ∃ living : Nat → Prop, living n ∧ ∀ k, living k → (m.native? k).isSome = true ∧
    (m.HeldByValue k ∨ m.HeldByRegistry k ∨ ∃ owner, living owner ∧ m.HeldByCell owner k)

/-- Something apart from the wrapper tables holds a native object. -/
def HeldOutside (m : Machine) (n : Nat) : Prop :=
  (m.native? n).isSome = true ∧
    (m.HeldByValue n ∨ ∃ owner, m.NativeLives owner ∧ m.HeldByCell owner n)

/-- A managed value is still there: it has a name, or a value that something holds has its token. -/
def ManagedLives (m : Machine) (id : Nat) : Prop :=
  id ∈ m.tables.managed.map (·.2) ∨ (∃ v ∈ m.heldValues, id ∈ v.tokens) ∨
    ∃ owner o, m.NativeLives owner ∧ m.native? owner = some o ∧ ∃ cell ∈ o.cells, id ∈ cell.2.tokens

theorem mem_liveContexts {c : Context} :
    c ∈ m.liveContexts ↔ ∃ id, m.contextAlive id = true ∧ m.context? id = some c := by
  simp only [liveContexts, List.mem_filterMap, List.mem_range]
  constructor
  · rintro ⟨id, -, hid⟩
    split at hid
    · exact ⟨id, ‹_›, hid⟩
    · nomatch hid
  · rintro ⟨id, alive, hc⟩
    exact ⟨id, (Array.getElem?_eq_some_iff.1 hc).1, by rw [if_pos alive, hc]⟩

theorem mem_registryHolds : n ∈ m.registryHolds ↔ m.HeldByRegistry n := by
  simp only [registryHolds, List.mem_flatMap, List.mem_filterMap, mem_liveContexts]
  constructor
  · rintro ⟨c, ⟨id, alive, hc⟩, ⟨key, r⟩, mem, hn⟩
    cases key with
    | object serial =>
      obtain rfl := Option.some.inj hn
      exact ⟨id, c, r, alive, hc, mem⟩
    | closure id => nomatch hn
  · rintro ⟨id, c, r, alive, hc, mem⟩
    exact ⟨c, ⟨id, alive, hc⟩, _, mem, rfl⟩

theorem mem_directHolds : n ∈ m.directHolds ↔ m.HeldByValue n ∨ m.HeldByRegistry n := by
  rw [directHolds, List.mem_append, List.mem_flatMap, mem_registryHolds]
  rfl

theorem native?_eq_some {o : NativeObject} :
    m.native? n = some o ↔ n ≠ 0 ∧ m.natives[n - 1]? = some o := by
  unfold native?
  split <;> simp_all

theorem native?_succ (m : Machine) (i : Nat) : m.native? (i + 1) = m.natives[i]? := by
  simp [native?]

/-- There is a native object of a serial number if the number is in range. -/
theorem isSome_native? : (m.native? n).isSome = true ↔ n ≠ 0 ∧ n - 1 < m.natives.size := by
  simp only [Option.isSome_iff_exists, native?_eq_some, exists_and_left]
  refine and_congr_right fun _ => ⟨fun ⟨o, ho⟩ => (Array.getElem?_eq_some_iff.1 ho).1, fun inside => ?_⟩
  exact ⟨_, Array.getElem?_eq_getElem inside⟩

/-! ## Flags -/

variable {flags living direct : Array Bool} {serials : List Nat}

theorem flagged_iff : flagged flags n = true ↔ n ≠ 0 ∧ flags[n - 1]? = some true := by
  simp [flagged, Array.getD_eq_getD_getElem?, Option.getD_eq_iff]

theorem size_setFlags : (setFlags flags serials).size = flags.size := by
  unfold setFlags
  induction serials generalizing flags with
  | nil => rfl
  | cons serial rest ih =>
    rw [List.foldl_cons, ih]
    split <;> simp

theorem flagged_setFlags : flagged (setFlags flags serials) n = true ↔
    flagged flags n = true ∨ n ∈ serials ∧ n ≠ 0 ∧ n - 1 < flags.size := by
  unfold setFlags
  induction serials generalizing flags with
  | nil => simp
  | cons serial rest ih =>
    rw [List.foldl_cons, ih]
    by_cases zero : serial = 0
    · subst zero
      simp only [if_true, List.mem_cons]
      grind
    · simp only [if_neg zero, flagged_iff, Array.size_setIfInBounds, Array.getElem?_setIfInBounds, List.mem_cons]
      grind

/-- The flags after one object, if it lives, has flagged what its cells hold. -/
def flagCells (m : Machine) (living : Array Bool) (flags : Array Bool) (i : Nat) : Array Bool :=
  if living.getD i false then
    match m.natives[i]? with
    | some o => setFlags flags (cellHolds o)
    | none => flags
  else flags

theorem size_flagCells {i : Nat} : (m.flagCells living flags i).size = flags.size := by
  unfold flagCells
  split
  · split
    · exact size_setFlags
    · rfl
  · rfl

theorem mem_cellHolds {o : NativeObject} : n ∈ cellHolds o ↔ ∃ cell ∈ o.cells, n ∈ cell.2.objects := by
  rw [cellHolds, List.mem_flatMap]

theorem flagged_flagCells {i : Nat} : flagged (m.flagCells living flags i) n = true ↔
    flagged flags n = true ∨
      flagged living (i + 1) = true ∧ m.HeldByCell (i + 1) n ∧ n ≠ 0 ∧ n - 1 < flags.size := by
  have at_i : flagged living (i + 1) = true ↔ living.getD i false = true := by simp [flagged]
  rw [at_i]
  unfold flagCells HeldByCell
  rw [native?_succ]
  split
  · rename_i lives
    split <;> rename_i hi
    · rw [flagged_setFlags, mem_cellHolds, hi]
      simp [lives]
    · simp [hi]
  · rename_i dead
    simp [dead]

theorem flagged_foldl_flagCells {is : List Nat} :
    flagged (is.foldl (m.flagCells living) flags) n = true ↔ flagged flags n = true ∨
      ∃ i ∈ is, flagged living (i + 1) = true ∧ m.HeldByCell (i + 1) n ∧ n ≠ 0 ∧ n - 1 < flags.size := by
  induction is generalizing flags with
  | nil => simp
  | cons i rest ih =>
    rw [List.foldl_cons, ih, flagged_flagCells, size_flagCells, or_assoc]
    simp only [List.mem_cons, exists_eq_or_imp]

theorem size_foldl_flagCells {is : List Nat} : (is.foldl (m.flagCells living) flags).size = flags.size := by
  induction is generalizing flags with
  | nil => rfl
  | cons i rest ih => rw [List.foldl_cons, ih, size_flagCells]

theorem heldByCells_eq : m.heldByCells living flags = (List.range m.natives.size).foldl (m.flagCells living) flags :=
  rfl

theorem size_heldByCells : (m.heldByCells living flags).size = flags.size := by
  rw [heldByCells_eq, size_foldl_flagCells]

/-- One round flags what was flagged before, and what the cells of living objects hold. -/
theorem flagged_heldByCells (size : flags.size = m.natives.size) :
    flagged (m.heldByCells living flags) n = true ↔ flagged flags n = true ∨
      (m.native? n).isSome = true ∧ ∃ owner, flagged living owner = true ∧ m.HeldByCell owner n := by
  rw [heldByCells_eq, flagged_foldl_flagCells, isSome_native?, size]
  refine or_congr_right ?_
  constructor
  · rintro ⟨i, -, lives, held, nonzero, inside⟩
    exact ⟨⟨nonzero, inside⟩, i + 1, lives, held⟩
  · rintro ⟨⟨nonzero, inside⟩, owner, lives, held⟩
    obtain ⟨o, ho, cell⟩ := held
    obtain ⟨owner_nonzero, owner_inside⟩ := isSome_native?.1 (Option.isSome_iff_exists.2 ⟨o, ho⟩)
    obtain ⟨i, rfl⟩ := Nat.exists_eq_succ_of_ne_zero owner_nonzero
    exact ⟨i, List.mem_range.2 (by omega), lives, ⟨o, ho, cell⟩, nonzero, inside⟩

/-! ## Rounds -/

/-- Flags that are taken away make fewer flags. -/
theorem count_lt_of_subset {as bs : List Bool} (size : as.length = bs.length)
    (sub : ∀ i : Nat, as[i]? = some true → bs[i]? = some true) :
    as.count true ≤ bs.count true ∧ (as ≠ bs → as.count true < bs.count true) := by
  induction as generalizing bs with
  | nil => cases bs <;> simp_all
  | cons a as ih =>
    cases bs with
    | nil => simp at size
    | cons b bs =>
      obtain ⟨le, lt⟩ := ih (by simpa using size) fun i hi => by simpa using sub (i + 1) (by simpa using hi)
      have head : a = true → b = true := fun ha => by simpa using sub 0 (by simp [ha])
      simp only [List.count_cons, ne_eq, List.cons.injEq, not_and]
      cases a <;> cases b <;> simp_all
      omega

/-- A round that changes flags leaves fewer of them. -/
theorem count_heldByCells_lt (size : direct.size = m.natives.size) (living_size : living.size = m.natives.size)
    (decreasing : ∀ n, flagged (m.heldByCells living direct) n = true → flagged living n = true)
    (changed : m.heldByCells living direct ≠ living) :
    (m.heldByCells living direct).toList.count true < living.toList.count true := by
  have same_length : (m.heldByCells living direct).toList.length = living.toList.length :=
    (size_heldByCells.trans size).trans living_size.symm
  have sub (i : Nat) (hi : (m.heldByCells living direct).toList[i]? = some true) : living.toList[i]? = some true := by
    have before := decreasing (i + 1) (flagged_iff.2 ⟨i.succ_ne_zero, by simpa using hi⟩)
    simpa using (flagged_iff.1 before).2
  exact (count_lt_of_subset same_length sub).2 fun eq => changed (Array.toList_inj.1 eq)

/-- A round takes flags away, and one that takes none away has reached its fixed point. Every set
whose members are held by one another keeps its flags. -/
theorem shrink_spec (size : direct.size = m.natives.size) (fuel : Nat) (living : Array Bool)
    (living_size : living.size = m.natives.size)
    (decreasing : ∀ n, flagged (m.heldByCells living direct) n = true → flagged living n = true)
    (enough : living.toList.count true ≤ fuel) :
    (∀ n, flagged (m.heldByCells (m.shrink direct fuel living) direct) n = true ↔
      flagged (m.shrink direct fuel living) n = true) ∧
    ∀ kept : Nat → Prop, (∀ n, kept n → flagged living n = true) →
      (∀ n, kept n → (m.native? n).isSome = true ∧
        (flagged direct n = true ∨ ∃ owner, kept owner ∧ m.HeldByCell owner n)) →
      ∀ n, kept n → flagged (m.shrink direct fuel living) n = true := by
  induction fuel generalizing living with
  | zero =>
    have none_flagged (n : Nat) : flagged living n ≠ true := by
      intro hn
      have none_true : true ∉ living.toList := List.count_eq_zero.1 (Nat.le_zero.1 enough)
      exact none_true (List.mem_of_getElem? (by simpa using (flagged_iff.1 hn).2))
    rw [shrink]
    exact ⟨fun n => ⟨decreasing n, fun hn => absurd hn (none_flagged n)⟩, fun kept sub _ n hn => sub n hn⟩
  | succ fuel ih =>
    rw [shrink]
    by_cases fixed : m.heldByCells living direct = living
    · rw [if_pos (by simpa using fixed), fixed]
      exact ⟨fun n => Iff.rfl, fun kept sub _ n hn => sub n hn⟩
    · rw [if_neg (by simpa using fixed)]
      refine (ih (m.heldByCells living direct) (size_heldByCells.trans size) ?_ ?_).imp id fun keep kept sub held => ?_
      · intro n hn
        rw [flagged_heldByCells size] at hn ⊢
        exact hn.imp_right fun ⟨exists_n, owner, lives, held⟩ => ⟨exists_n, owner, decreasing owner lives, held⟩
      · have fewer := count_heldByCells_lt size living_size decreasing fixed
        omega
      · refine keep kept (fun n hn => ?_) held
        obtain ⟨exists_n, held_n⟩ := held n hn
        rw [flagged_heldByCells size]
        exact held_n.imp_right fun ⟨owner, ho, cell⟩ => ⟨exists_n, owner, sub owner ho, cell⟩

theorem flagged_replicate (size : Nat) (b : Bool) :
    flagged (Array.replicate size b) n = true ↔ b = true ∧ n ≠ 0 ∧ n - 1 < size := by
  rw [flagged_iff, Array.getElem?_replicate]
  split <;> simp_all [and_comm]

/-- The flags of what is held directly. -/
theorem flagged_direct : flagged (setFlags (Array.replicate m.natives.size false) serials) n = true ↔
    n ∈ serials ∧ (m.native? n).isSome = true := by
  rw [flagged_setFlags, flagged_replicate, isSome_native?, Array.size_replicate]
  simp

/-- The objects that are left over are those that live. -/
theorem flagged_survivors (m : Machine) (n : Nat) : flagged m.survivors n = true ↔ m.NativeLives n := by
  have size : (setFlags (Array.replicate m.natives.size false) m.directHolds).size = m.natives.size := by
    rw [size_setFlags, Array.size_replicate]
  obtain ⟨fixed, keep⟩ := shrink_spec size m.natives.size (Array.replicate m.natives.size true)
    Array.size_replicate
    (fun n hn => by
      rw [flagged_heldByCells size, flagged_direct] at hn
      rw [flagged_replicate]
      exact ⟨rfl, isSome_native?.1 (hn.elim And.right And.left)⟩)
    (by simp)
  constructor
  · intro hn
    refine ⟨fun k => flagged m.survivors k = true, hn, fun k hk => ?_⟩
    have held := (fixed k).2 hk
    rw [flagged_heldByCells size, flagged_direct, mem_directHolds] at held
    rcases held with ⟨held, exists_k⟩ | ⟨exists_k, owner, lives, cell⟩
    · exact ⟨exists_k, held.imp_right .inl⟩
    · exact ⟨exists_k, .inr (.inr ⟨owner, lives, cell⟩)⟩
  · rintro ⟨living, hn, held⟩
    refine keep living (fun k hk => ?_) (fun k hk => ?_) n hn
    · rw [flagged_replicate]
      exact ⟨rfl, isSome_native?.1 (held k hk).1⟩
    · obtain ⟨exists_k, value | registry | owner⟩ := held k hk
      · exact ⟨exists_k, .inl (flagged_direct.2 ⟨mem_directHolds.2 (.inl value), exists_k⟩)⟩
      · exact ⟨exists_k, .inl (flagged_direct.2 ⟨mem_directHolds.2 (.inr registry), exists_k⟩)⟩
      · exact ⟨exists_k, .inr owner⟩

/-- A native object is alive if it is held directly, or lives through the cells of others. -/
theorem nativeAlive_iff (m : Machine) (n : Nat) :
    m.nativeAlive n = true ↔ m.HeldByValue n ∨ m.HeldByRegistry n ∨ m.NativeLives n := by
  have region (h : m.regions.any (fun region =>
      (m.context? region.context).any fun c => c.wrappers.any (·.1 == .object n)) = true) :
      m.HeldByRegistry n := by
    obtain ⟨region, mem, h⟩ := List.any_eq_true.1 h
    obtain ⟨c, hc, h⟩ := (Option.any_eq_true ..).1 h
    obtain ⟨⟨key, r⟩, entry, h⟩ := List.any_eq_true.1 h
    have : key = .object n := by simpa using h
    subst this
    refine ⟨region.context, c, r, ?_, hc, entry⟩
    simp only [contextAlive, Bool.or_eq_true, List.any_eq_true]
    exact .inl (.inr ⟨region, mem, by simp⟩)
  simp only [nativeAlive, Bool.or_eq_true, List.contains_iff_mem, mem_directHolds, flagged_survivors]
  constructor
  · rintro ((h | h) | h)
    · exact .inr (.inl (region h))
    · exact h.imp_right .inl
    · exact .inr (.inr h)
  · rintro (h | h | h)
    · exact .inl (.inr (.inl h))
    · exact .inl (.inr (.inr h))
    · exact .inr h

end Machine

end ScriptBridge
