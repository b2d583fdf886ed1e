import ScriptBridge.Proofs.Runs

/-!
# Owners of managed values

What the entries of managed values are like at every moment, and how events change the owners in them.

* `Machine.Owning`: the entries have different values, the targets that these have, and each owner once.
  `Moment.Reachable.owning`: it holds whatever happened.
* `Machine.owners_addOwner`, `Machine.owners_removeOwner`: what becomes of the owners of every managed value.
* `Log.Owns`, `Log.Holds`: the owners that a log tells of. `Moment.Run.owns`, `Moment.Run.holds`: the entry has
  none that the log does not tell of, and has all that lived since.

Proof-only: not reachable from `ScriptBridge.Session.Run`.
-/

namespace ScriptBridge

namespace Machine

variable {m m' : Machine} {id i n : Nat} {target : Ref} {v : Value}

/-! ## Entries -/

/-- The owners of a managed value, living or not. -/
def owners (m : Machine) (id : Nat) : List Nat := (m.persistent.find? (·.id == id)).elim [] (·.owners)

theorem liveOwners_eq (m : Machine) (id : Nat) : m.liveOwners id = (m.owners id).filter m.nativeAlive := by
  unfold liveOwners owners
  cases m.persistent.find? (·.id == id) <;> rfl

theorem owners_congr (same : m'.persistent = m.persistent) (id : Nat) : m'.owners id = m.owners id := by
  unfold owners
  rw [same]

theorem exists_of_mem_owners (mem : n ∈ m.owners id) : ∃ e ∈ m.persistent, e.id = id ∧ n ∈ e.owners := by
  unfold owners at mem
  cases found : m.persistent.find? (·.id == id) with
  | none => simp [found] at mem
  | some e =>
    rw [found] at mem
    exact ⟨e, List.mem_of_find?_eq_some found, by simpa using List.find?_some found, mem⟩

/-- The entries of managed values are right. -/
structure Owning (m : Machine) : Prop where
  ids : (m.persistent.map (·.id)).Nodup
  targets : ∀ e ∈ m.persistent, m.managed[e.id]? = some (some (.object e.target))
  owners : ∀ e ∈ m.persistent, e.owners.Nodup

namespace Owning

theorem of_same (owning : m.Owning) (persistent : m'.persistent = m.persistent)
    (managed : ∀ (i : Nat) (v : Option Value), m.managed[i]? = some v → m'.managed[i]? = some v) : m'.Owning := by
  refine ⟨?_, fun e mem => ?_, fun e mem => ?_⟩
  · rw [persistent]
    exact owning.ids
  · rw [persistent] at mem
    exact managed _ _ (owning.targets e mem)
  · rw [persistent] at mem
    exact owning.owners e mem

/-- The entry of a managed value has its owners. -/
theorem owners_eq (owning : m.Owning) {e : PersistentEntry} (mem : e ∈ m.persistent) : m.owners e.id = e.owners := by
  have here : (m.persistent.find? (·.id == e.id)).isSome = true :=
    List.find?_isSome.2 ⟨e, mem, beq_self_eq_true e.id⟩
  obtain ⟨d, found⟩ := Option.isSome_iff_exists.1 here
  have same : d.id = e.id := by simpa using List.find?_some found
  have only : d = e := List.inj_on_of_nodup_map owning.ids (List.mem_of_find?_eq_some found) mem same
  unfold Machine.owners
  rw [found, only]
  rfl

theorem nodup (owning : m.Owning) (id : Nat) : (m.owners id).Nodup := by
  unfold Machine.owners
  cases found : m.persistent.find? (·.id == id) with
  | none => exact List.nodup_nil
  | some e => exact owning.owners e (List.mem_of_find?_eq_some found)

/-- Changing the owners in the entry of one managed value. -/
theorem change (owning : m.Owning) (owners : List Nat) (nodup : owners.Nodup) :
    ({ m with persistent := m.persistent.map fun e => if e.id == id then { e with owners } else e } :
      Machine).Owning := by
  refine ⟨?_, fun e mem => ?_, fun e mem => ?_⟩
  · rw [List.map_map]
    have same : (PersistentEntry.id ∘ fun e : PersistentEntry => if e.id == id then { e with owners } else e) =
        PersistentEntry.id := by
      funext e
      simp only [Function.comp]
      split <;> rfl
    rw [same]
    exact owning.ids
  · obtain ⟨d, hd, rfl⟩ := List.mem_map.1 mem
    have target := owning.targets d hd
    split <;> exact target
  · obtain ⟨d, hd, rfl⟩ := List.mem_map.1 mem
    split
    · exact nodup
    · exact owning.owners d hd

end Owning

/-! ## Adding and removing owners -/

/-- Changing the owners of one managed value changes those of no other. -/
theorem owners_change (m : Machine) (id : Nat) (owners : List Nat) (i : Nat)
    (here : (m.persistent.find? (·.id == id)).isSome = true) :
    ({ m with persistent := m.persistent.map fun e => if e.id == id then { e with owners } else e } :
      Machine).owners i = if i = id then owners else m.owners i := by
  have ids : (fun e : PersistentEntry => e.id == i) ∘ (fun e => if e.id == id then { e with owners } else e) =
      fun e => e.id == i := by
    funext e
    simp only [Function.comp]
    split <;> rfl
  unfold Machine.owners
  dsimp only
  rw [List.find?_map, ids]
  cases found : m.persistent.find? (·.id == i) with
  | none =>
    have other : i ≠ id := by
      rintro rfl
      simp [found] at here
    simp [other]
  | some e =>
    obtain rfl : e.id = i := by simpa using List.find?_some found
    by_cases same : e.id = id <;> simp [same]

/-- The owners after one was added: the others that live, and it. -/
def ownersWith (m : Machine) (id n : Nat) : List Nat :=
  let living := (m.owners id).filter m.nativeAlive
  if living.contains n then living else living ++ [n]

theorem owners_own (m : Machine) (id : Nat) (target : Ref) (n i : Nat) :
    (m.own id target n).2.owners i = if i = id then m.ownersWith id n else m.owners i := by
  unfold own
  cases found : m.persistent.find? (·.id == id) with
  | none =>
    have none_yet : m.owners id = [] := by rw [owners, found]; rfl
    rw [ownersWith, none_yet]
    by_cases same : i = id
    · subst same
      simp [owners, found]
    · simp [owners, same, Ne.symm same]
  | some e =>
    have at_id : m.owners id = e.owners := by rw [owners, found]; rfl
    have changed := m.owners_change id (m.ownersWith id n) i (by rw [found]; rfl)
    rw [← changed, ownersWith, at_id]
    dsimp only
    cases (e.owners.filter m.nativeAlive).contains n <;> rfl

theorem own_fst (m : Machine) (id : Nat) (target : Ref) (n : Nat) :
    (m.own id target n).1 = true ↔ ¬(n ∈ m.owners id ∧ m.nativeAlive n = true) := by
  unfold own owners
  cases m.persistent.find? (·.id == id) with
  | none => simp
  | some e => simp [List.mem_filter, imp_iff_not_or]

/-- Adding an owner to a live object takes the entry, and adding it to anything else does nothing. -/
theorem addOwner_cases (m : Machine) (id n : Nat) :
    (∃ target, m.managedValue? id = some (.object target) ∧ m.addOwner id n = m.own id target n) ∨
      m.addOwner id n = (false, m) := by
  unfold addOwner
  split
  · rename_i target found
    exact .inl ⟨target, found, rfl⟩
  · exact .inr rfl

theorem managed_of_managedValue? (h : m.managedValue? id = some v) :
    m.managed[id]? = some (some v) ∧ m.isLive v = true := by
  unfold managedValue? at h
  obtain ⟨at_id, live⟩ := Option.filter_eq_some_iff.1 h
  refine ⟨?_, live⟩
  rw [Array.getD_eq_getD_getElem?] at at_id
  cases here : m.managed[id]? with
  | none => simp [here] at at_id
  | some w => simpa [here] using at_id

theorem managedValue?_of_managed (h : m.managed[id]? = some (some v)) :
    m.managedValue? id = if m.isLive v = true then some v else none := by
  unfold managedValue?
  rw [Array.getD_eq_getD_getElem?, h]
  simp [Option.filter_some]

/-- An owner that was added owns a live object from then on. -/
theorem of_addOwner (added : (m.addOwner id n).1 = true) :
    (∃ target, m.managedValue? id = some (.object target)) ∧ n ∈ (m.addOwner id n).2.owners id := by
  rcases m.addOwner_cases id n with ⟨target, found, eq⟩ | eq
  · refine ⟨⟨target, found⟩, ?_⟩
    rw [eq, owners_own, if_pos rfl]
    unfold ownersWith
    dsimp only
    split
    · rename_i h
      exact List.contains_iff_mem.1 h
    · exact List.mem_append_right _ (List.mem_singleton_self n)
  · rw [eq] at added
    nomatch added

/-- Other owners that live stay. -/
theorem mem_owners_addOwner {k : Nat} (mem : n ∈ m.owners i) (alive : m.nativeAlive n = true) :
    n ∈ (m.addOwner id k).2.owners i := by
  rcases m.addOwner_cases id k with ⟨target, -, eq⟩ | eq
  · rw [eq, owners_own]
    split
    · rename_i same
      subst same
      have living : n ∈ (m.owners i).filter m.nativeAlive := List.mem_filter.2 ⟨mem, alive⟩
      unfold ownersWith
      dsimp only
      split
      · exact living
      · exact List.mem_append_left _ living
    · exact mem
  · rw [eq]
    exact mem

/-- Only the added one is new. -/
theorem of_mem_owners_addOwner {k : Nat} (mem : n ∈ (m.addOwner id k).2.owners i) :
    n ∈ m.owners i ∨ i = id ∧ n = k ∧ (m.addOwner id k).1 = true := by
  rcases m.addOwner_cases id k with ⟨target, -, eq⟩ | eq
  · rw [eq, owners_own] at mem
    rw [eq, own_fst]
    split at mem
    · rename_i same
      subst same
      unfold ownersWith at mem
      dsimp only at mem
      split at mem
      · exact .inl (List.mem_of_mem_filter mem)
      · rename_i other
        rw [List.contains_iff_mem, List.mem_filter] at other
        rcases List.mem_append.1 mem with mem | mem
        · exact .inl (List.mem_of_mem_filter mem)
        · exact .inr ⟨rfl, List.mem_singleton.1 mem, other⟩
    · exact .inl mem
  · rw [eq] at mem
    exact .inl mem

theorem owners_removeOwner (m : Machine) (id n i : Nat) :
    (m.removeOwner id n).2.owners i = if i = id then (m.owners id).filter (· != n) else m.owners i := by
  unfold removeOwner
  cases found : m.persistent.find? (·.id == id) with
  | none =>
    have none_yet : m.owners id = [] := by rw [owners, found]; rfl
    by_cases same : i = id
    · simp [same, none_yet]
    · simp [same]
  | some e =>
    have at_id : m.owners id = e.owners := by rw [owners, found]; rfl
    rw [at_id]
    dsimp only
    split
    · rename_i empty
      rw [List.isEmpty_iff] at empty
      unfold owners
      rw [List.find?_filter]
      by_cases same : i = id
      · rw [if_pos same, empty, List.find?_eq_none.2 fun e _ => by simp [same]]
        rfl
      · rw [if_neg same]
        congr 2
        funext e
        by_cases at_i : e.id = i <;> simp [at_i, same]
    · exact m.owners_change id _ i (by rw [found]; rfl)

namespace Owning

theorem own (owning : m.Owning) (held : m.managed[id]? = some (some (.object target))) (n : Nat) :
    (m.own id target n).2.Owning := by
  unfold Machine.own
  cases found : m.persistent.find? (·.id == id) with
  | none =>
    have fresh : ∀ e ∈ m.persistent, e.id ≠ id := fun e mem => by simpa using List.find?_eq_none.1 found e mem
    refine ⟨?_, fun e mem => ?_, fun e mem => ?_⟩
    · simp only [List.map_append, List.map_cons, List.map_nil]
      refine owning.ids.append (List.nodup_singleton _) fun j old new => ?_
      obtain ⟨e, mem, rfl⟩ := List.mem_map.1 old
      exact fresh e mem (List.mem_singleton.1 new)
    · rcases List.mem_append.1 mem with mem | mem
      · exact owning.targets e mem
      · obtain rfl := List.mem_singleton.1 mem
        exact held
    · rcases List.mem_append.1 mem with mem | mem
      · exact owning.owners e mem
      · obtain rfl := List.mem_singleton.1 mem
        exact List.nodup_singleton n
  | some e =>
    refine owning.change _ ?_
    have living := (owning.owners e (List.mem_of_find?_eq_some found)).filter m.nativeAlive
    split
    · rename_i isNew
      refine living.append (List.nodup_singleton n) fun k old new => ?_
      obtain rfl := List.mem_singleton.1 new
      rw [List.contains_iff_mem.2 old] at isNew
      nomatch isNew
    · exact living

theorem addOwner (owning : m.Owning) (id n : Nat) : (m.addOwner id n).2.Owning := by
  rcases m.addOwner_cases id n with ⟨target, found, eq⟩ | eq
  · rw [eq]
    exact owning.own (managed_of_managedValue? found).1 n
  · rw [eq]
    exact owning

theorem removeOwner (owning : m.Owning) (id n : Nat) : (m.removeOwner id n).2.Owning := by
  unfold Machine.removeOwner
  cases found : m.persistent.find? (·.id == id) with
  | none => exact owning
  | some e =>
    dsimp only
    split
    · refine ⟨?_, fun d mem => owning.targets d (List.mem_of_mem_filter mem),
        fun d mem => owning.owners d (List.mem_of_mem_filter mem)⟩
      exact owning.ids.sublist (List.filter_sublist.map _)
    · exact owning.change _ ((owning.owners e (List.mem_of_find?_eq_some found)).filter _)

end Owning

end Machine

/-! ## Events -/

namespace Action

variable {β : Type} {m : Machine}

/-- The owner that an action adds, and the managed value it adds it to. -/
def adds? : Action β → Option (Nat × Nat)
  | .addOwner id n => some (id, n)
  | _ => none

/-- The owner that an action removes, and the managed value it removes it from. -/
def removes? : Action β → Option (Nat × Nat)
  | .removeOwner id n => some (id, n)
  | _ => none

/-- Only adding and removing owners changes the entries. -/
theorem persistent_run (a : Action β) (quiet : ¬a.Collects m) :
    (a.adds? = none ∧ a.removes? = none ∧ (a.run m).2.persistent = m.persistent) ∨
      (∃ id n, a.adds? = some (id, n) ∧ a.removes? = none ∧ (a.run m).2 = (m.addOwner id n).2) ∨
      ∃ id n, a.adds? = none ∧ a.removes? = some (id, n) ∧ (a.run m).2 = (m.removeOwner id n).2 := by
  cases a with
  | read | edit | openRegion | beginCall | endCall | pushFrame | popFrame | position | addSource | openHold
  | closeHold | holdContext | releaseContext | addContext | addTemplate | addNative | addManaged | setOptions
  | setEvaluator | tables => exact .inl ⟨rfl, rfl, rfl⟩
  | allocate | addWrapper =>
    refine .inl ⟨rfl, rfl, ?_⟩
    simp only [run, Machine.register, Machine.allocate_eq]
  | track v =>
    obtain ⟨_, eq, -⟩ := run_track m v
    exact .inl ⟨rfl, rfl, by rw [eq]⟩
  | hold v =>
    obtain ⟨_, eq⟩ := run_hold m v
    exact .inl ⟨rfl, rfl, by rw [eq]⟩
  | setCell serial cell v =>
    obtain ⟨_, eq⟩ := run_setCell m serial cell v
    exact .inl ⟨rfl, rfl, by rw [eq]⟩
  | closeRegion panicking =>
    refine .inl ⟨rfl, rfl, ?_⟩
    change (m.closeRegion panicking).persistent = _
    rw [closeRegion_eq quiet]
    rfl
  | addOwner id n => exact .inr (.inl ⟨id, n, rfl, rfl, rfl⟩)
  | removeOwner id n => exact .inr (.inr ⟨id, n, rfl, rfl, rfl⟩)
  | collect => exact absurd trivial quiet

/-- Managed values keep their values. -/
theorem managed_run (a : Action β) (quiet : ¬a.Collects m) {i : Nat} {v : Option Value}
    (h : m.managed[i]? = some v) : (a.run m).2.managed[i]? = some v := by
  have side := a.run_nativeSide m
  cases a with
  | read | edit | openRegion | beginCall | endCall | pushFrame | popFrame | position | addSource | openHold
  | closeHold | holdContext | releaseContext | addContext | addTemplate | addNative | setOptions | setEvaluator
  | tables => exact h
  | allocate | addWrapper => simpa only [run, Machine.register, Machine.allocate_eq] using h
  | track v =>
    obtain ⟨_, eq, -⟩ := run_track m v
    rw [eq]
    exact h
  | hold | setCell | addOwner | removeOwner =>
    obtain ⟨_, _, _, eq⟩ := side rfl
    rw [eq]
    exact h
  | closeRegion panicking =>
    change (m.closeRegion panicking).managed[i]? = _
    rw [closeRegion_eq quiet]
    exact h
  | addManaged w =>
    have inside := (Array.getElem?_eq_some_iff.1 h).1
    change (m.managed.push w)[i]? = some v
    rw [Array.getElem?_push, if_neg (by omega), h]
  | collect => exact absurd trivial quiet

end Action

namespace Event

def adds? : Event → Option (Nat × Nat)
  | act a => a.adds?
  | sweep | callback | finish => none

def removes? : Event → Option (Nat × Nat)
  | act a => a.removes?
  | sweep | callback | finish => none

/-- An event adds an owner to a managed value, which has become its owner. -/
def Adds (e : Event) (m : Machine) (id n : Nat) : Prop := e.adds? = some (id, n) ∧ (m.addOwner id n).1 = true

/-- An event removes an owner from a managed value. -/
def Removes (e : Event) (id n : Nat) : Prop := e.removes? = some (id, n)

end Event

namespace Moment

variable {t u : Moment} {e : Event} {id n : Nat}

/-- Only adding and removing owners changes the entries. -/
theorem Does.persistent (does : t.Does e u) :
    (e.adds? = none ∧ e.removes? = none ∧ u.machine.persistent = t.machine.persistent) ∨
      (∃ id n, e.adds? = some (id, n) ∧ e.removes? = none ∧ u.machine = (t.machine.addOwner id n).2) ∨
      ∃ id n, e.adds? = none ∧ e.removes? = some (id, n) ∧ u.machine = (t.machine.removeOwner id n).2 := by
  cases does with
  | act a legal quiet => exact a.persistent_run quiet
  | sweep few => exact .inl ⟨rfl, rfl, by rw [swept, Machine.sweep_eq]⟩
  | callback => exact .inl ⟨rfl, rfl, rfl⟩
  | finish => exact .inl ⟨rfl, rfl, rfl⟩

theorem Does.managed (does : t.Does e u) {i : Nat} {v : Option Value} (h : t.machine.managed[i]? = some v) :
    u.machine.managed[i]? = some v := by
  cases does with
  | act a legal quiet => exact a.managed_run quiet h
  | sweep few =>
    rw [swept, Machine.sweep_eq]
    exact h
  | callback => exact h
  | finish => exact h

theorem Does.owning (does : t.Does e u) (owning : t.machine.Owning) : u.machine.Owning := by
  rcases does.persistent with ⟨-, -, same⟩ | ⟨id, n, -, -, eq⟩ | ⟨id, n, -, -, eq⟩
  · exact owning.of_same same fun i v => does.managed
  · rw [eq]
    exact owning.addOwner id n
  · rw [eq]
    exact owning.removeOwner id n

theorem Run.owning {log : Log} (run : t.Run log u) (owning : t.machine.Owning) : u.machine.Owning := by
  induction run with
  | start => exact owning
  | next _ does ih => exact does.owning ih

/-- The entries of managed values are right, whatever happened. -/
theorem Reachable.owning (reachable : t.Reachable) : t.machine.Owning := by
  obtain ⟨options, now, leads⟩ := reachable
  obtain ⟨log, run⟩ := leads.run
  exact run.owning ⟨List.nodup_nil, fun e mem => (nomatch mem), fun e mem => nomatch mem⟩

theorem Run.managed {log : Log} (run : t.Run log u) {i : Nat} {v : Option Value}
    (h : t.machine.managed[i]? = some v) : u.machine.managed[i]? = some v := by
  induction run with
  | start => exact h
  | next _ does ih => exact does.managed ih

/-- An event adds an owner, or it was there before and the event does not remove it. -/
theorem Does.of_mem_owners (does : t.Does e u) (mem : n ∈ u.machine.owners id) :
    e.Adds t.machine id n ∨ n ∈ t.machine.owners id ∧ ¬e.Removes id n := by
  rcases does.persistent with ⟨-, none, same⟩ | ⟨i, k, adds, none, eq⟩ | ⟨i, k, -, removes, eq⟩
  · rw [Machine.owners_congr same] at mem
    exact .inr ⟨mem, fun removes => nomatch none.symm.trans removes⟩
  · rw [eq] at mem
    rcases Machine.of_mem_owners_addOwner mem with before | ⟨rfl, rfl, added⟩
    · exact .inr ⟨before, fun removes => nomatch none.symm.trans removes⟩
    · exact .inl ⟨adds, added⟩
  · rw [eq, Machine.owners_removeOwner] at mem
    refine .inr ?_
    unfold Event.Removes
    rw [removes, Option.some.injEq, Prod.mk.injEq]
    by_cases same : id = i
    · subst same
      rw [if_pos rfl, List.mem_filter] at mem
      exact ⟨mem.1, fun both => by simp [both.2] at mem⟩
    · rw [if_neg same] at mem
      exact ⟨mem, fun both => same both.1.symm⟩

/-- An owner that is added, or that lives and is not removed, is there afterwards. -/
theorem Does.mem_owners (does : t.Does e u)
    (owns : e.Adds t.machine id n ∨ n ∈ t.machine.owners id ∧ t.machine.nativeAlive n = true ∧ ¬e.Removes id n) :
    n ∈ u.machine.owners id := by
  rcases does.persistent with ⟨none, -, same⟩ | ⟨i, k, adds, -, eq⟩ | ⟨i, k, none, removes, eq⟩
  · rw [Machine.owners_congr same]
    rcases owns with ⟨adds, -⟩ | ⟨mem, -, -⟩
    · nomatch none.symm.trans adds
    · exact mem
  · rw [eq]
    rcases owns with ⟨adds', added⟩ | ⟨mem, alive, -⟩
    · obtain ⟨rfl, rfl⟩ := Prod.mk.inj (Option.some.inj (adds.symm.trans adds'))
      exact (Machine.of_addOwner added).2
    · exact Machine.mem_owners_addOwner mem alive
  · rw [eq, Machine.owners_removeOwner]
    rcases owns with ⟨adds, -⟩ | ⟨mem, -, stays⟩
    · nomatch none.symm.trans adds
    · split
      · rename_i same
        subst same
        refine List.mem_filter.2 ⟨mem, ?_⟩
        have other : n ≠ k := fun same => stays (same ▸ removes)
        simpa using other
      · exact mem

end Moment

/-! ## Logs -/

namespace Log

variable {log : Log} {id n : Nat} {t : Moment} {e : Event}

/-- An owner was added to a managed value, and it was not removed since. -/
def Owns (log : Log) (id n : Nat) : Prop :=
  ∃ later t e earlier, log = later ++ (t, e) :: earlier ∧ e.Adds t.machine id n ∧
    ∀ entry ∈ later, ¬entry.2.Removes id n

/-- An owner was added to a managed value, and it was neither removed since nor released. -/
def Holds (log : Log) (id n : Nat) : Prop :=
  ∃ later t e earlier, log = later ++ (t, e) :: earlier ∧ e.Adds t.machine id n ∧
    ∀ entry ∈ later, ¬entry.2.Removes id n ∧ entry.1.machine.nativeAlive n = true

theorem owns_of_adds (adds : e.Adds t.machine id n) : Owns ((t, e) :: log) id n :=
  ⟨[], t, e, log, rfl, adds, fun _ mem => nomatch mem⟩

theorem Owns.cons (owns : log.Owns id n) (stays : ¬e.Removes id n) : Owns ((t, e) :: log) id n := by
  obtain ⟨later, t', e', earlier, rfl, adds, since⟩ := owns
  refine ⟨(t, e) :: later, t', e', earlier, rfl, adds, fun entry mem => ?_⟩
  rcases List.mem_cons.1 mem with rfl | mem
  · exact stays
  · exact since entry mem

end Log

namespace Moment

variable {t u : Moment} {log : Log} {id n : Nat}

/-- All owners were added since there were none. -/
theorem Run.owns (run : t.Run log u) (none : t.machine.owners id = []) (mem : n ∈ u.machine.owners id) :
    log.Owns id n := by
  induction run with
  | start =>
    rw [none] at mem
    nomatch mem
  | next run does ih =>
    rcases does.of_mem_owners mem with adds | ⟨before, stays⟩
    · exact Log.owns_of_adds adds
    · exact (ih before).cons stays

/-- An owner stays one until it is removed or released. -/
theorem Run.keeps_owner (run : t.Run log u) (mem : n ∈ t.machine.owners id)
    (since : ∀ entry ∈ log, ¬entry.2.Removes id n ∧ entry.1.machine.nativeAlive n = true) :
    n ∈ u.machine.owners id := by
  induction run with
  | start => exact mem
  | @next log u w e run does ih =>
    have before := ih fun entry h => since entry (List.mem_cons_of_mem _ h)
    obtain ⟨stays, alive⟩ := since (u, e) List.mem_cons_self
    exact does.mem_owners (.inr ⟨before, alive, stays⟩)

theorem Run.holds (run : t.Run log u) (holds : log.Holds id n) : n ∈ u.machine.owners id := by
  obtain ⟨later, p, e, earlier, rfl, adds, since⟩ := holds
  obtain ⟨q, first, second⟩ := run.split
  cases first with
  | next first does => exact second.keeps_owner (does.mem_owners (.inl adds)) since

end Moment

end ScriptBridge
