import ScriptBridge.Proofs.Collection
import ScriptBridge.Proofs.Identity

/-!
# What collections release

The tables of contexts hold native objects for as long as their wrappers live. When a collection frees a
wrapper it takes its callback, which drops the entry, and with the last entry the native object goes.

* `Moment.Reachable.of_taken`: the callbacks that a collection took are those of the objects it freed.
* `Machine.Sound.mem_wrappers`: with no callback left to run, tables have exactly the live objects.
* `Machine.nativeAlive_collect`: what only freed wrappers held is released.
* `Moment.Releases`, `Moment.Reachable.collect_releases`: what holds at every moment.

Proof-only: not reachable from `ScriptBridge.Session.Run`.
-/

namespace ScriptBridge

/-! ## Callbacks -/

namespace Moment

variable {t u : Moment}

/-- What a collection took it took in its sweep. -/
theorem Step.of_taken (step : t.Step u) {l : List WeakEntry} (taken : l ∈ u.taken) :
    l ∈ t.taken ∨ l = t.machine.sweep.1.callbacks := by
  cases step with
  | act a legal quiet => exact .inl taken
  | sweep few =>
    rw [taken_sweep] at taken
    exact (List.mem_cons.1 taken).symm
  | callback =>
    refine .inl ?_
    simp only [Moment.taken, List.map_cons, List.append_assoc, List.singleton_append] at taken ⊢
    exact taken
  | finish =>
    refine .inl ?_
    simp only [Moment.taken, List.map_cons, List.append_nil, List.cons_append] at taken ⊢
    exact List.perm_middle.mem_iff.1 taken

/-- The callbacks that a collection took are those that its sweep left to run, at an earlier moment. -/
theorem Reachable.of_taken (reachable : t.Reachable) {l : List WeakEntry} (taken : l ∈ t.taken) :
    ∃ t₀ : Moment, t₀.Reachable ∧ t₀.Leads t ∧ l = t₀.machine.sweep.1.callbacks := by
  obtain ⟨options, now, leads⟩ := reachable
  induction leads with
  | refl => nomatch taken
  | @tail u v leads step ih =>
    rcases step.of_taken taken with earlier | rfl
    · obtain ⟨t₀, reachable, leads', eq⟩ := ih earlier
      exact ⟨t₀, reachable, leads'.tail step, eq⟩
    · exact ⟨u, ⟨options, now, leads⟩, .single step, rfl⟩

end Moment

namespace Machine

variable {m : Machine} {waiting : List WeakEntry} {r x : Ref} {id n : Nat} {key : NativeKey} {c : Context}

/-- The callbacks of a sweep are the registered ones whose target it frees. -/
theorem Sound.callbacks_sweep (sound : m.Sound waiting) (e : WeakEntry) : e ∈ m.sweep.1.callbacks ↔
    e ∈ m.weak ∧ m.heap.isLive e.target = true ∧ m.sweep.2.heap.isLive e.target = false := by
  have swept : m.sweep.2.heap.isLive e.target = true ↔
      m.heap.isLive e.target = true ∧ m.heap.Reaches m.IsRoot e.target := by
    rw [sweep_eq]
    exact isLive_sweep sound.heap e.target
  rw [sound.mem_callbacks, sound.weak, ← Bool.not_eq_true, swept]
  constructor
  · rintro ⟨stands, unreached⟩
    exact ⟨stands, stands.isLive, fun both => unreached both.2⟩
  · rintro ⟨stands, live, freed⟩
    exact ⟨stands, fun reached => freed ⟨live, reached⟩⟩

theorem Sound.callbacks_nodup (sound : m.Sound waiting) : m.sweep.1.callbacks.Nodup := by
  rw [sweep_eq]
  exact List.nodup_reverse.2 (sound.weak_nodup.filter _)

/-! ## Tables -/

/-- With no callback left to run, the table of a context has exactly the objects that stand for something. -/
theorem Sound.mem_wrappers (settled : m.Settled) (hc : m.context? id = some c) :
    (key, r) ∈ c.wrappers ↔ m.Stands r id key := by
  constructor
  · intro mem
    rcases settled.entries id c key r hc mem with stands | waits
    · exact stands
    · nomatch waits
  · intro stands
    obtain ⟨d, hd, mem⟩ := settled.registered r id key stands
    rw [hc, Option.some.injEq] at hd
    subst hd
    exact mem

/-- The tables have the wrappers that are there, so between two machines they lose those that are not. -/
theorem Sound.mem_wrappers_iff (settled : m.Settled) {m' : Machine} {c' : Context} (settled' : m'.Settled)
    (there : m.context? id = some c) (there' : m'.context? id = some c')
    (old : m'.Stands r id key → m.Stands r id key ∧ m'.object? r = m.object? r) :
    (key, r) ∈ c'.wrappers ↔ (key, r) ∈ c.wrappers ∧ m'.object? r = m.object? r := by
  rw [settled.mem_wrappers there, settled'.mem_wrappers there']
  refine ⟨old, ?_⟩
  rintro ⟨⟨o, ho, twin⟩, same⟩
  exact ⟨o, same.trans ho, twin⟩

/-- No object has two entries. -/
theorem Sound.targets_nodup (settled : m.Settled) (hc : m.context? id = some c) :
    (c.wrappers.map (·.2)).Nodup := by
  refine (List.nodup_map_iff_inj_on (settled.keys id c hc).of_map).2 ?_
  rintro ⟨key, r⟩ mem ⟨key', r'⟩ mem' same
  obtain rfl : r = r' := same
  obtain ⟨-, rfl⟩ := ((settled.mem_wrappers hc).1 mem).unique ((settled.mem_wrappers hc).1 mem')
  rfl

/-- A live wrapper of a living context reads as live. -/
theorem Sound.wrapperState (sound : m.Sound waiting) {o : Object} {w : WrapperData} (ho : m.object? x = some o)
    (payload : o.payload = .wrapper w) (alive : m.contextAlive w.context = true) :
    m.wrapperState (.object x) = .live w.native := by
  have twin : o.twin? = some (w.context, .object w.native.serial) := Object.twin?_eq_some.2 (.inl ⟨w, payload, rfl, rfl⟩)
  exact Scope.wrapperState_of_object? ho payload (sound.nativeAlive alive ⟨o, ho, twin⟩)

/-! ## Native objects -/

/-- With no callback left to run, whatever lives is held by a value, by a cell of something that lives, or
by a live wrapper. -/
theorem Sound.held (settled : m.Settled) (alive : m.nativeAlive n = true) :
    m.HeldByValue n ∨ (∃ owner, m.NativeLives owner ∧ m.HeldByCell owner n) ∨
      ∃ id r, m.contextAlive id = true ∧ m.Stands r id (.object n) := by
  have registry (held : m.HeldByRegistry n) : ∃ id r, m.contextAlive id = true ∧ m.Stands r id (.object n) := by
    obtain ⟨id, c, r, alive, hc, mem⟩ := held
    exact ⟨id, r, alive, (settled.mem_wrappers hc).1 mem⟩
  rcases (nativeAlive_iff m n).1 alive with value | held | ⟨living, lives, held⟩
  · exact .inl value
  · exact .inr (.inr (registry held))
  · rcases (held n lives).2 with value | held' | ⟨owner, ownerLives, cell⟩
    · exact .inl value
    · exact .inr (.inr (registry held'))
    · exact .inr (.inl ⟨owner, ⟨living, ownerLives, held⟩, cell⟩)

theorem stands_collect (heap : m.heap.Sound) :
    m.collect.2.Stands r id key ↔ m.Stands r id key ∧ m.heap.Reaches m.IsRoot r :=
  Stands.of_kept (object?_collect heap r)

/-- What lives after a collection lived before. -/
theorem Sound.lives_of_collect (settled : m.Settled) (lives : m.collect.2.NativeLives n) : m.NativeLives n := by
  obtain ⟨living, here, held⟩ := lives
  have collected : m.collect.2.Settled := Action.settled_run (a := .collect) trivial settled
  obtain ⟨heap, contexts, weak, collector, eq⟩ := m.collect_eq
  refine ⟨living, here, fun k hk => ?_⟩
  obtain ⟨exists_k, value | ⟨id, c, r, alive, hc, mem⟩ | cell⟩ := held k hk
  · rw [eq] at exists_k value
    exact ⟨exists_k, .inl value⟩
  · have stands := ((stands_collect settled.heap).1 ((collected.mem_wrappers hc).1 mem)).1
    obtain ⟨d, hd, mem'⟩ := settled.registered r id _ stands
    rw [eq] at exists_k alive
    exact ⟨exists_k, .inr (.inl ⟨id, d, r, alive, hd, mem'⟩)⟩
  · rw [eq] at exists_k cell
    exact ⟨exists_k, .inr (.inr cell)⟩

/-- A collection releases what nothing held but the entries of wrappers that it frees. -/
theorem Sound.nativeAlive_collect (settled : m.Settled) (value : ¬m.HeldByValue n)
    (cell : ∀ owner, m.NativeLives owner → ¬m.HeldByCell owner n)
    (freed : ∀ id r, m.contextAlive id = true → m.Stands r id (.object n) → ¬m.heap.Reaches m.IsRoot r) :
    m.collect.2.nativeAlive n = false := by
  have collected : m.collect.2.Settled := Action.settled_run (a := .collect) trivial settled
  obtain ⟨heap, contexts, weak, collector, eq⟩ := m.collect_eq
  rw [← Bool.not_eq_true]
  intro alive
  rcases collected.held alive with value' | ⟨owner, lives, cell'⟩ | ⟨id, r, alive, stands⟩
  · rw [eq] at value'
    exact value value'
  · have lives := settled.lives_of_collect lives
    rw [eq] at cell'
    exact cell owner lives cell'
  · rw [eq] at alive
    obtain ⟨stands, reached⟩ := (stands_collect settled.heap).1 stands
    exact freed id r alive stands reached

end Machine

namespace Moment

variable {t : Moment}

/-- What holds of wrappers, callbacks and native objects. -/
structure Releases (t : Moment) : Prop where
  /-- A live wrapper of a living context reads as live, and the table of the context holds its object. -/
  live : ∀ x o w, t.machine.object? x = some o → o.payload = .wrapper w → t.machine.contextAlive w.context = true →
    t.machine.wrapperState (.object x) = .live w.native ∧
      ∃ c, t.machine.context? w.context = some c ∧ (.object w.native.serial, x) ∈ c.wrappers
  /-- Every callback that was registered so far still is, or one collection took it. -/
  once : t.registered.Perm (t.machine.weak ++ t.taken.flatten)
  /-- Those that still are belong to the live objects, one to each. -/
  pending : t.machine.weak.Nodup ∧ ∀ e, e ∈ t.machine.weak ↔ t.machine.Stands e.target e.context e.key
  /-- A collection took those of the objects that its sweep freed, each once. -/
  freed : ∀ l ∈ t.taken, ∃ t₀ : Moment, t₀.Reachable ∧ t₀.Leads t ∧ l.Nodup ∧ ∀ e, e ∈ l ↔
    e ∈ t₀.machine.weak ∧ t₀.machine.heap.isLive e.target = true ∧ t₀.machine.sweep.2.heap.isLive e.target = false
  /-- While a callback is still to run, its target is gone. -/
  dead : ∀ e ∈ t.waiting, t.machine.heap.isLive e.target = false
  /-- With none left to run, entries and live objects correspond. -/
  entries : t.waiting = [] → ∀ id c, t.machine.context? id = some c →
    (∀ key r, (key, r) ∈ c.wrappers ↔ t.machine.Stands r id key) ∧
      (c.wrappers.map (·.1)).Nodup ∧ (c.wrappers.map (·.2)).Nodup
  /-- What lives then is held by a value, by a cell of something that lives, or by a live wrapper. -/
  held : t.waiting = [] → ∀ n, t.machine.nativeAlive n = true →
    t.machine.HeldByValue n ∨ (∃ owner, t.machine.NativeLives owner ∧ t.machine.HeldByCell owner n) ∨
      ∃ id r, t.machine.contextAlive id = true ∧ t.machine.Stands r id (.object n)
  /-- A collection releases what only the entries of wrappers held that it frees. -/
  released : t.waiting = [] → ∀ n, ¬t.machine.HeldByValue n →
    (∀ owner, t.machine.NativeLives owner → ¬t.machine.HeldByCell owner n) →
    (∀ id r, t.machine.contextAlive id = true → t.machine.Stands r id (.object n) →
      t.machine.collect.2.heap.isLive r = false) → t.machine.collect.2.nativeAlive n = false

/-- Wrappers keep their native objects and collections release them, whatever happened. -/
theorem Reachable.collect_releases (reachable : t.Reachable) : t.Releases := by
  have sound := reachable.sound
  have machine := sound.machine
  have settled (none : t.waiting = []) : t.machine.Settled := by
    rw [none] at machine
    exact machine
  refine ⟨fun x o w ho payload alive => ?_, sound.books, ⟨machine.weak_nodup, machine.weak⟩, fun l taken => ?_,
    fun e waits => ?_, fun none id c hc => ?_, fun none n => (settled none).held, fun none n value cell freed => ?_⟩
  · have twin : o.twin? = some (w.context, .object w.native.serial) :=
      Object.twin?_eq_some.2 (.inl ⟨w, payload, rfl, rfl⟩)
    exact ⟨machine.wrapperState ho payload alive, machine.registered x w.context _ ⟨o, ho, twin⟩⟩
  · obtain ⟨t₀, reachable₀, leads, rfl⟩ := reachable.of_taken taken
    exact ⟨t₀, reachable₀, leads, reachable₀.sound.machine.callbacks_nodup, reachable₀.sound.machine.callbacks_sweep⟩
  · have gone : t.machine.heap.get? e.target = none := sound.freed waits
    rw [Heap.isLive, gone]
    rfl
  · have settled := settled none
    exact ⟨fun key r => settled.mem_wrappers hc, settled.keys id c hc, settled.targets_nodup hc⟩
  · refine (settled none).nativeAlive_collect value cell fun id r alive stands => ?_
    exact (machine.reclaims.freed r stands.isLive).1 (freed id r alive stands)

/-- The region is closed in which a native object got its wrapper. -/
def closed : Moment := bridged.after (.closeRegion true)

theorem reachable_closed : closed.Reachable :=
  reachable_bridged.after (a := .closeRegion true) (fun _ => rfl) fun due => nomatch due.2.2

/-- Only the global object is reached. -/
theorem reaches_closed {r : Ref} (reached : closed.machine.heap.Reaches closed.machine.IsRoot r) : r = ⟨0, 0⟩ := by
  have roots : ∀ r ∈ closed.machine.roots, r = ⟨0, 0⟩ := by decide
  exact reached.eq_of_empty (fun r root => roots r (Machine.mem_roots.2 root)) rfl

/-- The wrapper goes with the next collection, and the native object with it. -/
theorem release_closed : closed.Releases ∧ closed.machine.nativeAlive 1 = true ∧
    closed.machine.collect.2.nativeAlive 1 = false := by
  have releases := reachable_closed.collect_releases
  refine ⟨releases, by decide, releases.released rfl 1 ?_ ?_ ?_⟩
  · rintro ⟨v, held, -⟩
    nomatch held
  · rintro owner - ⟨o, ho, cell, mem, -⟩
    have only : o ∈ #[(⟨default, []⟩ : NativeObject)] := by
      unfold Machine.native? at ho
      split at ho
      · nomatch ho
      · exact Array.mem_of_getElem? ho
    rw [List.mem_singleton.1 (Array.mem_toList_iff.2 only)] at mem
    nomatch mem
  · intro id r alive stands
    obtain ⟨c, hc, mem⟩ := reachable_closed.sound.machine.registered r id _ stands
    have only : c ∈ #[Machine.withWrapper (.object 1) ⟨1, 0⟩ opened.context] := Array.mem_of_getElem? hc
    rw [List.mem_singleton.1 (Array.mem_toList_iff.2 only)] at mem
    obtain ⟨-, rfl⟩ := Prod.mk.inj (List.mem_singleton.1 mem)
    exact (reachable_closed.sound.machine.reclaims.freed ⟨1, 0⟩ rfl).2 fun reached => nomatch reaches_closed reached

end Moment

end ScriptBridge
