import ScriptBridge.Proofs.Moments

/-!
# Runs and what they make of objects

The log of a run has each of its events, newest first, with the moment at which it happened. It tells what
became of an object: the changes that were made of it, and whether its slot was freed. A slot counts how
often it was freed, so a reference to a freed object leads nowhere until the count comes round.

* `Event`, `Moment.Does`, `Moment.Run`: events with their names, and runs with their logs.
* `Log.edited`, `Log.frees`: the changes of an object, and how often a slot was freed.
* `Moment.Does.object?`, `Moment.Run.object?`: an object that was not freed is what the changes made of it.
  `Moment.Run.stays`: so is one that every sweep reached.
* `Moment.Run.gone`: a reference to one that was freed leads to nothing.

Proof-only: not reachable from `ScriptBridge.Session.Run`.
-/

namespace ScriptBridge

/-! ## Events -/

/-- Whether a sweep frees the object that a slot has. -/
def Machine.frees (m : Machine) (i : Nat) : Bool :=
  match m.heap.slots[i]? with
  | some s => m.heap.isLive ⟨i, s.generation⟩ && !m.sweep.2.heap.isLive ⟨i, s.generation⟩
  | none => false

/-- What can happen between two moments. -/
inductive Event : Type 1 where
  | act {β : Type} (a : Action β)
  | sweep
  | callback
  | finish

namespace Event

/-- The change of an object, if an event makes one of it. -/
def edit? (r : Ref) : Event → Option Edit
  | act a => a.edit?.bind fun change => if change.1 = r then some change.2 else none
  | sweep | callback | finish => none

/-- Whether an event frees the object that a slot has. -/
def frees (i : Nat) (m : Machine) : Event → Bool
  | sweep => m.frees i
  | act _ | callback | finish => false

end Event

/-- The moment after a sweep. -/
def Moment.swept (t : Moment) : Moment :=
  ⟨t.machine.sweep.2, ⟨t.machine.sweep.1.cycle, [], t.machine.sweep.1.callbacks, 0⟩ :: t.finishing.map Finishing.age,
    t.registered, t.ended⟩

/-- An event leads from one moment to the next. -/
inductive Moment.Does : Moment → Event → Moment → Prop
  | act {β : Type} {t : Moment} (a : Action β) (legal : a.Legal t.machine) (quiet : ¬a.Collects t.machine) :
    Does t (.act a) (t.after a)
  | sweep {t : Moment} (few : ∀ f ∈ t.finishing, f.later + 2 < UInt32.size) : Does t .sweep t.swept
  | callback {m : Machine} {cycle : Cycle} {e : WeakEntry} {done rest : List WeakEntry} {later : Nat}
    {finishing : List Finishing} {registered : List WeakEntry} {ended : List (List WeakEntry)} :
    Does ⟨m, ⟨cycle, done, e :: rest, later⟩ :: finishing, registered, ended⟩ .callback
      ⟨m.dropWrapper e, ⟨cycle, done ++ [e], rest, later⟩ :: finishing, registered, ended⟩
  | finish {m : Machine} {cycle : Cycle} {done : List WeakEntry} {later : Nat} {finishing : List Finishing}
    {registered : List WeakEntry} {ended : List (List WeakEntry)} :
    Does ⟨m, ⟨cycle, done, [], later⟩ :: finishing, registered, ended⟩ .finish
      ⟨m.finish cycle, finishing, registered, done :: ended⟩

namespace Machine

variable {m : Machine} {i : Nat} {s : Slot}

theorem frees_iff (heap : m.heap.Sound) (hs : m.heap.slots[i]? = some s) :
    m.frees i = true ↔ s.isOccupied = true ∧ ¬m.heap.Reaches m.IsRoot ⟨i, s.generation⟩ := by
  have live : m.heap.isLive ⟨i, s.generation⟩ = s.isOccupied := by
    unfold Heap.isLive Heap.get?
    simp only [hs, if_true, Slot.isOccupied]
  have left : m.sweep.2.heap.isLive ⟨i, s.generation⟩ = true ↔
      s.isOccupied = true ∧ m.heap.Reaches m.IsRoot ⟨i, s.generation⟩ := by
    rw [sweep_eq, ← live]
    exact isLive_sweep heap _
  unfold frees
  simp only [hs, live, Bool.and_eq_true, Bool.not_eq_true', ← Bool.not_eq_true, left]
  tauto

/-- A sweep that frees the object of a slot counts the slot up; no other sweep changes the slot. -/
theorem slot_sweep (heap : m.heap.Sound) (hs : m.heap.slots[i]? = some s) :
    m.sweep.2.heap.slots[i]? = some (if m.frees i = true then ⟨s.generation + 1, false, none⟩ else s) := by
  have freed := frees_iff heap hs
  have roots : (· ∈ m.roots) = m.IsRoot := funext fun q => propext mem_roots
  rw [← roots] at freed
  rw [sweep_eq]
  split
  · rename_i h
    exact Heap.slot_reclaim_of_freed heap hs (freed.1 h).1 (freed.1 h).2
  · rename_i h
    refine Heap.slot_reclaim_of_kept heap hs ?_
    by_cases empty : s.occupant = none
    · exact .inl empty
    · have occupied : s.isOccupied = true := Option.isSome_iff_ne_none.2 empty
      exact .inr (Classical.not_not.1 fun unreached => h (freed.2 ⟨occupied, unreached⟩))

end Machine

namespace Moment

variable {t u w : Moment} {e : Event} {r : Ref} {o : Object} {i : Nat} {s : Slot}

theorem Does.step (does : t.Does e u) : t.Step u := by
  cases does with
  | act a legal quiet => exact .act a legal quiet
  | sweep few => exact .sweep few
  | callback => exact .callback
  | finish => exact .finish

theorem Step.does (step : t.Step u) : ∃ e, t.Does e u := by
  cases step with
  | act a legal quiet => exact ⟨_, .act a legal quiet⟩
  | sweep few => exact ⟨_, .sweep few⟩
  | callback => exact ⟨_, .callback⟩
  | finish => exact ⟨_, .finish⟩

/-- Only freeing its object counts a slot up. -/
theorem Does.slot (does : t.Does e u) (sound : t.Sound) (hs : t.machine.heap.slots[i]? = some s) :
    ∃ s', u.machine.heap.slots[i]? = some s' ∧
      s'.generation = if e.frees i t.machine = true then s.generation + 1 else s.generation := by
  have heap := sound.machine.heap
  cases does with
  | act a legal quiet => exact a.generation_run quiet heap hs
  | sweep few =>
    refine ⟨_, Machine.slot_sweep heap hs, ?_⟩
    unfold Event.frees
    split <;> rfl
  | callback => exact ⟨s, hs, rfl⟩
  | finish => exact ⟨s, hs, rfl⟩

/-- An object that an event does not free is what the event makes of it. -/
theorem Does.object? (does : t.Does e u) (sound : t.Sound) (ho : t.machine.object? r = some o)
    (kept : e.frees r.index t.machine = false) : u.machine.object? r = some ((e.edit? r).elim o o.edit) := by
  have heap := sound.machine.heap
  cases does with
  | act a legal quiet =>
    change (a.run t.machine).2.heap.get? r = some (((a.edit?).bind _).elim o o.edit)
    have at_r : t.machine.heap.get? r = some o := ho
    rcases (a.changes quiet).heap with ⟨none, same⟩ | ⟨none, p, stored⟩ | ⟨q, change, edits, edited⟩
    · rw [none, same]
      exact ho
    · rw [none, stored]
      exact Heap.get?_allocate_of_some heap.counted ho
    · rw [edits, edited, Heap.get?_edit, at_r]
      by_cases same : q = r
      · simp [same]
      · simp [same, Ne.symm same]
  | sweep few =>
    refine (Machine.object?_sweep heap r o).2 ⟨ho, ?_⟩
    obtain ⟨s, hs, generation, occupied⟩ := Heap.get?_eq_some.1 ho
    have occupied : s.isOccupied = true := by rw [Slot.isOccupied, occupied]; rfl
    have freed := Machine.frees_iff heap hs
    rw [generation] at freed
    have kept : ¬t.machine.frees r.index = true := by
      rw [Bool.not_eq_true]
      exact kept
    exact Classical.not_not.1 fun unreached => kept (freed.2 ⟨occupied, unreached⟩)
  | callback => exact ho
  | finish => exact ho

/-- So is one that a sweep reaches. -/
theorem Does.stays (does : t.Does e u) (sound : t.Sound) (ho : t.machine.object? r = some o)
    (reached : e = .sweep → t.machine.heap.Reaches t.machine.IsRoot r) :
    u.machine.object? r = some ((e.edit? r).elim o o.edit) := by
  refine does.object? sound ho ?_
  cases does with
  | act | callback | finish => rfl
  | sweep few =>
    obtain ⟨s, hs, generation, -⟩ := Heap.get?_eq_some.1 ho
    have freed := Machine.frees_iff sound.machine.heap hs
    rw [generation] at freed
    have kept : ¬t.machine.frees r.index = true := fun frees => (freed.1 frees).2 (reached rfl)
    exact Bool.not_eq_true _ ▸ kept

end Moment

/-! ## Runs -/

/-- The events of a run, newest first, each with the moment at which it happened. -/
abbrev Log := List (Moment × Event)

namespace Log

/-- What the changes in a log make of the object of a reference. -/
def edited (log : Log) (r : Ref) (o : Object) : Object :=
  log.foldr (fun entry o => (entry.2.edit? r).elim o o.edit) o

/-- How often the object of a slot was freed. -/
def frees (log : Log) (i : Nat) : Nat := log.countP fun entry => entry.2.frees i entry.1.machine

/-- What all changes of an object in a log keep is kept. -/
theorem edited_induct {P : Object → Prop} {log : Log} {r : Ref} {o : Object} (start : P o)
    (keeps : ∀ entry ∈ log, ∀ e, entry.2.edit? r = some e → ∀ o, P o → P (o.edit e)) : P (log.edited r o) := by
  induction log with
  | nil => exact start
  | cons entry log ih =>
    have before := ih fun entry mem => keeps entry (List.mem_cons_of_mem _ mem)
    change P ((entry.2.edit? r).elim (edited log r o) (edited log r o).edit)
    cases change : entry.2.edit? r with
    | none => exact before
    | some e => exact keeps entry List.mem_cons_self e change _ before

end Log

/-- A run of events from a moment, with its log. -/
inductive Moment.Run (t : Moment) : Log → Moment → Prop
  | start : Run t [] t
  | next {log : Log} {u w : Moment} {e : Event} (run : Run t log u) (does : u.Does e w) : Run t ((u, e) :: log) w

namespace Moment

variable {t u w : Moment} {log more : Log} {r : Ref} {o : Object} {i : Nat} {s : Slot}

namespace Run

theorem leads (run : t.Run log u) : t.Leads u := by
  induction run with
  | start => exact .refl
  | next _ does ih => exact ih.tail does.step

theorem trans (first : t.Run log u) (next : u.Run more w) : t.Run (more ++ log) w := by
  induction next with
  | start => exact first
  | next _ does ih => exact ih.next does

/-- A log is that of a run up to any of its events, with what came after. -/
theorem split (run : t.Run (more ++ log) w) : ∃ u, t.Run log u ∧ u.Run more w := by
  induction more generalizing w with
  | nil => exact ⟨w, run, .start⟩
  | cons entry more ih =>
    cases run with
    | next run does =>
      obtain ⟨u, first, second⟩ := ih run
      exact ⟨u, first, second.next does⟩

/-- What is in the log happened at a moment of the run. -/
theorem of_mem {p : Moment} {e : Event} (run : t.Run log u) (mem : (p, e) ∈ log) :
    ∃ later earlier, log = later ++ (p, e) :: earlier ∧ t.Run earlier p := by
  obtain ⟨later, earlier, rfl⟩ := List.append_of_mem mem
  obtain ⟨v, first, -⟩ := run.split
  cases first with
  | next first does => exact ⟨later, earlier, rfl, first⟩

/-- A slot has counted how often its object was freed. -/
theorem slot (run : t.Run log u) (sound : t.Sound) (hs : t.machine.heap.slots[i]? = some s) :
    ∃ s', u.machine.heap.slots[i]? = some s' ∧
      s'.generation.toNat = (s.generation.toNat + log.frees i) % UInt32.size := by
  induction run with
  | start => exact ⟨s, hs, (Nat.mod_eq_of_lt s.generation.toNat_lt).symm⟩
  | @next log u w e run does ih =>
    obtain ⟨s', hs', counted⟩ := ih
    obtain ⟨s'', hs'', generation⟩ := does.slot (sound.leads run.leads) hs'
    refine ⟨s'', hs'', ?_⟩
    rw [generation, Log.frees, List.countP_cons]
    change _ = (_ + (log.frees i + _)) % _
    split
    · rw [UInt32.toNat_add, counted]
      simp only [UInt32.toNat_one]
      unfold UInt32.size
      omega
    · rw [counted, Nat.add_zero]

/-- An object whose slot was not freed is what the changes made of it. -/
theorem object? (run : t.Run log u) (sound : t.Sound) (ho : t.machine.object? r = some o)
    (kept : log.frees r.index = 0) : u.machine.object? r = some (log.edited r o) := by
  induction run with
  | start => exact ho
  | @next log u w e run does ih =>
    have both : log.frees r.index = 0 ∧ e.frees r.index u.machine = false := by
      rw [Log.frees, List.countP_cons, Nat.add_eq_zero_iff] at kept
      exact ⟨kept.1, by simpa using kept.2⟩
    exact does.object? (sound.leads run.leads) (ih both.1) both.2

/-- A reference to an object that was freed leads to nothing, until its slot has counted through. -/
theorem gone (run : t.Run log u) (sound : t.Sound) (ho : t.machine.object? r = some o)
    (freed : 0 < log.frees r.index) (few : log.frees r.index < UInt32.size) : u.machine.object? r = none := by
  obtain ⟨s, hs, generation, -⟩ := Heap.get?_eq_some.1 ho
  obtain ⟨s', hs', counted⟩ := run.slot sound hs
  have different : s'.generation ≠ r.generation := by
    intro same
    rw [same, generation] at counted
    have := r.generation.toNat_lt
    unfold UInt32.size at few counted
    omega
  unfold Machine.object? Heap.get?
  rw [hs']
  exact if_neg different

/-- An object that every sweep reaches stays. -/
theorem stays (run : t.Run log u) (sound : t.Sound) (ho : t.machine.object? r = some o)
    (reached : ∀ p, (p, Event.sweep) ∈ log → p.machine.heap.Reaches p.machine.IsRoot r) :
    u.machine.object? r = some (log.edited r o) := by
  induction run with
  | start => exact ho
  | @next log u w e run does ih =>
    have before := ih fun p mem => reached p (List.mem_cons_of_mem _ mem)
    refine does.stays (sound.leads run.leads) before fun sweeps => reached u ?_
    rw [sweeps]
    exact List.mem_cons_self

end Run

/-- Every run has a log. -/
theorem Leads.run (leads : t.Leads u) : ∃ log, t.Run log u := by
  induction leads with
  | refl => exact ⟨[], .start⟩
  | tail _ step ih =>
    obtain ⟨log, run⟩ := ih
    obtain ⟨e, does⟩ := step.does
    exact ⟨_, run.next does⟩

end Moment

end ScriptBridge
