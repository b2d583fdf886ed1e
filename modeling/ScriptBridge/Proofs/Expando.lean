import ScriptBridge.Proofs.Chain
import ScriptBridge.Proofs.Edits
import ScriptBridge.Proofs.Identity
import ScriptBridge.Proofs.Runs
import ScriptBridge.Session.Run

/-!
# Script-side state of native objects

Scripts may set properties on a wrapper that its class does not export. A collection keeps a wrapper with
properties while something other than the wrapper tables holds its native object, so that bridging the object
again shows them.

* `Moment.Run.keeps_wrapper`: a wrapper with a property stays, with the property.
* `Moment.Reachable.rewrap_shows`: bridging the object again gives the wrapper, and reading gives the value.
* `Moment.rewrap_shared`: the tables alone do not suffice. An object that only another context's reachable
  wrapper holds loses the properties of this one's.

Proof-only: not reachable from `ScriptBridge.Session.Run`.
-/

namespace ScriptBridge

namespace Moment

variable {t u : Moment} {log : Log} {s : Scope} {h : Handle} {r : Ref} {o : Object} {k : String} {p : Property}
  {id n : Nat}

/-- At every sweep a wrapper is kept: its native object is held outside the wrapper tables while the context
lives, or something leads to the wrapper. -/
def Spares (log : Log) (id n : Nat) (r : Ref) : Prop :=
  ∀ q, (q, Event.sweep) ∈ log →
    q.machine.contextAlive id = true ∧ q.machine.HeldOutside n ∨ q.machine.heap.Reaches q.machine.IsRoot r

/-- A wrapper with a property stays as long as the property does. -/
theorem Run.keeps_wrapper (run : t.Run log u) (sound : t.Sound) (ho : t.machine.object? r = some o)
    (twin : o.twin? = some (id, .object n)) (own : (o.properties.get? k).isSome = true)
    (kept : ∀ entry ∈ log, entry.2.edit? r ≠ some (.remove k)) (spared : Spares log id n r) :
    u.machine.object? r = some (log.edited r o) := by
  induction run with
  | start => exact ho
  | @next log u w e run does ih =>
    have kept_before (entry : Moment × Event) (mem : entry ∈ log) : entry.2.edit? r ≠ some (.remove k) :=
      kept entry (List.mem_cons_of_mem _ mem)
    have before := ih kept_before fun q mem => spared q (List.mem_cons_of_mem _ mem)
    have stands : u.machine.Stands r id (.object n) := by
      refine ⟨_, before, Log.edited_induct (P := fun o => o.twin? = some (id, .object n)) twin ?_⟩
      intro entry mem e change o twin
      rw [Object.twin?_edit, twin]
    have own : ((log.edited r o).properties.get? k).isSome = true := by
      refine Log.edited_induct (P := fun o => (o.properties.get? k).isSome = true) own ?_
      intro entry mem e change o own
      exact Object.isSome_get?_edit own fun removes => kept_before entry mem (removes ▸ change)
    have some_own : (log.edited r o).properties ≠ [] := by
      intro none
      rw [none] at own
      nomatch own
    refine does.stays (sound.leads run.leads) before fun sweeps => ?_
    subst sweeps
    rcases spared u List.mem_cons_self with ⟨alive, outside⟩ | reached
    · obtain ⟨c, hc, mem⟩ := (sound.leads run.leads).machine.registered r id _ stands
      exact .root (.wrapper alive hc mem before some_own outside)
    · exact reached

end Moment

namespace Scope

variable {s : Scope} {m : Machine} {r : Ref} {o : Object} {w : WrapperData} {key : String} {v : Value}
  {writable : Bool}

/-- Reading what a wrapper has of its own, and does not export, gives its value. -/
theorem property_returns (ho : m.object? r = some o) (payload : o.payload = .wrapper w)
    (unexported : w.table.property? key = none)
    (own : (o.properties.get? key).map Property.slot = some (.data v writable)) :
    (s.property (.object r) key).Returns m v ((Action.track v).run m).2 := by
  have wrapper : m.wrapper? (.object r) = some w := by
    have behind : o.wrapper? = some w := by rw [Object.wrapper?, payload]
    rw [← behind]
    exact congrArg (Option.bind · Object.wrapper?) ho
  have plain : o.isArray = false := by rw [Object.isArray, Object.items?, payload]; rfl
  have found : m.heap.lookup r key = .value v := Heap.lookup_of_own ho ((Object.own?_of_plain plain key).trans own)
  unfold property get
  refine .settle (.lifted (.look ?_))
  rw [wrapper, Option.bind_some, unexported]
  refine .look ?_
  rw [found]
  exact .bind .perform .pure

end Scope

/-- A sweep, with its marking as a number of turns. -/
theorem Machine.sweep_of_iterate (m : Machine) (n : Nat)
    (done : (Marking.turn^[n] ⟨m.heap, 0, m.roots⟩).todo = []) : m.sweep =
      (let k := Marking.turn^[n] ⟨m.heap, 0, m.roots⟩
       let (freed, heap) := k.heap.sweep
       let (live, dead) := m.weak.partition fun e => heap.isLive e.target
       (⟨⟨k.marked, freed, dead.length⟩, dead.reverse⟩, { m with heap, weak := live })) := by
  unfold sweep Heap.mark
  rw [Marking.run_of_iterate n done]

namespace Moment

variable {t u : Moment} {log : Log} {s : Scope} {r : Ref} {o : Object} {w : WrapperData} {k : String} {p : Property}

/-- A property of a wrapper that is not deleted is still there when the native object is bridged again, with its
value if it was not changed, as long as collections spare the wrapper. -/
theorem Reachable.rewrap_shows (reachable : t.Reachable) (ho : t.machine.object? r = some o)
    (payload : o.payload = .wrapper w) (context : w.context = s.context) (own : o.properties.get? k = some p)
    (run : t.Run log u) (kept : ∀ entry ∈ log, entry.2.edit? r ≠ some (.remove k))
    (spared : Spares log s.context w.native.serial r) :
    (s.wrap (.object w.native)).Returns u.machine (.object r) (u.machine.record r) ∧
      (∃ o', u.machine.object? r = some o' ∧ (o'.properties.get? k).isSome = true) ∧
      ((∀ entry ∈ log, ∀ e, entry.2.edit? r = some e → e.key? ≠ some k) →
        (∃ o', u.machine.object? r = some o' ∧ o'.properties.get? k = some p) ∧
        ∀ v writable, p.slot = .data v writable → w.table.property? k = none →
          ∃ m', (do s.property (← s.wrap (.object w.native)) k : Routine BridgeError Value).Returns u.machine v m') := by
  have twin : o.twin? = some (s.context, .object w.native.serial) :=
    Object.twin?_eq_some.2 (.inl ⟨w, payload, context, rfl⟩)
  have there : (o.properties.get? k).isSome = true := Option.isSome_iff_exists.2 ⟨p, own⟩
  have stays := run.keeps_wrapper reachable.sound ho twin there kept spared
  have payload : (log.edited r o).payload = .wrapper w := by
    refine Log.edited_induct (P := fun o => o.payload = .wrapper w) payload fun entry mem e change o payload => ?_
    rw [Object.payload_edit _ e, payload]
    unfold Object.isArray Object.items?
    rw [payload]
    rfl
  have twin : (log.edited r o).twin? = some (s.context, .object w.native.serial) :=
    Object.twin?_eq_some.2 (.inl ⟨w, payload, context, rfl⟩)
  have there : ((log.edited r o).properties.get? k).isSome = true := by
    refine Log.edited_induct (P := fun o => (o.properties.get? k).isSome = true) there ?_
    intro entry mem e change o there
    exact Object.isSome_get?_edit there fun removes => kept entry mem (removes ▸ change)
  have wraps := (reachable.leads run.leads).bridge_identifies.object s w.native r ⟨_, stays, twin⟩
  refine ⟨wraps, ⟨_, stays, there⟩, fun unchanged => ?_⟩
  have own : (log.edited r o).properties.get? k = some p := by
    refine Log.edited_induct (P := fun o => o.properties.get? k = some p) own fun entry mem e change o own => ?_
    rw [Object.get?_edit_of_ne (unchanged entry mem e change), own]
  refine ⟨⟨_, stays, own⟩, fun v writable slot unexported => ?_⟩
  have slot : ((log.edited r o).properties.get? k).map Property.slot = some (.data v writable) := by
    rw [own, Option.map_some, slot]
  have recorded : (u.machine.record r).object? r = some (log.edited r o) := by
    rw [Machine.record_eq]
    exact stays
  exact ⟨_, wraps.bind (Scope.property_returns recorded payload unexported slot)⟩

/-! ## Two contexts -/

/-- A native object got a wrapper with a property in a first context. In a second one it got a wrapper that the
global object leads to. The region is closed. -/
def shared : Moment :=
  opened.after (.allocate ⟨.ordinary, [], none⟩)
    |>.after (.addContext second)
    |>.after (.tables fun tables => ((), { tables with contexts := [("main", 0), ("second", 1)] }))
    |>.after (.addNative ⟨default, []⟩)
    |>.after (.addWrapper 0 (.object 1) (wrapper 0 ⟨0, 0⟩))
    |>.after (.edit ⟨2, 0⟩ (.store "label" (.text "kept")))
    |>.after (.addWrapper 1 (.object 1) (wrapper 1 ⟨1, 0⟩))
    |>.after (.edit ⟨1, 0⟩ (.store "held" (.object ⟨3, 0⟩)))
    |>.after (.closeRegion true)
where
  second : Context :=
    let r : Ref := ⟨1, 0⟩
    { global := r, intrinsics := ⟨r, r, r, r, r, r, r, r, r⟩ }
  wrapper (context : Nat) (prototype : Ref) : Object :=
    ⟨.wrapper ⟨⟨1, default⟩, "", default, context⟩, [], some prototype⟩

theorem reachable_shared : shared.Reachable := by
  have first := reachable_opened.after (a := .allocate ⟨.ordinary, [], none⟩) rfl id
  have second := first.after (a := .addContext shared.second) ⟨rfl, rfl⟩ id
  have third := second.after
    (a := .tables fun tables => ((), { tables with contexts := [("main", 0), ("second", 1)] })) ?_ id
  · have native := third.after (a := .addNative ⟨default, []⟩) trivial id
    have wrapped := native.after (a := .addWrapper 0 (.object 1) (shared.wrapper 0 ⟨0, 0⟩)) ⟨rfl, rfl, rfl⟩ id
    have labelled := wrapped.after (a := .edit ⟨2, 0⟩ (.store "label" (.text "kept"))) trivial id
    have again := labelled.after (a := .addWrapper 1 (.object 1) (shared.wrapper 1 ⟨1, 0⟩)) ⟨rfl, rfl, rfl⟩ id
    have held := again.after (a := .edit ⟨1, 0⟩ (.store "held" (.object ⟨3, 0⟩))) trivial id
    exact held.after (a := .closeRegion true) (fun _ => rfl) fun due => nomatch due.2.2
  · intro entry mem
    rcases List.mem_cons.1 mem with rfl | mem
    · exact .inl rfl
    · obtain rfl := List.mem_singleton.1 mem
      refine .inr ⟨_, rfl, rfl, fun r hr => ?_, fun t ht => (nomatch ht), fun t ht => nomatch ht⟩
      have hr : r ∈ List.replicate 9 (⟨1, 0⟩ : Ref) := hr
      rw [List.eq_of_mem_replicate hr]
      rfl

/-- The object of the first wrapper. -/
def labelled : Object :=
  ⟨.wrapper ⟨⟨1, default⟩, "", default, 0⟩, [("label", .plain (.text "kept"))], some ⟨0, 0⟩⟩

/-- A register names the native object. -/
def sharedNamed : Moment :=
  shared.after (.tables fun tables => ((), { tables with natives := [("n", .object ⟨1, default⟩)] }))

/-- While a register names the object, a collection spares its wrapper, and the property is there afterwards. -/
theorem rewrap_sharedNamed :
    (Scope.wrap ⟨0⟩ (.object ⟨1, default⟩)).Returns sharedNamed.swept.machine (.object ⟨2, 0⟩)
        (sharedNamed.swept.machine.record ⟨2, 0⟩) ∧
      ∃ m', (do Scope.property ⟨0⟩ (← Scope.wrap ⟨0⟩ (.object ⟨1, default⟩)) "label" :
        Routine BridgeError Value).Returns sharedNamed.swept.machine (.text "kept") m' := by
  have reachable : sharedNamed.Reachable := by
    refine reachable_shared.after (a := .tables _) (fun entry mem => .inl ?_) id
    have names : entry ∈ [("main", 0), ("second", 1)] := mem
    simp only [List.mem_cons, List.not_mem_nil, or_false] at names
    rcases names with rfl | rfl <;> rfl
  have run : sharedNamed.Run [(sharedNamed, .sweep)] sharedNamed.swept := .next .start (.sweep fun f hf => nomatch hf)
  have untouched (entry : Moment × Event) (mem : entry ∈ [(sharedNamed, Event.sweep)]) :
      entry.2.edit? ⟨2, 0⟩ = none := by
    obtain rfl := List.mem_singleton.1 mem
    rfl
  have spared : Spares [(sharedNamed, .sweep)] 0 1 ⟨2, 0⟩ := by
    intro q mem
    obtain rfl := (Prod.mk.inj (List.mem_singleton.1 mem)).1
    exact .inl ⟨rfl, rfl, .inl ⟨_, List.mem_singleton_self _, List.mem_singleton_self 1⟩⟩
  obtain ⟨wraps, -, unchanged⟩ := reachable.rewrap_shows (s := ⟨0⟩) (r := ⟨2, 0⟩) (o := labelled) (k := "label")
    rfl rfl rfl rfl run (fun entry mem => by rw [untouched entry mem]; exact nofun) spared
  obtain ⟨-, shows⟩ := unchanged fun entry mem e change => nomatch (untouched entry mem).symm.trans change
  exact ⟨wraps, shows (.text "kept") true rfl rfl⟩

/-- A collection later the first wrapper is gone. -/
def lost : Moment :=
  ⟨(shared.machine.sweep.2.dropWrapper ⟨⟨2, 0⟩, 0, .object 1⟩).finish shared.machine.sweep.1.cycle, [],
    shared.registered, [[⟨⟨2, 0⟩, 0, .object 1⟩]]⟩

theorem callbacks_shared : shared.machine.sweep.1.callbacks = [⟨⟨2, 0⟩, 0, .object 1⟩] := by
  have turns := Machine.sweep_of_iterate shared.machine 36 (by decide)
  have first : shared.machine.sweep.2.heap.isLive ⟨2, 0⟩ = false := by rw [turns]; decide +kernel
  have second : shared.machine.sweep.2.heap.isLive ⟨3, 0⟩ = true := by rw [turns]; decide +kernel
  have weak : shared.machine.weak = [⟨⟨3, 0⟩, 1, .object 1⟩, ⟨⟨2, 0⟩, 0, .object 1⟩] := rfl
  rw [Machine.sweep_eq] at first second ⊢
  simp only [weak, List.filter_cons, first, second]
  rfl

/-- The second wrapper keeps the native object alive, and both contexts live; but the first wrapper is freed, and
bridging the object again shows no property. -/
theorem rewrap_shared :
    shared.Reachable ∧ shared.machine.object? ⟨2, 0⟩ = some labelled ∧
      (∃ log, shared.Run log lost ∧ ∀ entry ∈ log, (∀ e, entry.2.edit? ⟨2, 0⟩ ≠ some e) ∧
        entry.1.machine.nativeAlive 1 = true ∧ entry.1.machine.contextAlive 0 = true) ∧
      lost.machine.nativeAlive 1 = true ∧ lost.machine.contextAlive 0 = true ∧
      ((do Scope.property ⟨0⟩ (← Scope.wrap ⟨0⟩ (.object ⟨1, default⟩)) "label" : Routine BridgeError Value).exec
        (Job.exec Job.routine 0) lost.machine).1.given? = some .undefined := by
  have run := Run.start.next (Does.sweep (t := shared) fun f hf => nomatch hf)
  have swept : shared.swept = ⟨shared.machine.sweep.2,
      [⟨shared.machine.sweep.1.cycle, [], [⟨⟨2, 0⟩, 0, .object 1⟩], 0⟩], shared.registered, []⟩ := by
    unfold Moment.swept
    rw [callbacks_shared]
    rfl
  rw [swept] at run
  refine ⟨reachable_shared, rfl, ⟨_, (run.next .callback).next .finish, fun entry mem => ?_⟩, ?_, ?_, ?_⟩
  · simp only [List.mem_cons, List.not_mem_nil, or_false] at mem
    rcases mem with rfl | rfl | rfl
    · exact ⟨nofun, by rw [Machine.sweep_eq]; decide, rfl⟩
    · exact ⟨nofun, by rw [Machine.sweep_eq]; decide, rfl⟩
    · exact ⟨nofun, by decide, rfl⟩
  · unfold lost
    rw [Machine.sweep_eq]
    decide
  · rfl
  · unfold lost
    rw [Machine.sweep_of_iterate shared.machine 36 (by decide)]
    decide +kernel

end Moment

end ScriptBridge
