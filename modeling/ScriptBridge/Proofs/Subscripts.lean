import ScriptBridge.Proofs.Released
import ScriptBridge.Proofs.Walks

/-!
# Elements of wrappers

A wrapper whose native object reads subscripts has elements beside its properties. Reading an element asks the native
object. Reading the property under the decimal text of the index does not: it goes to an exported property of that name,
or to what the wrapper and its prototypes have.

* `Scope.elementOf`, `Scope.readElement`: a native object is asked for an element.
* `Scope.ReadsElement`: how elements and the properties under their indices are read.
* `Scope.elements_read`: it is so for every wrapper and every index. `Session.elements_unnamed`: an element that is no
  property.

Proof-only: not reachable from `ScriptBridge.Session.Run`.
-/

namespace ScriptBridge

open Routine

namespace Scope

variable {s : Scope} {m : Machine} {r : Ref} {w : WrapperData} {i : Nat} {key : String}

/-- A native object is asked for an element: what it is sent, and what comes of its answer. -/
def elementOf (s : Scope) (h : Handle) (g : ExportedMethod) (i : Nat) : Routine Fault Value := do
  checkSignature g
  holding [] do
    let args ← holding [.object h] (s.subscriptArguments .primitive g.signature.args none i)
    args.forM hold
    let answer ← send h g.selector args
    hold answer
    s.resultOf g.signature.result answer

/-- A script reads an element of a native object. -/
def readElement (s : Scope) (h : Handle) (g : ExportedMethod) (i : Nat) : Routine Thrown Value := do
  let v ← s.raising (s.elementOf h g i)
  track v
  return v

/-- How an element of a wrapper is read, and the property under its index. -/
structure ReadsElement (s : Scope) (m : Machine) (r : Ref) (w : WrapperData) (i : Nat) : Prop where
  /-- A native object that reads subscripts is asked, whatever else there is under the index. -/
  element : ∀ g h, w.table.indexGetter = some g → m.nativeBehind? (.object r) = some h → ∀ job : Runner,
    (s.getIndex (.object r) i).exec job m = (s.readElement h g i).exec job m
  /-- The others have no elements, and their properties are read. -/
  property : w.table.indexGetter = none → ∀ job : Runner,
    (s.getIndex (.object r) i).exec job m = (s.get (.object r) (toString i)).exec job m
  /-- What is read there is there. -/
  there : w.table.indexGetter = none → ∀ (job : Runner) v m', (s.getIndex (.object r) i).exec job m = (.done v, m') →
    v ≠ .undefined → (s.hasIndex (.object r) i).Returns m true m
  /-- By name an exported property is read, -/
  exported : ∀ p, w.table.property? (toString i) = some p → s.Delegates m r (toString i) p
  /-- or what the wrapper and its prototypes have. -/
  stored : w.table.property? (toString i) = none → s.Agrees m r (toString i)
  /-- What is stored under the index where nothing was is read by name, and the native object is as it was. -/
  kept : w.table.property? (toString i) = none → (s.has (.object r) (toString i)).Returns m false m → ∀ v, ∃ m',
    (s.set (.object r) (toString i) v).Returns m () m' ∧ m'.wrapper? (.object r) = some w ∧
      m'.nativeBehind? (.object r) = m.nativeBehind? (.object r) ∧
      ∀ s' : Scope, (s'.get (.object r) (toString i)).Returns m' v ((Action.track v).run m').2
  /-- What is read by name is there. -/
  present : ∀ (job : Runner) v m', (s.get (.object r) (toString i)).exec job m = (.done v, m') → v ≠ .undefined →
    (s.hasIndex (.object r) i).Returns m true m

/-- A live native object is asked. -/
theorem exec_exportedSubscript {g : ExportedMethod} {h : Handle} (behind : m.nativeBehind? (.object r) = some h)
    (job : Runner) :
    (s.exportedSubscript .primitive r g none i).exec job m = (s.elementOf h g i).exec job m := by
  unfold exportedSubscript elementOf checkSignature
  split
  · exact exec_look (f := (·.nativeBehind? (.object r))) behind
  · rfl

section

variable (wraps : m.wrapper? (.object r) = some w)

include wraps

theorem exported_of_wrapper (key : String) :
    ((m.wrapper? (.object r)).bind (·.table.property? key)) = w.table.property? key := by
  rw [wraps]
  rfl

/-- Without a subscript, an element is a property. -/
theorem exec_getIndex_plain (plain : w.table.indexGetter = none) (job : Runner) :
    (s.getIndex (.object r) i).exec job m = (s.get (.object r) (toString i)).exec job m := by
  obtain ⟨o, ho, kind⟩ := Machine.object_of_wrapper? wraps
  have ho : m.objectOf? (.object r) = some o := ho
  have items : o.items? = none := by rw [Object.items?, kind]
  unfold getIndex
  rw [exec_look rfl, wraps, Option.bind_some, plain]
  change (read (·.objectOf? (.object r)) >>= _).exec job m = _
  rw [exec_look ho, Option.bind_some, items]
  rfl

/-- With one, the native object is asked. -/
theorem exec_getIndex_element {g : ExportedMethod} {h : Handle} (subscript : w.table.indexGetter = some g)
    (behind : m.nativeBehind? (.object r) = some h) (job : Runner) :
    (s.getIndex (.object r) i).exec job m = (s.readElement h g i).exec job m := by
  unfold getIndex readElement
  rw [exec_look rfl, wraps, Option.bind_some, subscript]
  change (s.raising (s.exportedSubscript .primitive r g none i) >>= _).exec job m = _
  unfold raising
  simp only [exec_bind, exec_attempt, exec_exportedSubscript behind]

/-- Whether a name is exported or not, what it reads as is there. -/
theorem has_of_get {v : Value} {m' : Machine} {job : Runner}
    (gives : (s.get (.object r) key).exec job m = (.done v, m')) (some : v ≠ .undefined) :
    (s.has (.object r) key).Returns m true m := by
  cases named : w.table.property? key with
  | some p => exact (delegates ((exported_of_wrapper wraps key).trans named)).has
  | none => exact (agrees ((exported_of_wrapper wraps key).trans named)).present job v m' gives some

/-- A new property of a wrapper. -/
theorem set_kept (unnamed : w.table.property? key = none) (absent : (s.has (.object r) key).Returns m false m) (v : Value) :
    ∃ m', (s.set (.object r) key v).Returns m () m' ∧ m'.wrapper? (.object r) = some w ∧
      m'.nativeBehind? (.object r) = m.nativeBehind? (.object r) ∧
      ∀ s' : Scope, (s'.get (.object r) key).Returns m' v ((Action.track v).run m').2 := by
  have unexported := (exported_of_wrapper wraps key).trans unnamed
  obtain ⟨o, ho, kind⟩ := Machine.object_of_wrapper? wraps
  have plain : o.isArray = false := by rw [Object.isArray, Object.items?, kind]; rfl
  have own := Heap.writeTarget_of_unfound (first?_of_absent unexported absent)
  obtain ⟨m', ps, sets, rewrites, -, reads⟩ := set_stored (s := s) ho (Object.free_of_plain plain key) unexported own v
  refine ⟨m', sets, rewrites.wrapper?.trans wraps, ?_, reads⟩
  have alive (n : Nat) : m'.nativeAlive n = m.nativeAlive n := by
    have same : Machine.nativeAlive { m' with heap := m.heap } n = m.nativeAlive n := by rw [rewrites.rest]
    -- Nothing in the heap keeps a native object alive.
    refine Eq.trans ?_ same
    refine Machine.nativeAlive_congr ?_ ?_ ?_ (fun _ => ?_) n <;> rfl
  unfold Machine.nativeBehind? Machine.wrapperState
  rw [rewrites.wrapper?, wraps]
  dsimp only
  rw [alive]

/-- Elements are read from the native object and properties by their name. -/
theorem elements_read (s : Scope) (i : Nat) : s.ReadsElement m r w i where
  element _ _ subscript behind := exec_getIndex_element wraps subscript behind
  property plain := exec_getIndex_plain wraps plain
  there plain job v m' gives some := by
    rw [exec_getIndex_plain wraps plain] at gives
    exact has_of_get wraps gives some
  exported p named := delegates ((exported_of_wrapper wraps _).trans named)
  stored unnamed := agrees ((exported_of_wrapper wraps _).trans unnamed)
  kept unnamed absent v := set_kept wraps unnamed absent v
  present job v m' gives some := has_of_get wraps gives some

end

end Scope

namespace Session

open Program (Step)

/-- A native object that reads subscripts is wrapped. -/
def subscripted : List Step :=
  [.machine (.newContext "main") none,
    .machine (.protocol "P" "P" [] true [.method "objectAtIndexedSubscript:" "d@:d"]) none,
    .declareClass "K" "K" none ["P"] [("objectAtIndexedSubscript:", [.returnNative (.number (.ofNat 7))])] [] false,
    .native (.bind (.create (.key "K") [])) (some "o"),
    .execute "main" [.bridge (.wrap (.register "o")) (some "w"), .script (.getIndex (.register "w") 0) none]]

/-- The wrapper of a live native object that reads subscripts and exports nothing under an index. -/
def IsSubscripted (x : Point) (r : Ref) : Prop :=
  ∃ w g h, x.machine.wrapper? (.object r) = some w ∧ w.table.indexGetter = some g ∧ w.table.property? "0" = none ∧
    x.machine.nativeBehind? (.object r) = some h

/-- An element of a wrapper is read from its native object, and is no property of the wrapper. -/
theorem exists_subscripted : ∃ x ∈ points {} 0 subscripted 3, ∃ r, IsSubscripted x r ∧
    x.machine.heap.first? r "0" = none ∧
    ((Scope.getIndex ⟨0⟩ (.object r) 0).exec (Job.exec Job.routine 2) x.machine).1.given? = some (.number (.ofNat 7)) := by
  obtain ⟨x, mem, is⟩ : ∃ x ∈ points {} 0 subscripted 3,
      (((x.machine.tables.scripts.get? "w").bind Value.ref?).any fun r =>
        ((x.machine.wrapper? (.object r)).any fun w => w.table.indexGetter.isSome && (w.table.property? "0").isNone) &&
          (x.machine.nativeBehind? (.object r)).isSome && (x.machine.heap.first? r "0").isNone &&
          ((Scope.getIndex ⟨0⟩ (.object r) 0).exec (Job.exec Job.routine 2) x.machine).1.given? ==
            some (.number (.ofNat 7))) = true := by
    decide +kernel
  obtain ⟨r, -, is⟩ := (Option.any_eq_true ..).1 is
  simp only [Bool.and_eq_true, Option.any_eq_true, Option.isNone_iff_eq_none, Option.isSome_iff_exists, beq_iff_eq] at is
  obtain ⟨⟨⟨⟨w, wraps, ⟨g, subscript⟩, unnamed⟩, h, behind⟩, first⟩, gives⟩ := is
  exact ⟨x, mem, r, ⟨w, g, h, wraps, subscript, unnamed, behind⟩, first, gives⟩

/-- Its native object is asked for an element. No property is there until one is stored. -/
theorem elements_read_subscripted : ∃ x ∈ points {} 0 subscripted 3, ∃ r w g h,
    x.machine.wrapper? (.object r) = some w ∧ Scope.ReadsElement ⟨0⟩ x.machine r w 0 ∧
    (∀ job : Runner, (Scope.getIndex ⟨0⟩ (.object r) 0).exec job x.machine =
      (Scope.readElement ⟨0⟩ h g 0).exec job x.machine) ∧
    ∃ m', (Scope.set ⟨0⟩ (.object r) "0" .null).Returns x.machine () m' ∧
      (Scope.get ⟨0⟩ (.object r) "0").Returns m' .null m' := by
  obtain ⟨x, mem, r, ⟨w, g, h, wraps, subscript, unnamed, behind⟩, first, -⟩ := exists_subscripted
  have reads := Scope.elements_read wraps ⟨0⟩ 0
  have absent : (Scope.has ⟨0⟩ (.object r) "0").Returns x.machine false x.machine := by
    have has : (Scope.has ⟨0⟩ (.object r) "0").Returns x.machine (x.machine.heap.first? r "0").isSome x.machine :=
      (reads.stored unnamed).has
    rwa [first] at has
  obtain ⟨m', sets, -, -, gets⟩ := reads.kept unnamed absent .null
  exact ⟨x, mem, r, w, g, h, wraps, reads, reads.element g h subscript behind, m', sets, gets ⟨0⟩⟩

/-- An element of a wrapper need not be a property of it. -/
theorem elements_unnamed : ∃ x ∈ points {} 0 subscripted 3, ∃ r, IsSubscripted x r ∧
    ((Scope.getIndex ⟨0⟩ (.object r) 0).exec (Job.exec Job.routine 2) x.machine).1.given? =
      some (.number (.ofNat 7)) ∧
    (Scope.get ⟨0⟩ (.object r) "0").Returns x.machine .undefined x.machine := by
  obtain ⟨x, mem, r, is, first, gives⟩ := exists_subscripted
  obtain ⟨w, g, h, wraps, -, unnamed, -⟩ := id is
  refine ⟨x, mem, r, is, gives, fun job => ?_⟩
  rw [Scope.exec_get_first ((Scope.exported_of_wrapper wraps _).trans unnamed), first]
  rfl

end Session

end ScriptBridge
