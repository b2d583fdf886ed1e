import ScriptBridge.Bridge.ToNative
import ScriptBridge.Proofs.Deeper

/-!
# What a conversion asks for

A conversion into a native value has to do with the machine only where it asks it something: for the kind of an object,
for a length or an item, for keys or the property under one. Everything else it does with its table of collections.

* `Query`: what a conversion asks for, and `Query.routine`: how the machine answers.
* `Inquiry`: a computation that asks, and marks what it does with collections. `Inquiry.natural` is the conversion as
  such a computation, and `Inquiry.natural_routine` says so: its routine is `Scope.naturalAt`.
* `Inquiry.Asks`: what is asked for in a run, on which machine. `Inquiry.terminates_iff`: the run comes to an end if and
  only if every answer does.

Proof-only: not reachable from `ScriptBridge.Session.Run`.
-/

namespace ScriptBridge

open Routine

/-- What a conversion asks for, with the type of the answer. -/
inductive Query : Type → Type where
  /-- How many levels the options allow. -/
  | levels : Query Nat
  /-- Whether the options let byte buffers pass. -/
  | typedArrays : Query Bool
  /-- What kind of object is there. -/
  | payload (r : Ref) : Query (Option Payload)
  /-- The object behind a wrapper. -/
  | native (r : Ref) : Query NativeValue
  | length (r : Ref) : Query Nat
  | item (r : Ref) (i : Nat) : Query Value
  | keys (r : Ref) : Query (List String)
  | entry (r : Ref) (key : String) : Query Value

/-- How the answer is found. Lengths, items and entries may run getters and native code. -/
def Query.routine (s : Scope) : {β : Type} → Query β → Routine Fault β
  | _, .levels => read (·.options.maxConversionDepth)
  | _, .typedArrays => read (·.options.typedArrays)
  | _, .payload r => read (·.payload? (.object r))
  | _, .native r => Scope.unwrapped (.object r)
  | _, .length r => do return (← s.numberOf (← s.get (.object r) "length")).uint32.toNat
  | _, .item r i => s.getIndex (.object r) i
  | _, .keys r => read fun m => ((m.object? r).map Object.keys).getD []
  | _, .entry r key => s.get (.object r) key

/-- What is read of a collection. -/
inductive Reading where
  | length (r : Ref)
  | item (r : Ref) (i : Nat)
  | keys (r : Ref)
  | entry (r : Ref) (key : String)
  deriving DecidableEq

def Reading.collection : Reading → Ref
  | length r | item r _ | keys r | entry r _ => r

/-- What happens in a conversion. -/
inductive Mark where
  /-- The conversion of a collection begins. -/
  | entered (r : Ref)
  | read (x : Reading)
  /-- The conversion of a collection is done and gave a value. -/
  | left (r : Ref) (v : NativeValue)
  /-- A collection is met again, and contributes a value there. -/
  | met (r : Ref) (v : NativeValue)

/-- The marks once a query is answered, newest first. -/
def Query.note {β : Type} (h : List Mark) : Query β → List Mark
  | .length r => .read (.length r) :: h
  | .item r i => .read (.item r i) :: h
  | .keys r => .read (.keys r) :: h
  | .entry r key => .read (.entry r key) :: h
  | .levels | .typedArrays | .payload _ | .native _ => h

/-- A computation that has to do with the machine by queries only. -/
inductive Inquiry (α : Type) : Type 1 where
  | protected pure (a : α)
  | fail (e : Fault)
  | ask {β : Type} (q : Query β) (next : β → Inquiry α)
  | mark (k : Mark) (next : Inquiry α)

namespace Inquiry

variable {α β : Type}

protected def bind : Inquiry α → (α → Inquiry β) → Inquiry β
  | .pure a, f => f a
  | fail e, _ => fail e
  | ask q next, f => ask q fun b => (next b).bind f
  | mark k next, f => mark k (next.bind f)

instance : Monad Inquiry where
  pure := .pure
  bind := Inquiry.bind

/-- What a computation does. Marks do nothing. -/
def routine (s : Scope) : Inquiry α → Routine Fault α
  | .pure a => pure a
  | fail e => .throw e
  | ask q next => do (next (← q.routine s)).routine s
  | mark _ next => next.routine s

theorem routine_bind (s : Scope) (w : Inquiry α) (f : α → Inquiry β) :
    (w >>= f).routine s = w.routine s >>= fun a => (f a).routine s := by
  change (w.bind f).routine s = _
  induction w with
  | pure a => rw [routine, pure_bind]; rfl
  | fail e => rfl
  | ask q next ih => simp only [Inquiry.bind, routine, ih, bind_assoc]
  | mark k next ih => exact ih

/-! ## The conversion -/

/-- A part of a conversion, which gives a value and the collections that are known after it. -/
abbrev Part := Inquiry (NativeValue × Visited)

/-- A known collection contributes a value where it is met. -/
def meet (r : Ref) (v : NativeValue) (seen : Visited) : Part :=
  mark (.met r v) (pure (v, seen))

/-- The conversion of a collection is done and gives a value. -/
def leave (r : Ref) (v : NativeValue) (seen : Visited) : Part :=
  mark (.left r v) (pure (v, (r, some v) :: seen.filter (·.1 != r)))

/-- Converts a collection unless it is known. -/
def visiting (r : Ref) (seen : Visited) (convert : Visited → Part) : Part :=
  match seen.find? (·.1 == r) with
  | some (_, some v) => meet r v seen
  | some (_, none) => meet r .nil seen
  | none => mark (.entered r) do
    let (v, seen) ← convert ((r, none) :: seen)
    leave r v seen

/-- Asks for the items of an ordered collection from an index on, after those that are done. -/
def items (item : Value → Visited → Part) (r : Ref) :
    (count index : Nat) → Visited → List NativeValue → Inquiry (List NativeValue × Visited)
  | 0, _, seen, done => pure (done.reverse, seen)
  | n + 1, index, seen, done => ask (.item r index) fun v => do
    let (converted, seen) ← item v seen
    items item r n (index + 1) seen (converted :: done)

/-- An ordered collection, of which the length is asked for first. -/
def array (item : Value → Visited → Part) (r : Ref) (seen : Visited) : Part :=
  visiting r seen fun seen => ask (.length r) fun length =>
    if maxArrayLength < length then fail (.conversion (.lengthExceeded length maxArrayLength))
    else do
      let (items, seen) ← items item r length 0 seen []
      return (.array items, seen)

/-- Asks for the properties under some keys, after those that are done. -/
def entries (item : Value → Visited → Part) (r : Ref) :
    List String → Visited → List (NativeValue × NativeValue) → Inquiry (List (NativeValue × NativeValue) × Visited)
  | [], seen, done => pure (done.reverse, seen)
  | key :: rest, seen, done => ask (.entry r key) fun v => do
    let (converted, seen) ← item v seen
    entries item r rest seen ((.text key, converted) :: done)

/-- A dictionary, of which the keys are asked for first. -/
def dictionary (item : Value → Visited → Part) (r : Ref) (seen : Visited) : Part :=
  visiting r seen fun seen => ask (.keys r) fun keys => do
    let (entries, seen) ← entries item r keys seen []
    return (.dictionary entries, seen)

/-- The natural conversion of an object of some kind. -/
def ofPayload (item : Value → Visited → Part) (r : Ref) (seen : Visited) : Option Payload → Part
  | none => pure (.nil, seen)
  | some (.array _) => array item r seen
  | some (.date millis nanos) => pure (nativeDate millis nanos, seen)
  | some (.buffer bytes) => ask .typedArrays fun allowed =>
    if allowed then pure (.data bytes, seen) else fail (.conversion .buffersDisabled)
  | some (.function f) =>
    match f.callable with
    | .closure c => pure (.closure c, seen)
    | .constructor cls _ => pure (.classRef cls, seen)
    | _ => dictionary item r seen
  | some (.wrapper _) => ask (.native r) fun v => pure (v, seen)
  | some .ordinary | some (.error ..) | some (.regexp ..) => dictionary item r seen

/-- The natural conversion of a value with so many levels left. -/
def natural : (room : Nat) → Value → Visited → Part
  | 0, _, _ => ask .levels fun limit => fail (.conversion (.depthExceeded limit))
  | n + 1, v, seen =>
    match v with
    | .undefined => pure (.nil, seen)
    | .null => pure (.null, seen)
    | .bool b => pure (.bool b, seen)
    | .number x => pure (.number x, seen)
    | .text t => pure (.text t, seen)
    | .object r => ask (.payload r) (ofPayload (natural n) r seen)

section

variable {s : Scope} {item : Value → Visited → Part} {convert : Value → Visited → Conversion}
  {r : Ref} {seen : Visited}

theorem visiting_routine {inside : Visited → Part} {convert : Visited → Conversion}
    (same : ∀ seen, (inside seen).routine s = convert seen) :
    (visiting r seen inside).routine s = Scope.visiting r seen convert := by
  unfold visiting Scope.visiting
  cases seen.find? (·.1 == r) with
  | none =>
    simp only [routine, routine_bind, same, leave]
    rfl
  | some known =>
    obtain ⟨q, _ | v⟩ := known
    all_goals rfl

theorem items_routine (same : ∀ v seen, (item v seen).routine s = convert v seen) (count index : Nat) (seen : Visited)
    (done : List NativeValue) :
    (items item r count index seen done).routine s = s.arrayItems convert (.object r) count index seen done := by
  induction count generalizing index seen done with
  | zero => rfl
  | succ n ih => simp only [items, Scope.arrayItems, routine, routine_bind, same, ih, Query.routine]

theorem array_routine (same : ∀ v seen, (item v seen).routine s = convert v seen) :
    (array item r seen).routine s = s.arrayWith convert r seen := by
  refine visiting_routine fun seen => ?_
  simp only [routine, Query.routine, bind_assoc, pure_bind]
  refine bind_congr fun v => bind_congr fun x => ?_
  split
  · rfl
  · simp only [routine_bind, items_routine same]
    rfl

theorem entries_routine (same : ∀ v seen, (item v seen).routine s = convert v seen) (keys : List String)
    (seen : Visited) (done : List (NativeValue × NativeValue)) :
    (entries item r keys seen done).routine s = s.dictionaryEntries convert (.object r) keys seen done := by
  induction keys generalizing seen done with
  | nil => rfl
  | cons key rest ih => simp only [entries, Scope.dictionaryEntries, routine, routine_bind, same, ih, Query.routine]

theorem dictionary_routine (same : ∀ v seen, (item v seen).routine s = convert v seen) :
    (dictionary item r seen).routine s = s.dictionaryWith convert r seen := by
  refine visiting_routine fun seen => ?_
  simp only [routine, routine_bind, Query.routine, entries_routine same]
  rfl

end

/-- The conversion is this computation. -/
theorem natural_routine (s : Scope) (room : Nat) (v : Value) (seen : Visited) :
    (natural room v seen).routine s = s.naturalAt room v seen := by
  induction room generalizing v seen with
  | zero => rfl
  | succ n ih =>
    cases v with
    | undefined | null | bool | number | text => rfl
    | object r =>
      refine bind_congr fun payload => ?_
      cases payload with
      | none => rfl
      | some payload =>
        cases payload with
        | array items => exact array_routine ih
        | date | wrapper => rfl
        | buffer bytes => exact bind_congr fun allowed => by cases allowed <;> rfl
        | function f =>
          obtain ⟨name, callable, context⟩ := f
          cases callable with
          | closure | constructor => rfl
          | _ => exact dictionary_routine ih
        | ordinary | error | regexp => exact dictionary_routine ih

/-- The conversion of a value on its own, which starts without known collections. -/
def toNative : Value → Inquiry NativeValue
  | .object r => ask .levels fun room => do return (← natural (room + 1) (.object r) []).1
  | v => do return (← natural 1 v []).1

theorem toNative_routine (s : Scope) (v : Value) : (toNative v).routine s = s.toNative v := by
  cases v with
  | undefined | null | bool | number | text => rfl
  | object r =>
    refine bind_congr fun room => ?_
    rw [routine_bind, natural_routine]
    rfl

/-! ## What is asked for -/

/-- In the run of a computation, where jobs nest at most so deep, something is asked for on a machine. -/
inductive Asks (s : Scope) (depth : Nat) {β : Type} (q : Query β) (m' : Machine) : Inquiry α → Machine → Prop
  | here {next : β → Inquiry α} : Asks s depth q m' (ask q next) m'
  | marked {k : Mark} {next : Inquiry α} {m : Machine} (asks : Asks s depth q m' next m) :
    Asks s depth q m' (mark k next) m
  | later {γ : Type} {q' : Query γ} {next : γ → Inquiry α} {a : γ} {m m₁ : Machine}
    (answer : (q'.routine s).exec (Job.exec Job.routine depth) m = (.done a, m₁))
    (asks : Asks s depth q m' (next a) m₁) : Asks s depth q m' (ask q' next) m

variable {s : Scope} {depth : Nat} {q : Query β} {m m' : Machine} {w : Inquiry α}

/-- The answers of a run that comes to an end do so. -/
theorem Asks.terminates (asks : Asks s depth q m' w m) {depth' : Nat} (ends : ¬(w.routine s).CutShort m depth') :
    (q.routine s).Terminates m' := by
  induction asks with
  | here => exact ⟨depth', fun short => ends short.bind⟩
  | marked _ ih => exact ih ends
  | @later γ q' next a m m₁ answer _ ih =>
    have first : ¬(q'.routine s).CutShort m depth' := fun short => ends short.bind
    have same := exec_unique (not_cutShort_of_done answer) first
    exact ih fun short => ends ((cutShort_bind_of_done (same ▸ answer)).2 short)

/-- A run comes to an end whose answers do, when jobs may nest deep enough. -/
theorem exists_not_cutShort (w : Inquiry α) (enough : Nat)
    (answers : ∀ depth, enough ≤ depth → ∀ (β : Type) (q : Query β) m', Asks s depth q m' w m →
      (q.routine s).Terminates m') : ∃ depth, enough ≤ depth ∧ ¬(w.routine s).CutShort m depth := by
  induction w generalizing m enough with
  | pure a => exact ⟨enough, Nat.le_refl _, nofun⟩
  | fail e => exact ⟨enough, Nat.le_refl _, nofun⟩
  | mark k next ih => exact ih enough fun depth le β q m' asks => answers depth le β q m' asks.marked
  | @ask γ q next ih =>
    obtain ⟨depth, first⟩ := answers enough (Nat.le_refl _) γ q m .here
    have ends := not_cutShort_deeper first (Nat.le_max_right enough depth)
    by_cases gives : ∃ a m₁, (q.routine s).exec (Job.exec Job.routine (max enough depth)) m = (.done a, m₁)
    · obtain ⟨a, m₁, done⟩ := gives
      -- What is asked for after this answer is asked for at any greater depth, as the answer stays the same.
      have done {depth' : Nat} (le : max enough depth ≤ depth') := (exec_deeper ends le).trans done
      obtain ⟨depth', le, rest⟩ := ih a (max enough depth) fun depth' le β q' m' asks =>
        answers depth' (Nat.le_trans (Nat.le_max_left ..) le) β q' m' (.later (done le) asks)
      have ends' : ¬((ask q next).routine s).CutShort m depth' := fun short =>
        rest ((cutShort_bind_of_done (done le)).1 short)
      exact ⟨depth', Nat.le_trans (Nat.le_max_left ..) le, ends'⟩
    · exact ⟨_, Nat.le_max_left .., not_cutShort_bind ends fun a m₁ done => gives ⟨a, m₁, done⟩⟩

/-- A run comes to an end if and only if all answers do. -/
theorem terminates_iff : (w.routine s).Terminates m ↔
    ∀ (depth : Nat) (β : Type) (q : Query β) m', Asks s depth q m' w m → (q.routine s).Terminates m' := by
  refine ⟨fun ⟨depth', ends⟩ depth β q m' asks => asks.terminates ends, fun answers => ?_⟩
  obtain ⟨depth, -, ends⟩ := exists_not_cutShort w 0 fun depth _ => answers depth
  exact ⟨depth, ends⟩

end Inquiry

end ScriptBridge
