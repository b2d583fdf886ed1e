import ScriptBridge.Proofs.Calls
import ScriptBridge.Proofs.Discreet.Operations
import ScriptBridge.Proofs.Identity

/-!
# Arguments of a class

An argument that is declared with the name of a class gets a native value of the kind that the name asks for. What
is not of that kind is refused at sight, where the name is one of a shape or the value stands for a native object;
apart from that an argument fails only with what reading the inside of an object fails with. Either way no native
body gets anything.

* `NativeValue.HasShape`: the values of a shape. `Scope.nativeAs_hasShape`: what is read in a shape has it, or is nil.
* `Machine.refusal?`: what is refused at sight, and with what failure.
* `Scope.checks_classes`: what becomes of each argument, and of the call.

Proof-only: not reachable from `ScriptBridge.Session.Run`.
-/

namespace ScriptBridge

open Routine
open Program (UnwrapShape)

/-- The native values of a shape. -/
def NativeValue.HasShape (v : NativeValue) : UnwrapShape → Prop
  | .any | .object => True
  | .bool => ∃ b, v = .bool b
  | .number | .double | .int32 | .uint32 => ∃ x, v = .number x
  | .string => ∃ t, v = .text t
  | .date => ∃ t, v = .date t
  | .array => ∃ items, v = .array items
  | .dictionary => ∃ entries, v = .dictionary entries
  | .data => ∃ bytes, v = .data bytes
  | .closure => ∃ c, v = .closure c

namespace Machine

/-- Why a value is refused at sight in a shape that objects or primitives may not have. -/
def refusalAs? (m : Machine) (shape : UnwrapShape) (v : Value) : Option ConversionError :=
  match shape, v with
  | _, .undefined | _, .null => none
  | .date, .number _ => none
  | .date, v => if m.isDate v then none else some (.mismatch "date" (m.describe v))
  | .array, .object _ | .dictionary, .object _ => none
  | .array, v => some (.notAnObject "array" (m.describe v))
  | .dictionary, v => some (.notAnObject "dictionary" (m.describe v))
  | .data, v =>
    if (m.bytes? v).isNone then some (.mismatch "data" (m.describe v))
    else if m.options.typedArrays then none
    else some .buffersDisabled
  | _, _ => none

/-- Why an argument that is declared with the name of a class is refused at sight: it has not the shape that the name
stands for, or it is a native object of another class. -/
def refusal? (m : Machine) (className : String) (v : Value) : Option ConversionError :=
  match Scope.shapeOfClassName? className with
  | some shape => m.refusalAs? shape v
  | none =>
    match m.nativeBehind? v with
    | some h => if h.cls.isKindOf className then none else some (.mismatch className (m.describe v))
    | none => none

end Machine

namespace Scope

variable {s : Scope} {job : Runner} {m m' : Machine} {r : Ref} {v : Value} {a : NativeValue} {className : String}
  {shape : UnwrapShape}

/-! ## Reading the inside of objects -/

variable {item : Value → Visited → Conversion}

/-- With nothing known, a collection is converted. -/
theorem arrayWith_hasShape {seen : Visited} (done : (s.arrayWith item r []).exec job m = (.done (a, seen), m')) :
    a.HasShape .array := by
  unfold arrayWith visiting at done
  obtain ⟨⟨b, seen₁⟩, m₁, converted, last⟩ := done_of_bind done
  cases last
  obtain ⟨v, m₂, -, rest⟩ := done_of_bind converted
  obtain ⟨n, m₃, -, rest⟩ := done_of_bind rest
  dsimp only at rest
  split at rest
  · nomatch rest
  · obtain ⟨⟨items, _⟩, m₄, -, last⟩ := done_of_bind rest
    cases last
    exact ⟨items, rfl⟩

theorem dictionaryWith_hasShape {seen : Visited}
    (done : (s.dictionaryWith item r []).exec job m = (.done (a, seen), m')) : a.HasShape .dictionary := by
  unfold dictionaryWith visiting at done
  obtain ⟨⟨b, seen₁⟩, m₁, converted, last⟩ := done_of_bind done
  cases last
  obtain ⟨keys, m₂, -, rest⟩ := done_of_bind converted
  obtain ⟨⟨entries, _⟩, m₃, -, last⟩ := done_of_bind rest
  cases last
  exact ⟨entries, rfl⟩

/-- A native object is read only from its wrapper. -/
theorem natural_of_object {h : Handle} (done : (s.objectReading.natural r).exec job m = (.done (.object h), m')) :
    m.nativeBehind? (.object r) = some h := by
  obtain ⟨room, m₀, looked, done⟩ := done_of_bind done
  cases looked
  obtain ⟨⟨b, seen⟩, m₁, read, last⟩ := done_of_bind done
  cases last
  unfold naturalAt at read
  obtain ⟨payload, m₂, looked, read⟩ := done_of_bind read
  cases looked
  split at read
  · cases read
  · obtain ⟨_, is⟩ := arrayWith_hasShape read
    cases is
  · unfold nativeDate at read
    split at read <;> cases read
  · obtain ⟨allowed, m₃, -, read⟩ := done_of_bind read
    split at read <;> cases read
  · split at read
    · cases read
    · cases read
    · obtain ⟨_, is⟩ := dictionaryWith_hasShape read
      cases is
  · obtain ⟨b, m₃, unwrapped, last⟩ := done_of_bind read
    cases last
    obtain ⟨behind, m₄, looked, rest⟩ := done_of_bind unwrapped
    cases looked
    split at rest
    · rename_i h' found
      obtain ⟨_, m₅, -, last⟩ := done_of_bind rest
      cases last
      exact found
    · cases rest
  · obtain ⟨_, is⟩ := dictionaryWith_hasShape read
    cases is
  · obtain ⟨_, is⟩ := dictionaryWith_hasShape read
    cases is
  · obtain ⟨_, is⟩ := dictionaryWith_hasShape read
    cases is

theorem naturally_of_object {h : Handle} (done : (naturally s.objectReading v).exec job m = (.done (.object h), m')) :
    m.nativeBehind? v = some h := by
  cases v with
  | undefined | null | bool | number | text => nomatch done
  | object r => exact natural_of_object done

/-! ## Shapes -/

theorem nativeDate_hasShape {millis : Double} {nanos : Nat} :
    nativeDate millis nanos = .nil ∨ (nativeDate millis nanos).HasShape .date := by
  unfold nativeDate
  split
  · exact .inr ⟨_, rfl⟩
  · exact .inl rfl

/-- What is read in a shape has it, or is nil. -/
theorem nativeAs_hasShape (done : (s.nativeAs s.objectReading shape v).exec job m = (.done a, m')) :
    a = .nil ∨ a.HasShape shape := by
  unfold nativeAs at done
  cases shape with
  | any | object => exact .inr trivial
  | bool =>
    cases done
    exact .inr ⟨_, rfl⟩
  | number | double | int32 | uint32 =>
    obtain ⟨x, m₁, -, last⟩ := done_of_bind done
    cases last
    exact .inr ⟨_, rfl⟩
  | string =>
    dsimp only at done
    split at done
    · cases done
      exact .inl rfl
    · obtain ⟨t, m₁, -, last⟩ := done_of_bind done
      cases last
      exact .inr ⟨t, rfl⟩
  | date =>
    obtain ⟨payload, m₁, looked, rest⟩ := done_of_bind done
    cases looked
    split at rest
    · cases rest
      exact .inl rfl
    · cases rest
      exact .inl rfl
    · cases rest
      exact nativeDate_hasShape
    · cases rest
      exact nativeDate_hasShape
    · nomatch rest
  | array =>
    cases v with
    | undefined | null =>
      cases done
      exact .inl rfl
    | bool | number | text => nomatch done
    | object r =>
      obtain ⟨room, m₁, -, rest⟩ := done_of_bind done
      obtain ⟨⟨b, seen⟩, m₂, read, last⟩ := done_of_bind rest
      cases last
      exact .inr (arrayWith_hasShape read)
  | dictionary =>
    cases v with
    | undefined | null =>
      cases done
      exact .inl rfl
    | bool | number | text => nomatch done
    | object r =>
      obtain ⟨room, m₁, -, rest⟩ := done_of_bind done
      obtain ⟨⟨b, seen⟩, m₂, read, last⟩ := done_of_bind rest
      cases last
      exact .inr (dictionaryWith_hasShape read)
  | data =>
    obtain ⟨bytes, m₁, looked, rest⟩ := done_of_bind done
    cases looked
    split at rest
    · cases rest
      exact .inl rfl
    · cases rest
      exact .inl rfl
    · obtain ⟨allowed, m₂, -, rest⟩ := done_of_bind rest
      split at rest
      · cases rest
        exact .inr ⟨_, rfl⟩
      · nomatch rest
    · nomatch rest
  | closure =>
    obtain ⟨behind, m₁, looked, rest⟩ := done_of_bind done
    cases looked
    split at rest
    · cases rest
      exact .inl rfl
    · cases rest
      exact .inl rfl
    · cases rest
      exact .inr ⟨_, rfl⟩
    · nomatch rest

/-- What has not the shape is refused at sight. -/
theorem nativeAs_refused {e : ConversionError} (refused : m.refusalAs? shape v = some e) :
    (s.nativeAs s.objectReading shape v).Throws m (.conversion e) m := by
  have primitive {expected : String} {found : ConversionError}
      (is : some (.mismatch expected (m.describe v)) = some found) :
      (mismatch expected v : Routine Fault NativeValue).Throws m (.conversion found) m :=
    Option.some.inj is ▸ fun _ => rfl
  cases shape with
  | any | bool | number | double | int32 | uint32 | string | object | closure => cases v <;> nomatch refused
  | date =>
    cases v with
    | undefined | null | number => nomatch refused
    | bool | text => exact primitive refused
    | object r =>
      change (if m.isDate (.object r) then none else _) = some e at refused
      split at refused
      · nomatch refused
      · rename_i other
        intro job
        refine (exec_look (f := (·.payload? (.object r))) rfl).trans ?_
        rcases payload : m.payload? (.object r) with _ | p
        · exact primitive refused job
        · cases p with
          | date =>
            unfold Machine.isDate Machine.dateMillis? at other
            rw [payload] at other
            exact absurd rfl other
          | _ => exact primitive refused job
  | array | dictionary =>
    cases v with
    | undefined | null | object => nomatch refused
    | bool | number | text => exact Option.some.inj refused ▸ fun _ => rfl
  | data =>
    cases v with
    | undefined | null => nomatch refused
    | bool | number | text => exact primitive refused
    | object r =>
      intro job
      refine (exec_look (f := (·.bytes? (.object r))) rfl).trans ?_
      unfold Machine.refusalAs? at refused
      rcases bytes : m.bytes? (.object r) with _ | b
      · simp only [bytes, Option.isNone_none, if_true] at refused
        exact primitive refused job
      · simp only [bytes, Option.isNone_some, Bool.false_eq_true, if_false] at refused
        split at refused
        · nomatch refused
        · rename_i off
          refine (exec_look (f := (·.options.typedArrays)) (Bool.eq_false_iff.2 off)).trans ?_
          exact Option.some.inj refused ▸ rfl

/-- The shapes whose values are made of what is inside of an object. -/
def readsInside : UnwrapShape → Bool
  | .any | .object | .array | .dictionary => true
  | .bool | .number | .double | .int32 | .uint32 | .string | .date | .data | .closure => false

/-- What is not refused at sight fails only where the inside of an object is read, and only with what that fails
with. -/
theorem nativeAs_inner {fault : Fault} (closures : shape ≠ .closure) (seen : m.refusalAs? shape v = none)
    (fails : (s.nativeAs s.objectReading shape v).exec job m = (.thrown fault, m')) :
    fault.Inner ∧ v.isObject = true ∧ readsInside shape = true := by
  have never {r : Routine Fault NativeValue} (discreet : r.Discreet (fun _ => False) false)
      (fails : r.exec job m = (.thrown fault, m')) : False :=
    (discreet.run job m).2.1 fault (congrArg Prod.fst fails)
  have inner {r : Routine Fault NativeValue} (discreet : r.Discreet Fault.Inner false)
      (fails : r.exec job m = (.thrown fault, m')) : fault.Inner :=
    (discreet.run job m).2.1 fault (congrArg Prod.fst fails)
  cases shape with
  | any | object =>
    cases v with
    | undefined | null | bool | number | text => nomatch fails
    | object r => exact ⟨inner (objectReading_inner.natural r) fails, rfl, rfl⟩
  | bool => nomatch fails
  | number | double | int32 | uint32 => exact (never (.bind numberOf_discreet fun _ => .pure) fails).elim
  | string =>
    unfold nativeAs at fails
    dsimp only at fails
    split at fails
    · nomatch fails
    · exact (never (.bind textOf_discreet fun _ => .pure) fails).elim
  | date =>
    cases v with
    | undefined | null | number => nomatch fails
    | bool | text => nomatch seen
    | object r =>
      change (if m.isDate (.object r) then none else _) = none at seen
      split at seen
      · rename_i date
        unfold nativeAs at fails
        replace fails := (exec_look (f := (·.payload? (.object r))) rfl).symm.trans fails
        unfold Machine.isDate Machine.dateMillis? at date
        rcases payload : m.payload? (.object r) with _ | p
        · rw [payload] at date
          nomatch date
        · rw [payload] at date fails
          cases p with
          | date => nomatch fails
          | _ => nomatch date
      · nomatch seen
  | array =>
    cases v with
    | undefined | null => nomatch fails
    | bool | number | text => nomatch seen
    | object r => exact ⟨inner (objectReading_inner.array r) fails, rfl, rfl⟩
  | dictionary =>
    cases v with
    | undefined | null => nomatch fails
    | bool | number | text => nomatch seen
    | object r => exact ⟨inner (objectReading_inner.dictionary r) fails, rfl, rfl⟩
  | data =>
    cases v with
    | undefined | null => nomatch fails
    | bool | number | text => nomatch seen
    | object r =>
      unfold nativeAs at fails
      replace fails := (exec_look (f := (·.bytes? (.object r))) rfl).symm.trans fails
      unfold Machine.refusalAs? at seen
      rcases bytes : m.bytes? (.object r) with _ | b
      · simp [bytes] at seen
      · rw [bytes] at fails
        simp only [bytes, Option.isNone_some, Bool.false_eq_true, if_false] at seen
        split at seen
        · rename_i on
          replace fails := (exec_look (f := (·.options.typedArrays)) on).symm.trans fails
          nomatch fails
        · nomatch seen
  | closure => exact absurd rfl closures

/-! ## Arguments of a class -/

section

variable {objects : ObjectReading}

theorem argumentOf_shape (named : shapeOfClassName? className = some shape) :
    s.argumentOf objects (.object (some className)) v = s.nativeAs objects shape v := by
  change s.objectArgument objects className v = _
  unfold objectArgument
  rw [named]

/-- Any other class is checked once the value is converted. -/
theorem argumentOf_class (other : shapeOfClassName? className = none) :
    s.argumentOf objects (.object (some className)) v = naturally objects v >>= fun converted =>
      match converted with
      | .object h => if h.cls.isKindOf className then return .object h else mismatch className v
      | converted => return converted := by
  change s.objectArgument objects className v = _
  unfold objectArgument
  rewrite [other]
  rfl

end

/-- What is refused at sight is refused. -/
theorem argumentOf_refused {e : ConversionError} (refused : m.refusal? className v = some e) :
    ∃ holds, (s.argumentOf s.objectReading (.object (some className)) v).Throws m (.conversion e) { m with holds } := by
  unfold Machine.refusal? at refused
  rcases named : shapeOfClassName? className with _ | shape
  · rw [named] at refused
    rcases behind : m.nativeBehind? v with _ | h
    · rw [behind] at refused
      nomatch refused
    · simp only [behind] at refused
      split at refused
      · nomatch refused
      · rename_i other
        obtain ⟨holds, reads⟩ := toNative_behind (s := s) behind
        rw [argumentOf_class named]
        refine ⟨holds, .after reads ?_⟩
        dsimp only
        rw [if_neg other]
        exact Option.some.inj refused ▸ fun _ => rfl
  · simp only [named] at refused
    rw [argumentOf_shape named]
    exact ⟨m.holds, nativeAs_refused refused⟩

/-- The object behind a wrapper is accepted where its class has an ancestor of the name. -/
theorem argumentOf_wrapper {h : Handle} (other : shapeOfClassName? className = none)
    (behind : m.nativeBehind? v = some h) (kind : h.cls.isKindOf className = true) :
    ∃ holds, (s.argumentOf s.objectReading (.object (some className)) v).Returns m (.object h) { m with holds } := by
  obtain ⟨holds, reads⟩ := toNative_behind (s := s) behind
  rw [argumentOf_class other]
  refine ⟨holds, reads.bind ?_⟩
  dsimp only
  rw [if_pos kind]
  exact .pure

/-- What is accepted has the shape that the name stands for; for other names, an object is accepted only if a class
above it has the name. -/
theorem argumentOf_sound
    (done : (s.argumentOf s.objectReading (.object (some className)) v).exec job m = (.done a, m')) :
    (∀ shape, shapeOfClassName? className = some shape → a = .nil ∨ a.HasShape shape) ∧
      (shapeOfClassName? className = none → ∀ h, a = .object h → h.cls.isKindOf className = true) := by
  rcases named : shapeOfClassName? className with _ | shape
  · refine ⟨nofun, fun _ h is => ?_⟩
    subst is
    rw [argumentOf_class named] at done
    obtain ⟨b, m₁, -, rest⟩ := done_of_bind done
    split at rest
    · split at rest
      · cases rest
        assumption
      · nomatch rest
    · rename_i plain
      cases rest
      exact absurd rfl (plain h)
  · refine ⟨fun shape' same => ?_, nofun⟩
    obtain rfl := Option.some.inj same
    rw [argumentOf_shape named] at done
    exact nativeAs_hasShape done

/-- What fails is refused at sight, or it is an object whose inside could not be read. -/
theorem argumentOf_fails {fault : Fault} (seen : m.refusal? className v = none)
    (fails : (s.argumentOf s.objectReading (.object (some className)) v).exec job m = (.thrown fault, m')) :
    fault.Inner ∧ v.isObject = true ∧
      ∀ shape, shapeOfClassName? className = some shape → readsInside shape = true := by
  unfold Machine.refusal? at seen
  rcases named : shapeOfClassName? className with _ | shape
  · rw [named] at seen
    rw [argumentOf_class named, exec_bind] at fails
    rcases read : (naturally s.objectReading v).exec job m with ⟨outcome, m₁⟩
    rw [read] at fails
    cases outcome with
    | done b =>
      dsimp only [Outcome.andThen] at fails
      split at fails
      · rename_i h
        simp only [naturally_of_object read] at seen
        split at seen
        · rename_i kind
          rw [if_pos kind] at fails
          nomatch fails
        · nomatch seen
      · nomatch fails
    | thrown e =>
      cases fails
      have natural : (s.nativeAs s.objectReading .any v).exec job m = (.thrown fault, m') := read
      have other : UnwrapShape.any ≠ .closure := nofun
      obtain ⟨inner, object, -⟩ := nativeAs_inner other (by cases v <;> rfl) natural
      exact ⟨inner, object, nofun⟩
    | panicked p => nomatch fails
    | exhausted => nomatch fails
  · simp only [named] at seen
    rw [argumentOf_shape named] at fails
    have closures : shape ≠ .closure := by
      rintro rfl
      unfold shapeOfClassName? at named
      split at named <;> nomatch named
    obtain ⟨inner, object, reads⟩ := nativeAs_inner closures seen fails
    exact ⟨inner, object, fun _ same => Option.some.inj same ▸ reads⟩

end Scope

/-- What becomes of a value as an argument that is declared with the name of a class. -/
structure Machine.Checks (m : Machine) (s : Scope) (className : String) (v : Value) : Prop where
  refused : ∀ e, m.refusal? className v = some e →
    ∃ holds, (s.argumentOf s.objectReading (.object (some className)) v).Throws m (.conversion e) { m with holds }
  /-- Nothing else fails but what is inside of an object, and that not as a mismatch. -/
  fails : ∀ (job : Runner) fault m',
    (s.argumentOf s.objectReading (.object (some className)) v).exec job m = (.thrown fault, m') →
      (∃ e, m.refusal? className v = some e ∧ fault = .conversion e) ∨ fault.Inner ∧ v.isObject = true ∧
        ∀ shape, Scope.shapeOfClassName? className = some shape → Scope.readsInside shape = true
  /-- What is accepted is of the kind that the name asks for. -/
  sound : ∀ (job : Runner) a m',
    (s.argumentOf s.objectReading (.object (some className)) v).exec job m = (.done a, m') →
      (∀ shape, Scope.shapeOfClassName? className = some shape → a = .nil ∨ a.HasShape shape) ∧
      (Scope.shapeOfClassName? className = none → ∀ h, a = .object h → h.cls.isKindOf className = true)
  wrapper : Scope.shapeOfClassName? className = none → ∀ h, m.nativeBehind? v = some h →
    h.cls.isKindOf className = true →
      ∃ holds, (s.argumentOf s.objectReading (.object (some className)) v).Returns m (.object h) { m with holds }

namespace Scope

variable {s : Scope} {m : Machine} {className : String} {v : Value}

theorem checks : m.Checks s className v where
  refused _ refused := argumentOf_refused refused
  fails job fault m' fails := by
    cases seen : m.refusal? className v with
    | none => exact .inr (argumentOf_fails seen fails)
    | some e =>
      obtain ⟨holds, throws⟩ := argumentOf_refused (s := s) seen
      cases fails.symm.trans (throws job)
      exact .inl ⟨e, rfl, rfl⟩
  sound _ _ _ done := argumentOf_sound done
  wrapper other _ behind kind := argumentOf_wrapper other behind kind

/-- Arguments that are declared with the name of a class are checked, and one that is refused ends the call: the
native body is not among the jobs that were entered, which are those of the conversions up to it. -/
theorem checks_classes (s : Scope) (m : Machine) (className : String) (v : Value) : m.Checks s className v ∧
    ∀ (before after : List Encoding) (us vs : List Value) (job : Runner) m₀ converted fault m',
      before.length = us.length → (s.arguments s.objectReading before us).exec job m₀ = (.done converted, m) →
      (s.argumentOf s.objectReading (.object (some className)) v).exec job m = (.thrown fault, m') →
        let types := before ++ .object (some className) :: after
        let args := us ++ v :: vs
        let jobs := (s.arguments s.objectReading before us).entered job m₀ ++
          (s.argumentOf s.objectReading (.object (some className)) v).entered job m
        (∀ result body receiver, (s.dispatch ⟨result, types⟩ body receiver args).Runs job m₀ jobs (.thrown fault, m')) ∧
        ∀ cls table (e : ExportedMethod) body, table.initializer? args.length = some e → e.signature.args = types →
          e.signature.isMarshalable = true → cls.classMethod? e.selector = some body →
            (s.newInstance cls table args).Runs job m₀ jobs (.thrown fault, m') := by
  refine ⟨checks, ?_⟩
  intro before after us vs job m₀ converted fault m' same first fails types args jobs
  have refused : (s.arguments s.objectReading types args).Runs job m₀ jobs (.thrown fault, m') :=
    arguments_refused same first fails
  refine ⟨fun result body receiver => refused.thrown, ?_⟩
  intro cls table e body found declared marshalable implements
  rw [newInstance_initializer found marshalable implements, declared]
  exact refused.thrown

/-- The wrapper of an object of another class is refused, and the call runs nothing. -/
theorem checks_classes_bridged : ∃ holds,
    (Scope.dispatch ⟨0⟩ ⟨.void, [.object (some "Counter")]⟩ [] .nothing [.object ⟨1, 0⟩]).Runs
      (Job.exec Job.routine 0) Moment.bridged.machine []
      (.thrown (.conversion (.mismatch "Counter" "wrapper")), { Moment.bridged.machine with holds }) := by
  obtain ⟨checks, refuses⟩ := checks_classes ⟨0⟩ Moment.bridged.machine "Counter" (.object ⟨1, 0⟩)
  obtain ⟨holds, throws⟩ := checks.refused (.mismatch "Counter" "wrapper") rfl
  exact ⟨holds, (refuses [] [] [] [] (Job.exec Job.routine 0) _ [] _ _ rfl rfl (throws _)).1 .void [] .nothing⟩

/-- A number that should be an array fails otherwise than by a mismatch, and a text passes for an object of any
class. -/
theorem counter_takes_text :
    (Scope.argumentOf ⟨0⟩ (Scope.objectReading ⟨0⟩) (.object (some "Array")) (.number (.ofNat 5))).Throws {}
        (.conversion (.notAnObject "array" "number")) {} ∧
      (Scope.argumentOf ⟨0⟩ (Scope.objectReading ⟨0⟩) (.object (some "Counter")) (.text "text")).Returns {}
        (.text "text") {} := ⟨fun _ => rfl, fun _ => rfl⟩

end Scope

end ScriptBridge
