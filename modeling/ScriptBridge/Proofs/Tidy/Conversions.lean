import ScriptBridge.Bridge.ToNative
import ScriptBridge.Proofs.Tidy.Wrappers

/-!
# Calling native code, and reading what scripts have

Properties and elements come out recorded, whether the chain of an object has them, a getter makes them
or a native object gives them. Reading a script value as a native one keeps order at any depth.

Proof-only: not reachable from `ScriptBridge.Session.Run`.
-/

namespace ScriptBridge

open Routine
open Program (UnwrapShape)

/-- Reading objects keeps order. -/
structure ObjectReading.Tidy (objects : ObjectReading) (s : Scope) : Prop where
  natural : ∀ r m, (objects.natural r).Tidy (some s) m
  array : ∀ r m, (objects.array r).Tidy (some s) m
  dictionary : ∀ r m, (objects.dictionary r).Tidy (some s) m

theorem ObjectReading.primitive_tidy (s : Scope) : ObjectReading.primitive.Tidy s :=
  ⟨fun _ _ => .pure trivial, fun _ _ => .pure trivial, fun _ _ => .pure trivial⟩

namespace Scope

variable {ε α : Type} [Carries ε] {s : Scope} {o : Option Scope} {m : Machine} {Q : α → Machine → Prop}

theorem tidy_same (_ : α) (m m' : Machine) (_ : m'.regions = m.regions) (h : True) : True := h

/-! ## Native code -/

theorem runNative_tidy {body : Program.Body} {receiver : Receiver} {args : List NativeValue} :
    (runNative body receiver args).Tidy o m := by
  refine .enter rfl (fun _ h => nomatch h) fun result m' _ => ?_
  split
  · exact .pure trivial
  · exact error_gives
  · exact error_gives

theorem send_tidy {h : Handle} {selector : Selector} {args : List NativeValue} :
    (send h selector args).Tidy o m := by
  unfold send
  split
  · exact dispatch_gives
  · exact .holding tidy_same fun _ _ => runNative_tidy

theorem checkSignature_tidy {method : ExportedMethod} : (checkSignature method).Tidy o m := by
  unfold checkSignature
  split
  · exact .pure trivial
  · exact dispatch_gives

theorem checkEncoding_tidy {p : PropertyDeclaration} : (checkEncoding p).Tidy o m := by
  unfold checkEncoding
  split
  · exact .pure trivial
  · exact dispatch_gives

/-! ## Arguments -/

theorem mismatch_tidy {expected : String} {v : Value} : (mismatch expected v : Routine Fault α).Gives o m Q :=
  .look conversion_gives

theorem notAnObject_tidy {target : String} {v : Value} : (notAnObject target v : Routine Fault α).Gives o m Q :=
  .look conversion_gives

variable {objects : ObjectReading}

theorem naturally_tidy (reading : objects.Tidy s) {v : Value} : (naturally objects v).Tidy (some s) m := by
  unfold naturally
  split
  · exact .pure trivial
  · exact .pure trivial
  · exact .pure trivial
  · exact .pure trivial
  · exact .pure trivial
  · exact reading.natural _ m

theorem nativeAs_tidy (reading : objects.Tidy s) {shape : UnwrapShape} {v : Value} :
    (s.nativeAs objects shape v).Tidy (some s) m := by
  unfold nativeAs
  cases shape with
  | any | object => exact naturally_tidy reading
  | bool => exact .pure trivial
  | number | double | int32 | uint32 => exact .bind numberOf_tidy fun _ _ _ _ => .pure trivial
  | string =>
    dsimp only
    split
    · exact .pure trivial
    · exact .bind textOf_tidy fun _ _ _ _ => .pure trivial
  | date =>
    refine .look ?_
    split
    · exact .pure trivial
    · exact .pure trivial
    · exact .pure trivial
    · exact .pure trivial
    · exact mismatch_tidy
  | array =>
    cases v with
    | undefined | null => exact .pure trivial
    | object r => exact reading.array r m
    | bool | number | text => exact notAnObject_tidy
  | dictionary =>
    cases v with
    | undefined | null => exact .pure trivial
    | object r => exact reading.dictionary r m
    | bool | number | text => exact notAnObject_tidy
  | data =>
    refine .look ?_
    split
    · exact .pure trivial
    · exact .pure trivial
    · refine .look ?_
      split
      · exact .pure trivial
      · exact conversion_gives
    · exact mismatch_tidy
  | closure =>
    refine .look ?_
    split
    · exact .pure trivial
    · exact .pure trivial
    · exact .pure trivial
    · exact mismatch_tidy

theorem objectArgument_tidy (reading : objects.Tidy s) {className : String} {v : Value} :
    (s.objectArgument objects className v).Tidy (some s) m := by
  unfold objectArgument
  split
  · exact nativeAs_tidy reading
  · refine .bind (naturally_tidy reading) fun converted m₁ _ _ => ?_
    split
    · split
      · exact .pure trivial
      · exact mismatch_tidy
    · exact .pure trivial

theorem addManaged_tidy {v : Option Value} : (perform (.addManaged v) : Routine ε Nat).Tidy o m :=
  .aside ⟨trivial, trivial⟩ rfl

theorem argumentOf_tidy (reading : objects.Tidy s) {declared : Encoding} {v : Value} :
    (s.argumentOf objects declared v).Tidy (some s) m := by
  unfold argumentOf
  cases declared with
  | void | bool => exact .pure trivial
  | float | double => exact .bind numberOf_tidy fun _ _ _ _ => .pure trivial
  | longLong | ulongLong =>
    refine .bind numberOf_tidy fun x m₁ _ _ => ?_
    dsimp only
    split
    all_goals
      split
      · exact mismatch_tidy
      · exact .pure trivial
  | uchar | ushort | uint | ulong | char | short | int | long | cstring | closure => exact nativeAs_tidy reading
  | object className =>
    cases className with
    | none => exact naturally_tidy reading
    | some className => exact objectArgument_tidy reading
  | classRef =>
    refine .look ?_
    split
    · exact .pure trivial
    · split
      · exact .pure trivial
      · exact mismatch_tidy
  | selector =>
    dsimp only
    split
    · exact .pure trivial
    · exact .bind textOf_tidy fun _ _ _ _ => .pure trivial
  | scriptValue => exact .bind addManaged_tidy fun _ _ _ _ => .pure trivial
  | pointer | struct | carray | unknown => exact dispatch_gives

theorem arguments_tidy (reading : objects.Tidy s) {declared : List Encoding} {vs : List Value} :
    (s.arguments objects declared vs).Tidy (some s) m := by
  refine .mapM fun b _ m' _ => ?_
  exact .bind (argumentOf_tidy reading) fun _ _ _ _ => .bind .hold fun _ _ _ _ => .pure trivial

/-! ## Reading properties -/

theorem exportedGet_gives {holder : Ref} {p : PropertyDeclaration} :
    (s.exportedGet holder p).HandsOut (some s) m := by
  unfold exportedGet
  refine .bind checkEncoding_tidy fun _ m₁ _ _ => .look ?_
  split
  · exact .pure (Machine.recorded_of_not_object rfl)
  · refine .holding recorded_same fun m₂ _ => ?_
    exact .bind send_tidy fun _ _ _ _ => .bind .hold fun _ _ _ _ => resultOf_gives

theorem exportedSubscript_gives (reading : objects.Tidy s) {holder : Ref} {method : ExportedMethod}
    {value : Option Value} {index : Nat} :
    (s.exportedSubscript objects holder method value index).HandsOut (some s) m := by
  unfold exportedSubscript
  refine .bind checkSignature_tidy fun _ m₁ _ _ => .look ?_
  split
  · exact .pure (Machine.recorded_of_not_object rfl)
  · refine .holding recorded_same fun m₂ _ => ?_
    refine .bind (.holding tidy_same fun m₃ _ => arguments_tidy reading) fun args m₃ _ _ => ?_
    refine .bind (.forM fun _ _ _ _ => .hold) fun _ m₄ _ _ => ?_
    exact .bind send_tidy fun _ _ _ _ => .bind .hold fun _ _ _ _ => resultOf_gives

theorem get_gives {target : Value} {key : String} : (s.get target key).HandsOut (some s) m := by
  have plain {m : Machine} {v : Value} (h : v.isObject = false) :
      (Pure.pure v : Routine Thrown Value).HandsOut (some s) m := .pure (Machine.recorded_of_not_object h)
  unfold get
  cases target with
  | object r =>
    refine .look ?_
    split
    · exact .bind (raising_gives exportedGet_gives) fun v m₁ _ _ => tracked fun _ recorded => recorded
    · exact getOrdinary_gives
  | undefined | null => exact throwType_gives
  | text t =>
    dsimp only
    split
    · exact plain rfl
    · split
      · refine plain ?_
        cases Text.unitAt? t _ <;> rfl
      · exact .look getOrdinary_gives
  | bool | number => exact .look getOrdinary_gives

theorem getIndex_gives {target : Value} {index : Nat} : (s.getIndex target index).HandsOut (some s) m := by
  unfold getIndex
  refine .look ?_
  split
  · refine .bind (raising_gives (exportedSubscript_gives (ObjectReading.primitive_tidy s))) fun v m₁ _ _ => ?_
    exact tracked fun _ recorded => recorded
  · refine .look ?_
    split
    · exact tracked fun _ recorded => recorded
    · exact get_gives

/-! ## Natural values -/

variable {item : Value → Visited → Conversion}

theorem visiting_tidy {r : Ref} {seen : Visited} {convert : Visited → Conversion}
    (converts : ∀ seen m, (convert seen).Tidy (some s) m) : (visiting r seen convert).Tidy (some s) m := by
  unfold visiting
  split
  · exact .pure trivial
  · exact .pure trivial
  · exact .bind (converts _ m) fun _ _ _ _ => .pure trivial

theorem arrayItems_tidy (items : ∀ v seen m, (item v seen).Tidy (some s) m) {source : Value} {count index : Nat}
    {seen : Visited} {done : List NativeValue} :
    (s.arrayItems item source count index seen done).Tidy (some s) m := by
  induction count generalizing index seen done m with
  | zero => exact .pure trivial
  | succ n ih =>
    unfold arrayItems
    refine .bind (lift_gives getIndex_gives) fun v m₁ _ _ => ?_
    exact .bind (items v seen m₁) fun _ m₂ _ _ => ih

theorem arrayWith_tidy (items : ∀ v seen m, (item v seen).Tidy (some s) m) {r : Ref} {seen : Visited} :
    (s.arrayWith item r seen).Tidy (some s) m := by
  refine visiting_tidy fun seen m => ?_
  refine .bind (lift_gives get_gives) fun v m₁ _ _ => .bind numberOf_tidy fun x m₂ _ _ => ?_
  dsimp only
  split
  · exact conversion_gives
  · exact .bind (arrayItems_tidy items) fun _ _ _ _ => .pure trivial

theorem dictionaryEntries_tidy (items : ∀ v seen m, (item v seen).Tidy (some s) m) {source : Value}
    {keys : List String} {seen : Visited} {done : List (NativeValue × NativeValue)} :
    (s.dictionaryEntries item source keys seen done).Tidy (some s) m := by
  induction keys generalizing seen done m with
  | nil => exact .pure trivial
  | cons key rest ih =>
    unfold dictionaryEntries
    refine .bind (lift_gives get_gives) fun v m₁ _ _ => ?_
    exact .bind (items v seen m₁) fun _ m₂ _ _ => ih

theorem dictionaryWith_tidy (items : ∀ v seen m, (item v seen).Tidy (some s) m) {r : Ref} {seen : Visited} :
    (s.dictionaryWith item r seen).Tidy (some s) m := by
  refine visiting_tidy fun seen m => .look ?_
  exact .bind (dictionaryEntries_tidy items) fun _ _ _ _ => .pure trivial

theorem unwrapped_tidy {v : Value} : (unwrapped v).Tidy o m := by
  unfold unwrapped
  refine .look ?_
  split
  · exact .bind .hold fun _ _ _ _ => .pure trivial
  · exact .pure trivial

theorem naturalAt_tidy (room : Nat) (v : Value) (seen : Visited) (m : Machine) :
    (s.naturalAt room v seen).Tidy (some s) m := by
  induction room generalizing v seen m with
  | zero => exact .look conversion_gives
  | succ n ih =>
    unfold naturalAt
    cases v with
    | undefined | null | bool | number | text => exact .pure trivial
    | object r =>
      refine .look ?_
      split
      · exact .pure trivial
      · exact arrayWith_tidy ih
      · exact .pure trivial
      · refine .look ?_
        split
        · exact .pure trivial
        · exact conversion_gives
      · split
        · exact .pure trivial
        · exact .pure trivial
        · exact dictionaryWith_tidy ih
      · exact .bind unwrapped_tidy fun _ _ _ _ => .pure trivial
      · exact dictionaryWith_tidy ih
      · exact dictionaryWith_tidy ih
      · exact dictionaryWith_tidy ih

theorem converted_tidy {f : (Value → Visited → Conversion) → Conversion}
    (h : ∀ item, (∀ v seen m, (item v seen).Tidy (some s) m) → ∀ m, (f item).Tidy (some s) m) :
    (converted f s).Tidy (some s) m :=
  .look (.bind (h _ (naturalAt_tidy _) m) fun _ _ _ _ => .pure trivial)

theorem objectReading_tidy : s.objectReading.Tidy s where
  natural _ m := .look (.bind (naturalAt_tidy _ _ _ m) fun _ _ _ _ => .pure trivial)
  array _ _ := converted_tidy fun _ items _ => arrayWith_tidy items
  dictionary _ _ := converted_tidy fun _ items _ => dictionaryWith_tidy items

theorem toNativeAs_tidy {shape : UnwrapShape} {v : Value} : (s.toNativeAs shape v).Tidy (some s) m :=
  nativeAs_tidy objectReading_tidy

end Scope

end ScriptBridge
