import ScriptBridge.Bridge.ToNative
import ScriptBridge.Proofs.Confined.Wrappers
import ScriptBridge.Proofs.Identity
import ScriptBridge.Scope.Read

/-!
# Native bodies, and script values as native values

`Scope.runNative_yields` runs what `Invoked` allows, on known arguments. Reading an exported property or an
element sends what the table of the wrapper lists to the object that the wrapper has, so its class grants
that (`Machine.Known.wrapper`). Whatever native code gets of script values is known.

Proof-only: not reachable from `ScriptBridge.Session.Run`.
-/

namespace ScriptBridge

open Routine
open Program (UnwrapShape)

namespace Machine

variable {m : Machine} {K : Roster} {v : Value} {h : Handle} {w : WrapperData}

theorem Known.objectOf (known : m.Known K) {o : Object} (found : m.objectOf? v = some o) : o.Known K := by
  obtain ⟨r, -, ho⟩ := Option.bind_eq_some_iff.1 found
  exact known.objects r o ho

/-- A wrapper exports what the class of its object offers. -/
theorem Known.wrapper (known : m.Known K) (found : m.wrapper? v = some w) :
    K.Holds w.native ∧ w.table.Of w.native.cls := by
  obtain ⟨o, ho, found⟩ := Option.bind_eq_some_iff.1 found
  exact (known.objectOf ho).wrapper w found

/-- The live object of a wrapper is the one that it was made for. -/
theorem wrapper?_of_live (live : m.wrapperState v = .live h) : ∃ w, m.wrapper? v = some w ∧ w.native = h := by
  unfold wrapperState at live
  split at live
  · nomatch live
  · rename_i w found
    split at live
    · exact ⟨w, found, WrapperState.live.inj live⟩
    · nomatch live

theorem native_of_nativeBehind (found : m.wrapper? v = some w) (behind : m.nativeBehind? v = some h) :
    h = w.native := by
  obtain ⟨w', found', rfl⟩ := wrapper?_of_live (wrapperState_of_nativeBehind behind)
  rw [Option.some.inj (found.symm.trans found')]

theorem Known.live (known : m.Known K) (live : m.wrapperState v = .live h) : K.Holds h := by
  obtain ⟨w, found, rfl⟩ := wrapper?_of_live live
  exact (known.wrapper found).1

theorem Known.nativeBehind (known : m.Known K) (behind : m.nativeBehind? v = some h) : K.Holds h :=
  known.live (wrapperState_of_nativeBehind behind)

theorem Known.functionPayload (known : m.Known K) {f : FunctionData} (found : m.payload? v = some (.function f)) :
    f.callable.Known K := by
  obtain ⟨o, ho, payload⟩ := Option.map_eq_some_iff.1 found
  exact (known.objectOf ho).function f (by rw [Object.function?, payload])

theorem Known.classBehind (known : m.Known K) {c : Class} (behind : m.classBehind? v = some c) : K.Has c := by
  unfold classBehind? at behind
  split at behind
  · rename_i function
    obtain rfl := Option.some.inj behind
    exact (known.callable function).1
  · cases behind

end Machine

namespace Scope

variable {ε α : Type} {s : Scope} {o : Option AnyJob} {K : Roster} {Q : Roster → α → Prop}

/-! ## Native bodies -/

/-- A native body that may be run. -/
theorem runNative_yields {body : Program.Body} {receiver : Receiver} {args : List NativeValue}
    (invoked : Invoked body args o receiver) (serves : K.Serves receiver) (knows : ∀ v ∈ args, K.Knows v) :
    (runNative body receiver args).YieldsKnown o K := by
  refine fun _ _ => ⟨⟨invoked, serves, knows⟩, fun result m₁ K₁ _ _ gives => ?_⟩
  dsimp only
  split
  · exact gives _ rfl _ rfl
  · trivial
  · trivial

/-- An operation that the class of an object grants. -/
theorem send_yields {h : Handle} {selector : Selector} {args : List NativeValue} (holds : K.Holds h)
    (grants : h.cls.Grants .onInstance selector args.length) (knows : ∀ v ∈ args, K.Knows v) :
    (send h selector args).YieldsKnown o K := by
  unfold send
  split
  · exact .throw
  · rename_i runs
    exact .holding (runNative_yields (.onInstance runs grants) holds knows)

theorem checkSignature_confined {method : ExportedMethod} : (checkSignature method).Confined o K := by
  unfold checkSignature
  split
  · exact .ret
  · exact .throw

/-! ## Arguments -/

theorem mismatch_yields {expected : String} {v : Value} : (mismatch expected v : Routine Fault α).Yields o K Q :=
  .look fun _ _ => .throw

theorem notAnObject_yields {target : String} {v : Value} : (notAnObject target v : Routine Fault α).Yields o K Q :=
  .look fun _ _ => .throw

/-- A routine gives a native value without classes and objects. -/
theorem plain {v : NativeValue} (plain : v.receivers = []) : (pure v : Routine ε NativeValue).YieldsKnown o K :=
  .pure (.plain plain)

theorem known_nativeDate {millis : Double} {nanos : Nat} : K.Knows (nativeDate millis nanos) := by
  unfold nativeDate
  split
  · exact .plain rfl
  · exact .plain rfl

end Scope

/-- Reading objects gives known values. -/
structure ObjectReading.Yields (objects : ObjectReading) (o : Option AnyJob) : Prop where
  natural : ∀ r K, (objects.natural r).YieldsKnown o K
  array : ∀ r K, (objects.array r).YieldsKnown o K
  dictionary : ∀ r K, (objects.dictionary r).YieldsKnown o K

theorem ObjectReading.primitive_yields (o : Option AnyJob) : ObjectReading.primitive.Yields o :=
  ⟨fun _ _ => Scope.plain rfl, fun _ _ => Scope.plain rfl, fun _ _ => Scope.plain rfl⟩

namespace Scope

variable {ε α : Type} {s : Scope} {o : Option AnyJob} {K : Roster} {Q : Roster → α → Prop} {objects : ObjectReading}

theorem naturally_yields (reading : objects.Yields o) {v : Value} : (naturally objects v).YieldsKnown o K := by
  unfold naturally
  split
  · exact plain rfl
  · exact plain rfl
  · exact plain rfl
  · exact plain rfl
  · exact plain rfl
  · exact reading.natural _ K

theorem nativeAs_yields (reading : objects.Yields o) {shape : UnwrapShape} {v : Value} :
    (s.nativeAs objects shape v).YieldsKnown o K := by
  unfold nativeAs
  cases shape with
  | any | object => exact naturally_yields reading
  | bool => exact plain rfl
  | number | double | int32 | uint32 => exact .bind numberOf_confined fun _ _ _ _ => plain rfl
  | string =>
    dsimp only
    split
    · exact plain rfl
    · exact .bind textOf_confined fun _ _ _ _ => plain rfl
  | date =>
    refine .look fun _ _ => ?_
    split
    · exact plain rfl
    · exact plain rfl
    · exact .pure known_nativeDate
    · exact .pure known_nativeDate
    · exact mismatch_yields
  | array =>
    cases v with
    | undefined | null => exact plain rfl
    | object r => exact reading.array r K
    | bool | number | text => exact notAnObject_yields
  | dictionary =>
    cases v with
    | undefined | null => exact plain rfl
    | object r => exact reading.dictionary r K
    | bool | number | text => exact notAnObject_yields
  | data =>
    refine .look fun _ _ => ?_
    split
    · exact plain rfl
    · exact plain rfl
    · refine .look fun _ _ => ?_
      split
      · exact plain rfl
      · exact .throw
    · exact mismatch_yields
  | closure =>
    refine .look fun _ _ => ?_
    split
    · exact plain rfl
    · exact plain rfl
    · exact plain rfl
    · exact mismatch_yields

theorem objectArgument_yields (reading : objects.Yields o) {className : String} {v : Value} :
    (s.objectArgument objects className v).YieldsKnown o K := by
  unfold objectArgument
  split
  · exact nativeAs_yields reading
  · refine .bind (naturally_yields reading) fun converted K₁ _ knows => ?_
    split
    · split
      · exact .pure knows
      · exact mismatch_yields
    · exact .pure knows

theorem argumentOf_yields (reading : objects.Yields o) {declared : Encoding} {v : Value} :
    (s.argumentOf objects declared v).YieldsKnown o K := by
  unfold argumentOf
  cases declared with
  | void | bool => exact plain rfl
  | float | double => exact .bind numberOf_confined fun _ _ _ _ => plain rfl
  | longLong | ulongLong =>
    refine .bind numberOf_confined fun x _ _ _ => ?_
    dsimp only
    split
    all_goals
      split
      · exact mismatch_yields
      · exact plain rfl
  | uchar | ushort | uint | ulong | char | short | int | long | cstring | closure => exact nativeAs_yields reading
  | object className =>
    cases className with
    | none => exact naturally_yields reading
    | some className => exact objectArgument_yields reading
  | classRef =>
    refine .look fun m known => ?_
    split
    · rename_i behind
      exact .pure (Roster.knows_classRef.2 (known.classBehind behind))
    · split
      · exact plain rfl
      · exact mismatch_yields
  | selector =>
    dsimp only
    split
    · exact plain rfl
    · exact .bind textOf_confined fun _ _ _ _ => plain rfl
  | scriptValue => exact .bind (.perform trivial) fun _ _ _ _ => plain rfl
  | pointer | struct | carray | unknown => exact .throw

/-- As many arguments as there are both types and values. -/
theorem arguments_yields (reading : objects.Yields o) {declared : List Encoding} {vs : List Value} :
    (s.arguments objects declared vs).Yields o K fun K' args =>
      args.length = min declared.length vs.length ∧ ∀ v ∈ args, K'.Knows v := by
  have each (e : Encoding) (v : Value) (K' : Roster) : (do
      let converted ← s.argumentOf objects e v
      hold converted
      return converted).YieldsKnown o K' :=
    .bind (argumentOf_yields reading) fun v K₁ _ knows => .bind .hold fun _ K₂ le _ => .pure (knows.mono le)
  rw [← List.length_zip]
  exact .mapM (fun _ _ _ le knows => knows.mono le) fun b _ K' _ => each b.1 b.2 K'

/-! ## Reading properties -/

variable {m : Machine} {w : WrapperData} {holder : Ref}

/-- The getter of a property that the wrapper at hand exports. -/
theorem exportedGet_confined {p : PropertyDeclaration} (known : m.Known K)
    (found : m.wrapper? (.object holder) = some w)
    (listed : p ∈ w.table.properties) : (s.exportedGet holder p).YieldsFrom o m K fun _ _ => True := by
  obtain ⟨holds, of⟩ := known.wrapper found
  unfold exportedGet
  refine .check (.look known ?_)
  split
  · trivial
  · rename_i behind
    obtain rfl := Machine.native_of_nativeBehind found behind
    have sent : (send w.native p.getter []).YieldsKnown o K := send_yields holds (of.properties p listed).getter nofun
    refine Yields.holding (.bind sent fun v K₁ _ knows => .bind .hold fun _ K₂ le _ => ?_) m known
    exact resultOf_confined (knows.mono le)

/-- The subscript method that the wrapper at hand exports, with all its arguments. -/
theorem exportedSubscript_confined (reading : objects.Yields o) {method : ExportedMethod} {value : Option Value}
    {index : Nat} (known : m.Known K) (found : m.wrapper? (.object holder) = some w)
    (offers : w.native.cls.Offers .onInstance method) (arity : method.selector.arity = value.toList.length + 1) :
    (s.exportedSubscript objects holder method value index).YieldsFrom o m K fun _ _ => True := by
  obtain ⟨holds, of⟩ := known.wrapper found
  have takes : method.signature.args.length = value.toList.length + 1 :=
    ((K.fits _ holds.has).arity offers).trans arity
  unfold exportedSubscript
  refine .check (.look known ?_)
  split
  · trivial
  · rename_i behind
    obtain rfl := Machine.native_of_nativeBehind found behind
    refine Yields.holding (.bind (.holding (arguments_yields reading)) fun args K₁ le₁ ends => ?_) m known
    refine .bind (.forM fun _ _ _ _ => .hold) fun _ K₂ le₂ _ => ?_
    have grants : w.native.cls.Grants .onInstance method.selector args.length := by
      have length := ends.1
      rw [takes, List.length_append, List.length_singleton, Nat.min_self] at length
      rw [length, ← arity]
      exact offers.grants
    have sent : (send w.native method.selector args).YieldsKnown o K₂ :=
      send_yields ((holds.mono le₁).mono le₂) grants fun v mem => (ends.2 v mem).mono le₂
    exact .bind sent fun v K₃ _ knows => .bind .hold fun _ K₄ le₄ _ => resultOf_confined (knows.mono le₄)

theorem raising_confined {r : Routine Fault α} (known : m.Known K) (h : r.YieldsFrom o m K Q) :
    (s.raising r).YieldsFrom o m K Q := by
  unfold raising
  refine .bind known h.attempt fun result K₁ _ ends => ?_
  cases result with
  | ok a => exact .pure (ends a rfl)
  | error fault => exact .bind raise_confined fun _ _ _ _ => .throw

/-- A name that a wrapper's table has belongs to one of the properties listed there. -/
theorem wrapper_of_property {key : String} {p : PropertyDeclaration} {found? : Option WrapperData}
    (found : found?.bind (·.table.property? key) = some p) : ∃ w, found? = some w ∧ p ∈ w.table.properties := by
  obtain ⟨w, hw, found⟩ := Option.bind_eq_some_iff.1 found
  exact ⟨w, hw, List.mem_of_find?_eq_some found⟩

theorem get_confined {target : Value} {key : String} : (s.get target key).Confined o K := by
  unfold get
  cases target with
  | object r =>
    refine .lookAt fun m known => ?_
    split
    · rename_i found
      obtain ⟨w, hw, listed⟩ := wrapper_of_property found
      exact .bind known (raising_confined known (exportedGet_confined known hw listed)) fun _ _ _ _ => tracked_confined
    · exact getOrdinary_confined m known
  | undefined | null => exact throwType_yields
  | text t =>
    dsimp only
    split
    · exact .ret
    · split
      · exact .ret
      · exact .look fun _ _ => getOrdinary_confined
  | bool | number => exact .look fun _ _ => getOrdinary_confined

theorem getIndex_confined {target : Value} {index : Nat} : (s.getIndex target index).Confined o K := by
  unfold getIndex
  refine .lookAt fun m known => ?_
  split
  · rename_i method r found
    obtain ⟨w, hw, getter⟩ := Option.bind_eq_some_iff.1 found
    obtain ⟨offers, selector⟩ := (known.wrapper hw).2.indexGetter method getter
    have arity : method.selector.arity = (none : Option Value).toList.length + 1 := by
      rw [selector]
      decide
    have run : (s.exportedSubscript .primitive r method none index).YieldsFrom o m K fun _ _ => True :=
      exportedSubscript_confined (ObjectReading.primitive_yields o) known hw offers arity
    exact .bind known (raising_confined known run) fun _ _ _ _ => tracked_confined
  · refine Yields.look (fun _ _ => ?_) m known
    split
    · exact tracked_confined
    · exact get_confined

/-! ## Natural values -/

end Scope

/-- The collections that a conversion is done with are known. -/
def Roster.Saw (K : Roster) (seen : Visited) : Prop := ∀ e ∈ seen, ∀ v, e.2 = some v → K.Knows v

theorem Roster.saw_nil {K : Roster} : K.Saw [] := fun _ mem => nomatch mem

theorem Roster.Saw.mono {K K' : Roster} {seen : Visited} (saw : K.Saw seen) (le : K ≤ K') : K'.Saw seen :=
  fun e mem v done => (saw e mem v done).mono le

/-- A conversion gives a known value, and knows the collections that it is done with. -/
abbrev Conversion.Yields (c : Conversion) (o : Option AnyJob) (K : Roster) : Prop :=
  Routine.Yields o c K fun K' r => K'.Knows r.1 ∧ K'.Saw r.2

namespace Scope

variable {s : Scope} {o : Option AnyJob} {K : Roster} {item : Value → Visited → Conversion} {seen : Visited}

theorem visiting_yields {r : Ref} {convert : Visited → Conversion} (saw : K.Saw seen)
    (converts : ∀ seen, K.Saw seen → (convert seen).Yields o K) : (visiting r seen convert).Yields o K := by
  unfold visiting
  split
  · rename_i v found
    exact .pure ⟨saw _ (List.mem_of_find?_eq_some found) _ rfl, saw⟩
  · exact .pure ⟨.plain rfl, saw⟩
  · have started : K.Saw ((r, none) :: seen) := by
      intro e mem v done
      rcases List.mem_cons.1 mem with rfl | mem
      · nomatch done
      · exact saw e mem v done
    refine .bind (converts _ started) fun result K₁ _ ends => .pure ⟨ends.1, fun e mem v done => ?_⟩
    rcases List.mem_cons.1 mem with rfl | mem
    · exact Option.some.inj done ▸ ends.1
    · exact ends.2 e (List.mem_filter.1 mem).1 v done

/-- How the conversions of this section treat what lies inside. -/
def Converts (o : Option AnyJob) (item : Value → Visited → Conversion) : Prop :=
  ∀ v seen K, K.Saw seen → (item v seen).Yields o K

theorem arrayItems_yields (items : Converts o item) {source : Value} {count index : Nat} {done : List NativeValue}
    (saw : K.Saw seen) (knows : ∀ v ∈ done, K.Knows v) : (s.arrayItems item source count index seen done).Yields o K
      fun K' r => (∀ v ∈ r.1, K'.Knows v) ∧ K'.Saw r.2 := by
  induction count generalizing index seen done K with
  | zero => exact .pure ⟨fun v mem => knows v (List.mem_reverse.1 mem), saw⟩
  | succ n ih =>
    unfold arrayItems
    refine .bind (lift_yields getIndex_confined) fun v K₁ le₁ _ => ?_
    refine .bind (items v seen K₁ (saw.mono le₁)) fun result K₂ le₂ ends => ih ends.2 fun w mem => ?_
    rcases List.mem_cons.1 mem with rfl | mem
    · exact ends.1
    · exact ((knows w mem).mono le₁).mono le₂

theorem arrayWith_yields (items : Converts o item) {r : Ref} (saw : K.Saw seen) :
    (s.arrayWith item r seen).Yields o K := by
  refine visiting_yields saw fun seen saw => ?_
  refine .bind (lift_yields get_confined) fun v K₁ le₁ _ => .bind numberOf_confined fun x K₂ le₂ _ => ?_
  dsimp only
  split
  · exact .throw
  · refine .bind (arrayItems_yields items ((saw.mono le₁).mono le₂) nofun) fun result K₃ _ ends => ?_
    exact .pure ⟨Roster.knows_array.2 ends.1, ends.2⟩

theorem dictionaryEntries_yields (items : Converts o item) {source : Value} {keys : List String}
    {done : List (NativeValue × NativeValue)} (saw : K.Saw seen) (knows : ∀ e ∈ done, K.Knows e.1 ∧ K.Knows e.2) :
    (s.dictionaryEntries item source keys seen done).Yields o K
      fun K' r => (∀ e ∈ r.1, K'.Knows e.1 ∧ K'.Knows e.2) ∧ K'.Saw r.2 := by
  induction keys generalizing seen done K with
  | nil => exact .pure ⟨fun e mem => knows e (List.mem_reverse.1 mem), saw⟩
  | cons key rest ih =>
    unfold dictionaryEntries
    refine .bind (lift_yields get_confined) fun v K₁ le₁ _ => ?_
    refine .bind (items v seen K₁ (saw.mono le₁)) fun result K₂ le₂ ends => ih ends.2 fun e mem => ?_
    rcases List.mem_cons.1 mem with rfl | mem
    · exact ⟨.plain rfl, ends.1⟩
    · exact ⟨((knows e mem).1.mono le₁).mono le₂, ((knows e mem).2.mono le₁).mono le₂⟩

theorem dictionaryWith_yields (items : Converts o item) {r : Ref} (saw : K.Saw seen) :
    (s.dictionaryWith item r seen).Yields o K := by
  refine visiting_yields saw fun seen saw => .look fun _ _ => ?_
  refine .bind (dictionaryEntries_yields items saw nofun) fun result K₁ _ ends => ?_
  exact .pure ⟨Roster.knows_dictionary.2 ends.1, ends.2⟩

theorem unwrapped_yields {v : Value} : (unwrapped v).YieldsKnown o K := by
  unfold unwrapped
  refine .look fun m known => ?_
  split
  · rename_i behind
    refine .bind .hold fun _ K₁ le _ => .pure ?_
    exact Roster.knows_object.2 ((known.nativeBehind behind).mono le)
  · exact plain rfl

theorem naturalAt_yields (room : Nat) : Converts o (s.naturalAt room) := by
  induction room with
  | zero => exact fun _ _ _ _ => .look fun _ _ => .throw
  | succ n ih =>
    intro v seen K saw
    have known {v : NativeValue} (knows : K.Knows v) : Conversion.Yields (pure (v, seen)) o K := .pure ⟨knows, saw⟩
    unfold naturalAt
    cases v with
    | undefined | null | bool | number | text => exact known (.plain rfl)
    | object r =>
      refine .look fun m knownMachine => ?_
      split
      · exact known (.plain rfl)
      · exact arrayWith_yields ih saw
      · exact known known_nativeDate
      · refine .look fun _ _ => ?_
        split
        · exact known (.plain rfl)
        · exact .throw
      · rename_i f found
        split
        · exact known (.plain rfl)
        · rename_i does
          have callable := knownMachine.functionPayload found
          rw [does] at callable
          exact known (Roster.knows_classRef.2 callable.1)
        · exact dictionaryWith_yields ih saw
      · exact .bind unwrapped_yields fun v K₁ le knows => .pure ⟨knows, saw.mono le⟩
      · exact dictionaryWith_yields ih saw
      · exact dictionaryWith_yields ih saw
      · exact dictionaryWith_yields ih saw

theorem converted_yields {f : (Value → Visited → Conversion) → Conversion}
    (h : ∀ item, Converts o item → (f item).Yields o K) : (converted f s).YieldsKnown o K :=
  .look fun _ _ => .bind (h _ (naturalAt_yields _)) fun _ _ _ ends => .pure ends.1

theorem objectReading_yields : s.objectReading.Yields o where
  natural _ K := .look fun _ _ => .bind (naturalAt_yields _ _ _ K Roster.saw_nil) fun _ _ _ ends => .pure ends.1
  array _ _ := converted_yields fun _ items => arrayWith_yields items Roster.saw_nil
  dictionary _ _ := converted_yields fun _ items => dictionaryWith_yields items Roster.saw_nil

theorem toNativeAs_yields {shape : UnwrapShape} {v : Value} : (s.toNativeAs shape v).YieldsKnown o K :=
  nativeAs_yields objectReading_yields

end Scope

end ScriptBridge
