import ScriptBridge.Bridge.ToScript
import ScriptBridge.Proofs.Confined.Values

/-!
# Templates and wrappers

The template of a known class is that of the class itself, with what the class exports
(`Scope.templateFor_yields`), so a wrapper exports what the class of its object offers. Known native
values become script values without making anything else.

Proof-only: not reachable from `ScriptBridge.Session.Run`.
-/

namespace ScriptBridge

/-- A template of the scope's context is known. -/
theorem Machine.Known.template {m : Machine} {K : Roster} {s : Scope} {t : Template} (known : m.Known K)
    (mem : t ∈ (m.scopeContext s).templates) : t.Known K := by
  unfold scopeContext at mem
  cases hc : m.context? s.context with
  | none =>
    rw [hc] at mem
    nomatch mem
  | some c =>
    rw [hc] at mem
    exact known.templates _ c hc t mem

namespace Scope

open Routine

variable {ε α : Type} {s : Scope} {o : Option AnyJob} {K : Roster} {Q : Roster → α → Prop}

/-! ## Failures -/

theorem lift_yields {r : Routine Thrown α} (h : r.Yields o K Q) : (liftM r : Routine Fault α).Yields o K Q := h.mapError

theorem exceptionField_confined {r : Ref} {key : String} :
    (s.exceptionField r key : Routine ε String).Confined o K := by
  unfold exceptionField
  refine .bind getOrdinary_confined.attempt fun result _ _ _ => ?_
  split
  · exact .ret
  · exact .ret
  · exact textOf_confined

theorem capture_confined {t : Thrown} : (s.capture t : Routine ε BridgeException).Confined o K := by
  unfold capture
  refine .look fun _ _ => ?_
  split
  · refine .bind exceptionField_confined fun _ _ _ _ => .bind exceptionField_confined fun _ _ _ _ => ?_
    exact .read fun _ _ => trivial
  · exact .bind textOf_confined fun _ _ _ _ => .read fun _ _ => trivial

theorem raise_confined {fault : Fault} : (s.raise fault : Routine ε Thrown).Confined o K := by
  unfold raise
  split
  · exact .ret
  · exact .bind newNativeError_confined fun _ _ _ _ => .ret
  · split
    · exact .bind newNativeError_confined fun _ _ _ _ => .ret
    · exact .bind newError_confined fun _ _ _ _ => .ret
  · exact .bind newError_confined fun _ _ _ _ => .ret

theorem raising_yields {r : Routine Fault α} (h : r.Yields o K Q) : (s.raising r).Yields o K Q := by
  unfold raising
  refine .bind h.attempt fun result K₁ _ ends => ?_
  cases result with
  | ok a => exact .pure (ends a rfl)
  | error fault => exact .bind raise_confined fun _ _ _ _ => .throw

theorem report_confined {e : BridgeException} : (report e : Routine ε Unit).Confined o K :=
  .perform fun _ known => { known with }

theorem settle_yields {empty : α} {r : Routine Fault α} (h : r.Yields o K Q) (plain : ∀ K', Q K' empty) :
    (s.settle empty r).Yields o K Q := by
  unfold settle
  refine .bind h.attempt fun result K₁ _ ends => ?_
  split
  · exact .pure (ends _ rfl)
  · exact .throw
  · refine .bind capture_confined fun e K₂ _ _ => .look fun _ _ => ?_
    split
    · exact .throw
    · exact .bind report_confined fun _ K₃ _ _ => .pure (plain K₃)

/-! ## Templates -/

theorem defineMethods_confined {on : Ref} {methods : List ExportedMethod} {callable : ExportedMethod → Callable}
    (known : ∀ method ∈ methods, (callable method).Known K) : (s.defineMethods on methods callable).Confined o K :=
  .forM fun method mem _ le =>
    .bind (newFunction_confined ((known method mem).mono le)) fun _ _ _ _ => edit_confined

/-- A template that is built exports what its class offers. -/
theorem buildTemplate_yields {cls : Class} {table : ExportTable} {parent : Option Template} (has : K.Has cls)
    (of : table.Of cls) (exports : cls.Exports) :
    (s.buildTemplate cls table parent).Yields o K fun K' t => t.cls = cls ∧ t.Known K' := by
  unfold buildTemplate
  refine .look fun _ _ => .bind (store_confined List.nodup_nil rfl rfl) fun prototype K₁ le₁ _ => ?_
  refine .bind (defineMethods_confined fun m mem => ⟨has.mono le₁, of.instanceMethods m mem⟩) fun _ K₂ le₂ _ => ?_
  have has₂ : K₂.Has cls := (has.mono le₁).mono le₂
  refine .bind (newFunctionWith_confined ⟨has₂, of⟩) fun constructor K₃ le₃ _ => ?_
  have has₃ : K₃.Has cls := has₂.mono le₃
  refine .bind (defineMethods_confined fun m mem => ⟨has₃, of.classMethods m mem⟩) fun _ K₄ le₄ _ => ?_
  have known {K' : Roster} (le : K₄ ≤ K') : Template.Known K' ⟨cls, table, constructor, prototype⟩ :=
    ⟨(has₃.mono le₄).mono le, of, exports⟩
  exact .bind (.perform (known (Roster.le_refl _))) fun _ K₅ le₅ _ => .pure ⟨rfl, known le₅⟩

/-- The template of a known class is known. -/
theorem templateFor_yields (cls : Class) (K : Roster) (has : K.Has cls) :
    (s.templateFor cls).Yields o K fun K' t => t.cls = cls ∧ t.Known K' := by
  have exports {cls : Class} {parent : Option Template} {K : Roster} (has : K.Has cls)
      (above : ∀ super, cls.superclass = some super → super.Exports) :
      (s.exportTemplate cls parent).Yields o K fun K' t => t.cls = cls ∧ t.Known K' := by
    unfold exportTemplate
    split
    · exact .throw
    · rename_i built
      refine buildTemplate_yields has (ExportTable.build_of built) fun a mem => ?_
      rcases Class.mem_ancestors_iff.1 mem with rfl | ⟨super, is, mem⟩
      · rw [built]
        rfl
      · exact above super is a mem
  obtain ⟨id, key, name, superclass, protocols, instanceMethods, classMethods, factory⟩ := cls
  unfold templateFor
  refine .look fun m known => ?_
  split
  · rename_i t found
    -- Whoever has the identity of the class is the class.
    have same : t.cls.id = id := by simpa using List.find?_some found
    have old := known.template (List.mem_of_find?_eq_some found)
    exact .pure ⟨old.has.eq_of_id has same, old⟩
  · cases superclass with
    | none => exact exports has nofun
    | some superclass =>
      have above : superclass ∈ Class.ancestors ⟨id, key, name, some superclass, protocols, instanceMethods,
          classMethods, factory⟩ :=
        Class.mem_ancestors_iff.2 (.inr ⟨superclass, rfl, superclass.mem_ancestors_self⟩)
      refine .bind (templateFor_yields superclass K (has.ancestor above)) fun parent K₁ le made => exports (has.mono le) ?_
      intro super is
      obtain rfl : superclass = super := Option.some.inj is
      exact made.1 ▸ made.2.exports
termination_by structural cls

/-! ## Wrappers -/

/-- The wrapper of an object exports what its class offers. -/
theorem wrapperFor_confined {h : Handle} (holds : K.Holds h) : (s.wrapperFor h).Confined o K := by
  unfold wrapperFor
  refine .look fun _ _ => ?_
  split
  · exact tracked_confined
  · refine .bind (templateFor_yields h.cls K holds.has) fun t K₁ le made => ?_
    obtain ⟨same, known⟩ := made
    have wrapper : Object.Known K₁ ⟨.wrapper ⟨h, h.cls.name, t.table, s.context⟩, [], some t.prototype⟩ := by
      refine ⟨List.nodup_nil, nofun, fun w hw => ?_, fun w hw => ?_⟩
      · obtain rfl := Option.some.inj hw
        exact ⟨holds.mono le, same ▸ known.table⟩
      · obtain rfl := Option.some.inj hw
        exact same ▸ known.exports
    exact .bind (.perform wrapper) fun _ _ _ _ => .ret

theorem functionFor_confined {c : Closure} : (s.functionFor c).Confined o K := by
  unfold functionFor
  refine .look fun _ _ => ?_
  split
  · exact tracked_confined
  · split
    · exact .throw
    · refine .look fun _ _ => .bind (.perform ?_) fun _ _ _ _ => .ret
      exact known_functionObject trivial

/-! ## Native values as script values -/

theorem managedValue_confined {id : Nat} : (managedValue id : Routine ε (Option Value)).Confined o K := by
  unfold managedValue
  refine .look fun _ _ => ?_
  split
  · exact tracked_confined
  · exact .ret

mutual

/-- A known value becomes a script value. -/
theorem toScriptAt_confined (v : NativeValue) (depth : Nat) (K : Roster) (knows : K.Knows v) :
    (s.toScriptAt depth v).Confined o K := by
  unfold toScriptAt
  refine .look fun _ _ => ?_
  split
  · exact .throw
  · cases v with
    | nil | null | bool | number | text | selector => exact .ret
    | array items =>
      refine .bind (itemsToScript_confined items depth #[] K (Roster.knows_array.1 knows)) fun _ _ _ _ => ?_
      exact newArray_confined
    | dictionary entries =>
      refine .bind newObject_confined fun object K₁ le _ => ?_
      split
      · refine .bind (entriesToScript_confined entries depth _ K₁ fun e mem => ?_) fun _ _ _ _ => .ret
        exact (Roster.knows_dictionary.1 knows e mem).2.mono le
      · exact .ret
    | date t => exact newDate_confined
    | data bytes =>
      dsimp only
      split
      · exact newBuffer_confined
      · exact .throw
    | closure c => exact functionFor_confined
    | object h => exact wrapperFor_confined (Roster.knows_object.1 knows)
    | classRef c => exact .bind (templateFor_yields c K (Roster.knows_classRef.1 knows)) fun _ _ _ _ => tracked_confined
    | script token =>
      cases token with
      | managed id => exact .bind managedValue_confined fun _ _ _ _ => .ret
      | foreign id => exact .throw

theorem itemsToScript_confined (items : List NativeValue) (depth : Nat) (done : Array Value) (K : Roster)
    (knows : ∀ v ∈ items, K.Knows v) : (s.itemsToScript depth done items).Confined o K := by
  unfold itemsToScript
  cases items with
  | nil => exact .ret
  | cons item rest =>
    refine .bind (toScriptAt_confined item (depth + 1) K (knows item List.mem_cons_self)) fun v K₁ le _ => ?_
    exact itemsToScript_confined rest depth _ K₁ fun w mem => (knows w (List.mem_cons_of_mem _ mem)).mono le

theorem entriesToScript_confined (entries : List (NativeValue × NativeValue)) (depth : Nat) (r : Ref) (K : Roster)
    (knows : ∀ e ∈ entries, K.Knows e.2) : (s.entriesToScript depth r entries).Confined o K := by
  unfold entriesToScript
  cases entries with
  | nil => exact .ret
  | cons entry rest =>
    have knowsRest : ∀ e ∈ rest, K.Knows e.2 := fun e mem => knows e (List.mem_cons_of_mem entry mem)
    obtain ⟨key, item⟩ := entry
    cases key with
    | text key =>
      refine .bind (toScriptAt_confined item (depth + 1) K (knows _ List.mem_cons_self)) fun v K₁ le₁ _ => ?_
      refine .bind (lift_yields setOrdinary_confined) fun _ K₂ le₂ _ => ?_
      exact entriesToScript_confined rest depth r K₂ fun e mem => ((knowsRest e mem).mono le₁).mono le₂
    | _ => exact entriesToScript_confined rest depth r K knowsRest

end

theorem toScript_confined {v : NativeValue} (knows : K.Knows v) : (s.toScript v).Confined o K :=
  toScriptAt_confined v 0 K knows

theorem resultOf_confined {declared : Encoding} {v : NativeValue} (knows : K.Knows v) :
    (s.resultOf declared v).Confined o K := by
  unfold resultOf
  split
  · exact .ret
  · exact .ret
  · split
    · exact .ret
    · exact toScript_confined knows
  · exact toScript_confined knows

end Scope

end ScriptBridge
