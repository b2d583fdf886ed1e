import ScriptBridge.Script.Object

/-!
# What edits leave alone

An edit changes the property under one key, the items of an array or the prototype of an object, and
nothing else of it.

* `Properties.get?_insert`, `Properties.get?_erase_of_ne`: what becomes of the other properties.
* `Object.get?_edit_of_ne`, `Object.payload_edit`: what an edit leaves alone.

Proof-only: not reachable from `ScriptBridge.Session.Run`.
-/

namespace ScriptBridge

namespace Properties

variable {ps : Properties} {key k : String} {p q : Property}

/-- A stored property is under its key, and the others are where they were. -/
theorem get?_insert (ps : Properties) (key : String) (p : Property) (k : String) :
    (ps.insert key p).get? k = if k = key then some p else ps.get? k := by
  induction ps with
  | nil => simp [insert, get?, eq_comm]
  | cons entry rest ih =>
    obtain ⟨name, q⟩ := entry
    unfold insert
    by_cases here : name = key
    · subst here
      by_cases same : k = name
      · simp [get?, same]
      · simp [get?, same, Ne.symm same]
    · by_cases same : k = name
      · subst same
        simp [get?, here]
      · simp [get?, here, Ne.symm same, ih]

/-- Where keys are different, each property is the one under its key. -/
theorem get?_of_mem {e : String × Property} (nodup : (ps.map (·.1)).Nodup) (mem : e ∈ ps) :
    ps.get? e.1 = some e.2 := by
  induction ps with
  | nil => nomatch mem
  | cons head rest ih =>
    obtain ⟨name, q⟩ := head
    obtain ⟨fresh, nodup⟩ := List.nodup_cons.1 nodup
    rcases List.mem_cons.1 mem with rfl | mem
    · simp [get?]
    · have listed : e.1 ∈ rest.map (·.1) := List.mem_map_of_mem mem
      have other : name ≠ e.1 := fun same => fresh (by rwa [← same] at listed)
      unfold get?
      rw [if_neg other]
      exact ih nodup mem

/-- Storing adds the key at the end, unless it is there. -/
theorem keys_insert (ps : Properties) (key : String) (p : Property) : (ps.insert key p).map (·.1) =
    if key ∈ ps.map (·.1) then ps.map (·.1) else ps.map (·.1) ++ [key] := by
  induction ps with
  | nil => rfl
  | cons head rest ih =>
    obtain ⟨name, q⟩ := head
    unfold insert
    by_cases here : name = key
    · simp [here]
    · simp only [here, if_false, List.map_cons, ih, List.mem_cons, Ne.symm here, false_or]
      split <;> rfl

theorem nodup_insert (nodup : (ps.map (·.1)).Nodup) (key : String) (p : Property) :
    ((ps.insert key p).map (·.1)).Nodup := by
  rw [keys_insert]
  split
  · exact nodup
  · rename_i new
    exact List.nodup_append.2 ⟨nodup, List.pairwise_singleton _ key, fun k hk l hl same =>
      new (List.mem_singleton.1 hl ▸ same ▸ hk)⟩

/-- Where keys are different, a removed one is gone, and the others are in their order. -/
theorem keys_erase (nodup : (ps.map (·.1)).Nodup) (key : String) :
    (ps.erase key).map (·.1) = (ps.map (·.1)).filter (· != key) := by
  induction ps with
  | nil => rfl
  | cons head rest ih =>
    obtain ⟨name, q⟩ := head
    obtain ⟨fresh, nodup⟩ := List.nodup_cons.1 nodup
    unfold erase
    by_cases here : name = key
    · subst here
      have all : ∀ k ∈ rest.map (·.1), (k != name) = true := fun k hk => bne_iff_ne.2 fun same => fresh (same ▸ hk)
      rw [if_pos rfl, List.map_cons, List.filter_cons_of_neg (by simp), List.filter_eq_self.2 all]
    · rw [if_neg here, List.map_cons, List.map_cons, List.filter_cons_of_pos (by simpa using here), ih nodup]

theorem nodup_erase (nodup : (ps.map (·.1)).Nodup) (key : String) : ((ps.erase key).map (·.1)).Nodup := by
  rw [keys_erase nodup]
  exact nodup.filter _

/-- Removing a property leaves the others where they were. -/
theorem get?_erase_of_ne (ps : Properties) (other : k ≠ key) : (ps.erase key).get? k = ps.get? k := by
  induction ps with
  | nil => rfl
  | cons entry rest ih =>
    obtain ⟨name, q⟩ := entry
    unfold erase
    by_cases here : name = key
    · subst here
      simp [get?, Ne.symm other]
    · simp only [here, if_false, get?, ih]

theorem eq_or_mem_of_mem_insert {e : String × Property} (mem : e ∈ ps.insert key p) : e = (key, p) ∨ e ∈ ps := by
  induction ps with
  | nil => exact .inl (List.mem_singleton.1 mem)
  | cons entry rest ih =>
    obtain ⟨name, q⟩ := entry
    unfold insert at mem
    split at mem
    · rename_i here
      exact (List.mem_cons.1 mem).imp (·.trans (by rw [here])) (List.mem_cons_of_mem _)
    · rcases List.mem_cons.1 mem with rfl | mem
      · exact .inr List.mem_cons_self
      · exact (ih mem).imp_right (List.mem_cons_of_mem _)

theorem erase_sublist (ps : Properties) (key : String) : (ps.erase key).Sublist ps := by
  induction ps with
  | nil => exact .slnil
  | cons entry rest ih =>
    obtain ⟨name, q⟩ := entry
    unfold erase
    split
    · exact List.sublist_cons_self ..
    · exact ih.cons_cons _

end Properties

/-- The key of the property that an edit stores or removes. -/
def Edit.key? : Edit → Option String
  | .define key _ => some key
  | .store key _ => some key
  | .remove key => some key
  | .storeItem .. | .clearItem _ | .resize _ | .setPrototype _ => none

namespace Object

variable {o : Object} {e : Edit} {k : String}

theorem properties_editItems (o : Object) (f : Array Value → Array Value) :
    (o.editItems f).properties = o.properties := by
  obtain ⟨payload, properties, prototype⟩ := o
  cases payload <;> rfl

/-- Only arrays have something that an edit changes apart from properties and prototype. -/
theorem payload_edit (plain : o.isArray = false) (e : Edit) : (o.edit e).payload = o.payload := by
  cases e with
  | define | store | remove | setPrototype => rfl
  | storeItem | clearItem | resize =>
    obtain ⟨payload, properties, prototype⟩ := o
    cases payload with
    | array items => nomatch plain
    | ordinary | function | error | date | regexp | buffer | wrapper => rfl

/-- No edit makes an array of an object, or something else of an array. -/
theorem isArray_edit (o : Object) (e : Edit) : (o.edit e).isArray = o.isArray := by
  cases e with
  | define | store | remove | setPrototype => rfl
  | storeItem | clearItem | resize =>
    obtain ⟨payload, properties, prototype⟩ := o
    cases payload <;> rfl

/-- An edit changes the property under its key only. -/
theorem get?_edit_of_ne (other : e.key? ≠ some k) : (o.edit e).properties.get? k = o.properties.get? k := by
  cases e with
  | define key p =>
    have other : k ≠ key := fun same => other (congrArg some same.symm)
    exact (Properties.get?_insert ..).trans (if_neg other)
  | store key v =>
    have other : k ≠ key := fun same => other (congrArg some same.symm)
    exact (Properties.get?_insert ..).trans (if_neg other)
  | remove key => exact Properties.get?_erase_of_ne _ fun same => other (congrArg some same.symm)
  | setPrototype => rfl
  | storeItem | clearItem | resize => rw [edit, properties_editItems]

/-- An edit that does not remove a property leaves one under its key. -/
theorem isSome_get?_edit (there : (o.properties.get? k).isSome = true) (stays : e ≠ .remove k) :
    ((o.edit e).properties.get? k).isSome = true := by
  by_cases other : e.key? = some k
  · cases e with
    | define key p =>
      have stored := Properties.get?_insert o.properties key p k
      rw [if_pos (Option.some.inj other).symm] at stored
      exact Option.isSome_iff_exists.2 ⟨p, stored⟩
    | store key v =>
      have stored := Properties.get?_insert o.properties key (.store (o.properties.get? key) v) k
      rw [if_pos (Option.some.inj other).symm] at stored
      exact Option.isSome_iff_exists.2 ⟨_, stored⟩
    | remove key => exact absurd (congrArg Edit.remove (Option.some.inj other)) stays
    | setPrototype | storeItem | clearItem | resize => nomatch other
  · rw [get?_edit_of_ne other]
    exact there

end Object

end ScriptBridge
