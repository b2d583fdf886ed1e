import ScriptBridge.Proofs.Encodings

/-!
# Noise between types

A text may have runs of offsets and qualifiers before, between and after the types that it lists, and mostly none is
needed: a printed type ends where the next one begins. Only an `@` takes in a `?` that follows at once.

* `Encoding.endsBefore_spaced`: before which of them a printed type ends.
* `Encoding.readChars_spaced`, `Encoding.reads_spaced`: a text has the types that are printed in it, if and only if a run
  keeps each such `?` off.

Proof-only: not reachable from `ScriptBridge.Session.Run`.
-/

namespace ScriptBridge

namespace Encoding

variable {c : Char} {before : String} {run rest cs tail : List Char} {e : Encoding} {parts : List (Encoding × String)}

/-! ## Runs -/

/-- Digits, and the letters of qualifiers. -/
def IsRun (run : String) : Prop := ∀ c ∈ run.toList, c.isDigit = true ∨ c ∈ "rnNoOR".toList

theorem isNoise_iff : isNoise c = true ↔ c.isDigit = true ∨ c ∈ "rnNoOR".toList := by
  simp [isNoise, Char.isDigit, UInt32.le_iff_toNat_le, Char.le_def, or_assoc]

theorem readChars_append (noise : ∀ c ∈ run, isNoise c = true) : readChars (run ++ cs) = readChars cs := by
  induction run with
  | nil => rfl
  | cons c run ih =>
    obtain ⟨first, others⟩ := List.forall_mem_cons.1 noise
    rw [List.cons_append, readChars, if_pos first]
    exact ih others

/-! ## Where types end -/

/-- The printed form ends with an `@` that nothing belongs to. -/
def EndsBare : Encoding → Prop
  | pointer target => target.EndsBare
  | object none => True
  | _ => False

/-- A printed type begins with no noise, and with nothing that would belong to the type before it, unless it is `?`. -/
theorem text_eq_cons (e : Encoding) : ∃ c cs, e.text.toList = c :: cs ∧ isNoise c = false ∧ c ≠ '"' ∧ c ≠ '<' ∧
    (c = '?' ↔ e = unknown) := by
  cases e with
  | pointer target => exact ⟨'^', target.text.toList, by simp [text], by simp [isNoise]⟩
  | object className =>
    cases className with
    | none => exact ⟨'@', [], rfl, by decide⟩
    | some name => exact ⟨'@', '"' :: (name.toList ++ ['"']), by simp [text], by simp [isNoise]⟩
  | struct tag => exact ⟨'\x7b', tag.toList ++ ['\x7d'], by simp [text], by simp [isNoise]⟩
  | carray body => exact ⟨'[', body.toList ++ [']'], by simp [text], by simp [isNoise]⟩
  | closure => exact ⟨'@', ['?'], rfl, by decide⟩
  | _ => exact ⟨_, [], rfl, by decide⟩

/-- What a bare `@` and a `?` are is no object. -/
theorem next_text_bare (bare : e.EndsBare) (chars : e.text.toList = c :: cs) :
    next c (cs ++ '?' :: rest) ≠ .ok (e, tail) := by
  induction e generalizing c cs tail with
  | pointer target ih =>
    obtain ⟨d, ds, inner, quiet, -⟩ := target.text_eq_cons
    obtain ⟨rfl, rfl⟩ : '^' = c ∧ d :: ds = cs := by simpa [text, inner] using chars
    rw [next, if_pos rfl, List.cons_append, afterCaret_cons quiet]
    intro given
    obtain ⟨p, first, is⟩ := map_eq_ok.1 given
    cases is
    exact ih bare inner first
  | object className =>
    cases className with
    | some name => exact bare.elim
    | none =>
      obtain ⟨rfl, rfl⟩ : '@' = c ∧ [] = cs := by simpa [text] using chars
      change afterAt ('?' :: rest) ≠ _
      intro given
      unfold afterAt at given
      split at given
      · obtain ⟨p, -, is⟩ := map_eq_ok.1 given
        cases is
      · cases given
      · rename_i same
        cases same
      · rename_i noClosure _
        exact absurd rfl (noClosure rest)
  | _ => exact bare.elim

/-! ## Types in a text -/

/-- The text of some types, each with what stands between it and the next one. -/
def spacedChars : List (Encoding × String) → List Char
  | [] => []
  | (e, run) :: parts => e.text.toList ++ (run.toList ++ spacedChars parts)

/-- The text of some types, with what stands before them, and between each and the next one. -/
def spaced (before : String) (parts : List (Encoding × String)) : String :=
  before ++ String.join (parts.map fun part => part.1.text ++ part.2)

theorem toList_spaced : (spaced before parts).toList = before.toList ++ spacedChars parts := by
  unfold spaced
  rw [String.toList_append]
  congr 1
  induction parts with
  | nil => rfl
  | cons part parts ih => simp [spacedChars, ← ih]

/-- A `?` does not follow a bare `@` at once. -/
def Apart (part next : Encoding × String) : Prop := part.1.EndsBare → next.1 = unknown → part.2 ≠ ""

/-- What comes after a type begins with noise or with another type. -/
theorem head?_spaced {run : String} (noise : IsRun run) (first : c ∈ (run.toList ++ spacedChars parts).head?) :
    c ≠ '"' ∧ c ≠ '<' ∧ (c = '?' ↔ run = "" ∧ ∃ part ∈ parts.head?, part.1 = unknown) := by
  rcases chars : run.toList with - | ⟨d, ds⟩
  · obtain rfl : run = "" := String.toList_eq_nil_iff.1 chars
    cases parts with
    | nil => cases first
    | cons part parts =>
      obtain ⟨d, ds, begins, -, noQuote, noList, asks⟩ := part.1.text_eq_cons
      obtain rfl : d = c := by simpa [spacedChars, begins] using first
      exact ⟨noQuote, noList, by simpa using asks⟩
  · obtain rfl : d = c := by simpa [chars] using first
    have isRun := noise d (chars ▸ List.mem_cons_self)
    have nonempty : run ≠ "" := by
      rintro rfl
      cases chars
    refine ⟨?_, ?_, ?_⟩
    · rintro rfl
      revert isRun
      decide
    · rintro rfl
      revert isRun
      decide
    · refine iff_of_false ?_ fun h => nonempty h.1
      rintro rfl
      revert isRun
      decide

/-- A printed type ends before noise and before every other type, but a bare `@` not before a `?`. -/
theorem endsBefore_spaced {run : String} (noise : IsRun run) :
    e.EndsBefore (run.toList ++ spacedChars parts) ↔ ∀ part ∈ parts.head?, Apart (e, run) part := by
  induction e with
  | pointer target ih => exact ih
  | object className =>
    cases className with
    | some name => exact iff_of_true trivial fun _ _ => nofun
    | none =>
      constructor
      · rintro ends part first - asks rfl
        obtain ⟨d, ds, begins, -, -, -, is⟩ := part.1.text_eq_cons
        obtain ⟨rest, rfl⟩ := List.head?_eq_some_iff.1 first
        exact (ends d (by simp [spacedChars, begins])).1 (is.2 asks)
      · intro apart c first
        obtain ⟨noQuote, -, asks⟩ := head?_spaced noise first
        refine ⟨fun same => ?_, noQuote⟩
        obtain ⟨empty, part, next, is⟩ := asks.1 same
        exact apart part next trivial is empty
  | closure => exact iff_of_true (fun c first => (head?_spaced noise first).2.1) fun _ _ => nofun
  | _ => exact iff_of_true trivial fun _ _ => nofun

theorem isChain_apart {part : Encoding × String} : (part :: parts).IsChain Apart ↔
    (∀ next ∈ parts.head?, Apart part next) ∧ parts.IsChain Apart := by
  cases parts with
  | nil => simp
  | cons next parts => simp [List.isChain_cons_cons]

/-- The types that are printed are read one by one, as long as each ends before the next. -/
theorem readChars_spaced (spelled : ∀ part ∈ parts, part.1.Spelled ∧ part.1.TagCloses)
    (noise : ∀ part ∈ parts, IsRun part.2) :
    readChars (spacedChars parts) = .ok (parts.map (·.1)) ↔ parts.IsChain Apart := by
  induction parts with
  | nil => simp [spacedChars, readChars]
  | cons part parts ih =>
    obtain ⟨e, run⟩ := part
    obtain ⟨⟨spelledFirst, closes⟩, spelledRest⟩ := List.forall_mem_cons.1 spelled
    obtain ⟨noiseFirst, noiseRest⟩ := List.forall_mem_cons.1 noise
    have others := ih spelledRest noiseRest
    rw [isChain_apart, ← endsBefore_spaced noiseFirst, ← others]
    obtain ⟨c, cs, chars, quiet, -⟩ := e.text_eq_cons
    rw [spacedChars, chars, List.cons_append, readChars_cons quiet]
    by_cases ends : e.EndsBefore (run.toList ++ spacedChars parts)
    · obtain ⟨c', cs', chars', -, first⟩ := next_text_append spelledFirst closes ends
      obtain ⟨rfl, rfl⟩ := List.cons.inj (chars.symm.trans chars')
      have skipped : readChars (run.toList ++ spacedChars parts) = readChars (spacedChars parts) :=
        readChars_append fun c mem => isNoise_iff.2 (noiseFirst c mem)
      rw [first]
      change (readChars _).map _ = _ ↔ _
      rw [skipped, map_eq_ok]
      simp [ends]
    · -- Then the type is an `@`, perhaps behind pointers, and a `?` follows.
      refine iff_of_false (fun read => ?_) fun h => ends h.1
      rw [endsBefore_spaced noiseFirst] at ends
      simp only [Apart, not_forall, Decidable.not_not] at ends
      obtain ⟨next, follows, bare, asks, empty⟩ := ends
      obtain ⟨rest, rfl⟩ := List.head?_eq_some_iff.1 follows
      have begins : run.toList ++ spacedChars (next :: rest) = '?' :: (next.2.toList ++ spacedChars rest) := by
        rw [spacedChars, asks, empty]
        rfl
      rw [begins] at read
      rcases first : Encoding.next c (cs ++ '?' :: (next.2.toList ++ spacedChars rest)) with fault | ⟨t, tail⟩
      · rw [first] at read
        cases read
      · rw [first] at read
        obtain ⟨es, -, is⟩ := map_eq_ok.1 read
        obtain ⟨rfl, -⟩ := List.cons.inj is
        exact next_text_bare bare chars first

/-- Runs of digits and of the letters of qualifiers do not matter, wherever they stand among printed types, and only
between a bare `@` and a `?` there has to be one. So a method encoding gives its result and arguments, decorated or
not. -/
theorem reads_spaced (spelled : ∀ part ∈ parts, part.1.Spelled ∧ part.1.TagCloses) (leading : IsRun before)
    (noise : ∀ part ∈ parts, IsRun part.2) :
    (readAll (spaced before parts) = .ok (parts.map (·.1)) ↔ parts.IsChain Apart) ∧
      ∀ result receiver args, parts.map (·.1) = result :: receiver :: selector :: args →
        Signature.isReceiver receiver = true → parts.IsChain Apart →
          Signature.readMethod (spaced before parts) = .ok ⟨result, args⟩ := by
  have reads : readAll (spaced before parts) = .ok (parts.map (·.1)) ↔ parts.IsChain Apart := by
    rw [readAll, toList_spaced, readChars_append fun c mem => isNoise_iff.2 (leading c mem)]
    exact readChars_spaced spelled noise
  refine ⟨reads, fun result receiver args are receives apart => ?_⟩
  unfold Signature.readMethod
  rw [reads.2 apart, are]
  simp [bind, Except.bind, receives]

/-- A method that takes an object, a `?` and a pointer, in the order of its frame. -/
theorem reads_spaced_framed : Signature.readMethod "rd32@0:8@16?24N^\x7bA\x7d" =
    .ok ⟨double, [object none, unknown, pointer (struct "A")]⟩ := by
  let parts : List (Encoding × String) := [(double, "32"), (object none, "0"), (selector, "8"), (object none, "16"),
    (unknown, "24N"), (pointer (struct "A"), "")]
  have spelled : ∀ part ∈ parts, part.1.Spelled ∧ part.1.TagCloses := by
    simp [parts, Spelled, TagCloses, closes_other, closes_nil]
  have noise : ∀ part ∈ parts, IsRun part.2 := by simp [parts, IsRun]
  have leading : IsRun "r" := by simp [IsRun]
  have apart : parts.IsChain Apart := by simp [parts, Apart, List.isChain_cons_cons]
  exact (reads_spaced spelled leading noise).2 double (object none) _ rfl rfl apart

end Encoding

end ScriptBridge
