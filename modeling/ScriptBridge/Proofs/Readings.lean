import ScriptBridge.Proofs.Confined.Session
import ScriptBridge.Proofs.Definitions
import ScriptBridge.Proofs.Inquiry

/-!
# What a conversion reads

A conversion enters a collection when it meets it first, and reads it then. What it reads may run getters, which change
the collections as they like. The table of the conversion says all the same which collections it has entered, and which
it has left.

* `Mark.Follows`: what may happen after some marks. `Orderly`: all marks of a run do.
* `Tracks`: the table of a conversion agrees with the marks. `Lengthens`: the marks that a part of a conversion adds.
* `Inquiry.natural_meets`: every part of a conversion keeps both.
* `ReadsOnce`: nothing is read twice, and what is met again contributes what it gave.
* `Inquiry.natural_marks`: the last mark of a collection's conversion says what it contributes to the value around it.
* `Session.collections_read_once`: it is so for the conversion of any value at any point of a session, and the
  conversion comes to an end if what it reads does.

Proof-only: not reachable from `ScriptBridge.Session.Run`.
-/

namespace ScriptBridge

open Routine

/-! ## Marks -/

variable {h h' h'' : List Mark} {r q : Ref} {v w : NativeValue} {x : Reading} {k : Mark}

/-- A collection was entered and not left. -/
def Pending (h : List Mark) (r : Ref) : Prop := .entered r ∈ h ∧ ∀ v, .left r v ∉ h

/-- What may happen after some marks: a collection is entered once, left once, and read in between, each part of it
once. Where it is met it contributes the value that it was left with, and nil before that. -/
def Mark.Follows (h : List Mark) : Mark → Prop
  | .entered r => .entered r ∉ h
  | .read x => Pending h x.collection ∧ .read x ∉ h
  | .left r _ => Pending h r
  | .met r v => .left r v ∈ h ∨ Pending h r ∧ v = .nil

/-- Each mark follows those before it. -/
def Orderly : List Mark → Prop
  | [] => True
  | k :: h => k.Follows h ∧ Orderly h

namespace Orderly

/-- Only what was entered is read, -/
theorem entered_of_read (orderly : Orderly h) (read : .read x ∈ h) : .entered x.collection ∈ h := by
  induction h with
  | nil => nomatch read
  | cons k h ih =>
    refine List.mem_cons_of_mem k ?_
    rcases List.mem_cons.1 read with rfl | before
    · exact orderly.1.1.1
    · exact ih orderly.2 before

/-- and left. -/
theorem entered_of_left (orderly : Orderly h) (left : .left r v ∈ h) : .entered r ∈ h := by
  induction h with
  | nil => nomatch left
  | cons k h ih =>
    refine List.mem_cons_of_mem k ?_
    rcases List.mem_cons.1 left with rfl | before
    · exact orderly.1.1
    · exact ih orderly.2 before

/-- A mark follows those before it. -/
theorem follows {later earlier : List Mark} (orderly : Orderly (later ++ k :: earlier)) : k.Follows earlier := by
  induction later with
  | nil => exact orderly.1
  | cons _ later ih => exact ih orderly.2

/-- What is left gives one value. -/
theorem left_unique (orderly : Orderly h) (first : .left r v ∈ h) (second : .left r w ∈ h) : v = w := by
  induction h with
  | nil => nomatch first
  | cons k h ih =>
    rcases List.mem_cons.1 first with rfl | before
    · rcases List.mem_cons.1 second with same | before'
      · exact (Mark.left.inj same).2.symm
      · exact absurd before' (orderly.1.2 w)
    · rcases List.mem_cons.1 second with rfl | before'
      · exact absurd before (orderly.1.2 v)
      · exact ih orderly.2 before before'

end Orderly

theorem pending_read : Pending (.read x :: h) r ↔ Pending h r := by simp [Pending]

theorem pending_met : Pending (.met q v :: h) r ↔ Pending h r := by simp [Pending]

theorem pending_entered (orderly : Orderly h) (new : .entered r ∉ h) : Pending (.entered r :: h) r :=
  ⟨List.mem_cons_self, fun _ mem => new (orderly.entered_of_left ((List.mem_cons.1 mem).resolve_left nofun))⟩

theorem pending_entered_of_ne (other : q ≠ r) : Pending (.entered r :: h) q ↔ Pending h q := by simp [Pending, other]

theorem pending_left_of_ne (other : q ≠ r) : Pending (.left r v :: h) q ↔ Pending h q := by simp [Pending, other]

/-! ## The table and the marks -/

/-- The table of a conversion says what was entered, and what became of it. -/
structure Tracks (seen : Visited) (h : List Mark) : Prop where
  orderly : Orderly h
  known : ∀ r, .entered r ∈ h → ∃ state, (r, state) ∈ seen
  inside : ∀ r, (r, none) ∈ seen → Pending h r
  done : ∀ r v, (r, some v) ∈ seen → .left r v ∈ h

/-- The marks that a part of a conversion adds: it leaves what it enters, and reads nothing else, but for what is its
own. -/
structure Lengthens (own : Ref → Prop) (h h' : List Mark) : Prop where
  adds : h <:+ h'
  reads : ∀ x, .read x ∈ h' → .read x ∈ h ∨ own x.collection ∨ .entered x.collection ∉ h
  inside : ∀ r, Pending h' r ↔ Pending h r

namespace Lengthens

variable {own : Ref → Prop}

theorem refl (own : Ref → Prop) (h : List Mark) : Lengthens own h h :=
  ⟨List.suffix_refl h, fun _ read => .inl read, fun _ => Iff.rfl⟩

theorem trans (first : Lengthens own h h') (next : Lengthens own h' h'') : Lengthens own h h'' where
  adds := first.adds.trans next.adds
  reads x read := by
    rcases next.reads x read with read | own | new
    · exact first.reads x read
    · exact .inr (.inl own)
    · exact .inr (.inr fun entered => new (first.adds.subset entered))
  inside r := (next.inside r).trans (first.inside r)

/-- What may be read of its own may be more. -/
theorem imp {own' : Ref → Prop} (weaker : ∀ r, own r → own' r) (continues : Lengthens own h h') :
    Lengthens own' h h' where
  adds := continues.adds
  reads x read := (continues.reads x read).imp_right (Or.imp_left (weaker _))
  inside := continues.inside

theorem read (mine : own x.collection) : Lengthens own h (.read x :: h) where
  adds := List.suffix_cons ..
  reads y read := by
    rcases List.mem_cons.1 read with same | before
    · exact .inr (.inl (Mark.read.inj same ▸ mine))
    · exact .inl before
  inside _ := pending_read

theorem after (continues : Lengthens own (.read x :: h) h') (mine : own x.collection) : Lengthens own h h' :=
  (read mine).trans continues

/-- A value is read, it is converted, and the conversion goes on. -/
theorem goesOn (continues : Lengthens (fun _ => False) (.read x :: h) h') (mine : own x.collection)
    (rest : Lengthens own h' h'') : Lengthens own h h'' := ((continues.imp fun _ => False.elim).trans rest).after mine

theorem met : Lengthens own h (.met r v :: h) where
  adds := List.suffix_cons ..
  reads _ read := .inl ((List.mem_cons.1 read).resolve_left nofun)
  inside _ := pending_met

/-- What a collection reads of its own between its begin and its end, it reads of a collection that is new. -/
theorem visited (continues : Lengthens (· = r) (.entered r :: h) h') (new : .entered r ∉ h) (v : NativeValue) :
    Lengthens (fun _ => False) h (.left r v :: h') where
  adds := ((List.suffix_cons ..).trans continues.adds).trans (List.suffix_cons ..)
  reads x read := by
    rcases continues.reads x ((List.mem_cons.1 read).resolve_left nofun) with before | own | outside
    · exact .inl ((List.mem_cons.1 before).resolve_left nofun)
    · exact .inr (.inr (own ▸ new))
    · exact .inr (.inr fun entered => outside (List.mem_cons_of_mem _ entered))
  inside q := by
    by_cases same : q = r
    · subst same
      exact ⟨fun inside => absurd List.mem_cons_self (inside.2 v), fun inside => absurd inside.1 new⟩
    · rw [pending_left_of_ne same, continues.inside, pending_entered_of_ne same]

/-- What was not read of a collection, and is not read next, is still not read when a value inside is converted. -/
theorem unread {y : Reading} (continues : Lengthens (fun _ => False) (.read x :: h) h')
    (inside : Pending h y.collection) (other : y ≠ x) (new : .read y ∉ h) : .read y ∉ h' := by
  intro read
  rcases continues.reads y read with before | never | outside
  · rcases List.mem_cons.1 before with same | before
    · exact other (Mark.read.inj same)
    · exact new before
  · exact never
  · exact outside (List.mem_cons_of_mem _ inside.1)

end Lengthens

namespace Tracks

variable {seen : Visited}

theorem nil : Tracks [] [] := ⟨trivial, nofun, nofun, nofun⟩

theorem read (tracks : Tracks seen h) (inside : Pending h x.collection) (new : .read x ∉ h) :
    Tracks seen (.read x :: h) where
  orderly := ⟨⟨inside, new⟩, tracks.orderly⟩
  known r entered := tracks.known r ((List.mem_cons.1 entered).resolve_left nofun)
  inside r mem := pending_read.2 (tracks.inside r mem)
  done r v mem := List.mem_cons_of_mem _ (tracks.done r v mem)

theorem met (tracks : Tracks seen h) (follows : Mark.Follows h (.met r v)) : Tracks seen (.met r v :: h) where
  orderly := ⟨follows, tracks.orderly⟩
  known q entered := tracks.known q ((List.mem_cons.1 entered).resolve_left nofun)
  inside q mem := pending_met.2 (tracks.inside q mem)
  done q w mem := List.mem_cons_of_mem _ (tracks.done q w mem)

/-- A collection that is in the table in no way was not entered. -/
theorem entered (tracks : Tracks seen h) (new : .entered r ∉ h) : Tracks ((r, none) :: seen) (.entered r :: h) where
  orderly := ⟨new, tracks.orderly⟩
  known q entered := by
    rcases List.mem_cons.1 entered with same | before
    · exact ⟨none, List.mem_cons.2 (.inl (Mark.entered.inj same ▸ rfl))⟩
    · obtain ⟨state, mem⟩ := tracks.known q before
      exact ⟨state, List.mem_cons_of_mem _ mem⟩
  inside q mem := by
    rcases List.mem_cons.1 mem with same | mem
    · obtain rfl : q = r := congrArg Prod.fst same
      exact pending_entered tracks.orderly new
    · have before := tracks.inside q mem
      have other : q ≠ r := by
        rintro rfl
        exact new before.1
      exact (pending_entered_of_ne other).2 before
  done q w mem := List.mem_cons_of_mem _ (tracks.done q w ((List.mem_cons.1 mem).resolve_left nofun))

/-- A collection is left with a value. -/
theorem left (tracks : Tracks seen h) (inside : Pending h r) (v : NativeValue) :
    Tracks ((r, some v) :: seen.filter (·.1 != r)) (.left r v :: h) where
  orderly := ⟨inside, tracks.orderly⟩
  known q entered := by
    by_cases same : q = r
    · exact ⟨some v, List.mem_cons.2 (.inl (same ▸ rfl))⟩
    · obtain ⟨state, mem⟩ := tracks.known q ((List.mem_cons.1 entered).resolve_left nofun)
      exact ⟨state, List.mem_cons_of_mem _ (List.mem_filter.2 ⟨mem, bne_iff_ne.2 same⟩)⟩
  inside q mem := by
    obtain ⟨mem, other⟩ := List.mem_filter.1 ((List.mem_cons.1 mem).resolve_left nofun)
    exact (pending_left_of_ne (bne_iff_ne.1 other)).2 (tracks.inside q mem)
  done q w mem := by
    rcases List.mem_cons.1 mem with same | mem
    · cases same
      exact List.mem_cons_self
    · exact List.mem_cons_of_mem _ (tracks.done q w (List.mem_filter.1 mem).1)

end Tracks

/-! ## The marks of a run -/

namespace Inquiry

variable {α β : Type} {s : Scope} {job : Runner} {m : Machine} {Q Q' : α → List Mark → Machine → Prop}

/-- The marks of a run after some earlier ones, newest first. -/
def marks (s : Scope) (job : Runner) : Inquiry α → List Mark → Machine → List Mark
  | .pure _, h, _ | fail _, h, _ => h
  | ask q next, h, m =>
    match (q.routine s).exec job m with
    | (.done a, m) => (next a).marks s job (q.note h) m
    | (.thrown _, _) | (.panicked _, _) | (.exhausted, _) => q.note h
  | mark k next, h, m => next.marks s job (k :: h) m

/-- All marks of a run follow those before them. What the run gives fits the marks and the machine that it leaves. -/
def Meets (s : Scope) (job : Runner) : Inquiry α → List Mark → Machine → (α → List Mark → Machine → Prop) → Prop
  | .pure a, h, m, Q => Q a h m
  | fail _, _, _, _ => True
  | ask q next, h, m, Q => Orderly (q.note h) ∧
      ∀ a m', (q.routine s).exec job m = (.done a, m') → (next a).Meets s job (q.note h) m' Q
  | mark k next, h, m, Q => k.Follows h ∧ next.Meets s job (k :: h) m Q

namespace Meets

theorem orderly {w : Inquiry α} (meets : w.Meets s job h m Q) (before : Orderly h) : Orderly (w.marks s job h m) := by
  induction w generalizing h m with
  | pure | fail => exact before
  | ask q next ih =>
    unfold marks
    split
    · rename_i a m' answer
      exact ih a (meets.2 a m' answer) meets.1
    all_goals exact meets.1
  | mark k next ih => exact ih meets.2 ⟨meets.1, before⟩

theorem imp {w : Inquiry α} (meets : w.Meets s job h m Q) (weaker : ∀ a h' m', Q a h' m' → Q' a h' m') :
    w.Meets s job h m Q' := by
  induction w generalizing h m with
  | pure a => exact weaker a h m meets
  | fail => trivial
  | ask q next ih => exact ⟨meets.1, fun a m' answer => ih a (meets.2 a m' answer)⟩
  | mark k next ih => exact ⟨meets.1, ih meets.2⟩

theorem bind {w : Inquiry α} {f : α → Inquiry β} {R : β → List Mark → Machine → Prop} (meets : w.Meets s job h m Q)
    (next : ∀ a h' m', Q a h' m' → (f a).Meets s job h' m' R) : (w >>= f).Meets s job h m R := by
  change (w.bind f).Meets s job h m R
  induction w generalizing h m with
  | pure a => exact next a h m meets
  | fail => trivial
  | ask q rest ih => exact ⟨meets.1, fun a m' answer => ih a (meets.2 a m' answer)⟩
  | mark k rest ih => exact ⟨meets.1, ih meets.2⟩

end Meets

/-! ## The conversion -/

/-- Queries keep a machine good, and the keys of a good machine are different. -/
structure Keeps (s : Scope) (job : Runner) (Good : Machine → Prop) : Prop where
  query : ∀ {β : Type} (q : Query β) m, Good m → Good ((q.routine s).exec job m).2
  keys : ∀ m r o, Good m → m.object? r = some o → o.isArray = false → o.keys.Nodup

variable {Good : Machine → Prop} {seen : Visited} {item : Value → Visited → Part}

/-- A part of a conversion leaves a table that tracks the marks, and a good machine. -/
def Passes (Good : Machine → Prop) (own : Ref → Prop) (h : List Mark) (p : α × Visited) (h' : List Mark) (m : Machine) :
    Prop :=
  Tracks p.2 h' ∧ Lengthens own h h' ∧ Good m

/-- How the values inside a collection are converted. -/
def Converts (s : Scope) (job : Runner) (Good : Machine → Prop) (item : Value → Visited → Part) : Prop :=
  ∀ v seen h m, Tracks seen h → Good m → (item v seen).Meets s job h m (Passes Good (fun _ => False) h)

/-- A collection is converted where it is met first. -/
theorem visiting_meets {convert : Visited → Part} (tracks : Tracks seen h) (good : Good m)
    (converts : ∀ seen h', Tracks seen h' → Pending h' r → (∀ x, x.collection = r → .read x ∉ h') →
      (convert seen).Meets s job h' m (Passes Good (· = r) h')) :
    (visiting r seen convert).Meets s job h m (Passes Good (fun _ => False) h) := by
  unfold visiting
  cases found : seen.find? (·.1 == r) with
  | some entry =>
    obtain ⟨q, state⟩ := entry
    have mem := List.mem_of_find?_eq_some found
    obtain rfl : q = r := by simpa using List.find?_some found
    cases state with
    | none =>
      have follows : Mark.Follows h (.met q .nil) := .inr ⟨tracks.inside q mem, rfl⟩
      exact ⟨follows, tracks.met follows, .met, good⟩
    | some v =>
      have follows : Mark.Follows h (.met q v) := .inl (tracks.done q v mem)
      exact ⟨follows, tracks.met follows, .met, good⟩
  | none =>
    -- All that was entered is in the table, so nothing of this collection was read.
    have new : .entered r ∉ h := by
      intro entered
      obtain ⟨state, mem⟩ := tracks.known r entered
      exact List.find?_eq_none.1 found _ mem (beq_self_eq_true r)
    have unread (x : Reading) (of : x.collection = r) : .read x ∉ Mark.entered r :: h := fun read =>
      new (of ▸ tracks.orderly.entered_of_read ((List.mem_cons.1 read).resolve_left nofun))
    refine ⟨new, (converts _ _ (tracks.entered new) (pending_entered tracks.orderly new) unread).bind ?_⟩
    rintro ⟨v, seen'⟩ h₂ m₂ ⟨tracks₂, continues, good₂⟩
    have inside := (continues.inside r).2 (pending_entered tracks.orderly new)
    exact ⟨inside, tracks₂.left inside v, continues.visited new v, good₂⟩

section

variable (keeps : Keeps s job Good)

include keeps

theorem good_of_answer {q : Query β} {a : β} {m' : Machine} (good : Good m)
    (answer : (q.routine s).exec job m = (.done a, m')) : Good m' := by
  have kept := keeps.query q m good
  rwa [answer] at kept

/-- Something is read of a collection. -/
theorem read_meets {q : Query β} {next : β → Inquiry α} (notes : q.note h = .read x :: h) (tracks : Tracks seen h)
    (good : Good m) (inside : Pending h x.collection) (new : .read x ∉ h)
    (rest : ∀ a m', (q.routine s).exec job m = (.done a, m') → Tracks seen (.read x :: h) → Good m' →
      (next a).Meets s job (.read x :: h) m' Q) : (ask q next).Meets s job h m Q := by
  have after := tracks.read inside new
  unfold Meets
  rw [notes]
  exact ⟨after.orderly, fun a m' answer => rest a m' answer after (good_of_answer keeps good answer)⟩

/-- A value of a collection is read, it is converted, and the conversion goes on. What else was not read of the
collection is not read meanwhile. -/
theorem element_meets {q : Query Value} {next : NativeValue × Visited → Inquiry (α × Visited)}
    (notes : q.note h = .read x :: h) (converts : Converts s job Good item) (tracks : Tracks seen h) (good : Good m)
    (inside : Pending h x.collection) (new : .read x ∉ h)
    (rest : ∀ p h' m', Tracks p.2 h' → Good m' → Pending h' x.collection →
      (∀ y, y.collection = x.collection → y ≠ x → .read y ∉ h → .read y ∉ h') →
      (next p).Meets s job h' m' (Passes Good (· = x.collection) h')) :
    (ask q fun v => item v seen >>= next).Meets s job h m (Passes Good (· = x.collection) h) := by
  refine read_meets keeps notes tracks good inside new fun v m₁ _ tracks₁ good₁ => ?_
  refine (converts v seen _ m₁ tracks₁ good₁).bind fun p h₂ m₂ ⟨tracks₂, continues, good₂⟩ => ?_
  have inside₂ := (continues.inside x.collection).2 (pending_read.2 inside)
  refine (rest p h₂ m₂ tracks₂ good₂ inside₂ fun y same other unread => ?_).imp ?_
  · exact continues.unread (same.symm ▸ inside) other unread
  · rintro p' h₃ m₃ ⟨tracks₃, rest, good₃⟩
    exact ⟨tracks₃, continues.goesOn rfl rest, good₃⟩

/-- One item after another is read. -/
theorem items_meets (converts : Converts s job Good item) (count index : Nat) {done : List NativeValue}
    (tracks : Tracks seen h) (good : Good m) (inside : Pending h r) (new : ∀ i, index ≤ i → .read (.item r i) ∉ h) :
    (items item r count index seen done).Meets s job h m (Passes Good (· = r) h) := by
  induction count generalizing index seen done h m with
  | zero => exact ⟨tracks, .refl _ h, good⟩
  | succ n ih =>
    have first : .read (.item r index) ∉ h := new index (Nat.le_refl _)
    refine element_meets (x := .item r index) keeps rfl converts tracks good inside first
      fun p h' m' tracks' good' inside' unread => ?_
    refine ih (index + 1) tracks' good' inside' fun i later => ?_
    have other : Reading.item r i ≠ .item r index := by simp; omega
    exact unread (.item r i) rfl other (new i (Nat.le_of_succ_le later))

/-- One property after another is read. -/
theorem entries_meets (converts : Converts s job Good item) {keys : List String}
    {done : List (NativeValue × NativeValue)} (distinct : keys.Nodup) (tracks : Tracks seen h) (good : Good m)
    (inside : Pending h r) (new : ∀ key ∈ keys, .read (.entry r key) ∉ h) :
    (entries item r keys seen done).Meets s job h m (Passes Good (· = r) h) := by
  induction keys generalizing seen done h m with
  | nil => exact ⟨tracks, .refl _ h, good⟩
  | cons key rest ih =>
    obtain ⟨absent, distinct⟩ := List.nodup_cons.1 distinct
    have first : .read (.entry r key) ∉ h := new key List.mem_cons_self
    refine element_meets (x := .entry r key) keeps rfl converts tracks good inside first
      fun p h' m' tracks' good' inside' unread => ?_
    refine ih distinct tracks' good' inside' fun key' mem => ?_
    have other : Reading.entry r key' ≠ .entry r key := fun same => absent ((Reading.entry.inj same).2 ▸ mem)
    exact unread (.entry r key') rfl other (new key' (List.mem_cons_of_mem key mem))

theorem array_meets (converts : Converts s job Good item) (tracks : Tracks seen h) (good : Good m) :
    (array item r seen).Meets s job h m (Passes Good (fun _ => False) h) := by
  refine visiting_meets tracks good fun seen h' tracks' inside unread => ?_
  refine read_meets keeps rfl tracks' good inside (unread _ rfl) fun length m₁ _ tracks₁ good₁ => ?_
  dsimp only
  split
  · trivial
  · have new (i : Nat) (_ : 0 ≤ i) : .read (.item r i) ∉ Mark.read (.length r) :: h' := fun read =>
      unread (.item r i) rfl ((List.mem_cons.1 read).resolve_left nofun)
    refine (items_meets keeps converts length 0 tracks₁ good₁ (pending_read.2 inside) new).bind ?_
    rintro p h₂ m₂ ⟨tracks₂, continues, good₂⟩
    exact ⟨tracks₂, continues.after rfl, good₂⟩

theorem dictionary_meets (converts : Converts s job Good item) (tracks : Tracks seen h) (good : Good m)
    (plain : ∀ o, m.object? r = some o → o.isArray = false) :
    (dictionary item r seen).Meets s job h m (Passes Good (fun _ => False) h) := by
  refine visiting_meets tracks good fun seen h' tracks' inside unread => ?_
  refine read_meets keeps rfl tracks' good inside (unread _ rfl) fun keys m₁ answer tracks₁ good₁ => ?_
  -- The keys are those of the machine that was asked, and no array is converted by its keys.
  have distinct : keys.Nodup := by
    obtain rfl : ((m.object? r).map Object.keys).getD [] = keys := Outcome.done.inj (congrArg Prod.fst answer)
    cases found : m.object? r with
    | none => exact List.nodup_nil
    | some o => exact keeps.keys m r o good found (plain o found)
  have new (key : String) (_ : key ∈ keys) : .read (.entry r key) ∉ Mark.read (.keys r) :: h' := fun read =>
    unread (.entry r key) rfl ((List.mem_cons.1 read).resolve_left nofun)
  refine (entries_meets keeps converts distinct tracks₁ good₁ (pending_read.2 inside) new).bind ?_
  rintro p h₂ m₂ ⟨tracks₂, continues, good₂⟩
  exact ⟨tracks₂, continues.after rfl, good₂⟩

/-- A query for something else. -/
theorem ask_meets {q : Query β} {next : β → Inquiry α} (notes : q.note h = h) (tracks : Tracks seen h) (good : Good m)
    (rest : ∀ a m', (q.routine s).exec job m = (.done a, m') → Good m' → (next a).Meets s job h m' Q) :
    (ask q next).Meets s job h m Q := by
  unfold Meets
  rw [notes]
  exact ⟨tracks.orderly, fun a m' answer => rest a m' answer (good_of_answer keeps good answer)⟩

theorem ofPayload_meets (converts : Converts s job Good item) (tracks : Tracks seen h) (good : Good m)
    (payload : Option Payload)
    (plain : (∀ items, payload ≠ some (.array items)) → ∀ o, m.object? r = some o → o.isArray = false) :
    (ofPayload item r seen payload).Meets s job h m (Passes Good (fun _ => False) h) := by
  have here (v : NativeValue) {m : Machine} (good : Good m) :
      (pure (v, seen) : Inquiry _).Meets s job h m (Passes Good (fun _ => False) h) := ⟨tracks, .refl _ h, good⟩
  cases payload with
  | none => exact here _ good
  | some payload =>
    cases payload with
    | array items => exact array_meets keeps converts tracks good
    | date millis nanos => exact here _ good
    | buffer bytes =>
      refine ask_meets keeps rfl tracks good fun allowed m₂ _ good₂ => ?_
      split
      · exact here _ good₂
      · trivial
    | wrapper => exact ask_meets keeps rfl tracks good fun v m₂ _ good₂ => here v good₂
    | function f =>
      obtain ⟨name, callable, context⟩ := f
      cases callable with
      | closure | constructor => exact here _ good
      | _ => exact dictionary_meets keeps converts tracks good (plain nofun)
    | ordinary | error | regexp => exact dictionary_meets keeps converts tracks good (plain nofun)

/-- Every part of a conversion keeps to the table. -/
theorem natural_meets (room : Nat) : Converts s job Good (natural room) := by
  induction room with
  | zero => exact fun v seen h m tracks good => ask_meets keeps rfl tracks good fun _ _ _ _ => trivial
  | succ n ih =>
    intro v seen h m tracks good
    cases v with
    | undefined | null | bool | number | text => exact ⟨tracks, .refl _ h, good⟩
    | object r =>
      refine ask_meets keeps rfl tracks good fun payload m₁ answer good₁ => ?_
      obtain ⟨same, rfl⟩ := Prod.mk.inj answer
      obtain rfl := Outcome.done.inj same
      refine ofPayload_meets keeps ih tracks good _ fun other o ho => ?_
      cases array : o.isArray with
      | false => rfl
      | true =>
        obtain ⟨items, is⟩ := Option.isSome_iff_exists.1 array
        have payload : m.payload? (.object r) = some o.payload := congrArg (Option.map Object.payload) ho
        exact absurd (payload.trans (congrArg some (Object.payload_of_items? is))) (other items)

end

theorem toNative_meets (keeps : Keeps s job Good) (good : Good m) (v : Value) :
    (toNative v).Meets s job [] m fun _ _ _ => True := by
  cases v with
  | undefined | null | bool | number | text => trivial
  | object r =>
    refine ask_meets keeps rfl Tracks.nil good fun room m₁ _ good₁ => ?_
    exact (natural_meets keeps _ _ [] [] m₁ .nil good₁).bind fun _ _ _ _ => trivial

end Inquiry

/-! ## What a collection contributes -/

/-- A collection gives a value, where it is left or where it is met. -/
def Mark.Gives (k : Mark) (r : Ref) (v : NativeValue) : Prop := k = .met r v ∨ k = .left r v

/-- Whether an object of this kind is converted item by item, or entry by entry. -/
def Payload.isCollection : Payload → Bool
  | array _ | ordinary | error .. | regexp .. => true
  | function f =>
    match f.callable with
    | .closure _ | .constructor .. => false
    | _ => true
  | date .. | buffer _ | wrapper _ => false

namespace Inquiry

variable {α β : Type} {s : Scope} {job : Runner} {m m' : Machine} {seen : Visited} {p : NativeValue × Visited}

/-- What follows a part of a run adds its marks to those of the part. -/
theorem marks_bind {w : Inquiry α} {a : α} (done : (w.routine s).exec job m = (.done a, m')) (f : α → Inquiry β) :
    (w >>= f).marks s job h m = (f a).marks s job (w.marks s job h m) m' := by
  change (w.bind f).marks s job h m = _
  induction w generalizing h m with
  | pure b => cases done; rfl
  | fail e => nomatch done
  | mark k next ih => exact ih done
  | ask q next ih =>
    obtain ⟨b, m₁, answer, rest⟩ := done_of_bind done
    simp only [Inquiry.bind, marks, answer]
    exact ih b rest

/-- The last mark of a collection's conversion says what it gives. -/
theorem visiting_marks {convert : Visited → Part}
    (done : ((visiting r seen convert).routine s).exec job m = (.done p, m')) :
    ∃ k earlier, (visiting r seen convert).marks s job h m = k :: earlier ∧ k.Gives r p.1 := by
  unfold visiting at done ⊢
  cases found : seen.find? (·.1 == r) with
  | some entry =>
    rw [found] at done
    obtain ⟨q, state⟩ := entry
    refine ⟨.met r p.1, h, ?_, .inl rfl⟩
    cases state with
    | none | some => cases done; rfl
  | none =>
    rw [found] at done
    rw [routine, routine_bind] at done
    obtain ⟨⟨v, seen'⟩, m₁, inside, last⟩ := done_of_bind done
    cases last
    exact ⟨.left r v, (convert ((r, none) :: seen)).marks s job (.entered r :: h) m, marks_bind inside _, .inr rfl⟩

/-- A collection is looked up in the table. -/
theorem exists_visiting {item : Value → Visited → Part} {payload : Payload} (collection : payload.isCollection) :
    ∃ convert, ofPayload item r seen (some payload) = visiting r seen convert := by
  cases payload with
  | array => exact ⟨_, by rw [ofPayload, array]⟩
  | ordinary | error | regexp => exact ⟨_, by rw [ofPayload, dictionary]⟩
  | date | buffer | wrapper => exact absurd collection Bool.false_ne_true
  | function f =>
    obtain ⟨name, callable, context⟩ := f
    cases callable with
    | closure | constructor => exact absurd collection Bool.false_ne_true
    | _ => exact ⟨_, by rw [ofPayload, dictionary]⟩

/-- The last mark of the conversion of a collection inside a value says what it gives. -/
theorem natural_marks {room : Nat} (collection : (m.payload? (.object r)).any Payload.isCollection)
    (done : ((natural room (.object r) seen).routine s).exec job m = (.done p, m')) :
    ∃ k earlier, (natural room (.object r) seen).marks s job h m = k :: earlier ∧ k.Gives r p.1 := by
  cases room with
  | zero => nomatch done
  | succ room =>
    obtain ⟨payload, found, collection⟩ := (Option.any_eq_true ..).1 collection
    obtain ⟨convert, visits⟩ : ∃ convert, ofPayload (natural room) r seen (some payload) = visiting r seen convert :=
      exists_visiting collection
    have rest : ((ofPayload (natural room) r seen (m.payload? (.object r))).routine s).exec job m = (.done p, m') :=
      done
    have here : (natural (room + 1) (.object r) seen).marks s job h m =
      (ofPayload (natural room) r seen (m.payload? (.object r))).marks s job h m := rfl
    rw [found, visits] at rest here
    rw [here]
    exact visiting_marks rest

end Inquiry

/-! ## What is known of machines -/

/-- No query stores anything that is not known. -/
theorem Query.confined {s : Scope} {o : Option AnyJob} {K : Roster} {β : Type} (q : Query β) :
    (q.routine s).Confined o K := by
  cases q with
  | levels | typedArrays | payload | keys => exact .read fun _ _ => trivial
  | native r => exact Scope.unwrapped_yields.imp fun _ _ _ _ => trivial
  | length r =>
    exact .bind (Scope.lift_yields Scope.get_confined) fun _ _ _ _ => .bind Scope.numberOf_confined fun _ _ _ _ => .ret
  | item r i => exact Scope.lift_yields Scope.getIndex_confined
  | entry r key => exact Scope.lift_yields Scope.get_confined

/-- The keys that an object lists are different, unless it is an array. -/
theorem Inquiry.keeps_known (s : Scope) (depth : Nat) :
    Keeps s (Job.exec Job.routine depth) fun m => ∃ K, m.Known K where
  query q m := by
    rintro ⟨K, known⟩
    have confined : (q.routine s).Confined none K := q.confined
    obtain ⟨K', -, known', -⟩ := confined.leaves (Job.confining Job.routine_yields depth) known
    exact ⟨K', known'⟩
  keys m r o := by
    rintro ⟨K, known⟩ ho plain
    rw [Object.keys_of_plain plain]
    exact (known.objects r o ho).keys.sublist (List.filter_sublist.map _)

/-! ## Nothing is read twice -/

def Mark.reading? : Mark → Option Reading
  | read x => some x
  | entered _ | left .. | met .. => none

/-- The collection whose conversion begins. -/
def Mark.entered? : Mark → Option Ref
  | entered r => some r
  | read _ | left .. | met .. => none

/-- What becomes of collections in a run with these marks, newest first. -/
structure ReadsOnce (h : List Mark) : Prop where
  /-- No length, no keys, no item and no property is read twice. -/
  readings : (h.filterMap Mark.reading?).Nodup
  /-- No collection is converted twice, -/
  collections : (h.filterMap Mark.entered?).Nodup
  /-- it is read while it is converted, -/
  within : ∀ later x earlier, h = later ++ .read x :: earlier → Pending earlier x.collection
  /-- and its conversion ends at most once. -/
  ended : ∀ later r v earlier, h = later ++ .left r v :: earlier → Pending earlier r
  /-- Where it is met, its conversion has begun. -/
  begun : ∀ later r v earlier, h = later ++ .met r v :: earlier → .entered r ∈ earlier
  /-- It contributes nil while its conversion is in progress, -/
  cyclic : ∀ later r v earlier, h = later ++ .met r v :: earlier → Pending earlier r → v = .nil
  /-- and the value that it was converted to once this is done. -/
  shared : ∀ later r v earlier, h = later ++ .met r v :: earlier → ∀ w, .left r w ∈ earlier → v = w

theorem Mark.reading?_eq_some : k.reading? = some x ↔ k = .read x := by
  cases k <;> simp [reading?]

theorem Mark.entered?_eq_some : k.entered? = some r ↔ k = .entered r := by
  cases k <;> simp [entered?]

namespace Orderly

theorem of_append {later earlier : List Mark} (orderly : Orderly (later ++ earlier)) : Orderly earlier := by
  induction later with
  | nil => exact orderly
  | cons _ later ih => exact ih orderly.2

/-- What does not happen again happens once. -/
theorem nodup_filterMap {α : Type} {f : Mark → Option α}
    (once : ∀ k h a, k.Follows h → f k = some a → ∀ k' ∈ h, f k' ≠ some a) (orderly : Orderly h) :
    (h.filterMap f).Nodup := by
  induction h with
  | nil => exact List.nodup_nil
  | cons k h ih =>
    cases is : f k with
    | none =>
      rw [List.filterMap_cons_none is]
      exact ih orderly.2
    | some a =>
      rw [List.filterMap_cons_some is, List.nodup_cons]
      refine ⟨fun mem => ?_, ih orderly.2⟩
      obtain ⟨k', before, same⟩ := List.mem_filterMap.1 mem
      exact once k h a orderly.1 is k' before same

theorem readsOnce (orderly : Orderly h) : ReadsOnce h where
  readings := by
    refine orderly.nodup_filterMap fun k h x follows is k' before is' => ?_
    obtain rfl := Mark.reading?_eq_some.1 is
    exact follows.2 (Mark.reading?_eq_some.1 is' ▸ before)
  collections := by
    refine orderly.nodup_filterMap fun k h r follows is k' before is' => ?_
    obtain rfl := Mark.entered?_eq_some.1 is
    exact follows (Mark.entered?_eq_some.1 is' ▸ before)
  within later x earlier := by
    rintro rfl
    exact orderly.follows.1
  ended later r v earlier := by
    rintro rfl
    exact orderly.follows
  begun later r v earlier := by
    rintro rfl
    rcases orderly.follows with left | ⟨inside, -⟩
    · exact orderly.of_append.2.entered_of_left left
    · exact inside.1
  cyclic later r v earlier := by
    rintro rfl inside
    rcases orderly.follows with left | ⟨-, nil⟩
    · exact absurd left (inside.2 v)
    · exact nil
  shared later r v earlier := by
    rintro rfl w left
    rcases orderly.follows with left' | ⟨inside, -⟩
    · exact orderly.of_append.2.left_unique left' left
    · exact absurd left (inside.2 w)

end Orderly

/-- How a value is converted: by asking the machine, -/
structure Scope.ConvertsOnce (s : Scope) (m : Machine) (v : Value) : Prop where
  routine : (Inquiry.toNative v).routine s = s.toNative v
  /-- for nothing twice, however deep jobs may nest. -/
  once : ∀ depth, ReadsOnce ((Inquiry.toNative v).marks s (Job.exec Job.routine depth) [] m)
  /-- Every value inside is converted by asking too, -/
  inside : ∀ room v seen, (Inquiry.natural room v seen).routine s = s.naturalAt room v seen
  /-- and a collection contributes what its last mark says, whether it is converted there or met again. -/
  contributes : ∀ depth room r seen h m p m', (m.payload? (.object r)).any Payload.isCollection →
    (s.naturalAt room (.object r) seen).exec (Job.exec Job.routine depth) m = (.done p, m') →
    ∃ k earlier, (Inquiry.natural room (.object r) seen).marks s (Job.exec Job.routine depth) h m = k :: earlier ∧
      k.Gives r p.1
  /-- The conversion comes to an end if the machine answers all that it is asked for. -/
  terminates : (s.toNative v).Terminates m ↔ ∀ (depth : Nat) (β : Type) (q : Query β) (m' : Machine),
    (Inquiry.toNative v).Asks s depth q m' m → (q.routine s).Terminates m'

namespace Session

open Program (Step)

/-- At every point of a session, and whatever getters do on the way, the conversion of a value reads each collection at
most once, and comes to an end if its readings do. -/
theorem collections_read_once {options : Options} {now : Int} {steps : List Step} {depth : Nat} {x : Point}
    (mem : x ∈ points options now steps depth) (s : Scope) (v : Value) : s.ConvertsOnce x.machine v where
  routine := Inquiry.toNative_routine s v
  once depth :=
    ((Inquiry.toNative_meets (Inquiry.keeps_known s depth) (lawful_points mem).machine v).orderly trivial).readsOnce
  inside := Inquiry.natural_routine s
  contributes _ _ _ _ _ _ _ _ collection done :=
    Inquiry.natural_marks collection (Inquiry.natural_routine s .. ▸ done)
  terminates := Inquiry.toNative_routine s v ▸ Inquiry.terminates_iff

/-- An object has an array twice, itself, and a getter. -/
def entangled : List Step :=
  [.machine (.newContext "main") none,
    .execute "main" [.value (.bind (.array [.bool true])) (some "a"),
      .value (.bind (.object [("x", .register "a"), ("y", .register "a")])) (some "o"),
      .script (.set (.register "o") "self" (.register "o")) none,
      .function "g" [.returnScript (.text "t")] false (some "g"),
      .script (.define (.register "o") "g" (.accessor (some (.register "g")) none) true false) none,
      .script (.keys (.register "o")) none]]

/-- The object is converted. Its array comes first, and the getter last. -/
def isDisentangled (x : Point) : Bool :=
  ((Inquiry.toNative (.object ⟨19, 0⟩)).marks ⟨0⟩ (Job.exec Job.routine 3) [] x.machine).filterMap Mark.reading? ==
      [.entry ⟨19, 0⟩ "g", .entry ⟨19, 0⟩ "self", .entry ⟨19, 0⟩ "y", .item ⟨18, 0⟩ 0, .length ⟨18, 0⟩,
        .entry ⟨19, 0⟩ "x", .keys ⟨19, 0⟩] &&
    ((Scope.toNative ⟨0⟩ (.object ⟨19, 0⟩)).exec (Job.exec Job.routine 3) x.machine).1.given?.any (·.equals
      (.dictionary [(.text "x", .array [.bool true]), (.text "y", .array [.bool true]), (.text "self", .nil),
        (.text "g", .text "t")]))

/-- The array is read once and is there twice, the object in itself is nil, and the getter has come to its end. -/
theorem collections_read_once_entangled : ∃ x ∈ points {} 0 entangled 3,
    Scope.ConvertsOnce ⟨0⟩ x.machine (.object ⟨19, 0⟩) ∧ isDisentangled x = true ∧
    (Scope.toNative ⟨0⟩ (.object ⟨19, 0⟩)).Terminates x.machine ∧
    ∀ depth m', (Inquiry.toNative (.object ⟨19, 0⟩)).Asks ⟨0⟩ depth (.entry ⟨19, 0⟩ "g") m' x.machine →
      ((Query.entry ⟨19, 0⟩ "g").routine ⟨0⟩).Terminates m' := by
  obtain ⟨x, mem, is⟩ : ∃ x ∈ points {} 0 entangled 3, isDisentangled x = true := by decide +kernel
  have converts := collections_read_once mem ⟨0⟩ (.object ⟨19, 0⟩)
  have ends : (Scope.toNative ⟨0⟩ (.object ⟨19, 0⟩)).Terminates x.machine := by
    obtain ⟨w, given, -⟩ := (Option.any_eq_true ..).1 (Bool.and_eq_true_iff.1 is).2
    obtain ⟨a, m', done⟩ := exists_done (Option.isSome_of_eq_some given)
    exact ⟨3, not_cutShort_of_done done⟩
  exact ⟨x, mem, converts, is, ends, fun depth m' asks => converts.terminates.1 ends depth _ _ m' asks⟩

end Session

end ScriptBridge
