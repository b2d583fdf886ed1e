import Mathlib.Data.List.Infix
import Mathlib.Data.List.TakeWhile
import ScriptBridge.Declare.Encoding

/-!
# Reading what was printed

Of an aggregate `Encoding.text` prints the tag, in braces also where it was a union, and of a closure nothing but that it
is one. The tag is whatever stands before the first `=`, so what is printed need not be a body whose braces are closed.

* `Encoding.Closes`, `Encoding.balanced_eq_ok`: which bodies are read, and how far.
* `Encoding.Spelled`, `Encoding.spelled_of_read`: the encodings that texts have.
* `Encoding.read_eq_ok`, `Encoding.read_fails`: what has to be known of the first type of a text to read the text.
* `Encoding.reads_back`: a printed encoding is read as what it was, unless braces in its tag are open. Then the text is
  refused.

Proof-only: not reachable from `ScriptBridge.Session.Run`.
-/

namespace ScriptBridge

namespace Encoding

variable {opening closing c : Char} {depth : Nat} {name body rest cs : List Char} {e t : Encoding} {s : String}

theorem map_eq_ok {α β : Type} {x : Except EncodingFault α} {f : α → β} {b : β} :
    x.map f = .ok b ↔ ∃ a, x = .ok a ∧ f a = b := by
  cases x <;> simp [Except.map]

/-! ## Bodies -/

/-- A text closes the delimiters that it opens and as many that are open before it, and never more than are open. -/
def Closes (opening closing : Char) (depth : Nat) (body : List Char) : Prop :=
  body.count closing = body.count opening + depth ∧
    ∀ front, front <+: body → front.count closing ≤ front.count opening + depth

theorem closes_nil : Closes opening closing depth [] ↔ depth = 0 := by
  simp [Closes, eq_comm]

theorem closes_cons : Closes opening closing depth (c :: body) ↔
    (c :: body).count closing = (c :: body).count opening + depth ∧
      ∀ front, front <+: body → (c :: front).count closing ≤ (c :: front).count opening + depth := by
  refine and_congr_right fun _ => ⟨fun h front before => h _ ?_, fun h front before => ?_⟩
  · exact List.cons_prefix_cons.2 ⟨rfl, before⟩
  · rcases List.prefix_cons_iff.1 before with rfl | ⟨rest, rfl, further⟩
    · simp
    · exact h rest further

theorem closes_opening (apart : opening ≠ closing) :
    Closes opening closing depth (opening :: body) ↔ Closes opening closing (depth + 1) body := by
  rw [closes_cons, Closes]
  simp only [List.count_cons_of_ne apart, List.count_cons_self, Nat.add_assoc, Nat.add_comm 1]

theorem closes_closing (apart : opening ≠ closing) :
    Closes opening closing (depth + 1) (closing :: body) ↔ Closes opening closing depth body := by
  rw [closes_cons, Closes]
  simp only [List.count_cons_of_ne apart.symm, List.count_cons_self, ← Nat.add_assoc, Nat.add_right_cancel_iff,
    Nat.add_le_add_iff_right]

theorem not_closes_closing (apart : opening ≠ closing) : ¬Closes opening closing 0 (closing :: body) := by
  intro closes
  have first := (closes_cons.1 closes).2 [] List.nil_prefix
  simp [apart.symm] at first

theorem closes_other (noOpening : c ≠ opening) (noClosing : c ≠ closing) :
    Closes opening closing depth (c :: body) ↔ Closes opening closing depth body := by
  rw [closes_cons, Closes]
  simp only [List.count_cons_of_ne noOpening, List.count_cons_of_ne noClosing]

theorem map_cons_eq_ok {x : Except EncodingFault (List Char × List Char)} :
    (x.map fun (body, rest) => (c :: body, rest)) = .ok (body, rest) ↔
      ∃ front, body = c :: front ∧ x = .ok (front, rest) := by
  rw [map_eq_ok]
  simp [Prod.ext_iff, eq_comm, and_comm]

/-- A body is read up to the delimiter that closes it. -/
theorem balanced_eq_ok (apart : opening ≠ closing) : balanced opening closing (depth + 1) cs = .ok (body, rest) ↔
    cs = body ++ closing :: rest ∧ Closes opening closing depth body := by
  induction cs generalizing depth body with
  | nil => simp [balanced]
  | cons c r ih =>
    unfold balanced
    by_cases opens : c = opening
    · subst opens
      rw [if_pos rfl, map_cons_eq_ok]
      cases body with
      | nil => simp [apart]
      | cons b front => grind [closes_opening]
    · by_cases closes : c = closing
      · subst closes
        rw [if_neg opens, if_pos rfl]
        cases depth with
        | zero => cases body <;> grind [not_closes_closing, closes_nil]
        | succ d =>
          simp only [map_cons_eq_ok, ih]
          cases body <;> grind [closes_closing, closes_nil]
      · rw [if_neg opens, if_neg closes, map_cons_eq_ok]
        cases body with
        | nil => simp [closes]
        | cons b front => grind [closes_other]

/-- A quoted name has no quote. -/
theorem quotedName_eq_ok : quotedName cs = .ok (name, rest) ↔ cs = name ++ '"' :: rest ∧ '"' ∉ name := by
  fun_induction quotedName cs generalizing name with
  | case1 => simp
  | case2 r => cases name <;> grind
  | case3 c r other ih =>
    rw [map_cons_eq_ok]
    cases name <;> grind

/-! ## What texts spell -/

/-- The encodings that some text has: a name in quotes has none in it, a tag ends before its `=`, and the body of an
array is closed. -/
def Spelled : Encoding → Prop
  | pointer target => target.Spelled
  | object (some name) => (∃ c r, name.toList = c :: r ∧ c ≠ '<') ∧ '"' ∉ name.toList
  | struct name => '=' ∉ name.toList
  | carray body => Closes '[' ']' 0 body.toList
  | _ => True

theorem spelled_of_afterAt (given : afterAt cs = .ok (e, rest)) : e.Spelled := by
  unfold afterAt at given
  split at given
  · obtain ⟨p, -, is⟩ := map_eq_ok.1 given
    cases is
    trivial
  · cases given
    trivial
  · obtain ⟨⟨name, tail⟩, quoted, is⟩ := map_eq_ok.1 given
    have unquoted := (quotedName_eq_ok.1 quoted).2
    dsimp only at is
    split at is
    · cases is
      trivial
    · cases is
      trivial
    · rename_i noName noList
      cases is
      cases name with
      | nil => exact absurd rfl noName
      | cons c r =>
        have noList : c ≠ '<' := fun same => noList r (by rw [same])
        exact ⟨⟨c, r, by simp, noList⟩, by simpa using unquoted⟩
  · cases given
    trivial

theorem equals_not_mem_tagOf (body : List Char) : '=' ∉ (tagOf body).toList := by
  intro mem
  have kept := List.mem_takeWhile_imp (String.toList_ofList ▸ mem)
  simp at kept

theorem spelled_of_base (given : base c cs = .ok (e, rest)) : e.Spelled := by
  unfold base at given
  split at given
  case h_20 => exact spelled_of_afterAt given
  case h_21 | h_22 =>
    obtain ⟨⟨body, tail⟩, -, is⟩ := map_eq_ok.1 given
    cases is
    exact equals_not_mem_tagOf body
  case h_23 =>
    obtain ⟨⟨body, tail⟩, read, is⟩ := map_eq_ok.1 given
    cases is
    have closes := ((balanced_eq_ok (by decide)).1 read).2
    rw [Spelled, String.toList_ofList]
    exact closes
  case h_24 => nomatch given
  all_goals
    cases given
    trivial

theorem spelled_of_afterCaret (given : afterCaret cs = .ok (e, rest)) : e.Spelled := by
  induction cs generalizing e with
  | nil =>
    cases given
    trivial
  | cons c r ih =>
    unfold afterCaret at given
    split at given
    · exact ih given
    · split at given
      · obtain ⟨⟨target, tail⟩, read, is⟩ := map_eq_ok.1 given
        cases is
        have inner : target.Spelled := ih read
        exact inner
      · exact spelled_of_base given

theorem spelled_of_next (given : next c cs = .ok (e, rest)) : e.Spelled := by
  unfold next at given
  split at given
  · obtain ⟨⟨target, tail⟩, read, is⟩ := map_eq_ok.1 given
    cases is
    have inner : target.Spelled := spelled_of_afterCaret read
    exact inner
  · exact spelled_of_base given

theorem spelled_of_readChars {es : List Encoding} (given : readChars cs = .ok es) : ∀ e ∈ es, e.Spelled := by
  fun_induction readChars cs generalizing es with
  | case1 =>
    cases given
    simp
  | case2 c r noise ih => exact ih given
  | case3 => nomatch given
  | case4 c r noise t rest first ih =>
    obtain ⟨others, read, is⟩ := map_eq_ok.1 given
    cases is
    intro e mem
    rcases List.mem_cons.1 mem with rfl | mem
    · exact spelled_of_next first
    · exact ih read e mem

theorem spelled_of_read (given : read s = .ok t) : t.Spelled := by
  unfold read readAll at given
  cases all : readChars s.toList with
  | error fault => simp [all, bind, Except.bind] at given
  | ok es =>
    have spelled := spelled_of_readChars all
    simp only [all, bind, Except.bind] at given
    split at given
    · cases given
      exact spelled t (List.mem_singleton_self t)
    · nomatch given

/-! ## What is printed -/

/-- The tag of an aggregate, behind any pointers to it, closes the braces that it opens. -/
def TagCloses : Encoding → Prop
  | pointer target => target.TagCloses
  | struct tag => Closes '\x7b' '\x7d' 0 tag.toList
  | _ => True

theorem afterCaret_cons (quiet : isNoise c = false) : afterCaret (c :: cs) = next c cs := by
  simp [afterCaret, next, quiet]

/-- The first type of a text comes before those of the rest. -/
theorem readChars_cons (quiet : isNoise c = false) :
    readChars (c :: cs) = (next c cs).bind fun (e, rest) => (readChars rest).map (e :: ·) := by
  rw [readChars]
  simp only [quiet, Bool.false_eq_true, if_false]
  split
  · rename_i fault failed
    rw [failed]
    rfl
  · rename_i t rest first
    rw [first]
    rfl

/-- A text whose first type is followed by nothing has that one type. -/
theorem read_eq_ok (chars : s.toList = c :: cs) (quiet : isNoise c = false) (first : next c cs = .ok (e, [])) :
    read s = .ok e := by
  have all : readChars (c :: cs) = .ok [e] := by
    rw [readChars_cons quiet, first]
    simp [Except.bind, readChars, Except.map]
  unfold read readAll
  rw [chars, all]
  rfl

/-- No list of types ends at a brace that closes nothing. -/
theorem readChars_ne_nil (mem : '\x7d' ∈ cs) : readChars cs ≠ .ok [] := by
  fun_induction readChars cs with
  | case1 => simp at mem
  | case2 c r noise ih =>
    rcases List.mem_cons.1 mem with rfl | mem
    · exact absurd noise (by decide)
    · exact ih mem
  | case3 => nofun
  | case4 c r noise t rest first ih =>
    intro none
    obtain ⟨others, -, is⟩ := map_eq_ok.1 none
    nomatch is

/-- A text whose first type is followed by a brace that closes nothing is refused. -/
theorem read_fails (chars : s.toList = c :: cs) (quiet : isNoise c = false)
    (followed : ∀ e rest, next c cs = .ok (e, rest) → '\x7d' ∈ rest) : ∃ fault, read s = .error fault := by
  have several : ∀ e, readChars (c :: cs) ≠ .ok [e] := by
    intro e one
    rw [readChars_cons quiet] at one
    cases first : next c cs with
    | error fault => simp [first, Except.bind] at one
    | ok p =>
      obtain ⟨t, rest⟩ := p
      rw [first] at one
      obtain ⟨others, read, is⟩ := map_eq_ok.1 one
      cases is
      exact readChars_ne_nil (followed _ _ first) read
  cases gives : read s with
  | error fault => exact ⟨fault, rfl⟩
  | ok e =>
    unfold read readAll at gives
    rw [chars] at gives
    cases all : readChars (c :: cs) with
    | error fault => simp [all, bind, Except.bind] at gives
    | ok es =>
      simp only [all, bind, Except.bind] at gives
      split at gives
      · exact absurd all (several _)
      · cases gives

theorem tagOf_eq (spelled : '=' ∉ cs) : tagOf cs = String.ofList cs := by
  rw [tagOf, List.takeWhile_eq_self_iff.2]
  intro c mem
  simpa using fun same : c = '=' => spelled (same ▸ mem)

/-- A name in quotes is that of a class, unless it begins like a list of protocols. -/
theorem afterAt_quoted {className : String} {r : List Char} (chars : className.toList = c :: r) (noList : c ≠ '<')
    (unquoted : '"' ∉ className.toList) :
    afterAt ('"' :: (className.toList ++ '"' :: rest)) = .ok (object (some className), rest) := by
  have read : quotedName (className.toList ++ '"' :: rest) = .ok (className.toList, rest) :=
    quotedName_eq_ok.2 ⟨rfl, unquoted⟩
  rw [afterAt, read, chars]
  simp only [Except.map]
  split
  · rename_i empty
    cases empty
  · rename_i list
    cases list
    exact absurd rfl noList
  · rw [← chars, String.ofList_toList]

/-- What follows a printed type does not belong to it. An `@` takes in a name in quotes or makes a closure of a `?`, and
a closure takes in a signature. -/
def EndsBefore (rest : List Char) : Encoding → Prop
  | pointer target => target.EndsBefore rest
  | object none => ∀ c ∈ rest.head?, c ≠ '?' ∧ c ≠ '"'
  | closure => ∀ c ∈ rest.head?, c ≠ '<'
  | _ => True

theorem endsBefore_nil (e : Encoding) : e.EndsBefore [] := by
  induction e with
  | pointer target ih => exact ih
  | object className => cases className <;> simp [EndsBefore]
  | _ => simp [EndsBefore]

theorem afterAt_bare (ends : (object none).EndsBefore rest) : afterAt rest = .ok (object none, rest) := by
  unfold afterAt
  split
  · exact absurd rfl (ends '?' rfl).1
  · exact absurd rfl (ends '?' rfl).1
  · exact absurd rfl (ends '"' rfl).2
  · rfl

theorem afterAt_closure (ends : closure.EndsBefore rest) : afterAt ('?' :: rest) = .ok (closure, rest) := by
  unfold afterAt
  split
  · rename_i same
    cases same
    exact absurd rfl (ends '<' rfl)
  · rename_i same
    cases same
    rfl
  · rename_i same
    cases same
  · rename_i noClosure _
    exact absurd rfl (noClosure rest)

/-- Where the tag is closed, the printed form begins with the encoding, up to anything that does not belong to it. -/
theorem next_text_append (spelled : e.Spelled) (closes : e.TagCloses) (ends : e.EndsBefore rest) :
    ∃ c cs, e.text.toList = c :: cs ∧ isNoise c = false ∧ next c (cs ++ rest) = .ok (e, rest) := by
  induction e with
  | pointer target ih =>
    obtain ⟨c, cs, chars, quiet, first⟩ := ih spelled closes ends
    refine ⟨'^', c :: cs, by simp [text, chars], by decide, ?_⟩
    rw [next, if_pos rfl, List.cons_append, afterCaret_cons quiet, first]
    rfl
  | object className =>
    cases className with
    | none => exact ⟨'@', [], rfl, by decide, afterAt_bare ends⟩
    | some name =>
      obtain ⟨⟨c, r, chars, noList⟩, unquoted⟩ := spelled
      refine ⟨'@', '"' :: (name.toList ++ ['"']), by simp [text], by decide, ?_⟩
      rw [List.cons_append, List.append_assoc]
      exact afterAt_quoted chars noList unquoted
  | struct tag =>
    have read : balanced '\x7b' '\x7d' 1 (tag.toList ++ '\x7d' :: rest) = .ok (tag.toList, rest) :=
      (balanced_eq_ok (by decide)).2 ⟨rfl, closes⟩
    refine ⟨'\x7b', tag.toList ++ ['\x7d'], by simp [text], by decide, ?_⟩
    rw [List.append_assoc]
    change (balanced '\x7b' '\x7d' 1 (tag.toList ++ '\x7d' :: rest)).map _ = _
    rw [read]
    simp [Except.map, tagOf_eq spelled]
  | carray body =>
    have read : balanced '[' ']' 1 (body.toList ++ ']' :: rest) = .ok (body.toList, rest) :=
      (balanced_eq_ok (by decide)).2 ⟨rfl, spelled⟩
    refine ⟨'[', body.toList ++ [']'], by simp [text], by decide, ?_⟩
    rw [List.append_assoc]
    change (balanced '[' ']' 1 (body.toList ++ ']' :: rest)).map _ = _
    rw [read]
    simp [Except.map]
  | closure => exact ⟨'@', ['?'], rfl, by decide, afterAt_closure ends⟩
  | _ => exact ⟨_, [], rfl, by decide, rfl⟩

theorem next_text (spelled : e.Spelled) (closes : e.TagCloses) :
    ∃ c cs, e.text.toList = c :: cs ∧ isNoise c = false ∧ next c cs = .ok (e, []) := by
  obtain ⟨c, cs, chars, quiet, first⟩ := next_text_append spelled closes e.endsBefore_nil
  exact ⟨c, cs, chars, quiet, List.append_nil cs ▸ first⟩

/-- Where it is not, something is left that no type can begin with. -/
theorem next_text_of_open (spelled : e.Spelled) (opens : ¬e.TagCloses) :
    ∃ c cs, e.text.toList = c :: cs ∧ isNoise c = false ∧
      ∀ t rest, next c cs = .ok (t, rest) → '\x7d' ∈ rest := by
  induction e with
  | pointer target ih =>
    obtain ⟨c, cs, chars, quiet, followed⟩ := ih spelled opens
    refine ⟨'^', c :: cs, by simp [text, chars], by decide, ?_⟩
    intro t rest given
    rw [next, if_pos rfl, afterCaret_cons quiet] at given
    obtain ⟨⟨inner, tail⟩, first, is⟩ := map_eq_ok.1 given
    cases is
    exact followed inner rest first
  | struct tag =>
    refine ⟨'\x7b', tag.toList ++ ['\x7d'], by simp [text], by decide, ?_⟩
    intro t rest given
    change (balanced '\x7b' '\x7d' 1 (tag.toList ++ ['\x7d'])).map _ = _ at given
    obtain ⟨⟨body, tail⟩, read, is⟩ := map_eq_ok.1 given
    cases is
    obtain ⟨split, closes⟩ := (balanced_eq_ok (by decide)).1 read
    rcases List.eq_nil_or_concat rest with rfl | ⟨front, last, rfl⟩
    · obtain rfl : tag.toList = body := List.append_inj_left' split rfl
      exact absurd closes opens
    · rw [List.concat_eq_append, ← List.cons_append, ← List.append_assoc] at split
      obtain rfl : '\x7d' = last := List.singleton_inj.1 (List.append_inj_right' split rfl)
      simp
  | _ => exact absurd trivial opens

/-- What was read and is printed is read as the same again, unless the braces in the tag of an aggregate are not closed.
Then the text that is printed has no type. -/
theorem reads_back (given : read s = .ok t) :
    (t.TagCloses → read t.text = .ok t) ∧ (¬t.TagCloses → ∃ fault, read t.text = .error fault) := by
  have spelled := spelled_of_read given
  constructor
  · intro closes
    obtain ⟨c, cs, chars, quiet, first⟩ := next_text spelled closes
    exact read_eq_ok chars quiet first
  · intro opens
    obtain ⟨c, cs, chars, quiet, followed⟩ := next_text_of_open spelled opens
    exact read_fails chars quiet followed

/-- A union whose tag has closed braces of its own becomes a structure, behind the pointer to it. -/
theorem reads_back_union : read "^(\x7bA\x7db=i)" = .ok (pointer (struct "\x7bA\x7db")) ∧
    (pointer (struct "\x7bA\x7db")).text = "^\x7b\x7bA\x7db\x7d" ∧
    read (pointer (struct "\x7bA\x7db")).text = .ok (pointer (struct "\x7bA\x7db")) := by
  have given : read "^(\x7bA\x7db=i)" = .ok (pointer (struct "\x7bA\x7db")) := by cbv
  have closes : (pointer (struct "\x7bA\x7db")).TagCloses := by
    simp [TagCloses, closes_opening, closes_closing, closes_other, closes_nil]
  exact ⟨given, rfl, (reads_back given).1 closes⟩

/-- A union may have a brace in its tag that nothing opens. What is printed is no type. -/
theorem union_unread : read "(a\x7di)" = .ok (struct "a\x7di") ∧ (struct "a\x7di").text = "\x7ba\x7di\x7d" ∧
    read "\x7ba\x7di\x7d" = .error (.unknownCode '\x7d') := by
  exact ⟨by cbv, by decide, by cbv⟩

end Encoding

end ScriptBridge
