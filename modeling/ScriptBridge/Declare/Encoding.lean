/-!
# Type encodings

An `Encoding` is the type of an argument or a result as a declaration writes it: one letter for a
primitive, `@` with an optional class name for an object, `@?` for a closure, and bracketed bodies
for aggregates.

* `Encoding.text` prints an encoding.
* `Encoding.next` reads one encoding from the front of a text, `Encoding.readAll` a whole list,
  skipping offsets and qualifiers between types.
* `Encoding.width?` gives the range of an integer encoding.
-/

namespace ScriptBridge

/-- A declared type, written as one type code. -/
inductive Encoding where
  | void
  | bool
  | char
  | uchar
  | short
  | ushort
  | int
  | uint
  | long
  | ulong
  | longLong
  | ulongLong
  | float
  | double
  | cstring
  | object (className : Option String)
  | closure
  | classRef
  | selector
  | scriptValue
  | pointer (target : Encoding)
  | struct (name : String)
  | carray (body : String)
  | unknown
  deriving DecidableEq, Inhabited

/-- Why a text is not the encoding that was asked for. -/
inductive EncodingFault where
  | unknownCode (c : Char)
  | unterminatedName
  | missingClose (c : Char)
  | notOne (found : Nat)
  | tooShort
  | noReceiver
  | noSelector
  | noReturn
  deriving DecidableEq

def EncodingFault.message : EncodingFault → String
  | .unknownCode c => "unknown type code '" ++ c.toString ++ "'"
  | .unterminatedName => "unterminated class name"
  | .missingClose c => "missing '" ++ c.toString ++ "'"
  | .notOne found => "expected one type, found " ++ toString found
  | .tooShort => "method encodings need a receiver and a selector"
  | .noReceiver => "second type must be the receiver"
  | .noSelector => "third type must be the selector"
  | .noReturn => "missing return type"

namespace Encoding

/-- The printed form. A union prints as a structure, and a closure without its signature. -/
def text : Encoding → String
  | void => "v"
  | bool => "B"
  | char => "c"
  | uchar => "C"
  | short => "s"
  | ushort => "S"
  | int => "i"
  | uint => "I"
  | long => "l"
  | ulong => "L"
  | longLong => "q"
  | ulongLong => "Q"
  | float => "f"
  | double => "d"
  | cstring => "*"
  | object none => "@"
  | object (some name) => "@\"" ++ name ++ "\""
  | closure => "@?"
  | classRef => "#"
  | selector => ":"
  | scriptValue => "V"
  | pointer target => "^" ++ target.text
  | struct name => "\x7b" ++ name ++ "\x7d"
  | carray body => "[" ++ body ++ "]"
  | unknown => "?"

/-- The name of the kind of type, without its parts. -/
def kindName : Encoding → String
  | void => "Void"
  | bool => "Bool"
  | char => "Char"
  | uchar => "UChar"
  | short => "Short"
  | ushort => "UShort"
  | int => "Int"
  | uint => "UInt"
  | long => "Long"
  | ulong => "ULong"
  | longLong => "LongLong"
  | ulongLong => "ULongLong"
  | float => "Float"
  | double => "Double"
  | cstring => "CString"
  | object _ => "Object"
  | closure => "Closure"
  | classRef => "Class"
  | selector => "Selector"
  | scriptValue => "ScriptValue"
  | pointer _ => "Pointer"
  | struct _ => "Struct"
  | carray _ => "CArray"
  | unknown => "Unknown"

/-- Whether values of the type can cross the bridge. -/
def isMarshalable : Encoding → Bool
  | pointer _ | struct _ | carray _ | unknown => false
  | _ => true

/-- The width in bits of an integer encoding, and whether it is unsigned. -/
def width? : Encoding → Option (Nat × Bool)
  | char => some (8, false)
  | uchar => some (8, true)
  | short => some (16, false)
  | ushort => some (16, true)
  | int => some (32, false)
  | uint => some (32, true)
  | long => some (32, false)
  | ulong => some (32, true)
  | longLong => some (64, false)
  | ulongLong => some (64, true)
  | _ => none

def isInteger (e : Encoding) : Bool := e.width?.isSome

def isUnsigned (e : Encoding) : Bool := e.width?.any (·.2)

def isNumeric (e : Encoding) : Bool := e.isInteger || e == float || e == double

/-! ## Reading -/

/-- Offsets and qualifiers, which carry no type. -/
def isNoise (c : Char) : Bool :=
  ('0' ≤ c && c ≤ '9') || c == 'r' || c == 'n' || c == 'N' || c == 'o' || c == 'O' || c == 'R'

/-- The body up to the delimiter that closes `depth` open ones, and what follows that delimiter. -/
def balanced (opening closing : Char) : Nat → List Char → Except EncodingFault (List Char × List Char)
  | _, [] => .error (.missingClose closing)
  | depth, c :: r =>
    if c = opening then
      (balanced opening closing (depth + 1) r).map fun (body, rest) => (c :: body, rest)
    else if c = closing then
      match depth with
      | 0 | 1 => .ok ([], r)
      | d + 1 => (balanced opening closing d r).map fun (body, rest) => (c :: body, rest)
    else (balanced opening closing depth r).map fun (body, rest) => (c :: body, rest)

/-- The characters up to a double quote, and what follows it. -/
def quotedName : List Char → Except EncodingFault (List Char × List Char)
  | [] => .error .unterminatedName
  | '"' :: r => .ok ([], r)
  | c :: r => (quotedName r).map fun (name, rest) => (c :: name, rest)

/-- What follows `@`: a closure, a class name in quotes, or nothing of its own. A name that is empty
or lists protocols says no more than `@`. -/
def afterAt : List Char → Except EncodingFault (Encoding × List Char)
  | '?' :: '<' :: r => (balanced '<' '>' 1 r).map fun (_, rest) => (closure, rest)
  | '?' :: r => .ok (closure, r)
  | '"' :: r =>
    (quotedName r).map fun (name, rest) =>
      match name with
      | [] | '<' :: _ => (object none, rest)
      | name => (object (some (String.ofList name)), rest)
  | r => .ok (object none, r)

/-- The tag of an aggregate: its body up to the first `=`. -/
def tagOf (body : List Char) : String := String.ofList (body.takeWhile (· != '='))

/-- A type that starts with `c` and is no pointer. -/
def base (c : Char) (r : List Char) : Except EncodingFault (Encoding × List Char) :=
  match c with
  | 'v' => .ok (void, r)
  | 'B' => .ok (bool, r)
  | 'c' => .ok (char, r)
  | 'C' => .ok (uchar, r)
  | 's' => .ok (short, r)
  | 'S' => .ok (ushort, r)
  | 'i' => .ok (int, r)
  | 'I' => .ok (uint, r)
  | 'l' => .ok (long, r)
  | 'L' => .ok (ulong, r)
  | 'q' => .ok (longLong, r)
  | 'Q' => .ok (ulongLong, r)
  | 'f' => .ok (float, r)
  | 'd' => .ok (double, r)
  | '*' => .ok (cstring, r)
  | '#' => .ok (classRef, r)
  | ':' => .ok (selector, r)
  | 'V' => .ok (scriptValue, r)
  | '?' => .ok (unknown, r)
  | '@' => afterAt r
  | '\x7b' => (balanced '\x7b' '\x7d' 1 r).map fun (body, rest) => (struct (tagOf body), rest)
  | '(' => (balanced '(' ')' 1 r).map fun (body, rest) => (struct (tagOf body), rest)
  | '[' => (balanced '[' ']' 1 r).map fun (body, rest) => (carray (String.ofList body), rest)
  | c => .error (.unknownCode c)

/-- The target of a pointer, with noise before it; nothing at all is an unknown target. -/
def afterCaret : List Char → Except EncodingFault (Encoding × List Char)
  | [] => .ok (unknown, [])
  | c :: r =>
    if isNoise c then afterCaret r
    else if c = '^' then (afterCaret r).map fun (e, rest) => (pointer e, rest)
    else base c r

/-- One type that starts with `c`. -/
def next (c : Char) (r : List Char) : Except EncodingFault (Encoding × List Char) :=
  if c = '^' then (afterCaret r).map fun (e, rest) => (pointer e, rest) else base c r

/-- A reader mapped over a change of its result leaves the same rest. -/
theorem exists_of_map_ok {ε α β : Type} {x : Except ε (α × List Char)}
    {f : α × List Char → β × List Char} {b : β} {rest : List Char}
    (h : x.map f = .ok (b, rest)) (hf : ∀ p, (f p).2 = p.2) : ∃ a, x = .ok (a, rest) := by
  cases x with
  | error e => simp [Except.map] at h
  | ok p =>
    simp only [Except.map, Except.ok.injEq] at h
    have hr : rest = p.2 := by rw [← hf p, h]
    exact ⟨p.1, by rw [hr]⟩

theorem length_balanced {o c : Char} {d : Nat} {cs body rest : List Char}
    (h : balanced o c d cs = .ok (body, rest)) : rest.length ≤ cs.length := by
  induction cs generalizing d body with
  | nil => simp [balanced] at h
  | cons x r ih =>
    simp only [balanced] at h
    split at h
    · obtain ⟨a, ha⟩ := exists_of_map_ok h fun _ => rfl
      have := ih ha; simp; omega
    · split at h
      · split at h
        · simp only [Except.ok.injEq, Prod.mk.injEq] at h; simp [h.2]
        · simp only [Except.ok.injEq, Prod.mk.injEq] at h; simp [h.2]
        · obtain ⟨a, ha⟩ := exists_of_map_ok h fun _ => rfl
          have := ih ha; simp; omega
      · obtain ⟨a, ha⟩ := exists_of_map_ok h fun _ => rfl
        have := ih ha; simp; omega

theorem length_quotedName {cs name rest : List Char}
    (h : quotedName cs = .ok (name, rest)) : rest.length ≤ cs.length := by
  fun_induction quotedName cs generalizing name with
  | case1 => simp at h
  | case2 r => simp only [Except.ok.injEq, Prod.mk.injEq] at h; simp [h.2]
  | case3 c r _ ih =>
    obtain ⟨a, ha⟩ := exists_of_map_ok h fun _ => rfl
    have := ih ha; simp; omega

theorem length_afterAt {cs rest : List Char} {e : Encoding}
    (h : afterAt cs = .ok (e, rest)) : rest.length ≤ cs.length := by
  unfold afterAt at h
  split at h
  · rename_i r
    cases hb : balanced '<' '>' 1 r with
    | error e => simp [hb, Except.map] at h
    | ok p =>
      obtain ⟨b, t⟩ := p
      simp only [hb, Except.map, Except.ok.injEq, Prod.mk.injEq] at h
      have := length_balanced hb
      simp [← h.2]; omega
  · simp only [Except.ok.injEq, Prod.mk.injEq] at h; simp [← h.2]
  · rename_i r
    cases hb : quotedName r with
    | error e => simp [hb, Except.map] at h
    | ok p =>
      obtain ⟨b, t⟩ := p
      simp only [hb, Except.map, Except.ok.injEq] at h
      have := length_quotedName hb
      split at h <;> simp only [Prod.mk.injEq] at h <;> (simp [← h.2]; omega)
  · simp only [Except.ok.injEq, Prod.mk.injEq] at h; simp [← h.2]

theorem length_base {c : Char} {cs rest : List Char} {e : Encoding}
    (h : base c cs = .ok (e, rest)) : rest.length ≤ cs.length := by
  unfold base at h
  split at h
  all_goals first
    | (simp only [Except.ok.injEq, Prod.mk.injEq] at h; simp [← h.2])
    | exact length_afterAt h
    | (obtain ⟨a, ha⟩ := exists_of_map_ok h fun _ => rfl; exact length_balanced ha)
    | simp at h

theorem length_afterCaret {cs rest : List Char} {e : Encoding}
    (h : afterCaret cs = .ok (e, rest)) : rest.length ≤ cs.length := by
  induction cs generalizing e with
  | nil => simp only [afterCaret, Except.ok.injEq, Prod.mk.injEq] at h; simp [← h.2]
  | cons c r ih =>
    simp only [afterCaret] at h
    split at h
    · have := ih h; simp; omega
    · split at h
      · obtain ⟨a, ha⟩ := exists_of_map_ok h fun _ => rfl
        have := ih ha; simp; omega
      · have := length_base h; simp; omega

/-- Reading a type uses up its first character. -/
theorem length_next {c : Char} {cs rest : List Char} {e : Encoding}
    (h : next c cs = .ok (e, rest)) : rest.length ≤ cs.length := by
  unfold next at h
  split at h
  · obtain ⟨a, ha⟩ := exists_of_map_ok h fun _ => rfl; exact length_afterCaret ha
  · exact length_base h

/-- All types of a text, with noise before, between and after them. -/
def readChars (cs : List Char) : Except EncodingFault (List Encoding) :=
  match _hcs : cs with
  | [] => .ok []
  | c :: r =>
    if isNoise c then readChars r
    else
      match _h : next c r with
      | .error e => .error e
      | .ok (t, rest) => (readChars rest).map (t :: ·)
termination_by cs.length
decreasing_by
  · simp
  · have := length_next _h; simp; omega

/-- The list of types that a text encodes. -/
def readAll (s : String) : Except EncodingFault (List Encoding) := readChars s.toList

/-- The single type that a text encodes. -/
def read (s : String) : Except EncodingFault Encoding := do
  match ← readAll s with
  | [e] => .ok e
  | es => .error (.notOne es.length)

end Encoding

/-! ## Signatures -/

/-- The result and argument types of a method or a closure. -/
structure Signature where
  result : Encoding
  args : List Encoding
  deriving DecidableEq, Inhabited

namespace Signature

/-- How many arguments the signature takes. -/
def arity (s : Signature) : Nat := s.args.length

/-- Whether the result and all arguments can cross the bridge. -/
def isMarshalable (s : Signature) : Bool := s.result.isMarshalable && s.args.all (·.isMarshalable)

/-- The type codes of the result and of the arguments, in one row. -/
def text (s : Signature) : String := s.result.text ++ String.join (s.args.map (·.text))

/-- A receiver is an object or a class. -/
def isReceiver : Encoding → Bool
  | .object _ | .classRef => true
  | _ => false

/-- A method encoding lists the result, the receiver, the selector and the arguments. -/
def readMethod (s : String) : Except EncodingFault Signature := do
  match ← Encoding.readAll s with
  | result :: receiver :: sel :: args =>
    if !isReceiver receiver then .error .noReceiver
    else if sel ≠ .selector then .error .noSelector
    else .ok ⟨result, args⟩
  | _ => .error .tooShort

/-- A closure encoding lists the result, optionally the closure itself, and the arguments. -/
def readClosure (s : String) : Except EncodingFault Signature := do
  match ← Encoding.readAll s with
  | [] => .error .noReturn
  | result :: .closure :: args => .ok ⟨result, args⟩
  | result :: args => .ok ⟨result, args⟩

end Signature

end ScriptBridge
