import ScriptBridge.Calendar.Reader

/-!
# TOML documents

`Toml.parse` reads a TOML 1.0 document into its root table, or refuses it. A table remembers how it
came about, because that decides who may add to it: a header may complete a table that only other
headers implied, dotted keys may extend what dotted keys made, and an inline table is closed. Values
and keys are nested no deeper than `nestingLimit`.
-/

namespace ScriptBridge.Toml

open Calendar (Reader)

/-- How a table came about. -/
inductive Origin where
  | implied
  | header
  | dotted
  deriving DecidableEq, Inhabited

/-- An item of a document. Floats and times are kept as no more than that, because no option has
such a value. -/
inductive Item where
  | text (s : String)
  | integer (i : Int)
  | float
  | boolean (b : Bool)
  | time
  | array (items : List Item)
  | inlineTable (entries : List (String × Item))
  | table (origin : Origin) (entries : List (String × Item))
  | tables (earlier : List Item) (last : List (String × Item))
  deriving Inhabited

/-- A table, with its keys in the order in which they were written. -/
abbrev Entries := List (String × Item)

/-! ## Characters and keys -/

def isSpace (c : Char) : Bool := c == ' ' || c == '\t'

def skipSpace (cs : List Char) : List Char := cs.dropWhile isSpace

/-- A line end. -/
def newline? : List Char → Option (List Char)
  | '\n' :: r => some r
  | '\r' :: '\n' :: r => some r
  | _ => none

/-- A character that a comment may hold: no control but the tab. -/
def isCommentChar (c : Char) : Bool := c == '\t' || (' ' ≤ c && c ≤ '~') || '\x80' ≤ c

/-- Blanks, then perhaps a comment. -/
def skipComment (cs : List Char) : List Char :=
  match skipSpace cs with
  | '#' :: r => r.dropWhile isCommentChar
  | r => r

/-- Blanks, comments and line ends. -/
def skipLines : Nat → List Char → List Char
  | 0, cs => cs
  | fuel + 1, cs =>
    let r := skipComment cs
    match newline? r with
    | some r => skipLines fuel r
    | none => r

def isBareKeyChar (c : Char) : Bool :=
  ('a' ≤ c && c ≤ 'z') || ('A' ≤ c && c ≤ 'Z') || isDigit c || c == '-' || c == '_'

/-- A character that stands for itself between double quotes. -/
def isBasicChar (c : Char) : Bool :=
  c == '\t' || (' ' ≤ c && c ≤ '~' && c != '"' && c != '\\') || '\x80' ≤ c

/-- A character that stands for itself between single quotes. -/
def isLiteralChar (c : Char) : Bool :=
  c == '\t' || (' ' ≤ c && c ≤ '~' && c != '\'') || '\x80' ≤ c

/-- A code point written with a fixed number of hexadecimal digits. -/
def codePoint (digits : Nat) : Reader Char := fun cs => do
  let ds := cs.take digits
  if ds.length < digits then none
  else
    let n ← ds.foldlM (fun n c => (digitValue? 16 c).map (16 * n + ·)) 0
    if n < 0xd800 ∨ (0xe000 ≤ n ∧ n < 0x110000) then some (Char.ofNat n, cs.drop digits) else none

/-- What follows a backslash. -/
def escape : Reader Char
  | 'b' :: r => some ('\x08', r)
  | 't' :: r => some ('\t', r)
  | 'n' :: r => some ('\n', r)
  | 'f' :: r => some ('\x0c', r)
  | 'r' :: r => some ('\r', r)
  | '"' :: r => some ('"', r)
  | '\\' :: r => some ('\\', r)
  | 'u' :: r => codePoint 4 r
  | 'U' :: r => codePoint 8 r
  | _ => none

/-- The rest of a string in double quotes. -/
def basicRest : Nat → Reader (List Char)
  | 0, _ => none
  | fuel + 1, cs =>
    match cs with
    | '"' :: r => some ([], r)
    | '\\' :: r => do
      let (c, r) ← escape r
      (basicRest fuel r).map fun (s, r) => (c :: s, r)
    | c :: r =>
      if isBasicChar c then (basicRest fuel r).map fun (s, r) => (c :: s, r) else none
    | [] => none

/-- A string in single quotes. -/
def literalRest (cs : List Char) : Option (List Char × List Char) :=
  match cs.dropWhile isLiteralChar with
  | '\'' :: r => some (cs.takeWhile isLiteralChar, r)
  | _ => none

/-- Blanks and line ends. -/
def skipBlankLines : List Char → List Char
  | ' ' :: r => skipBlankLines r
  | '\t' :: r => skipBlankLines r
  | '\n' :: r => skipBlankLines r
  | '\r' :: '\n' :: r => skipBlankLines r
  | r => r

/-- A backslash at a line's end drops the line end and all blanks and line ends after it. -/
def lineContinuation? (cs : List Char) : Option (List Char) :=
  (newline? (skipSpace cs)).map skipBlankLines

/-- The rest of a text between triple quotes of one kind. Up to two quotes may stand before the
closing three. -/
def multiLineRest (quote : Char) : Nat → Reader (List Char)
  | 0, _ => none
  | fuel + 1, cs =>
    let quotes := (cs.takeWhile (· == quote)).length
    if 3 ≤ quotes then
      if 5 < quotes then none
      else some (List.replicate (quotes - 3) quote, cs.drop quotes)
    else
      match cs with
      | [] => none
      | c :: r =>
        let keep := (multiLineRest quote fuel r).map fun (s, r) => (c :: s, r)
        if c = quote then keep
        else if c = '\n' then keep
        else if c = '\r' then (if (newline? cs).isSome then keep else none)
        else if quote = '"' then
          if c = '\\' then
            match lineContinuation? r with
            | some r => multiLineRest quote fuel r
            | none => do
              let (e, r) ← escape r
              (multiLineRest quote fuel r).map fun (s, r) => (e :: s, r)
          else if isBasicChar c then keep else none
        else if isLiteralChar c then keep else none

/-- One line end right after the opening quotes is dropped. -/
def multiLine (quote : Char) (cs : List Char) : Option (List Char × List Char) :=
  let body := (newline? cs).getD cs
  multiLineRest quote (body.length + 1) body

/-- One part of a key. -/
def simpleKey : Reader String := fun cs =>
  match cs with
  | '"' :: r => (basicRest (r.length + 1) r).map fun (s, r) => (String.ofList s, r)
  | '\'' :: r => (literalRest r).map fun (s, r) => (String.ofList s, r)
  | cs =>
    let name := cs.takeWhile isBareKeyChar
    if name.isEmpty then none else some (String.ofList name, cs.drop name.length)

/-- Parts of a key with points between them; blanks may stand around each part. -/
def dottedKey : Nat → Reader (List String)
  | 0, _ => none
  | fuel + 1, cs => do
    let (k, r) ← simpleKey (skipSpace cs)
    match skipSpace r with
    | '.' :: r => (dottedKey fuel r).map fun (ks, r) => (k :: ks, r)
    | r => some ([k], r)

/-- How deep arrays and inline tables may lie in each other, and how many parts a key may have. -/
def nestingLimit : Nat := 79

/-- A key: one or several names with dots between. -/
def key : Reader (List String) := fun cs => do
  let (path, r) ← dottedKey (cs.length + 1) cs
  if path.length ≤ nestingLimit then some (path, r) else none

/-! ## Scalars -/

/-- Digits of a radix with single underscores between them. -/
def digitRun (radix : Nat) : Nat → Reader (List Char)
  | 0, _ => none
  | fuel + 1, cs =>
    match cs with
    | c :: r =>
      if (digitValue? radix c).isSome then
        match r with
        | '_' :: r => (digitRun radix fuel r).map fun (ds, r) => (c :: ds, r)
        | d :: _ =>
          if (digitValue? radix d).isSome then
            (digitRun radix fuel r).map fun (ds, r) => (c :: ds, r)
          else some ([c], r)
        | [] => some ([c], [])
      else none
    | [] => none

def digits (radix : Nat) : Reader (List Char) := fun cs => digitRun radix (cs.length + 1) cs

def natOf (radix : Nat) (ds : List Char) : Nat :=
  ds.foldl (fun n c => radix * n + (digitValue? radix c).getD 0) 0

/-- An integer of 64 bits. -/
def fits (i : Int) : Bool := -0x8000000000000000 ≤ i && i ≤ 0x7fffffffffffffff

/-- A decimal integer without leading zeros, as sign and digits. -/
def decimalDigits : Reader (Bool × List Char) := fun cs => do
  let (negative, body) := splitSign cs
  match body with
  | '0' :: r => some ((negative, ['0']), r)
  | _ => (digits 10 body).map fun (ds, r) => ((negative, ds), r)

/-- An integer of 64 bits, decimal or with the mark of another radix. -/
def integer : Reader Item := fun cs => do
  let (i, r) ← match cs with
    | '0' :: 'x' :: r => (digits 16 r).map fun (ds, r) => ((natOf 16 ds : Int), r)
    | '0' :: 'o' :: r => (digits 8 r).map fun (ds, r) => ((natOf 8 ds : Int), r)
    | '0' :: 'b' :: r => (digits 2 r).map fun (ds, r) => ((natOf 2 ds : Int), r)
    | cs => (decimalDigits cs).map fun ((negative, ds), r) =>
      ((if negative then -(natOf 10 ds : Int) else natOf 10 ds), r)
  if fits i then some (.integer i, r) else none

/-- An exponent of a float. -/
def exponent : Reader Int := fun cs =>
  match cs with
  | c :: r =>
    if c = 'e' ∨ c = 'E' then
      let (negative, r) := splitSign r
      (digits 10 r).map fun (ds, r) => ((if negative then -(natOf 10 ds : Int) else natOf 10 ds), r)
    else none
  | [] => none

/-- A float. Its value is not kept, since no option takes one. Above the doubles there is no float but
the one that is spelled `inf`; below them every decimal is the negative infinity. -/
def float : Reader Item := fun cs => do
  let (_, body) := splitSign cs
  match body with
  | 'i' :: 'n' :: 'f' :: r => some (.float, r)
  | 'n' :: 'a' :: 'n' :: r => some (.float, r)
  | _ =>
    let ((negative, whole), r) ← decimalDigits cs
    let (places, e, r) ← match r with
      | '.' :: r => do
        let (places, r) ← digits 10 r
        match exponent r with
        | some (e, r) => some (places, e, r)
        | none => some (places, 0, r)
      | r => (exponent r).map fun (e, r) => ([], e, r)
    let d : Decimal := ⟨natOf 10 (whole ++ places), e - places.length⟩
    if !negative && (d.toDouble false).isInfinite then none else some (.float, r)

open Calendar (number sign)

/-- Hours, minutes and seconds, with any number of further digits. -/
def timeOfDay : Reader Unit := fun cs => do
  let (h, r) ← number 2 2 cs
  let (_, r) ← sign ':' r
  let (m, r) ← number 2 2 r
  let (_, r) ← sign ':' r
  let (s, r) ← number 2 2 r
  if 23 < h ∨ 59 < m ∨ 60 < s then none
  else
    match r with
    | '.' :: d :: r => if isDigit d then some ((), r.dropWhile isDigit) else some ((), '.' :: d :: r)
    | r => some ((), r)

/-- The zone of a time: `Z`, or hours and minutes after a sign. -/
def zoneOffset : Reader Unit := fun cs =>
  let numeric (r : List Char) : Option (Unit × List Char) := do
    let (h, r) ← number 2 2 r
    let (_, r) ← sign ':' r
    let (m, r) ← number 2 2 r
    if 23 < h ∨ 59 < m then none else some ((), r)
  match cs with
  | 'Z' :: r | 'z' :: r => some ((), r)
  | '+' :: r => numeric r
  | '-' :: r => numeric r
  | r => some ((), r)

/-- A day, perhaps with a time and an offset, or a time alone. -/
def dateTime : Reader Item := fun cs =>
  match timeOfDay cs with
  | some (_, r) => some (.time, r)
  | none => do
    let (year, r) ← number 4 4 cs
    let (_, r) ← sign '-' r
    let (month, r) ← number 2 2 r
    let (_, r) ← sign '-' r
    let (day, r) ← number 2 2 r
    if (Calendar.dayNumber? year month day).isNone then none
    else
      match r with
      | c :: t =>
        if c = 'T' ∨ c = 't' ∨ c = ' ' then
          match timeOfDay t with
          | some (_, r) => (zoneOffset r).map fun (_, r) => (.time, r)
          | none => if c = ' ' then some (.time, r) else none
        else some (.time, r)
      | [] => some (.time, [])

/-- A date or time, a float or an integer: the first that reads. -/
def scalarNumber : Reader Item := fun cs =>
  (dateTime cs).or ((float cs).or (integer cs))

/-! ## Adding to tables -/

/-- The item under a key. -/
def lookup? (entries : Entries) (k : String) : Option Item := (entries.find? (·.1 == k)).map (·.2)

/-- Replaces an entry in place, or appends it. -/
def put : Entries → String → Item → Entries
  | [], k, v => [(k, v)]
  | (k', v') :: r, k, v => if k' = k then (k, v) :: r else (k', v') :: put r k v

/-- The entries after `update` has worked at the end of a path. Missing tables on the way are made
with `origin`. -/
def descend (origin : Origin) (update : Origin → Entries → Option Entries) :
    (here : Origin) → List String → Entries → Option Entries
  | here, [], entries => update here entries
  | _, k :: ks, entries => do
    match lookup? entries k with
    | none =>
      let inner ← descend origin update origin ks []
      some (put entries k (.table origin inner))
    | some (.table o inner) =>
      if origin = .dotted ∧ o = .header then none
      else
        let inner ← descend origin update o ks inner
        some (put entries k (.table o inner))
    | some (.tables earlier last) =>
      let last ← descend origin update .header ks last
      some (put entries k (.tables earlier last))
    | some _ => none

/-- Adds a value under a dotted key. Only tables made by dotted keys may be extended so. -/
def addValue (here : Origin) (entries : Entries) (path : List String) (v : Item) :
    Option Entries :=
  match path.getLast? with
  | none => none
  | some last =>
    descend .dotted
      (fun origin es =>
        if (origin == .dotted) == path.dropLast.isEmpty then none
        else if (lookup? es last).isSome then none
        else some (es ++ [(last, v)]))
      here path.dropLast entries

/-- Opens a table by its header. -/
def openTable (entries : Entries) (path : List String) : Option Entries :=
  match path.getLast? with
  | none => none
  | some last =>
    descend .implied
      (fun _ es =>
        match lookup? es last with
        | none => some (es ++ [(last, .table .header [])])
        | some (.table .implied inner) => some (put es last (.table .header inner))
        | some _ => none)
      .header path.dropLast entries

/-- Opens a further table of an array of tables. -/
def openElement (entries : Entries) (path : List String) : Option Entries :=
  match path.getLast? with
  | none => none
  | some last =>
    descend .implied
      (fun _ es =>
        match lookup? es last with
        | none => some (es ++ [(last, .tables [] [])])
        | some (.tables earlier previous) =>
          some (put es last (.tables (earlier ++ [.table .header previous]) []))
        | some _ => none)
      .header path.dropLast entries

/-- Tables that dotted keys made inside an inline table are closed with it. -/
def inlineEntries (entries : Entries) : Item := .inlineTable entries

/-! ## Values -/

mutual

/-- A value, with the number of arrays and inline tables that may still be opened inside. -/
def value : Nat → Nat → Reader Item
  | 0, _, _ => none
  | fuel + 1, depth, cs =>
    match cs with
    | '"' :: '"' :: '"' :: r => (multiLine '"' r).map fun (s, r) => (.text (String.ofList s), r)
    | '"' :: r => (basicRest (r.length + 1) r).map fun (s, r) => (.text (String.ofList s), r)
    | '\'' :: '\'' :: '\'' :: r =>
      (multiLine '\'' r).map fun (s, r) => (.text (String.ofList s), r)
    | '\'' :: r => (literalRest r).map fun (s, r) => (.text (String.ofList s), r)
    | 't' :: 'r' :: 'u' :: 'e' :: r => some (.boolean true, r)
    | 'f' :: 'a' :: 'l' :: 's' :: 'e' :: r => some (.boolean false, r)
    | '[' :: r =>
      match depth with
      | 0 => none
      | d + 1 => (arrayRest fuel d r).map fun (items, r) => (.array items, r)
    | '\x7b' :: r =>
      match depth with
      | 0 => none
      | d + 1 =>
        match skipSpace r with
        | '\x7d' :: r => some (.inlineTable [], r)
        | r => (inlineRest fuel d [] r).map fun (es, r) => (inlineEntries es, r)
    | cs => scalarNumber cs

/-- The elements up to the closing bracket. A comma may follow the last one. -/
def arrayRest : Nat → Nat → Reader (List Item)
  | 0, _, _ => none
  | fuel + 1, depth, cs =>
    match skipLines (cs.length + 1) cs with
    | ']' :: r => some ([], r)
    | cs => do
      let (v, r) ← value fuel depth cs
      match skipLines (r.length + 1) r with
      | ',' :: r => (arrayRest fuel depth r).map fun (vs, r) => (v :: vs, r)
      | ']' :: r => some ([v], r)
      | _ => none

/-- The entries up to the closing brace, with no comma after the last one. -/
def inlineRest : Nat → Nat → Entries → Reader Entries
  | 0, _, _, _ => none
  | fuel + 1, depth, entries, cs => do
    let (path, r) ← key cs
    match r with
    | '=' :: r =>
      let (v, r) ← value fuel depth (skipSpace r)
      let entries ← addValue .header entries path v
      match skipSpace r with
      | ',' :: r => inlineRest fuel depth entries r
      | '\x7d' :: r => some (entries, r)
      | _ => none
    | _ => none

end

/-! ## Documents -/

/-- Nothing but blanks and a comment up to the end of the line. -/
def endOfLine? (cs : List Char) : Option (List Char) :=
  match skipComment cs with
  | [] => some []
  | r => newline? r

/-- The document so far, and the table that key-value lines belong to. -/
structure Reading where
  root : Entries
  current : List String

/-- Adds a value to the current table. -/
def Reading.add (d : Reading) (path : List String) (v : Item) : Option Reading :=
  (descend .implied (fun origin es => addValue origin es path v) .header d.current d.root).map
    fun root => { d with root }

/-- One line or header, and what follows it. -/
def line (d : Reading) (cs : List Char) : Option (Reading × List Char) :=
  match skipSpace cs with
  | '[' :: '[' :: r => do
    let (path, r) ← key r
    match r with
    | ']' :: ']' :: r =>
      let r ← endOfLine? r
      (openElement d.root path).map fun root => (⟨root, path⟩, r)
    | _ => none
  | '[' :: r => do
    let (path, r) ← key r
    match r with
    | ']' :: r =>
      let r ← endOfLine? r
      (openTable d.root path).map fun root => (⟨root, path⟩, r)
    | _ => none
  | cs =>
    match endOfLine? cs with
    | some r => some (d, r)
    | none => do
      let (path, r) ← key cs
      match r with
      | '=' :: r =>
        let r := skipSpace r
        let (v, r) ← value (2 * r.length + 2) nestingLimit r
        let r ← endOfLine? r
        (d.add path v).map fun d => (d, r)
      | _ => none

def lines : Nat → Reading → List Char → Option Entries
  | 0, _, _ => none
  | fuel + 1, d, cs =>
    match cs with
    | [] => some d.root
    | cs => do
      let (d, r) ← line d cs
      lines fuel d r

/-- The root table of a document; a byte order mark may stand before it. -/
def parse (s : String) : Option Entries :=
  let cs :=
    match s.toList with
    | '\uFEFF' :: r => r
    | cs => cs
  lines (cs.length + 1) ⟨[], []⟩ cs

end ScriptBridge.Toml
