import ScriptBridge.Number.Double

/-!
# Answers

An `Answer` is what a session shows for a step: a tree of primitives, lists and records. A count is a
natural number, apart from the numbers that scripts compute with.
-/

namespace ScriptBridge

/-- What a request is answered with, before it is written as text. -/
inductive Answer where
  | null
  | bool (b : Bool)
  | count (n : Nat)
  | number (x : Double)
  | text (s : String)
  | list (items : List Answer)
  | record (fields : List (String × Answer))
  deriving Inhabited

namespace Answer

/-- A missing text is null. -/
def ofText? (s : Option String) : Answer := s.elim null text

def ofTexts (ss : List String) : Answer := list (ss.map text)

def ofBools (bs : List Bool) : Answer := list (bs.map bool)

/-- What a step without a result of its own shows. -/
def ok : Answer := record [("ok", bool true)]

/-- A failure: its kind, and its message. -/
def failure (kind message : String) : Answer :=
  record [("error", text kind), ("message", text message)]

end Answer

end ScriptBridge
