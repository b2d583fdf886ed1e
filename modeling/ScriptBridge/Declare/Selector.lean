import ScriptBridge.Text.Upper

/-!
# Selectors

A `Selector` names a native operation; each colon in it stands for one argument.
-/

namespace ScriptBridge

/-- The name of a method, with a colon for every argument. -/
structure Selector where
  name : String
  deriving DecidableEq, Inhabited

namespace Selector

/-- The number of colons. -/
def arity (s : Selector) : Nat := s.name.toList.countP (· == ':')

/-- Colons dropped, and the character after one or more of them in upper case. -/
def camel : Bool → List Char → List Char
  | _, [] => []
  | raise, c :: r =>
    if c = ':' then camel true r
    else (if raise then Text.upperOf c else [c]) ++ camel false r

/-- The name under which scripts see the operation unless it is renamed. -/
def scriptName (s : Selector) : String := String.ofList (camel false s.name.toList)

/-- `init`, alone or followed by a colon or a capital letter. -/
def isInitializer (s : Selector) : Bool :=
  match s.name.toList with
  | 'i' :: 'n' :: 'i' :: 't' :: r =>
    match r with
    | [] => true
    | c :: _ => c == ':' || ('A' ≤ c && c ≤ 'Z')
  | _ => false

/-- The conventional setter of a property: `value` is set by `setValue:`. -/
def setterFor (property : String) : Selector :=
  match property.toList with
  | [] => ⟨"set:"⟩
  | c :: r => ⟨"set" ++ String.ofList (Text.upperOf c ++ r) ++ ":"⟩

/-- How diagnostics show a selector. -/
def debugText (s : Selector) : String := "@selector(" ++ s.name ++ ")"

end Selector

end ScriptBridge
