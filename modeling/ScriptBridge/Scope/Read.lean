import ScriptBridge.Bridge.Argument
import ScriptBridge.Bridge.Send
import ScriptBridge.Text.Units

/-!
# Reading properties

`Scope.get` and `Scope.getIndex` read a property or an element of any value. A wrapper first offers
the read to its native object: an exported property calls its getter, and a subscript the method that
reads subscripts. What the object does not export is read along the chain.
-/

namespace ScriptBridge

namespace Scope

open Routine

/-- Reads an exported property. A released object reads as undefined. -/
def exportedGet (s : Scope) (holder : Ref) (p : PropertyDeclaration) : Routine Fault Value := do
  checkEncoding p
  match ← read (·.nativeBehind? (.object holder)) with
  | none => return .undefined
  | some h => holding [] do
    let result ← send h p.getter []
    hold result
    s.resultOf p.encoding result

/-- The arguments of a subscript method: the value of a write, if there is one, and the index, as far
as the method takes arguments. -/
def subscriptArguments (s : Scope) (objects : ObjectReading) (declared : List Encoding)
    (value : Option Value) (index : Nat) : Routine Fault (List NativeValue) :=
  s.arguments objects declared (value.toList ++ [.number (.ofNat index)])

/-- Calls a subscript method. A released object gives undefined. -/
def exportedSubscript (s : Scope) (objects : ObjectReading) (holder : Ref) (m : ExportedMethod)
    (value : Option Value) (index : Nat) : Routine Fault Value := do
  checkSignature m
  match ← read (·.nativeBehind? (.object holder)) with
  | none => return .undefined
  | some h => holding [] do
    let args ← holding [.object h] (s.subscriptArguments objects m.signature.args value index)
    args.forM hold
    let result ← send h m.selector args
    hold result
    s.resultOf m.signature.result result

/-- The text of a value that is undefined or null. -/
def nullishText (v : Value) : String := v.primitiveText?.getD ""

/-- Reads a property. Primitives read from the prototype of objects, texts also their units. -/
def get (s : Scope) (target : Value) (key : String) : Routine Thrown Value := do
  match target with
  | .object r =>
    match (← read (·.wrapper? target)).bind (·.table.property? key) with
    | some p =>
      let v ← s.raising (s.exportedGet r p)
      track v
      return v
    | none => s.getOrdinary r target key
  | .undefined | .null =>
    s.throwType ("Cannot read properties of " ++ nullishText target ++ " (reading '" ++ key ++ "')")
  | .text t =>
    if key = "length" then return .number (.ofNat (Text.unitCount t))
    else
      match arrayIndex? key with
      | some i => return ((Text.unitAt? t i).map fun c => Value.text c.toString).getD .undefined
      | none => s.getOrdinary (← s.intrinsics).object target key
  | _ => s.getOrdinary (← s.intrinsics).object target key

/-- Reads an element: by the subscript method of a wrapper, if it exports one. -/
def getIndex (s : Scope) (target : Value) (index : Nat) : Routine Thrown Value := do
  match (← read (·.wrapper? target)).bind (·.table.indexGetter), target with
  | some m, .object r =>
    let v ← s.raising (s.exportedSubscript .primitive r m none index)
    track v
    return v
  | _, _ =>
    match (← read (·.objectOf? target)).bind (·.items?) |>.bind (·[index]?) with
    | some v =>
      track v
      return v
    | none => s.get target (toString index)

end Scope

end ScriptBridge
