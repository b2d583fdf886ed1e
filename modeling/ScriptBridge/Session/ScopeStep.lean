import ScriptBridge.Session.Operand

/-!
# Steps on script values

What each operation of a scope does as a step, and what it shows. Operands are evaluated in the order
in which the step lists them, before the operation.
-/

namespace ScriptBridge

open Routine
open Program

namespace Session

/-- Shows a script value, and keeps it in a register if one is named. -/
def keepScript (dest : Option String) (v : Value) : Routine Stop Answer := do
  if let some name := dest then
    changeTables fun t => { t with scripts := t.scripts.insert name v }
  showValue v

/-- Shows a native value, and keeps it in a register if one is named. -/
def keepNative (env : Env) (dest : Option String) (v : NativeValue) : Routine Stop Answer := do
  if let some name := dest then
    changeTables fun t => { t with natives := t.natives.insert name v }
  showNative env.scope.isSome v

/-- Adds an answer to the log of the step. -/
def pushLog {ε : Type} (a : Answer) : Routine ε Unit :=
  changeTables fun t => { t with log := a :: t.log }

/-- A step that shows no result of its own. -/
def done {ε : Type} (r : Routine ε Unit) : Routine ε Answer := do
  r
  return .ok

/-- A step that shows a truth value. -/
def answerBool {ε : Type} (r : Routine ε Bool) : Routine ε Answer := do return .bool (← r)

/-- The active frames, the call they end in, and its parts. -/
def showStack : Routine Stop Answer := do
  let frames ← read (·.frames.items)
  let this ← Scope.currentThis
  let callee ← Scope.currentCallee
  let args ← Scope.currentArguments
  let shownThis ← showValue this
  let shownCallee ←
    match callee with
    | some v => showValue v
    | none => pure .null
  let shownArgs ← args.mapM showValue
  return .record [("len", .count frames.length), ("display", .text (Trace.text frames)),
    ("top", frames.head?.elim .null .ofFrame),
    ("script_frame", .ofText? ((Trace.scriptFrame? frames).map Frame.text)),
    ("this", shownThis), ("callee", shownCallee), ("args", .list shownArgs)]

/-- The bytes of a new byte buffer. -/
def bufferBytes : BufferSource → ByteArray
  | .bytes data => data
  | .zeros length => ⟨Array.replicate length 0⟩

/-- Evaluates an operand that may be left out. -/
def evaluate? (env : Env) (s : Scope) : Option Operand → Routine Stop (Option Value)
  | some e => some <$> evaluate env s e
  | none => return none

/-- The descriptor that a property term stands for. -/
def evaluateTerm (env : Env) (s : Scope) : PropertyTerm → Routine Stop Descriptor
  | .data value writable => return .data (← evaluate env s value) writable
  | .accessor getter setter => do
    let getter ← evaluate? env s getter
    let setter ← evaluate? env s setter
    return .accessor getter setter

/-- The script values of operands, from left to right. -/
def evaluateAll (env : Env) (s : Scope) (es : List Operand) : Routine Stop (List Value) :=
  es.mapM (evaluate env s)

/-- The operations that make or look at script values. -/
def valueStep (env : Env) (s : Scope) (op : ValueStep) (dest : Option String) :
    Routine Stop Answer := do
  match op with
  | .bind value => keepScript dest (← evaluate env s value)
  | .newError kind message => keepScript dest (← s.newError kind message)
  | .newDate millis => keepScript dest (← s.newDate millis 0)
  | .newRegexp pattern flags => keepScript dest (← s.newRegexp pattern flags)
  | .newBuffer source => keepScript dest (← s.newBuffer (bufferBytes source))
  | .inspect value => inspect s (← evaluate env s value)
  | .toText value => return .text (← s.textOf (← evaluate env s value))
  | .equality a b =>
    let x ← evaluate env s a
    let y ← evaluate env s b
    return (.ofBools [x.strictEquals y, ← s.looselyEqual x y])
  | .dump value depth => return (← dump s depth (← evaluate env s value) []).1
  | .position line column => done (perform (.position line column))
  | .source resource => return (.ofText? (← read (·.sources.get? resource)))
  | .stack logged =>
    let shown ← showStack
    if logged then pushLog shown
    return shown
  | .throwValue value => Scope.throwValue (← evaluate env s value)
  | .throwNew kind message => s.throwNew kind message
  | .log value =>
    let shown ← showValue (← evaluate env s value)
    done (pushLog shown)

/-- The operations of scripts: what fails is thrown. -/
def scriptStep (env : Env) (s : Scope) (op : ScriptStep) (dest : Option String) :
    Routine Stop Answer := do
  match op with
  | .instanceOf value ctor =>
    let v ← evaluate env s value
    let c ← evaluate env s ctor
    answerBool (s.instanceOf v c)
  | .get target key =>
    let v ← evaluate env s target
    keepScript dest (← s.get v key)
  | .set target key value =>
    let t ← evaluate env s target
    let v ← evaluate env s value
    done (s.set t key v)
  | .has target key => answerBool (s.has (← evaluate env s target) key)
  | .delete target key => answerBool (s.delete (← evaluate env s target) key)
  | .getIndex target index =>
    let v ← evaluate env s target
    keepScript dest (← s.getIndex v index)
  | .setIndex target index value =>
    let t ← evaluate env s target
    let v ← evaluate env s value
    done (s.setIndex t index v)
  | .hasIndex target index => answerBool (s.hasIndex (← evaluate env s target) index)
  | .define target key term enumerable configurable =>
    let d ← evaluateTerm env s term
    let t ← evaluate env s target
    done (s.define t key d enumerable configurable)
  | .keys target => return (.ofTexts (← Scope.ownKeys (← evaluate env s target)))
  | .prototype target => keepScript dest (← Scope.prototypeOf (← evaluate env s target))
  | .setPrototype target proto =>
    let t ← evaluate env s target
    let p ← evaluate env s proto
    done (s.setPrototypeOf t p)
  | .call f receiver args =>
    let f ← evaluate env s f
    let this ← evaluate env s receiver
    let args ← evaluateAll env s args
    keepScript dest (← s.call f this args)
  | .construct f args =>
    let f ← evaluate env s f
    let args ← evaluateAll env s args
    keepScript dest (← s.construct f args)
  | .evaluate source resource => keepScript dest (← s.evaluate source resource)

/-- The operations of native code: what fails is an error. -/
def bridgeStep (env : Env) (s : Scope) (op : BridgeStep) (dest : Option String) :
    Routine Stop Answer := do
  match op with
  | .isInstanceOf value ctor =>
    let v ← evaluate env s value
    let c ← evaluate env s ctor
    answerBool (s.isInstanceOf v c)
  | .wrap value => keepScript dest (← s.wrap (← operand env value))
  | .unwrap value shape =>
    let v ← evaluate env s value
    keepNative env dest (← s.unwrap v shape)
  | .toObjectOfClass value key =>
    let v ← evaluate env s value
    let cls ← found (← readTable (·.classes.get? key))
    keepNative env dest (← Scope.toObjectOfClass v cls)
  | .property target key =>
    let v ← evaluate env s target
    keepScript dest (← s.property v key)
  | .setProperty target key value =>
    let t ← evaluate env s target
    let v ← operand env value
    done (s.setProperty t key v)
  | .deleteProperty target key =>
    answerBool (s.deleteProperty (← evaluate env s target) key)
  | .hasProperty target key => answerBool (s.hasProperty (← evaluate env s target) key)
  | .valueAt target index =>
    let v ← evaluate env s target
    keepScript dest (← s.valueAt v index)
  | .setValueAt target index value =>
    let t ← evaluate env s target
    let v ← operand env value
    done (s.setValueAt t index v)
  | .defineWith target key descriptor =>
    let t ← evaluate env s target
    let d ← operand env descriptor
    done (s.defineWith t key d)
  | .callWith f args =>
    let f ← evaluate env s f
    let args ← operands env args
    keepScript dest (← s.callWith f args)
  | .constructWith f args =>
    let f ← evaluate env s f
    let args ← operands env args
    keepScript dest (← s.constructWith f args)
  | .invokeMethod target name args =>
    let t ← evaluate env s target
    let args ← operands env args
    keepScript dest (← s.invokeMethod t name args)
  | .evaluateScript source resource =>
    keepScript dest (← s.evaluateScript source resource)
  | .exception value =>
    let v ← evaluate env s value
    Scope.track v
    let e ← s.capture ⟨v⟩
    return (.record [("display", .text e.text), ("exception", .ofException e),
      ("native", .ofNativeException (.ofError (.script e)))])

end Session

end ScriptBridge
