import ScriptBridge.Options.Toml
import ScriptBridge.Program.Syntax

/-!
# Options

The options of a machine, their TOML form, and what makes them valid.
-/

namespace ScriptBridge

/-- What happens to a script exception that reaches native code: it is returned as an error, or
reported with an empty value in its place. -/
inductive Strategy where
  | rethrow
  | report
  deriving DecidableEq, Inhabited

def Strategy.name : Strategy → String
  | .rethrow => "rethrow"
  | .report => "report"

/-- How a machine is set up. -/
structure Options where
  /-- Allocations that make the close of the outermost region collect. -/
  gcThreshold : Nat := 10000
  strategy : Strategy := .rethrow
  /-- Whether byte buffers convert. -/
  typedArrays : Bool := true
  /-- How deep conversions may nest. -/
  maxConversionDepth : Nat := 64
  /-- How deep calls may nest. -/
  maxCallDepth : Nat := 512
  deriving DecidableEq, Inhabited

/-- Why options are refused. -/
inductive ConfigError where
  | malformed
  | noConversionDepth
  | noCallDepth
  | noEvaluator
  deriving DecidableEq

def ConfigError.message : ConfigError → String
  | .malformed => "Failed to parse options"
  | .noConversionDepth => "Invalid options: max_conversion_depth must be at least 1"
  | .noCallDepth => "Invalid options: max_call_depth must be at least 1"
  | .noEvaluator => "Invalid options: no script evaluator installed"

namespace Options

/-- The options themselves if they are valid: both depths are at least one. -/
def validate (o : Options) : Except ConfigError Options :=
  if o.maxConversionDepth = 0 then .error .noConversionDepth
  else if o.maxCallDepth = 0 then .error .noCallDepth
  else .ok o

/-- The value of a key, by a reader of items, or a default when the key is missing. -/
def field {α : Type} (root : Toml.Entries) (k : String) (read : Toml.Item → Option α)
    (default : α) : Except ConfigError α :=
  match Toml.lookup? root k with
  | none => .ok default
  | some item =>
    match read item with
    | some v => .ok v
    | none => .error .malformed

def readNat : Toml.Item → Option Nat
  | .integer i => if 0 ≤ i then some i.toNat else none
  | _ => none

def readBool : Toml.Item → Option Bool
  | .boolean b => some b
  | _ => none

/-- The strategy of a name. -/
def strategyOf? : String → Option Strategy
  | "rethrow" => some .rethrow
  | "report" => some .report
  | _ => none

/-- An item without content. -/
def isEmptyItem : Toml.Item → Bool
  | .array [] | .inlineTable [] | .table _ [] => true
  | _ => false

/-- A strategy by its name, or as the only key of a table, over nothing. -/
def readStrategy : Toml.Item → Option Strategy
  | .text s => strategyOf? s
  | .inlineTable [(k, v)] | .table _ [(k, v)] => if isEmptyItem v then strategyOf? k else none
  | _ => none

/-- The options that a TOML document gives. Missing keys keep their defaults and unknown keys are
ignored. -/
def ofToml (s : String) : Except ConfigError Options := do
  match Toml.parse s with
  | none => .error .malformed
  | some root =>
    let d : Options := {}
    let gcThreshold ← field root "gc_threshold" readNat d.gcThreshold
    let strategy ← field root "exception_strategy" readStrategy d.strategy
    let typedArrays ← field root "typed_arrays" readBool d.typedArrays
    let maxConversionDepth ← field root "max_conversion_depth" readNat d.maxConversionDepth
    let maxCallDepth ← field root "max_call_depth" readNat d.maxCallDepth
    validate { gcThreshold, strategy, typedArrays, maxConversionDepth, maxCallDepth }

/-- The TOML document of options, one line per option. -/
def toToml (o : Options) : String :=
  "gc_threshold = " ++ toString o.gcThreshold ++ "\n"
    ++ "exception_strategy = \"" ++ o.strategy.name ++ "\"\n"
    ++ "typed_arrays = " ++ toString o.typedArrays ++ "\n"
    ++ "max_conversion_depth = " ++ toString o.maxConversionDepth ++ "\n"
    ++ "max_call_depth = " ++ toString o.maxCallDepth ++ "\n"

/-- The options with some of them changed. -/
def change (o : Options) (c : Program.OptionChanges) : Options where
  gcThreshold := c.gcThreshold.getD o.gcThreshold
  strategy := (c.reports.map fun r => if r then Strategy.report else .rethrow).getD o.strategy
  typedArrays := c.typedArrays.getD o.typedArrays
  maxConversionDepth := c.maxConversionDepth.getD o.maxConversionDepth
  maxCallDepth := c.maxCallDepth.getD o.maxCallDepth

end Options

end ScriptBridge
