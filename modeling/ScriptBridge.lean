import ScriptBridge.Answer
import ScriptBridge.Bridge.Argument
import ScriptBridge.Bridge.Callback
import ScriptBridge.Bridge.Exception
import ScriptBridge.Bridge.Failure
import ScriptBridge.Bridge.Operation
import ScriptBridge.Bridge.Send
import ScriptBridge.Bridge.ToNative
import ScriptBridge.Bridge.ToScript
import ScriptBridge.Bridge.Wrapper
import ScriptBridge.Calendar.Day
import ScriptBridge.Calendar.Instant
import ScriptBridge.Calendar.Reader
import ScriptBridge.Declare.Class
import ScriptBridge.Declare.Encoding
import ScriptBridge.Declare.Export
import ScriptBridge.Declare.Protocol
import ScriptBridge.Declare.Selector
import ScriptBridge.Machine.Action
import ScriptBridge.Machine.Basic
import ScriptBridge.Machine.Collection
import ScriptBridge.Machine.Liveness
import ScriptBridge.Machine.Routine
import ScriptBridge.Machine.Stack
import ScriptBridge.Native.Exception
import ScriptBridge.Native.Value
import ScriptBridge.Number.Decimal
import ScriptBridge.Number.Double
import ScriptBridge.Number.Text
import ScriptBridge.Options.Basic
import ScriptBridge.Options.Toml
import ScriptBridge.Program.Syntax
import ScriptBridge.Scope.Assign
import ScriptBridge.Scope.Basic
import ScriptBridge.Scope.Builtin
import ScriptBridge.Scope.Call
import ScriptBridge.Scope.Coerce
import ScriptBridge.Scope.Evaluate
import ScriptBridge.Scope.Read
import ScriptBridge.Scope.Write
import ScriptBridge.Script.Chain
import ScriptBridge.Script.Frame
import ScriptBridge.Script.Heap
import ScriptBridge.Script.Object
import ScriptBridge.Script.Value
import ScriptBridge.Session.MachineStep
import ScriptBridge.Session.NativeStep
import ScriptBridge.Session.Operand
import ScriptBridge.Session.Run
import ScriptBridge.Session.ScopeStep
import ScriptBridge.Session.Show
import ScriptBridge.Text.Blank
import ScriptBridge.Text.Lines
import ScriptBridge.Text.Printable
import ScriptBridge.Text.Quoted
import ScriptBridge.Text.Units
import ScriptBridge.Text.Upper
import ScriptBridge.Proofs.Heap
import ScriptBridge.Proofs.Marking
import ScriptBridge.Proofs.Liveness
import ScriptBridge.Proofs.Roots
import ScriptBridge.Proofs.Registry
import ScriptBridge.Proofs.Moments
import ScriptBridge.Proofs.Tidy.Conversions
import ScriptBridge.Proofs.Tidy.Operations
import ScriptBridge.Proofs.Tidy.Session
import ScriptBridge.Proofs.Chain
import ScriptBridge.Proofs.Collection
import ScriptBridge.Proofs.Handles
import ScriptBridge.Proofs.Identity
import ScriptBridge.Proofs.Release
import ScriptBridge.Proofs.Runs
import ScriptBridge.Proofs.Owners
import ScriptBridge.Proofs.Managed
import ScriptBridge.Proofs.Edits
import ScriptBridge.Proofs.Exec
import ScriptBridge.Proofs.Expando
import ScriptBridge.Proofs.Uncaught
import ScriptBridge.Proofs.Dates
import ScriptBridge.Proofs.Furnish
import ScriptBridge.Proofs.Mirror
import ScriptBridge.Proofs.RoundTrip
import ScriptBridge.Proofs.Stacks
import ScriptBridge.Proofs.CallDepth
import ScriptBridge.Proofs.Contained
import ScriptBridge.Proofs.Dispatch
import ScriptBridge.Proofs.HeapRuns
import ScriptBridge.Proofs.Exports
import ScriptBridge.Proofs.Roster
import ScriptBridge.Proofs.Confined.Rules
import ScriptBridge.Proofs.Confined.Values
import ScriptBridge.Proofs.Confined.Wrappers
import ScriptBridge.Proofs.Confined.Conversions
import ScriptBridge.Proofs.Confined.Operations
import ScriptBridge.Proofs.Confined.Session
import ScriptBridge.Proofs.Confinement
import ScriptBridge.Proofs.OrderedMap
import ScriptBridge.Proofs.PropertyRuns
import ScriptBridge.Proofs.Discreet.Rules
import ScriptBridge.Proofs.Discreet.Operations
import ScriptBridge.Proofs.Settling
import ScriptBridge.Proofs.Sharing
import ScriptBridge.Proofs.Careful
import ScriptBridge.Proofs.Steps
import ScriptBridge.Proofs.Fixed
import ScriptBridge.Proofs.Lineage
import ScriptBridge.Proofs.Naming
import ScriptBridge.Proofs.Members
import ScriptBridge.Proofs.Dictionaries
import ScriptBridge.Proofs.Calls
import ScriptBridge.Proofs.Released
import ScriptBridge.Proofs.Integers
import ScriptBridge.Proofs.Typed
import ScriptBridge.Proofs.Targets
import ScriptBridge.Proofs.Acyclic
import ScriptBridge.Proofs.Listing
import ScriptBridge.Proofs.Definitions
import ScriptBridge.Proofs.Agreement
import ScriptBridge.Proofs.Walks
import ScriptBridge.Proofs.Vector
import ScriptBridge.Proofs.Subscripts
import ScriptBridge.Proofs.Encodings
import ScriptBridge.Proofs.Spacing
import ScriptBridge.Proofs.DateFields
import ScriptBridge.Proofs.Clashes
import ScriptBridge.Proofs.Places
import ScriptBridge.Proofs.Adoption
import ScriptBridge.Proofs.Indices
import ScriptBridge.Proofs.Deeper
import ScriptBridge.Proofs.Inquiry
import ScriptBridge.Proofs.Readings
