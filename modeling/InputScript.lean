import InputScript.Argument
import InputScript.Clock
import InputScript.Condition
import InputScript.Device.Action
import InputScript.Device.Code
import InputScript.Device.Event
import InputScript.Device.Handle
import InputScript.Device.KeyTable
import InputScript.Device.Sink
import InputScript.Environment
import InputScript.Expansion
import InputScript.Fault
import InputScript.Files
import InputScript.Host
import InputScript.Invocation
import InputScript.Journal
import InputScript.Machine.Activation
import InputScript.Machine.Body
import InputScript.Machine.Command
import InputScript.Machine.Step
import InputScript.Number.Binary64
import InputScript.Number.Decimal
import InputScript.Number.Literal
import InputScript.Report
import InputScript.Runner
import InputScript.Sandbox
import InputScript.Script.Line
import InputScript.Script.Scratch
import InputScript.Session
import InputScript.Settings.Basic
import InputScript.Settings.Json
import InputScript.Settings.Loader
import InputScript.Settings.Numeral
import InputScript.Settings.Validation
import InputScript.Settings.Value
import InputScript.Settings.Yaml.Document
import InputScript.Settings.Yaml.Scalar
import InputScript.Settings.Yaml.Token
import InputScript.Shell.Arithmetic
import InputScript.Shell.Builtin
import InputScript.Shell.Command
import InputScript.Shell.Condition
import InputScript.Shell.Grammar
import InputScript.Shell.Image
import InputScript.Shell.Pattern
import InputScript.Shell.Printing
import InputScript.Shell.Process
import InputScript.Shell.Run
import InputScript.Shell.Tool
import InputScript.SystemError
import InputScript.Text.Blank
import InputScript.Text.Case
import InputScript.Text.Digit
import InputScript.Text.Octet
import InputScript.Text.Quoted
import InputScript.Text.Utf8
import InputScript.Verb
import InputScript.Word.Check
import InputScript.Word.First
import InputScript.Word.Token
import InputScript.Proofs.Crashes
import InputScript.Proofs.Action
import InputScript.Proofs.Run
import InputScript.Proofs.Alignment
import InputScript.Proofs.Reading
import InputScript.Proofs.Program
import InputScript.Proofs.Stack
import InputScript.Proofs.Blocks
import InputScript.Proofs.Transition
import InputScript.Proofs.Matching
import InputScript.Proofs.Refinement
import InputScript.Proofs.Quoting
import InputScript.Proofs.FirstWord
import InputScript.Proofs.Commands
import InputScript.Proofs.Origin
import InputScript.Proofs.Position
import InputScript.Proofs.Validation
import InputScript.Proofs.Nesting
import InputScript.Proofs.LoopVariables
import InputScript.Proofs.ControlState
import InputScript.Proofs.ReplayBalance
import InputScript.Proofs.BlockBalance
import InputScript.Proofs.FailStop
import InputScript.Proofs.Rounding
import InputScript.Proofs.Rules
import InputScript.Proofs.RunRules
import InputScript.Proofs.Results
import InputScript.Proofs.Declared
import InputScript.Proofs.Intake
import InputScript.Proofs.Isolation
import InputScript.Proofs.LoopCounts
import InputScript.Proofs.Weight
import InputScript.Proofs.Termination
import InputScript.Proofs.Handle
import InputScript.Proofs.Simulation
import InputScript.Proofs.DryRun
import InputScript.Proofs.DeviceLifetime
import InputScript.Proofs.Log
import InputScript.Proofs.Closing
import InputScript.Proofs.WheelPairs
import InputScript.Proofs.ConditionScan
import InputScript.Proofs.ParameterExpansion
import InputScript.Proofs.ScanAgreement
import InputScript.Proofs.TrailingComments
import InputScript.Proofs.Placement
import InputScript.Proofs.Unwinding
import InputScript.Proofs.Iterations
import InputScript.Proofs.QuotedWords
import InputScript.Proofs.Keywords
import InputScript.Proofs.Binding
import InputScript.Proofs.CheckedSettings
import InputScript.Proofs.FlatConditions
import InputScript.Proofs.Framing
import InputScript.Proofs.Tapping
import InputScript.Proofs.AxisValues
import InputScript.Proofs.Utf8
import InputScript.Proofs.SourceLines
import InputScript.Proofs.Numerals
import InputScript.Proofs.Identifiers
import InputScript.Proofs.Waiting
import InputScript.Proofs.Collection
import InputScript.Proofs.Entries
import InputScript.Proofs.Overrides
import InputScript.Proofs.OverridesInPlace
import InputScript.Proofs.Loading
import InputScript.Proofs.OperandStack
import InputScript.Proofs.ScratchReplay
