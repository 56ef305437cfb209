import StateFlow.Rules.Graph
import StateFlow.Service
import StateFlow.Proofs.Entries
import StateFlow.Proofs.Rules
import StateFlow.Proofs.Lowering
import StateFlow.Proofs.ControlFlow
import StateFlow.Proofs.Decorators
import StateFlow.Proofs.ClosedReferences
import StateFlow.Proofs.CompiledNames
import StateFlow.Proofs.UniqueNames
import StateFlow.Proofs.FailureHandling
import StateFlow.Proofs.Escape
import StateFlow.Proofs.Literal
import StateFlow.Proofs.DefinitionText
import StateFlow.Proofs.JsonScalar
import StateFlow.Proofs.JsonText
import StateFlow.Proofs.Schema
import StateFlow.Proofs.Kept
import StateFlow.Proofs.Shape
import StateFlow.Proofs.NumberValue
import StateFlow.Proofs.Rewritten
import StateFlow.Proofs.Records
import StateFlow.Proofs.Reread
import StateFlow.Proofs.Taken
import StateFlow.Proofs.LoweredMembers
import StateFlow.Proofs.StateShape
import StateFlow.Proofs.LoweredShape
import StateFlow.Proofs.CompiledShape
import StateFlow.Proofs.Restore
import StateFlow.Proofs.Pointer
import StateFlow.Proofs.StateFindings
import StateFlow.Proofs.Lossless
import StateFlow.Proofs.HandlerKinds
import StateFlow.Proofs.Content
import StateFlow.Proofs.LoweredText
import StateFlow.Proofs.TextCost
import StateFlow.Proofs.ReadBack
import StateFlow.Proofs.Renaming
import StateFlow.Proofs.RetrySwitch
import StateFlow.Proofs.Reordering
import StateFlow.Proofs.Writable
import StateFlow.Proofs.RoundTrip
import StateFlow.Proofs.HandledShape
import StateFlow.Proofs.Retriers
import StateFlow.Proofs.FindingPlaces
import StateFlow.Proofs.CarriedData
import StateFlow.Proofs.Unwrapping
import StateFlow.Proofs.ChoiceGrammar
import StateFlow.Proofs.ScopeTree
import StateFlow.Proofs.ScopeReports
import StateFlow.Proofs.RetryMerge
import StateFlow.Proofs.ScopeGraph
import StateFlow.Proofs.WaitSeconds
import StateFlow.Proofs.WholeNumbers
import StateFlow.Proofs.Lines
