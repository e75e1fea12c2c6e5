import Readings.Files.Tree
import Readings.Main
import Readings.Proofs.Cast.Parts
import Readings.Proofs.Cast.ListSemantics
import Readings.Proofs.Cast.Answers
import Readings.Proofs.Closure.Graph
import Readings.Proofs.Closure.Walking
import Readings.Proofs.Closure.FreeSymbols
import Readings.Proofs.Closure.Acceptance
import Readings.Proofs.Closure.Unfolding
import Readings.Proofs.Closure.Totality
import Readings.Proofs.Closure.Meaning
import Readings.Proofs.Document.Compile
import Readings.Proofs.Failures
import Readings.Proofs.Document.Nodes
import Readings.Proofs.Descriptor.Binders
import Readings.Proofs.Closure.Placement
import Readings.Proofs.Cast.Unrolling
import Readings.Proofs.Closure.Shadowing
import Readings.Proofs.Cast.Derivation
import Readings.Proofs.Cast.Recasting
import Readings.Proofs.Cast.Rekeying
import Readings.Proofs.Cast.Widening
import Readings.Proofs.Cast.Tree
import Readings.Proofs.Report.Issues
import Readings.Proofs.Document.References
import Readings.Proofs.Document.Acceptance
import Readings.Proofs.Closure.Renaming
import Readings.Proofs.Document.Renaming
import Readings.Proofs.Document.FrontEnds
import Readings.Proofs.Report.Drawing
import Readings.Proofs.Report.Views
import Readings.Proofs.Files.Looking
import Readings.Proofs.CommandLine.Selection
import Readings.Proofs.CommandLine.Loading
import Readings.Proofs.CommandLine.Check
import Readings.Proofs.CommandLine.Lines
import Readings.Proofs.Morphism.Layering
import Readings.Proofs.Morphism.Regrouping
import Readings.Proofs.Cast.Merging
import Readings.Proofs.Closure.Nesting
import Readings.Proofs.Closure.Stacking
import Readings.Proofs.Document.Stacking
import Readings.Proofs.Cast.Hygiene
import Readings.Proofs.Closure.Calls
import Readings.Proofs.Closure.Stack
import Readings.Proofs.Value.Reordering
import Readings.Proofs.Cast.Reordering
import Readings.Proofs.Report.Paths
import Readings.Proofs.Double.Exact
import Readings.Proofs.Value.JsonView
import Readings.Proofs.Json.Settled
import Readings.Proofs.Document.Spelling
import Readings.Proofs.Json.Locality
import Readings.Proofs.Json.Continuation
import Readings.Proofs.Document.Decoding
import Readings.Proofs.Document.WholeText
