import TaintWeave.Catalog.Basic
import TaintWeave.Catalog.Rule
import TaintWeave.Category
import TaintWeave.CommandLine.Files
import TaintWeave.CommandLine.Grammar
import TaintWeave.CommandLine.Invocation
import TaintWeave.CommandLine.Run
import TaintWeave.Config
import TaintWeave.Diagnostic.Basic
import TaintWeave.Diagnostic.Code
import TaintWeave.Diagnostic.Custom
import TaintWeave.Double.Basic
import TaintWeave.Double.Bits
import TaintWeave.Double.Layout
import TaintWeave.Double.Shortest
import TaintWeave.Failure
import TaintWeave.Fault
import TaintWeave.Generate.Compiler
import TaintWeave.Generate.Definition
import TaintWeave.Generate.Emitter
import TaintWeave.Generate.Module
import TaintWeave.Instrumentation
import TaintWeave.Json.Basic
import TaintWeave.Json.Reader
import TaintWeave.Json.Writer
import TaintWeave.Log
import TaintWeave.Main
import TaintWeave.Members
import TaintWeave.Native
import TaintWeave.Node.Basic
import TaintWeave.Node.Display
import TaintWeave.Node.Document
import TaintWeave.Node.Walk
import TaintWeave.Number.Basic
import TaintWeave.Number.Digits
import TaintWeave.Number.Numeral
import TaintWeave.Number.Power
import TaintWeave.Number.Word
import TaintWeave.Operator.Table
import TaintWeave.Proofs.Arrangement
import TaintWeave.Proofs.Catalog.Coherence
import TaintWeave.Proofs.Catalog.Construction
import TaintWeave.Proofs.Catalog.Overlap
import TaintWeave.Proofs.Config.Documents
import TaintWeave.Proofs.Config.Layers
import TaintWeave.Proofs.Config.Validation
import TaintWeave.Proofs.Double.Decimal
import TaintWeave.Proofs.Double.Exact
import TaintWeave.Proofs.Double.Logarithm
import TaintWeave.Proofs.Double.Nearest
import TaintWeave.Proofs.Double.Rounding
import TaintWeave.Proofs.Double.Shortest
import TaintWeave.Proofs.Double.Whole
import TaintWeave.Proofs.Evaluation.Interpretation
import TaintWeave.Proofs.Evaluation.Simulation
import TaintWeave.Proofs.Generate.Bindings
import TaintWeave.Proofs.Generate.Contents
import TaintWeave.Proofs.Generate.Layout
import TaintWeave.Proofs.Generate.Resolution
import TaintWeave.Proofs.Generate.Sections
import TaintWeave.Proofs.Generate.Selection
import TaintWeave.Proofs.Instrumentation.Composition
import TaintWeave.Proofs.Instrumentation.Counting
import TaintWeave.Proofs.Instrumentation.Documents
import TaintWeave.Proofs.Instrumentation.Faults
import TaintWeave.Proofs.Instrumentation.Image
import TaintWeave.Proofs.Instrumentation.Injectivity
import TaintWeave.Proofs.Instrumentation.Stability
import TaintWeave.Proofs.Json.Distinct
import TaintWeave.Proofs.Node.Below
import TaintWeave.Proofs.Node.Building
import TaintWeave.Proofs.Node.Children
import TaintWeave.Proofs.Node.NormalForm
import TaintWeave.Proofs.Node.Reading
import TaintWeave.Proofs.Node.Regular
import TaintWeave.Proofs.Node.Relation
import TaintWeave.Proofs.Node.RoundTrip
import TaintWeave.Proofs.Node.Search
import TaintWeave.Proofs.Node.Showing
import TaintWeave.Proofs.Node.Traversal
import TaintWeave.Proofs.Node.Walk
import TaintWeave.Proofs.Node.Writing
import TaintWeave.Proofs.Number.Arithmetic
import TaintWeave.Proofs.Number.Digits
import TaintWeave.Proofs.Number.Division
import TaintWeave.Proofs.Number.Grammar
import TaintWeave.Proofs.Number.Order
import TaintWeave.Proofs.Number.Reading
import TaintWeave.Proofs.Number.RoundTrip
import TaintWeave.Proofs.Number.Text
import TaintWeave.Proofs.Number.Trimming
import TaintWeave.Proofs.Number.Words
import TaintWeave.Proofs.Operator.Construction
import TaintWeave.Proofs.Operator.Distinct
import TaintWeave.Proofs.Outcome
import TaintWeave.Proofs.Provenance.Misreading
import TaintWeave.Proofs.Provenance.Nested
import TaintWeave.Proofs.Provenance.RoundTrip
import TaintWeave.Proofs.Provenance.Step
import TaintWeave.Proofs.Provenance.WellFormed
import TaintWeave.Proofs.Sexp
import TaintWeave.Proofs.Taint.Containers
import TaintWeave.Proofs.Taint.Exactness
import TaintWeave.Proofs.Taint.History
import TaintWeave.Proofs.Taint.LowEquivalence
import TaintWeave.Proofs.Taint.Mock
import TaintWeave.Proofs.Taint.Namespace
import TaintWeave.Proofs.Taint.Noninterference
import TaintWeave.Proofs.Taint.Raw
import TaintWeave.Proofs.Taint.Realization
import TaintWeave.Proofs.Taint.Resemblance
import TaintWeave.Proofs.Taint.Term
import TaintWeave.Proofs.Text.Dedent
import TaintWeave.Proofs.Text.Lines
import TaintWeave.Proofs.Text.Runs
import TaintWeave.Proofs.Value.Equality
import TaintWeave.Proofs.Value.Faults
import TaintWeave.Provenance.Derivation
import TaintWeave.Provenance.Label
import TaintWeave.Provenance.Reader
import TaintWeave.Sexp
import TaintWeave.Taint.Mock
import TaintWeave.Taint.Namespace
import TaintWeave.Taint.Operand
import TaintWeave.Taint.Run
import TaintWeave.Taint.Substrate
import TaintWeave.Text.Blank
import TaintWeave.Text.Dedent
import TaintWeave.Text.Digit
import TaintWeave.Text.Identifier
import TaintWeave.Text.Lines
import TaintWeave.Text.Printable
import TaintWeave.Text.Quoted
import TaintWeave.Text.Ranges
import TaintWeave.Text.Shown
import TaintWeave.Value.Basic
import TaintWeave.Value.Conversion
