import MetricFormula.Binary64.Arithmetic
import MetricFormula.Binary64.Basic
import MetricFormula.Binary64.Bits
import MetricFormula.Binary64.DecimalRounding
import MetricFormula.Binary64.Order
import MetricFormula.Binary64.Rounding
import MetricFormula.Decimal.Basic
import MetricFormula.Decimal.Literal
import MetricFormula.Decimal.Notation
import MetricFormula.Decimal.Shortest
import MetricFormula.Entity.Basic
import MetricFormula.Entity.Cell
import MetricFormula.Entity.Computation
import MetricFormula.Entity.Date
import MetricFormula.Entity.Field
import MetricFormula.Entity.Scope
import MetricFormula.Entity.Snapshot
import MetricFormula.Exchange.Cell
import MetricFormula.Exchange.Codec
import MetricFormula.Exchange.Entity
import MetricFormula.Exchange.Field
import MetricFormula.Exchange.Policy
import MetricFormula.Exchange.Result
import MetricFormula.Exchange.Snapshot
import MetricFormula.Formula.Alphabet
import MetricFormula.Formula.Application
import MetricFormula.Formula.Argument
import MetricFormula.Formula.Calculation
import MetricFormula.Formula.Comparator
import MetricFormula.Formula.Evaluation
import MetricFormula.Formula.Expr
import MetricFormula.Formula.Fault
import MetricFormula.Formula.Function
import MetricFormula.Formula.Lexeme
import MetricFormula.Formula.Operator
import MetricFormula.Formula.Policy
import MetricFormula.Formula.Reading
import MetricFormula.Formula.Reduction
import MetricFormula.Formula.Token
import MetricFormula.Formula.Value
import MetricFormula.Json.Basic
import MetricFormula.Json.Printer
import MetricFormula.Json.Reader
import MetricFormula.Json.Symbol
import MetricFormula.Listing
import MetricFormula.Main
import MetricFormula.Proofs.Binary64.DecimalPlaces
import MetricFormula.Proofs.Binary64.Extremes
import MetricFormula.Proofs.Binary64.FlooredQuotient
import MetricFormula.Proofs.Binary64.IntegerRounding
import MetricFormula.Proofs.Binary64.Nearest
import MetricFormula.Proofs.Binary64.Operations
import MetricFormula.Proofs.Binary64.Range
import MetricFormula.Proofs.Binary64.Representable
import MetricFormula.Proofs.Computation.Causality
import MetricFormula.Proofs.Computation.Declaration
import MetricFormula.Proofs.Computation.Finiteness
import MetricFormula.Proofs.Computation.Inlining
import MetricFormula.Proofs.Computation.Insertion
import MetricFormula.Proofs.Computation.Isolation
import MetricFormula.Proofs.Computation.Masking
import MetricFormula.Proofs.Computation.Policy
import MetricFormula.Proofs.Computation.Registration
import MetricFormula.Proofs.Computation.RowOrder
import MetricFormula.Proofs.Decimal.Positional
import MetricFormula.Proofs.Decimal.ReadBack
import MetricFormula.Proofs.Exchange.Data
import MetricFormula.Proofs.Exchange.Faithful
import MetricFormula.Proofs.Exchange.Lossless
import MetricFormula.Proofs.Exchange.Reloading
import MetricFormula.Proofs.Expression.Dependence
import MetricFormula.Proofs.Expression.Emptiness
import MetricFormula.Proofs.Expression.EntityNumber
import MetricFormula.Proofs.Expression.Filtering
import MetricFormula.Proofs.Expression.FloorDivision
import MetricFormula.Proofs.Expression.Inlining
import MetricFormula.Proofs.Expression.Likeness
import MetricFormula.Proofs.Expression.ListFunction
import MetricFormula.Proofs.Expression.Partition
import MetricFormula.Proofs.Expression.Quoting
import MetricFormula.Proofs.Expression.Requirement
import MetricFormula.Proofs.Expression.Rounding
import MetricFormula.Proofs.Expression.RowFunction
import MetricFormula.Proofs.Expression.RowOrder
import MetricFormula.Proofs.Expression.Subexpression
import MetricFormula.Proofs.Faults.Calculation
import MetricFormula.Proofs.Faults.Evaluation
import MetricFormula.Proofs.Faults.Reading
import MetricFormula.Proofs.Faults.Stage
import MetricFormula.Proofs.Grammar.Derivation
import MetricFormula.Proofs.Grammar.Lexing
import MetricFormula.Proofs.Grammar.Nesting
import MetricFormula.Proofs.Grammar.NumberToken
import MetricFormula.Proofs.Grammar.Numeral
import MetricFormula.Proofs.Grammar.Rendering
import MetricFormula.Proofs.Grammar.Spelling
import MetricFormula.Proofs.Grammar.Splitting
import MetricFormula.Proofs.Json.Admission
import MetricFormula.Proofs.Json.Nesting
import MetricFormula.Proofs.Json.Normalization
import MetricFormula.Proofs.Json.Number
import MetricFormula.Proofs.Json.RoundTrip
import MetricFormula.Proofs.Json.Steps
import MetricFormula.Proofs.Json.Text
import MetricFormula.Proofs.Outcome
import MetricFormula.Proofs.Reading.Climbing
import MetricFormula.Proofs.Reading.Completeness
import MetricFormula.Proofs.Reading.Depth
import MetricFormula.Proofs.Reading.Greedy
import MetricFormula.Proofs.Reading.Language
import MetricFormula.Proofs.Reading.Limits
import MetricFormula.Proofs.Reading.RoundTrip
import MetricFormula.Proofs.Reading.Screening
import MetricFormula.Proofs.Reading.Soundness
import MetricFormula.Proofs.Reading.Spacing
import MetricFormula.Proofs.Reading.Success
import MetricFormula.Proofs.Reading.Tracking
import MetricFormula.Proofs.Report.Output
import MetricFormula.Proofs.Scope.History
import MetricFormula.Proofs.Scope.Order
import MetricFormula.Proofs.Snapshot.Dump
import MetricFormula.Proofs.Snapshot.LastWriter
import MetricFormula.Proofs.Text.ByteOrder
import MetricFormula.Report.Command
import MetricFormula.Report.Document
import MetricFormula.Taken
import MetricFormula.Text.Alphabetic
import MetricFormula.Text.Blank
import MetricFormula.Text.CodeRange
import MetricFormula.Text.Extending
import MetricFormula.Text.Numeric
import MetricFormula.Text.Quoted
import MetricFormula.Text.Unprintable
