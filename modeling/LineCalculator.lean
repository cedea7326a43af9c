import LineCalculator.Main
import LineCalculator.Proofs.Text.Cut
import LineCalculator.Proofs.Grammar.Numeral
import LineCalculator.Proofs.Grammar.Tree
import LineCalculator.Proofs.Grammar.Completeness
import LineCalculator.Proofs.Grammar.Soundness
import LineCalculator.Proofs.Grammar.Derivation
import LineCalculator.Proofs.Grammar.Descent
import LineCalculator.Proofs.Double.Bits
import LineCalculator.Proofs.Double.Rounding
import LineCalculator.Proofs.Double.Order
import LineCalculator.Proofs.Double.Nearest
import LineCalculator.Proofs.Double.Integral
import LineCalculator.Proofs.Double.Monotone
import LineCalculator.Proofs.Double.Conversion
import LineCalculator.Proofs.Factorial
import LineCalculator.Proofs.Factorial.Report
import LineCalculator.Proofs.Decimal.ReadBack
import LineCalculator.Proofs.Substitution.Words
import LineCalculator.Proofs.Substitution.Operand
import LineCalculator.Proofs.Grammar.Instantiation
import LineCalculator.Proofs.Substitution.Trees
import LineCalculator.Proofs.Grammar.Nesting
import LineCalculator.Proofs.Substitution.Occurrence
import LineCalculator.Proofs.Substitution.Parentheses
import LineCalculator.Proofs.Substitution.Rewriting
import LineCalculator.Proofs.Substitution.Rendered
import LineCalculator.Proofs.Substitution.Pattern
import LineCalculator.Proofs.Substitution.Search
import LineCalculator.Proofs.Substitution.Compiled
import LineCalculator.Proofs.Substitution.Mention
import LineCalculator.Proofs.Substitution.Idempotence
import LineCalculator.Proofs.Grammar.Alike
import LineCalculator.Proofs.Grammar.Composite
import LineCalculator.Proofs.Grammar.Agreement
import LineCalculator.Proofs.Grammar.Consumption
import LineCalculator.Proofs.Grammar.Failure
import LineCalculator.Proofs.Grammar.Limit
import LineCalculator.Proofs.Grammar.Position
import LineCalculator.Proofs.Grammar.Displacement
import LineCalculator.Proofs.Grammar.Viability
import LineCalculator.Proofs.Substitution.Acceptance
import LineCalculator.Proofs.Session.Replay
import LineCalculator.Proofs.Session.Recall
import LineCalculator.Proofs.Substitution.Application
import LineCalculator.Proofs.Substitution.Composition
import LineCalculator.Proofs.Session.Assignment
import LineCalculator.Proofs.Session.Independence
import LineCalculator.Proofs.Session.Failure
import LineCalculator.Proofs.Session.Malformed
import LineCalculator.Proofs.Grammar.Trace
import LineCalculator.Proofs.Grammar.Interruption
import LineCalculator.Proofs.Session.Log
import LineCalculator.Proofs.Session.Atomicity
import LineCalculator.Proofs.Session.Blanks
import LineCalculator.Proofs.CommandLine.Feeding
import LineCalculator.Proofs.Environment.History
import LineCalculator.Proofs.Text.Lines
import LineCalculator.Proofs.Decimal.Pointed
import LineCalculator.Proofs.Session.Listing
import LineCalculator.Proofs.Grammar.Walk
import LineCalculator.Proofs.Grammar.Progress
