import Calculator.Main
import Calculator.Proofs.Chain.Assignments
import Calculator.Proofs.CommandLine
import Calculator.Proofs.Cutting.Unreadable
import Calculator.Proofs.Diagnostics
import Calculator.Proofs.Drawing
import Calculator.Proofs.Evaluation.DefiniteAssignment
import Calculator.Proofs.Evaluation.ExponentLimit
import Calculator.Proofs.Evaluation.Frame
import Calculator.Proofs.Evaluation.Independence
import Calculator.Proofs.Evaluation.Locality
import Calculator.Proofs.Evaluation.Parentheses
import Calculator.Proofs.Evaluation.Reach
import Calculator.Proofs.FailedLines
import Calculator.Proofs.Grammar.Kinds
import Calculator.Proofs.Grammar.LeastPower
import Calculator.Proofs.History
import Calculator.Proofs.Juxtaposition
import Calculator.Proofs.Loops
import Calculator.Proofs.Messages
import Calculator.Proofs.Nesting.ActiveCalls
import Calculator.Proofs.Overflow
import Calculator.Proofs.Pushdown.ViablePrefix
import Calculator.Proofs.Quotient
import Calculator.Proofs.Reloading
import Calculator.Proofs.Settings.Precedence
import Calculator.Proofs.Settings.Rebuilding
import Calculator.Proofs.Substitution
import Calculator.Proofs.Walk.Answers
import Calculator.Proofs.Writing
import Calculator.Text.Decimal
import Calculator.Text.Quoted
import Calculator.Proofs.Rollback
