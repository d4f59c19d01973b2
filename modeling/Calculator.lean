import Calculator.Expr.Grammar
import Calculator.Postfix.Balance
import Calculator.Proofs.Binary64.Order
import Calculator.Proofs.Binary64.Rounding
import Calculator.Proofs.Binary64.Signs
import Calculator.Proofs.Decimal.RoundTrip
import Calculator.Proofs.Decimal.Value
import Calculator.Proofs.Decimal.Whole
import Calculator.Proofs.Evaluation.Signs
import Calculator.Proofs.Evaluation.Story
import Calculator.Proofs.Evaluation.Traces
import Calculator.Proofs.Evaluation.Typed
import Calculator.Proofs.Expr.Acceptance
import Calculator.Proofs.Expr.Counts
import Calculator.Proofs.Expr.Derivation
import Calculator.Proofs.Expr.Division
import Calculator.Proofs.Expr.Numeral
import Calculator.Proofs.Expr.Spelling
import Calculator.Proofs.Number.Characters
import Calculator.Proofs.Number.Display
import Calculator.Proofs.Number.ResultLine
import Calculator.Proofs.Number.RoundTrip
import Calculator.Proofs.Outcome
import Calculator.Proofs.Postfix.Balance
import Calculator.Proofs.Postfix.Blocks
import Calculator.Proofs.Postfix.Contents
import Calculator.Proofs.Postfix.Height
import Calculator.Proofs.Postfix.Listings
import Calculator.Proofs.Postfix.Reordering
import Calculator.Proofs.Postfix.Shapes
import Calculator.Proofs.Postfix.Trees
import Calculator.Proofs.Postfix.Waiting
import Calculator.Proofs.Screen.Focus
import Calculator.Proofs.Screen.FrontEnds
import Calculator.Proofs.Screen.InUse
import Calculator.Proofs.Session.Log
import Calculator.Proofs.Session.Refinement
import Calculator.Proofs.Session.Runs
import Calculator.Proofs.Session.Touches
import Calculator.Proofs.Token.Image
import Calculator.Proofs.Token.Lexical
import Calculator.Proofs.Token.Neighbours
import Calculator.Proofs.Token.Operands
import Calculator.Proofs.Token.Reading
import Calculator.Screen
import Calculator.Session.History
