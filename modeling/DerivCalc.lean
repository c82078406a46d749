import DerivCalc.Decimal.Binary
import DerivCalc.Decimal.Numeral
import DerivCalc.Decimal.Shortest
import DerivCalc.Decimal.Significant
import DerivCalc.Elementary
import DerivCalc.Elementary.Native
import DerivCalc.Engine
import DerivCalc.Engine.Trace
import DerivCalc.Error
import DerivCalc.Expr
import DerivCalc.Expr.Build
import DerivCalc.Expr.Derivative
import DerivCalc.Expr.Describe
import DerivCalc.Expr.Eval
import DerivCalc.Expr.Print
import DerivCalc.Expr.Simplify
import DerivCalc.Json
import DerivCalc.Json.Describe
import DerivCalc.Json.Limits
import DerivCalc.Json.Reader
import DerivCalc.Json.Text
import DerivCalc.Json.Writer
import DerivCalc.Launcher
import DerivCalc.Main
import DerivCalc.Operator
import DerivCalc.Proofs.Double.Arithmetic
import DerivCalc.Proofs.Double.Fields
import DerivCalc.Proofs.Expr.Rules
import DerivCalc.Session
import DerivCalc.Session.Command
import DerivCalc.Settings
import DerivCalc.Text.Blank
import DerivCalc.Text.Digit
import DerivCalc.Text.Letter
import DerivCalc.Text.Number
import DerivCalc.Text.Printable
import DerivCalc.Text.Quoted
import DerivCalc.Text.Ranges
import DerivCalc.Text.Words
import DerivCalc.Token
import DerivCalc.Token.Lexer
import DerivCalc.Token.PostOrder
import DerivCalc.Window
import DerivCalc.Window.Desktop
import DerivCalc.Window.Dialog
import DerivCalc.Window.Layout
import DerivCalc.Window.Style
import DerivCalc.Proofs.Elementary
import DerivCalc.Proofs.Expr.Eval
import DerivCalc.Proofs.Double.Value
import DerivCalc.Proofs.Expr.Derivative
import DerivCalc.Proofs.Session.Failure
import DerivCalc.Proofs.Decimal.Rounding
import DerivCalc.Proofs.Decimal.Significant
import DerivCalc.Proofs.Decimal.Numeral
import DerivCalc.Proofs.Token.Number
import DerivCalc.Proofs.Expr.Formula
import DerivCalc.Proofs.Token.Lexer
import DerivCalc.Proofs.Expr.Reading
import DerivCalc.Proofs.Engine.RoundTrip
import DerivCalc.Proofs.Engine.Made
import DerivCalc.Proofs.Expr.NormalForm
import DerivCalc.Proofs.Engine.PlainDerivative
import DerivCalc.Proofs.Infix.Grammar
import DerivCalc.Proofs.Infix.Precedence
import DerivCalc.Proofs.Session.Reachable
import DerivCalc.Proofs.Token.PostOrder
import DerivCalc.Proofs.Infix.Reading
import DerivCalc.Proofs.Expr.Listing
import DerivCalc.Proofs.Infix.Bracketed
import DerivCalc.Proofs.Token.Conservation
import DerivCalc.Proofs.Infix.Structure
import DerivCalc.Proofs.Infix.Phrase
import DerivCalc.Proofs.Engine.Sentences
import DerivCalc.Proofs.Session.History
import DerivCalc.Proofs.Json.Limits
import DerivCalc.Proofs.Session.Loading
import DerivCalc.Proofs.Session.Noninterference
import DerivCalc.Proofs.Window.Script
import DerivCalc.Proofs.Window.Ledger
import DerivCalc.Proofs.Settings
import DerivCalc.Proofs.Window.Dialog
import DerivCalc.Proofs.Expr.Assembled
import DerivCalc.Proofs.Expr.Folding
import DerivCalc.Proofs.Text.Letter
import DerivCalc.Proofs.Session.Number
import DerivCalc.Proofs.Double.Integer
import DerivCalc.Proofs.Expr.Polynomial
import DerivCalc.Proofs.Engine.Polynomial
import DerivCalc.Proofs.Decimal.Shortest
import DerivCalc.Proofs.Json.Text
import DerivCalc.Proofs.Json.Number
import DerivCalc.Proofs.Json.RoundTrip
import DerivCalc.Proofs.Settings.Saving
import DerivCalc.Proofs.Token.Arrangement
import DerivCalc.Proofs.Engine.Building
import DerivCalc.Proofs.Infix.Negation
import DerivCalc.Proofs.Token.Outline
import DerivCalc.Proofs.Expr.Unbracketed
import DerivCalc.Proofs.Expr.Brackets
import DerivCalc.Proofs.Token.Lexeme
import DerivCalc.Proofs.Token.Layout
import DerivCalc.Proofs.Token.Spelling
import DerivCalc.Proofs.Text.Words
import DerivCalc.Proofs.Session.Recall
import DerivCalc.Proofs.Json.Distinct
import DerivCalc.Proofs.Window.Integrity
import DerivCalc.Proofs.Engine.LogFree
import DerivCalc.Proofs.Expr.Size
import DerivCalc.Proofs.Session.Levels
import DerivCalc.Proofs.Window.Buttons
import DerivCalc.Proofs.Window.Typing
import DerivCalc.Proofs.Double.Size
import DerivCalc.Proofs.Elementary.Parity
import DerivCalc.Proofs.Decimal.Nearest
import DerivCalc.Proofs.Decimal.General
import DerivCalc.Proofs.Engine.Format
