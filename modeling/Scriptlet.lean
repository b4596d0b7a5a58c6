import Scriptlet.Text.Ranges
import Scriptlet.Text.Blank
import Scriptlet.Text.Graphic
import Scriptlet.Text.Extending
import Scriptlet.Text.Quoted
import Scriptlet.Text.Shown
import Scriptlet.Number.Units
import Scriptlet.Number.Shortest
import Scriptlet.Number.Write
import Scriptlet.Number.Read
import Scriptlet.Literal
import Scriptlet.Operator
import Scriptlet.Error
import Scriptlet.Token
import Scriptlet.Token.Scan
import Scriptlet.Expr
import Scriptlet.Expr.Print
import Scriptlet.Program.Read
import Scriptlet.Items
import Scriptlet.Env
import Scriptlet.Builtin
import Scriptlet.Value
import Scriptlet.Value.Print
import Scriptlet.Dialogue
import Scriptlet.Supply
import Scriptlet.Eval.Store
import Scriptlet.Eval.Operator
import Scriptlet.Eval.Builtin
import Scriptlet.Eval.Expr
import Scriptlet.Session
import Scriptlet.Buffer
import Scriptlet.Console
import Scriptlet.CommandLine
import Scriptlet.Main
import Scriptlet.Proofs.Trees
import Scriptlet.Proofs.Grammar
import Scriptlet.Proofs.ReaderInvariant
import Scriptlet.Proofs.ReaderComplete
import Scriptlet.Proofs.Scope
import Scriptlet.Proofs.Units
import Scriptlet.Proofs.NumberText
import Scriptlet.Proofs.Scanning
import Scriptlet.Proofs.Tiling
import Scriptlet.Proofs.PrintRead
import Scriptlet.Proofs.Rules
import Scriptlet.Proofs.RulesSound
import Scriptlet.Proofs.RulesComplete
import Scriptlet.Proofs.Machine
import Scriptlet.Proofs.Likeness
import Scriptlet.Proofs.TwoRuns
import Scriptlet.Proofs.CallLimit
import Scriptlet.Proofs.DataText
import Scriptlet.Proofs.Mentions
import Scriptlet.Proofs.Bodies
import Scriptlet.Proofs.LineBreaks
import Scriptlet.Proofs.Joining
import Scriptlet.Proofs.Holdings
import Scriptlet.Proofs.Parentheses
import Scriptlet.Proofs.Hosting
import Scriptlet.Proofs.Identity
import Scriptlet.Proofs.Nodes
import Scriptlet.Proofs.SessionInvariant
import Scriptlet.Proofs.ErrorLines
import Scriptlet.Proofs.Layout
import Scriptlet.Proofs.Interaction
import Scriptlet.Proofs.FirstFault
import Scriptlet.Proofs.Quoting
import Scriptlet.Proofs.Reports
import Scriptlet.Proofs.Faults
import Scriptlet.Proofs.Activation
import Scriptlet.Proofs.EndMark
import Scriptlet.Proofs.Callbacks
import Scriptlet.Proofs.Equality
import Scriptlet.Proofs.Exchanges
import Scriptlet.Proofs.Histories
import Scriptlet.Proofs.Escapes
import Scriptlet.Proofs.Sequences
