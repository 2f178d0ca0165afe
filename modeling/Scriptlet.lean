import Scriptlet.Console
import Scriptlet.Console.Arguments
import Scriptlet.Error
import Scriptlet.Event
import Scriptlet.Grammar.Declaration
import Scriptlet.Grammar.Expression
import Scriptlet.Grammar.Reader
import Scriptlet.Grammar.Statement
import Scriptlet.Main
import Scriptlet.Memory
import Scriptlet.Number.Binary
import Scriptlet.Number.Decimal
import Scriptlet.Number.Shortest
import Scriptlet.Number.Text
import Scriptlet.Program
import Scriptlet.Proofs.Console.Arguments
import Scriptlet.Proofs.Console.Detail
import Scriptlet.Proofs.Grammar.Completeness.Expression
import Scriptlet.Proofs.Grammar.Completeness.Program
import Scriptlet.Proofs.Grammar.Declared
import Scriptlet.Proofs.Grammar.Delivery
import Scriptlet.Proofs.Grammar.Layout
import Scriptlet.Proofs.Grammar.Procedures
import Scriptlet.Proofs.Grammar.Rules
import Scriptlet.Proofs.Grammar.Soundness
import Scriptlet.Proofs.Grammar.Termination
import Scriptlet.Proofs.Grammar.Tokens
import Scriptlet.Proofs.Memory.Handouts
import Scriptlet.Proofs.Number.Bits
import Scriptlet.Proofs.Number.Canonical
import Scriptlet.Proofs.Number.Grammar
import Scriptlet.Proofs.Number.Permissive
import Scriptlet.Proofs.Number.ReadBack
import Scriptlet.Proofs.Number.Rounding
import Scriptlet.Proofs.Separator
import Scriptlet.Proofs.Session.Admission
import Scriptlet.Proofs.Session.Bracket
import Scriptlet.Proofs.Session.CallLog
import Scriptlet.Proofs.Session.Classification
import Scriptlet.Proofs.Session.Consumption
import Scriptlet.Proofs.Session.Coupling
import Scriptlet.Proofs.Session.Dialogue
import Scriptlet.Proofs.Session.Faults
import Scriptlet.Proofs.Session.Fuel
import Scriptlet.Proofs.Session.FunctionTable
import Scriptlet.Proofs.Session.GlobalMap
import Scriptlet.Proofs.Session.History
import Scriptlet.Proofs.Session.Invariant
import Scriptlet.Proofs.Session.Isolation
import Scriptlet.Proofs.Session.Judgement
import Scriptlet.Proofs.Session.Layout
import Scriptlet.Proofs.Session.Line
import Scriptlet.Proofs.Session.Logic
import Scriptlet.Proofs.Session.Normalisation
import Scriptlet.Proofs.Session.Numbers
import Scriptlet.Proofs.Session.Parallel
import Scriptlet.Proofs.Session.Persistence
import Scriptlet.Proofs.Session.Quoting
import Scriptlet.Proofs.Session.Requests
import Scriptlet.Proofs.Session.Safety
import Scriptlet.Proofs.Session.SharedRecord
import Scriptlet.Proofs.Session.Sharing
import Scriptlet.Proofs.Session.StackIsolation
import Scriptlet.Proofs.Session.Termination
import Scriptlet.Proofs.Session.Truncation
import Scriptlet.Proofs.Session.Variables
import Scriptlet.Proofs.Simulation
import Scriptlet.Proofs.Source.Entry
import Scriptlet.Proofs.Syntax.Printing
import Scriptlet.Proofs.Syntax.ReadBack
import Scriptlet.Proofs.Syntax.Tree
import Scriptlet.Proofs.Text.ByteOrder
import Scriptlet.Proofs.Token.Displayed
import Scriptlet.Proofs.Token.Lexemes
import Scriptlet.Proofs.Token.Lines
import Scriptlet.Proofs.Token.NumberWords
import Scriptlet.Proofs.Token.Place
import Scriptlet.Proofs.Token.Segmentation
import Scriptlet.Proofs.Token.Spelling
import Scriptlet.Proofs.Token.Stepping
import Scriptlet.Proofs.Token.Stream
import Scriptlet.Proofs.Tree.CallRank
import Scriptlet.Proofs.Tree.Declarations
import Scriptlet.Proofs.Tree.Drawing
import Scriptlet.Proofs.Tree.Names
import Scriptlet.Proofs.Tree.Normal
import Scriptlet.Proofs.Tree.Origin
import Scriptlet.Proofs.Tree.Shape
import Scriptlet.Proofs.Value.Classified
import Scriptlet.Proofs.Value.Observed
import Scriptlet.Proofs.Value.Quoting
import Scriptlet.Session
import Scriptlet.Session.Evaluate
import Scriptlet.Source.Entry
import Scriptlet.Source.File
import Scriptlet.Stream
import Scriptlet.Table
import Scriptlet.Text.Class
import Scriptlet.Text.Graphic
import Scriptlet.Text.Letter
import Scriptlet.Token
import Scriptlet.Token.Comment
import Scriptlet.Token.Cursor
import Scriptlet.Token.Lexeme
import Scriptlet.Tree
import Scriptlet.Tree.Drawing
import Scriptlet.Value
