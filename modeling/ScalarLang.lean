import ScalarLang.Analysis.Basic
import ScalarLang.Analysis.Call
import ScalarLang.Analysis.Conversion
import ScalarLang.Analysis.Function
import ScalarLang.Analysis.Operation
import ScalarLang.Analysis.Return
import ScalarLang.Analysis.Statement
import ScalarLang.Analysis.Variable
import ScalarLang.CommandLine
import ScalarLang.Diagnostic.Basic
import ScalarLang.Diagnostic.Problem
import ScalarLang.Diagnostic.Report
import ScalarLang.Diagnostic.Wording
import ScalarLang.Expr.Arena
import ScalarLang.Expr.Basic
import ScalarLang.Expr.Hash
import ScalarLang.Expr.Printer
import ScalarLang.Expr.Tree
import ScalarLang.Files
import ScalarLang.Invocation
import ScalarLang.Literal
import ScalarLang.Main
import ScalarLang.Number.Binary
import ScalarLang.Number.Decimal
import ScalarLang.Number.Notation
import ScalarLang.Operator
import ScalarLang.Options
import ScalarLang.Parser.Declaration
import ScalarLang.Parser.Expression
import ScalarLang.Parser.Grammar
import ScalarLang.Parser.Nesting
import ScalarLang.Parser.Program
import ScalarLang.Parser.Recovery
import ScalarLang.Parser.Session
import ScalarLang.Parser.Statement
import ScalarLang.Parser.TokenStream
import ScalarLang.Parser.TypeName
import ScalarLang.Scalar
import ScalarLang.Source.Excerpt
import ScalarLang.Source.Span
import ScalarLang.Text.Blank
import ScalarLang.Text.Printable
import ScalarLang.Text.Quoted
import ScalarLang.Text.Width
import ScalarLang.Token.Basic
import ScalarLang.Token.Connective
import ScalarLang.Token.Cursor
import ScalarLang.Token.Fault
import ScalarLang.Token.Kind
import ScalarLang.Token.Lexer
import ScalarLang.Token.NumberLiteral
import ScalarLang.Token.Numeral
import ScalarLang.Token.Piece
import ScalarLang.Token.Spelling
import ScalarLang.Ty.Basic
import ScalarLang.Ty.Table
import ScalarLang.Proofs.Analysis.Changes
import ScalarLang.Proofs.Analysis.Growth
import ScalarLang.Proofs.Analysis.Yields
import ScalarLang.Proofs.Analysis.Regular
import ScalarLang.Proofs.Analysis.Signature
import ScalarLang.Proofs.Language.Acceptance
import ScalarLang.Proofs.Language.Commas
import ScalarLang.Proofs.Language.Declaration
import ScalarLang.Proofs.Language.Expression
import ScalarLang.Proofs.Language.Statement
import ScalarLang.Proofs.Language.TypeName
import ScalarLang.Proofs.Language.Words
import ScalarLang.Proofs.Parser.Blindness
import ScalarLang.Proofs.Parser.Bounds
import ScalarLang.Proofs.Parser.Consumption
import ScalarLang.Proofs.Parser.Declaration
import ScalarLang.Proofs.Parser.Expression
import ScalarLang.Proofs.Parser.Gives
import ScalarLang.Proofs.Simulation.Basic
import ScalarLang.Proofs.Parser.Moves
import ScalarLang.Proofs.Parser.Place
import ScalarLang.Proofs.Parser.Program
import ScalarLang.Proofs.Parser.Yields
import ScalarLang.Proofs.Parser.Replay
import ScalarLang.Proofs.Parser.Statement
import ScalarLang.Proofs.Parser.TypeName
import ScalarLang.Proofs.Token.Scan
import ScalarLang.Proofs.Analysis.Called
import ScalarLang.Proofs.Analysis.Declared
import ScalarLang.Proofs.Analysis.Operated
import ScalarLang.Proofs.Program.Expression
import ScalarLang.Proofs.Program.Statement
import ScalarLang.Proofs.Analysis.Defined
import ScalarLang.Proofs.Program.Declaration
import ScalarLang.Proofs.Program.Scoping
import ScalarLang.Proofs.Precedence.Climbing
import ScalarLang.Proofs.Precedence.ReadBack
import ScalarLang.Proofs.Reach.Accounting
import ScalarLang.Proofs.Reach.Names
import ScalarLang.Proofs.Reach.Overloads
import ScalarLang.Proofs.Reach.Faults
import ScalarLang.Proofs.Layout.Independence
import ScalarLang.Proofs.Scope.Constructs
import ScalarLang.Proofs.Literals.Compiled
import ScalarLang.Proofs.Token.Coverage
import ScalarLang.Proofs.Ty.ReadBack
import ScalarLang.Proofs.Ty.Relations
import ScalarLang.Proofs.Reach.Trees
import ScalarLang.Proofs.Failed.Declaration
import ScalarLang.Proofs.Failed.Header
import ScalarLang.Proofs.Failed.Prototype
import ScalarLang.Proofs.Failed.Recovery
import ScalarLang.Proofs.Token.Respaced
import ScalarLang.Proofs.Literals.Classified
import ScalarLang.Proofs.Expr.Equality
import ScalarLang.Proofs.Literals.Ranges
import ScalarLang.Proofs.Spans.Actions
import ScalarLang.Proofs.Spans.Carets
import ScalarLang.Proofs.Spans.Checks
import ScalarLang.Proofs.Spans.Parses
import ScalarLang.Proofs.Spans.Productions
import ScalarLang.Proofs.Spans.Tokens
import ScalarLang.Proofs.Angles.Closers
import ScalarLang.Proofs.Angles.Closing
import ScalarLang.Proofs.Angles.Pieces
import ScalarLang.Proofs.Angles.Productions
import ScalarLang.Proofs.Angles.Rejoined
import ScalarLang.Proofs.Angles.Spaced
import ScalarLang.Proofs.Angles.Runs
import ScalarLang.Proofs.Precedence.Nesting
import ScalarLang.Proofs.Shape.Actions
import ScalarLang.Proofs.Shape.Ledger
import ScalarLang.Proofs.Shape.Parses
import ScalarLang.Proofs.Shape.Productions
import ScalarLang.Proofs.Shape.Program
