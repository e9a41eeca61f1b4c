import CangjieSyntax.Corpus.Basic
import CangjieSyntax.Corpus.Cases
import CangjieSyntax.Diagnostic.Basic
import CangjieSyntax.Diagnostic.LexError
import CangjieSyntax.Diagnostic.Message
import CangjieSyntax.Double.Basic
import CangjieSyntax.Grammar.Control
import CangjieSyntax.Grammar.Declarations
import CangjieSyntax.Grammar.Expressions
import CangjieSyntax.Grammar.File
import CangjieSyntax.Grammar.Headers
import CangjieSyntax.Grammar.Items
import CangjieSyntax.Grammar.Lookahead
import CangjieSyntax.Grammar.Patterns
import CangjieSyntax.Grammar.Primary
import CangjieSyntax.Grammar.Quoting
import CangjieSyntax.Grammar.Reading
import CangjieSyntax.Grammar.Recovery
import CangjieSyntax.Grammar.Rule
import CangjieSyntax.Grammar.State
import CangjieSyntax.Grammar.TokenClass
import CangjieSyntax.Grammar.Types
import CangjieSyntax.Json.Basic
import CangjieSyntax.Json.Number
import CangjieSyntax.Json.Text
import CangjieSyntax.Json.Value
import CangjieSyntax.Modifier
import CangjieSyntax.Name.Table
import CangjieSyntax.Operator.Basic
import CangjieSyntax.Parse
import CangjieSyntax.Settings.Basic
import CangjieSyntax.Settings.Json
import CangjieSyntax.Source.Basic
import CangjieSyntax.Source.Span
import CangjieSyntax.Source.Utf8
import CangjieSyntax.Text.Quoted
import CangjieSyntax.Text.Template
import CangjieSyntax.Token.CharLiteral
import CangjieSyntax.Token.Escape
import CangjieSyntax.Token.Flags
import CangjieSyntax.Token.Keyword
import CangjieSyntax.Token.Kind
import CangjieSyntax.Token.Lexeme
import CangjieSyntax.Token.Lexer
import CangjieSyntax.Token.Mode
import CangjieSyntax.Token.Numeral
import CangjieSyntax.Token.Punctuation
import CangjieSyntax.Token.RawString
import CangjieSyntax.Token.Read
import CangjieSyntax.Token.StringText
import CangjieSyntax.Token.Trivia
import CangjieSyntax.Token.Word
import CangjieSyntax.Tree.Arena
import CangjieSyntax.Tree.Node
import CangjieSyntax.Tree.SExpr
import CangjieSyntax.Unicode.Identifier
import CangjieSyntax.Unicode.Printable
import CangjieSyntax.Unicode.Range
import CangjieSyntax.Proofs.Tree.Forest
import CangjieSyntax.Proofs.Tree.Holding
import CangjieSyntax.Proofs.Source.Chars
import CangjieSyntax.Proofs.Token.Word
import CangjieSyntax.Proofs.Token.Lexer
import CangjieSyntax.Proofs.Grammar.Reads
import CangjieSyntax.Proofs.Grammar.Rule
import CangjieSyntax.Proofs.Grammar.Types
import CangjieSyntax.Proofs.Grammar.Primary
import CangjieSyntax.Proofs.Grammar.Control
import CangjieSyntax.Proofs.Grammar.Expressions
import CangjieSyntax.Proofs.Grammar.Declarations
import CangjieSyntax.Proofs.Grammar.File
import CangjieSyntax.Proofs.Parse
import CangjieSyntax.Proofs.Token.Spaced
import CangjieSyntax.Proofs.Formula.Basic
import CangjieSyntax.Proofs.Grammar.Answers
import CangjieSyntax.Proofs.Formula.Operands
import CangjieSyntax.Proofs.Formula.Precedence
import CangjieSyntax.Proofs.Limits
import CangjieSyntax.Proofs.Source.Boundary
import CangjieSyntax.Proofs.Token.Modes
import CangjieSyntax.Proofs.Token.Extent
import CangjieSyntax.Proofs.Token.Gap
import CangjieSyntax.Proofs.Token.Scan
import CangjieSyntax.Proofs.Token.Joining
import CangjieSyntax.Proofs.Lexical
import CangjieSyntax.Proofs.Grammar.Scanning
import CangjieSyntax.Proofs.Token.Checked
import CangjieSyntax.Proofs.Token.Access
import CangjieSyntax.Proofs.Token.Session
import CangjieSyntax.Proofs.Token.Progress
import CangjieSyntax.Proofs.Ending.Calls
import CangjieSyntax.Proofs.Ending.Control
import CangjieSyntax.Proofs.Ending.Declarations
import CangjieSyntax.Proofs.Ending.File
import CangjieSyntax.Proofs.Termination
import CangjieSyntax.Proofs.Layout.File
import CangjieSyntax.Proofs.Spans
import CangjieSyntax.Proofs.Token.Balance
import CangjieSyntax.Proofs.Comment.Basic
import CangjieSyntax.Proofs.Excerpt.Lookahead
import CangjieSyntax.Proofs.Excerpt.Parse
import CangjieSyntax.Proofs.Comment.Parse
import CangjieSyntax.Proofs.Completeness
import CangjieSyntax.Proofs.Name.Table
import CangjieSyntax.Proofs.Batch
import CangjieSyntax.Proofs.Token.Row
import CangjieSyntax.Proofs.Grammar.Walks
import CangjieSyntax.Proofs.TypeTerm.Basic
import CangjieSyntax.Proofs.TypeTerm.Layout
import CangjieSyntax.Proofs.TypeTerm.Types
import CangjieSyntax.Proofs.TypeTerm.Meaning
import CangjieSyntax.Proofs.TypeTerm.Operands
import CangjieSyntax.Proofs.TypeTerm.Values
import CangjieSyntax.Proofs.TypeTerm.Declared
import CangjieSyntax.Proofs.TypeTerm.Roundtrip
import CangjieSyntax.Proofs.Invariant.Rule
import CangjieSyntax.Proofs.Invariant.Grammar
import CangjieSyntax.Proofs.Invariant.Precedence
import CangjieSyntax.Proofs.Invariant.Placeholders
import CangjieSyntax.Proofs.TypeTerm.Arguments
import CangjieSyntax.Proofs.Token.RawString
import CangjieSyntax.Proofs.Token.Shape
import CangjieSyntax.Proofs.Grammar.Shapes
import CangjieSyntax.Proofs.Grammar.Operand
import CangjieSyntax.Proofs.Literal.RawString
import CangjieSyntax.Proofs.Chain.Basic
import CangjieSyntax.Proofs.Chain.Roundtrip
import CangjieSyntax.Proofs.Literal.Text
import CangjieSyntax.Proofs.Literal.String
import CangjieSyntax.Proofs.Invariant.Chains
import CangjieSyntax.Proofs.Comment.Nesting
import CangjieSyntax.Proofs.Literal.Char
import CangjieSyntax.Proofs.Grammar.Lexing
import CangjieSyntax.Proofs.Token.Change
import CangjieSyntax.Proofs.Literal.LineEnd
import CangjieSyntax.Proofs.Numeral.Grammar
import CangjieSyntax.Proofs.Numeral.Read
import CangjieSyntax.Proofs.Numeral.Exact
import CangjieSyntax.Proofs.Token.Munch
import CangjieSyntax.Proofs.Token.Reported
import CangjieSyntax.Proofs.Pattern.Admitted
import CangjieSyntax.Proofs.Pattern.Alternation
import CangjieSyntax.Proofs.Pattern.Places
import CangjieSyntax.Proofs.Invariant.Assignments
import CangjieSyntax.Proofs.Import.Flatten
import CangjieSyntax.Proofs.Import.Headers
import CangjieSyntax.Proofs.Quote
import CangjieSyntax.Proofs.Recovery
import CangjieSyntax.Proofs.Lockstep.Budget
import CangjieSyntax.Proofs.MacroCall
import CangjieSyntax.Proofs.Text.Template
import CangjieSyntax.Proofs.Nesting.Calls
import CangjieSyntax.Proofs.Budget
