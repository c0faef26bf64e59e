import OpLang.Cli.Folder
import OpLang.Main
import OpLang.Program
import OpLang.Proofs.Operators
import OpLang.Proofs.Parser.Ahead
import OpLang.Proofs.Parser.Runs
import OpLang.Proofs.Grammar.Chain
import OpLang.Proofs.Parser.Trees
import OpLang.Proofs.Parser.Derivations
import OpLang.Proofs.Expr
import OpLang.Proofs.Parser.Expressions
import OpLang.Proofs.Grammar.Program
import OpLang.Proofs.Parser.Items
import OpLang.Proofs.Parser.Programs
import OpLang.Proofs.Parser.Foresight
import OpLang.Proofs.Parser.Offenders
import OpLang.Proofs.Lexer.Ahead
import OpLang.Proofs.Lexer.Lexemes
import OpLang.Proofs.Grammar.Writing
import OpLang.Proofs.RoundTrip
import OpLang.Proofs.Session.Accounting
import OpLang.Proofs.Lexer.Segmentation
import OpLang.Proofs.Text.Encoding
import OpLang.Proofs.Text.Utf8
import OpLang.Proofs.Source.Delivery
import OpLang.Proofs.Source.Decoding
import OpLang.Proofs.Lexer.Places
import OpLang.Proofs.Parser.Streams
import OpLang.Proofs.Session.Agreement
import OpLang.Proofs.Session.Precedences
import OpLang.Proofs.Session.Independence
import OpLang.Proofs.Lexer.Relocation
import OpLang.Proofs.Grammar.Soundness
import OpLang.Proofs.Parser.Soundness
import OpLang.Proofs.Parser.Stopping
import OpLang.Proofs.Session.Soundness
import OpLang.Proofs.Parser.Permission
import OpLang.Proofs.Lexer.Order
import OpLang.Proofs.Grammar.Repetition
import OpLang.Proofs.Parser.Repetition
import OpLang.Proofs.Number.Search
import OpLang.Proofs.Number.Decimal
import OpLang.Proofs.Number.Shortest
import OpLang.Proofs.Number.Literal
import OpLang.Proofs.Number.Printing
import OpLang.Proofs.Readability
import OpLang.Proofs.Equality
import OpLang.Proofs.Lexer.Drawing
import OpLang.Proofs.Parser.Standing
import OpLang.Proofs.Source.Consumption
import OpLang.Proofs.Session.Flushes
import OpLang.Proofs.Session.Waiting
import OpLang.Proofs.Lexer.Excerpts
import OpLang.Proofs.Lexer.Lookahead
import OpLang.Proofs.Text.Ascii
import OpLang.Proofs.Session.Script
import OpLang.Proofs.Session.Keeping
import OpLang.Proofs.Session.Limits
import OpLang.Proofs.Session.Refusal
import OpLang.Proofs.Session.Lines
import OpLang.Proofs.Session.Progress
import OpLang.Proofs.Lexer.Remainder
import OpLang.Proofs.Lexer.Layout
import OpLang.Proofs.Lexer.Counters
import OpLang.Proofs.Lexer.Joining
import OpLang.Proofs.Session.Layout
import OpLang.Proofs.Session.Rounds
import OpLang.Proofs.Session.Resumption
import OpLang.Proofs.Session.Errors
import OpLang.Proofs.Number.Integer
import OpLang.Proofs.Cli.Precedence
import OpLang.Proofs.Text.Escape
import OpLang.Proofs.Text.Printable
import OpLang.Proofs.Token
import OpLang.Proofs.Source.Supply
import OpLang.Proofs.Cli.Listing
import OpLang.Proofs.Parser.Records
import OpLang.Proofs.Session.Records
import OpLang.Proofs.Item
import OpLang.Proofs.Cli.Inputs
import OpLang.Proofs.Parser.Calls
import OpLang.Proofs.Pattern.Rule
import OpLang.Proofs.Cli.Suggestion
