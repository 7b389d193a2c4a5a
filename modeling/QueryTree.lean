import QueryTree.Text.Class
import QueryTree.Text.Blank
import QueryTree.Text.Letter
import QueryTree.Text.Escaped
import QueryTree.Decimal.Digits
import QueryTree.Decimal.Shortest
import QueryTree.Decimal.Format
import QueryTree.Json.Basic
import QueryTree.Json.Printer
import QueryTree.Json.Reader
import QueryTree.Text.Quoted
import QueryTree.Decode
import QueryTree.Dialect.Basic
import QueryTree.Cipher.Mode
import QueryTree.Error
import QueryTree.Cipher.Settings
import QueryTree.Value
import QueryTree.Text.Split
import QueryTree.Token.Number
import QueryTree.Token.Date
import QueryTree.Interval
import QueryTree.DatePattern
import QueryTree.Dialect.Quoting
import QueryTree.Sql.Lexeme
import QueryTree.Sql.Bindings
import QueryTree.Sql.Fragment
import QueryTree.Tree.Options
import QueryTree.Tree.Basic
import QueryTree.Sql.Spelling
import QueryTree.Scope
import QueryTree.Token.Constant
import QueryTree.Token.Basic
import QueryTree.Sql.Encryption
import QueryTree.Sql.Date
import QueryTree.Sql.Comparison
import QueryTree.Sql.Query
import QueryTree.Sql.Statement
import QueryTree.Tree.Record
import QueryTree.Tree.Reading.Query
import QueryTree.Tree.Reading.Steps
import QueryTree.Tree.Reading.Wrapper
import QueryTree.Tree.Reading.Node
import QueryTree.Tree.Reading.Statement
import QueryTree.Toml.Token
import QueryTree.Toml.Document
import QueryTree.Config
import QueryTree.Compiler
import QueryTree.Proofs.Lexing.QuotedName
import QueryTree.Proofs.Lexing.Atom
import QueryTree.Proofs.Lexing.Lexicon
import QueryTree.Proofs.Lexing.Tidy
import QueryTree.Proofs.Binding.Run
import QueryTree.Proofs.Binding.Trace
import QueryTree.Proofs.Binding.Placeholders
import QueryTree.Proofs.Binding.Shift
import QueryTree.Proofs.Emission.Grammar
import QueryTree.Proofs.Emission.Phrase
import QueryTree.Proofs.Emission.Tree
import QueryTree.Proofs.Statement.Basic
import QueryTree.Proofs.Statement.Order
import QueryTree.Proofs.Statement.Vocabulary
import QueryTree.Proofs.Statement.Numbering
import QueryTree.Proofs.Statement.Independence
import QueryTree.Proofs.Nesting.Face
import QueryTree.Proofs.Nesting.Tree
import QueryTree.Proofs.Binding.Written
import QueryTree.Proofs.Nesting.Operand
import QueryTree.Proofs.Condition.Predicate
import QueryTree.Proofs.Condition.Formula
import QueryTree.Proofs.Condition.Meaning
import QueryTree.Proofs.Condition.LeftSide
import QueryTree.Proofs.Condition.Order
import QueryTree.Proofs.Reading.Record
import QueryTree.Proofs.Statement.Filter
import QueryTree.Proofs.Binding.Content
import QueryTree.Proofs.Statement.Outcome
import QueryTree.Proofs.Emission.Congruence
import QueryTree.Proofs.Portability.Bare
import QueryTree.Proofs.Statement.Portability
import QueryTree.Proofs.Cipher.Recast
import QueryTree.Proofs.Cipher.Tree
import QueryTree.Proofs.Reading.Related
import QueryTree.Proofs.Reading.Parts
import QueryTree.Proofs.Cipher.Form
import QueryTree.Proofs.Cipher.Reading
import QueryTree.Proofs.Cipher.Policy
import QueryTree.Proofs.Statement.Recast
import QueryTree.Proofs.Statement.Secrecy
import QueryTree.Proofs.Cipher.Calls
import QueryTree.Proofs.Statement.BlockMode
import QueryTree.Proofs.Visibility.Mention
import QueryTree.Proofs.Visibility.Tree
import QueryTree.Proofs.Statement.Visibility
import QueryTree.Proofs.Statement.Balance
import QueryTree.Proofs.Reading.Sequence
import QueryTree.Proofs.Tree.Site
import QueryTree.Proofs.Tree.Reading
import QueryTree.Proofs.Tree.Blame
import QueryTree.Proofs.Tree.Accounted
import QueryTree.Proofs.Statement.Reading
import QueryTree.Proofs.Statement.WellFormed
import QueryTree.Proofs.Options.Slot
import QueryTree.Proofs.Options.Agree
import QueryTree.Proofs.Options.Alike
import QueryTree.Proofs.Options.Record
import QueryTree.Proofs.Options.Reading
import QueryTree.Proofs.Options.Rearranged
import QueryTree.Proofs.Options.Pruned
import QueryTree.Proofs.Statement.Options
import QueryTree.Proofs.Statement.Alignment
import QueryTree.Proofs.Statement.Opacity
import QueryTree.Proofs.Emission.Frame
import QueryTree.Proofs.Statement.Segment
import QueryTree.Proofs.Statement.Composition
import QueryTree.Proofs.Statement.NullTest
import QueryTree.Proofs.Nesting.Complete
import QueryTree.Proofs.Statement.Hollow
import QueryTree.Proofs.Statement.Clauses
import QueryTree.Proofs.Binding.Stretch
import QueryTree.Proofs.Cipher.Precedence
import QueryTree.Proofs.Cipher.Tie
import QueryTree.Proofs.Cipher.Override
import QueryTree.Proofs.Pattern.Munch
import QueryTree.Proofs.Pattern.Formats
import QueryTree.Proofs.Interval.Grammar
import QueryTree.Proofs.Statement.Encrypted
import QueryTree.Proofs.Statement.SortKeys
import QueryTree.Proofs.Date.Modifier
import QueryTree.Proofs.Date.Order
import QueryTree.Proofs.Json.ArrayLiteral
import QueryTree.Proofs.Decimal.Nearest
import QueryTree.Proofs.Statement.Integers
