import QueryTree.Dialect.Quoting

/-!
# Lexemes of a statement

The text of a statement is a sequence of lexemes. Words and literals come from the library, and
names and placeholders are all that callers can add.

- `Lexeme`: the kinds of lexeme.
- `Lexeme.text`, `render`: their spelling in a dialect.
-/

namespace QueryTree

/-- A lexeme of a statement. -/
inductive Lexeme where
  | space
  | comma
  | opening
  | closing
  /-- A keyword, a function, an operator or a numeral. -/
  | word (w : String)
  /-- A fixed text between single quotes. -/
  | literal (s : String)
  /-- A quoted name of one or more parts. -/
  | name (parts : List String)
  /-- The placeholder of a value, with its number. -/
  | slot (index : Nat)
  /-- The placeholder of an identifier. -/
  | nameSlot
deriving DecidableEq, Repr

/-- The placeholder of a value. -/
def Dialect.placeholder (dialect : Dialect) (index : Nat) : String :=
  if dialect.isPositional then "?" else "$" ++ Decimal.natText index

/-- The spelling of a lexeme. -/
def Lexeme.text (dialect : Dialect) : Lexeme → String
  | .space => " "
  | .comma => ","
  | .opening => "("
  | .closing => ")"
  | .word w => w
  | .literal s => "'" ++ s ++ "'"
  | .name parts => quoteParts dialect.quote parts
  | .slot index => dialect.placeholder index
  | .nameSlot => "??"

/-- The text of a sequence of lexemes. -/
def render (dialect : Dialect) (lexemes : List Lexeme) : String :=
  String.join (lexemes.map (Lexeme.text dialect))

end QueryTree
