import QueryTree.Error

/-!
# Date patterns

A pattern such as `YYYY-MM-dd HH:mm` is cut into directives, sections in brackets and plain
characters, and each piece is written in the format language of the dialect.

- `Directive`, `directives`: the directives and what each dialect calls them.
- `Piece`, `split`: the pieces of a pattern, longest directives first.
- `native`: the format of a whole pattern.
-/

namespace QueryTree.DatePattern

/-- A directive and its native forms; a dialect may have none. -/
structure Directive where
  symbol : String
  mysql : Option String
  postgresql : Option String
  sqlite : Option String
deriving DecidableEq, Repr

/-- The native form in a dialect. -/
def Directive.native (directive : Directive) : Dialect → Option String
  | .mysql => directive.mysql
  | .postgresql => directive.postgresql
  | .sqlite => directive.sqlite

/-- All directives, longer symbols before shorter ones. -/
def directives : List Directive :=
  [⟨"YYYY", some "%Y", some "YYYY", some "%Y"⟩,
   ⟨"MMMM", some "%M", some "FMMonth", none⟩,
   ⟨"dddd", some "%W", some "FMDay", none⟩,
   ⟨"MMM", some "%b", some "Mon", none⟩,
   ⟨"ddd", some "%a", some "Dy", none⟩,
   ⟨"DDD", some "%j", some "DDD", some "%j"⟩,
   ⟨"SSS", none, some "MS", none⟩,
   ⟨"YY", some "%y", some "YY", none⟩,
   ⟨"MM", some "%m", some "MM", some "%m"⟩,
   ⟨"dd", some "%d", some "DD", some "%d"⟩,
   ⟨"Do", some "%D", some "FMDDth", none⟩,
   ⟨"HH", some "%H", some "HH24", some "%H"⟩,
   ⟨"hh", some "%h", some "HH12", none⟩,
   ⟨"mm", some "%i", some "MI", some "%M"⟩,
   ⟨"ss", some "%s", some "SS", some "%S"⟩,
   ⟨"M", some "%c", some "FMMM", none⟩,
   ⟨"d", some "%e", some "FMDD", none⟩,
   ⟨"D", some "%w", some "D", some "%w"⟩,
   ⟨"H", some "%k", some "FMHH24", none⟩,
   ⟨"h", some "%l", some "FMHH12", none⟩,
   ⟨"f", some "%f", some "US", none⟩,
   ⟨"A", some "%p", some "AM", none⟩,
   ⟨"w", some "%U", some "WW", some "%W"⟩,
   ⟨"Q", none, some "Q", none⟩,
   ⟨"Z", none, some "OF", none⟩]

/-- The first directive that a text begins with. -/
def directiveAt? (cs : List Char) : Option Directive :=
  directives.find? fun directive => directive.symbol.toList.isPrefixOf cs

/-- A piece of a pattern. -/
inductive Piece where
  | directive (directive : Directive)
  | quoted (text : List Char)
  | plain (c : Char)
deriving DecidableEq, Repr

/-- The pieces of a pattern. A section in brackets ends at the first closing bracket, or at the
end of the pattern. -/
def split : List Char → List Piece
  | [] => []
  | '[' :: rest =>
    .quoted (rest.takeWhile (· != ']')) :: split ((rest.dropWhile (· != ']')).drop 1)
  | c :: rest =>
    match directiveAt? (c :: rest) with
    | some directive => .directive directive :: split (rest.drop (directive.symbol.length - 1))
    | none => .plain c :: split rest
termination_by cs => cs.length
decreasing_by
  · have := (List.dropWhile_suffix (l := rest) (· != ']')).length_le
    simp only [List.length_drop, List.length_cons]
    omega
  · simp only [List.length_drop, List.length_cons]
    omega
  · simp

/-- Whether the formats of a dialect mark directives by a percent sign. -/
def usesPercent : Dialect → Bool
  | .mysql | .sqlite => true
  | .postgresql => false

/-- A percent sign is written twice. -/
def escapePercent (c : Char) : List Char :=
  if c = '%' then ['%', '%'] else [c]

/-- A quote is written behind a backslash. -/
def escapeQuote (c : Char) : List Char :=
  if c = '"' then ['\\', '"'] else [c]

/-- A text between double quotes; an empty text needs none. -/
def quoteText (text : List Char) : List Char :=
  if text.isEmpty then [] else '"' :: text.flatMap escapeQuote ++ ['"']

/-- The native form of a piece. -/
def Piece.native (dialect : Dialect) : Piece → Except CompileError (List Char)
  | .directive d =>
    match d.native dialect with
    | some text => .ok text.toList
    | none => .error (.unsupported s!"date token '{d.symbol}'" dialect)
  | .quoted text =>
    .ok (if usesPercent dialect then text.flatMap escapePercent else quoteText text)
  | .plain c => .ok (if usesPercent dialect then escapePercent c else [c])

/-- The native forms of pieces, one after the other. -/
def nativeAll (dialect : Dialect) : List Piece → Except CompileError (List Char)
  | [] => .ok []
  | piece :: rest => do
    let text ← piece.native dialect
    return text ++ (← nativeAll dialect rest)

/-- The native format of a pattern. -/
def native (pattern : String) (dialect : Dialect) : Except CompileError String := do
  return String.ofList (← nativeAll dialect (split pattern.toList))

end QueryTree.DatePattern
