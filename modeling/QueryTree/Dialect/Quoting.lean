import QueryTree.Dialect.Basic
import QueryTree.Text.Split

/-!
# Quoted names

A name stands between quotes, and a quote inside it is written twice. A path is the sequence of
its dot-separated parts, each quoted, with dots between them.

- `Dialect.quote`: the quote of a dialect.
- `quotePart`: one quoted name, dots included.
- `quoteParts`: quoted names with dots between them.
- `quotePath`: the parts of a dotted path.
-/

namespace QueryTree

open Text

/-- The character that names are quoted with. -/
def Dialect.quote : Dialect → Char
  | .mysql => '\x60'
  | .postgresql | .sqlite => '"'

/-- Writes the quote twice. -/
def doubled (q c : Char) : List Char :=
  if c = q then [q, q] else [c]

/-- A name between quotes. -/
def quotePart (q : Char) (name : String) : String :=
  String.ofList (q :: name.toList.flatMap (doubled q) ++ [q])

/-- Quoted names with dots between them. -/
def quoteParts (q : Char) (parts : List String) : String :=
  String.intercalate "." (parts.map (quotePart q))

/-- A path, quoted part by part. -/
def quotePath (q : Char) (path : String) : String :=
  quoteParts q (pathParts path)

end QueryTree
