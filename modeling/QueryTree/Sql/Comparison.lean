import QueryTree.Sql.Spelling
import QueryTree.Tree.Basic

/-!
# Comparisons

How the parts of a condition are put together once they are written.

- `Junction.chain`, `Junction.group`, `Junction.nest`: conditions joined by a connective.
- `leftOperand`: the column that a comparison is about.
- `equals`, `isNullTest`, `isNotNullTest`, `inList`, `compareWith`: comparisons.
-/

namespace QueryTree

open Fragment (literal spaced commas operated words parens)

namespace Junction

/-- Conditions joined by the connective. -/
def chain (junction : Junction) (parts : List Fragment) : Fragment :=
  operated junction.keyword parts

/-- Several conditions joined and put in parentheses; one stands as it is. -/
def nest (junction : Junction) (parts : List Fragment) : Fragment :=
  match parts with
  | [] => .empty
  | [part] => part
  | parts => parens (junction.chain parts)

/-- Like `nest`, but there has to be a condition. -/
def group (junction : Junction) (parts : List Fragment) : Fragment :=
  if parts.isEmpty then .fail (.invalid "condition" .emptyCondition) else junction.nest parts

end Junction

/-- The column that a comparison is about. -/
def leftOperand (parent : Option Fragment) (comparison : String) : Fragment :=
  parent.getD (.fail (.missing "column" s!"'{comparison}' comparison"))

/-- A test for equality. -/
def equals (left right : Fragment) : Fragment :=
  spaced [left, "=", right]

/-- A test for null. -/
def isNullTest (left : Fragment) : Fragment :=
  spaced [left, "IS", "NULL"]

/-- A test for a value. -/
def isNotNullTest (left : Fragment) : Fragment :=
  spaced [left, "IS", "NOT", "NULL"]

/-- A test for one of a list of values; there has to be one. -/
def inList (field : String) (comparator : Comparator) (left : Fragment) (items : List Fragment) :
    Fragment :=
  if items.isEmpty then .fail (.invalid field .emptyIn)
  else spaced [left, words comparator.words, parens (commas items)]

/-- A value with wildcards around it. -/
def wildcarded (dialect : Dialect) (ends : Bool × Bool) (f : Fragment) : Fragment :=
  let wildcard := literal "%"
  dialect.concatenate
    ((if ends.1 then [wildcard] else []) ++ [dialect.textOperand f]
      ++ if ends.2 then [wildcard] else [])

/-- A comparison by an operator; text matches get their wildcards. -/
def compareWith (dialect : Dialect) (comparator : Comparator) (left right : Fragment) : Fragment :=
  let right := match comparator.wildcards with
    | some ends => wildcarded dialect ends right
    | none => right
  spaced [left, words comparator.words, right]

/-- Whether an expression is null, in any spelling. -/
def Expr.isNull : Expr → Bool
  | .null => true
  | .text token => token == "null" || token == "NULL"
  | _ => false

/-- Whether an operand asks for a test of null, and which of the two tests it is. -/
def nullTest? (operand : Expr) : Option Bool :=
  if operand.isNull then some true
  else
    match operand with
    | .text "isNull" => some true
    | .text "isNotNull" => some false
    | _ => none

end QueryTree
