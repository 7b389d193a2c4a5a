import QueryTree.Scope
import QueryTree.Text.Letter
import QueryTree.Token.Constant
import QueryTree.Token.Date
import QueryTree.Token.Number

/-!
# Texts of callers

A text is a column, a path, a constant or a literal, depending on where it stands. Here is the
only place where such a text can reach a statement: as a constant of the library, as an identifier
or as a bound value.

- `column`: a text in the place of a column.
- `value`: a text in the place of a value.
-/

namespace QueryTree.Token

open Text

/-- The two spellings of null. -/
def isNull (token : String) : Bool :=
  token == "null" || token == "NULL"

/-- What follows the mark of a literal. -/
def literal? (token : String) : Option String :=
  match token.toList with
  | '#' :: rest => some (String.ofList rest)
  | _ => none

/-- The table of a text that ends in `.*`. -/
def starTable? (token : String) : Option String :=
  match token.toList.reverse with
  | '*' :: '.' :: rest => some (String.ofList rest.reverse)
  | _ => none

/-- A text with a star: all columns, or all columns of a table. -/
def star (token : String) : Fragment :=
  if token == "*" then "*"
  else
    match starTable? token with
    | some table =>
      if isName table then .token (.name (pathParts table)) ++ Fragment.word ".*"
      else .fail (.invalid token .strayStar)
    | none => .fail (.invalid token .strayStar)

/-- A text in the place of a column: select items, keys and arguments of wrappers. Numbers and
dates are bound, everything else that is not special is an identifier. -/
def column (scope : Scope) (token : String) : Fragment :=
  match Constant.ofName? token with
  | some constant => constant.fragment scope.dialect
  | none =>
    if token.toList.contains '*' then star token
    else if isNull token then "NULL"
    else
      match literal? token with
      | some text => .text text
      | none =>
        if isNumeric token.toList || isDate token.toList then .text token
        else .path (scope.qualify token)

/-- Whether a text names a column of a table or alias in sight. -/
def isReference (scope : Scope) (token : String) : Bool :=
  match cutAt? '.' token.toList with
  | some (table, column) => scope.knows (String.ofList table) && isName (String.ofList column)
  | none => false

/-- A text in the place of a value: right sides of comparisons and results of branches. It is
bound as it is unless it is a constant, null, a marked literal or a reference in sight. -/
def value (scope : Scope) (token : String) : Fragment :=
  match Constant.ofName? token with
  | some constant => constant.fragment scope.dialect
  | none =>
    if isNull token then "NULL"
    else
      match literal? token with
      | some text => .text text
      | none => if isReference scope token then .path token else .text token

end QueryTree.Token
