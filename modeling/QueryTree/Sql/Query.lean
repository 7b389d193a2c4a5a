import QueryTree.Sql.Comparison
import QueryTree.Sql.Date
import QueryTree.Sql.Encryption
import QueryTree.Token.Basic

/-!
# Expressions, conditions and queries as fragments

Every part of a tree has one fragment in a scope. The fragment of a column is written again for
each comparison of it, so that each occurrence binds its own values.

- `Place`: whether a text stands for a column or for a value.
- `Expr.fragment`, `Wrapper.fragment`: expressions.
- `Entry.fragment`, `entryFragments`, `groupFragments`: conditions.
- `Query.fragment`, `Join.fragment`: queries and joins.
-/

namespace QueryTree

open Fragment (word tokens spaced commas operated words parens call)

/-- Whether a text stands for a column or for a value. -/
inductive Place where
  | column
  | value
deriving DecidableEq, Repr

/-- The fragment of a text. -/
def Place.token (place : Place) (scope : Scope) (token : String) : Fragment :=
  match place with
  | .column => Token.column scope token
  | .value => Token.value scope token

/-- A table and its alias. -/
def tableFragment (table : String) (alias? : Option String) : Fragment :=
  match alias? with
  | some name => spaced [.path table, "AS", .path name]
  | none => .path table

/-- The aliases of select items. -/
def outputAliases (items : List Expr) : List String :=
  items.filterMap fun
    | .wrapper w => w.alias?
    | _ => none

/-- A text to sort or group by: an output alias stands as it is. -/
def sortKey (scope : Scope) (outputs : List String) (token : String) : Fragment :=
  if outputs.contains token then .path token else Token.column scope token

/-- Keys to sort by with their directions. -/
def orderFragments (scope : Scope) (outputs : List String) (keys : List (String × SortOrder)) :
    List Fragment :=
  keys.map fun (key, order) => spaced [sortKey scope outputs key, order.keyword]

/-- A select item with its alias. -/
def aliased (alias? : Option String) (f : Fragment) : Fragment :=
  match alias? with
  | some name => spaced [f, "AS", .outputName name]
  | none => f

/-- A clause after what stands before it. -/
def clause (keywords : List String) (body : Fragment) : Fragment :=
  .token .space ++ spaced [words keywords, body]

/-- A clause that is left out if it has no parts. -/
def listClause (keywords : List String) (parts : List Fragment) : Fragment :=
  if parts.isEmpty then .empty else clause keywords (commas parts)

/-- A condition clause, left out if there is no condition. -/
def conditionClause (keyword : String) (junction : Junction) (parts : List Fragment) : Fragment :=
  if parts.isEmpty then .empty else clause [keyword] (junction.chain parts)

/-- The number of rows, and how many are passed over. -/
def limitFragment (dialect : Dialect) (limit offset : Option Nat) : Fragment :=
  let limited := match limit, offset with
    | some n, _ => clause ["LIMIT"] (.value (.ofNat n))
    | none, some _ =>
      match dialect.unboundedLimit with
      | some unbounded => clause ["LIMIT"] unbounded
      | none => .empty
    | none, none => .empty
  let passed := match offset with
    | some n => clause ["OFFSET"] (.value (.ofNat n))
    | none => .empty
  limited ++ passed

/-- The rounding of a number. -/
def Rounding.apply (dialect : Dialect) (f : Fragment) : Rounding → Fragment
  | .ceil => call "CEIL" [f]
  | .floor => call "FLOOR" [f]
  | .round => call "ROUND" [f]
  | .digits n =>
    match dialect with
    | .postgresql => call "ROUND" [f.cast ["NUMERIC"], .value (.int n)]
    | .mysql | .sqlite => call "ROUND" [f, .value (.int n)]

/-- The value of a wrapper, decrypted and converted. -/
def Preparation.apply (scope : Scope) (prepare : Preparation) (f : Fragment) : Fragment :=
  let f := prepare.decrypt.elim f fun column => scope.cipher .decrypt column f
  scope.dialect.castOptional f prepare.cast

/-- Texts put together, with a separator in each gap. -/
def concatFragment (dialect : Dialect) (separator : Option String) (parts : List Fragment) :
    Fragment :=
  match dialect, separator with
  | .sqlite, some separator =>
    parens (operated "||" (parts.intersperse (.text separator)))
  | .sqlite, none => parens (operated "||" parts)
  | _, some separator => call "CONCAT_WS" (dialect.textOperand (.text separator) :: parts)
  | _, none => call "CONCAT" parts

/-- A JSON value with its finishing steps. -/
def JsonOptions.apply (dialect : Dialect) (options : JsonOptions) (f : Fragment) : Fragment :=
  let f := match options.extract with
    | some path => dialect.jsonExtract f (.text (dialect.jsonPath path))
    | none => f
  match options.contains with
  | some candidate =>
    let candidate : Fragment := .text candidate.compact
    match dialect.jsonContains? f candidate with
    | some f => f
    | none => f ++ candidate ++ .fail (.unsupported "contains" dialect)
  | none => f

/-- Values collected to one, if that is asked for. -/
def JsonOptions.collect (dialect : Dialect) (options : JsonOptions) (f : Fragment) : Fragment :=
  if options.aggregate then call dialect.jsonAggregateFunction [f] else f

/-- A value wrapper as an entry: under a column it is compared for equality unless it has
comparisons of its own. Its values are bound before those of the column. -/
def wrapperEntry (parent : Option Fragment) (compared : Bool) (f : Fragment) : Fragment :=
  match parent with
  | some left =>
    if compared then f else .crossed left (tokens [.space, .word "=", .space] ++ f)
  | none => f

/-- A column between two bounds. -/
def betweenFragment (parent : Option Fragment) (low high : Fragment) : Fragment :=
  spaced [leftOperand parent "between", "BETWEEN", low, "AND", high]

/-- The value that a combinator would have. -/
def noValue (c : Combinator) : Fragment :=
  .fail (.invalid c.key .noValue)

mutual

/-- The fragment of an expression. -/
def Expr.fragment (place : Place) (scope : Scope) : Expr → Fragment
  | .null => "NULL"
  | .bool b => .value (.bool b)
  | .number n => .value (.ofNumber n)
  | .text token => place.token scope token
  | .list _ => .fail (.invalid "value" .strayList)
  | .wrapper w => w.fragment scope
  | .condition entries => Junction.and.group (entryFragments none .and scope entries)

/-- The fragments of expressions. -/
def exprFragments (place : Place) (scope : Scope) : List Expr → List Fragment
  | [] => []
  | e :: rest => e.fragment place scope :: exprFragments place scope rest

/-- The fragments of entries; those that name no column are about the parent. -/
def entryFragments (parent : Option Fragment) (junction : Junction) (scope : Scope) :
    List Entry → List Fragment
  | [] => []
  | entry :: rest =>
    entry.fragment parent junction scope :: entryFragments parent junction scope rest

/-- The fragments of conditions, each in parentheses if it has several entries. -/
def groupFragments (parent : Option Fragment) (junction : Junction) (scope : Scope) :
    List (List Entry) → List Fragment
  | [] => []
  | entries :: rest =>
    junction.group (entryFragments parent junction scope entries)
      :: groupFragments parent junction scope rest

/-- The fragment of an entry. -/
def Entry.fragment (parent : Option Fragment) (junction : Junction) (scope : Scope) :
    Entry → Fragment
  | .wrapper w => wrapperEntry parent w.compare.isSome (w.fragment scope)
  | .all conditions => Junction.and.nest (groupFragments parent junction scope conditions)
  | .any conditions => Junction.or.nest (groupFragments parent junction scope conditions)
  | .between low high =>
    betweenFragment parent (low.fragment .value scope) (high.fragment .value scope)
  | .compare comparator operand =>
    let left := leftOperand parent comparator.operator
    match comparator, operand with
    | .hasRows, .wrapper ⟨.refer query, _, _⟩ | .hasNoRows, .wrapper ⟨.refer query, _, _⟩ =>
      spaced [words comparator.words, parens (query.fragment scope none)]
    | .hasRows, _ | .hasNoRows, _ => .fail (.invalid comparator.operator (.expected .subquery))
    | .eq, .list items | .oneOf, .list items =>
      inList comparator.operator .oneOf left (exprFragments .value scope items)
    | .notEq, .list items | .noneOf, .list items =>
      inList comparator.operator .noneOf left (exprFragments .value scope items)
    | .oneOf, operand | .noneOf, operand =>
      inList comparator.operator comparator left [operand.fragment .value scope]
    | comparator, operand =>
      if comparator = .eq && operand.isNull then isNullTest left
      else if comparator = .notEq && operand.isNull then isNotNullTest left
      else
        match operand, comparator.wildcards with
        | .condition entries, none =>
          spaced [left, words comparator.words,
            junction.group (entryFragments none junction scope entries)]
        | operand, _ =>
          compareWith scope.dialect comparator left (operand.fragment .value scope)
  | .column key operand =>
    let left := Token.column scope key
    match operand with
    | .condition entries => junction.group (entryFragments (some left) junction scope entries)
    | .list items => inList key .oneOf left (exprFragments .value scope items)
    | operand =>
      match nullTest? operand with
      | some true => isNullTest left
      | some false => isNotNullTest left
      | none => equals left (operand.fragment .value scope)

/-- The fragment of a wrapper, without its alias. A combinator stands as the condition that it
is. -/
def Wrapper.fragment (scope : Scope) : Wrapper → Fragment
  | ⟨core, some entries, _⟩ =>
    Junction.and.group (entryFragments (some (core.fragment scope)) .and scope entries)
  | ⟨.all conditions, none, _⟩ => Junction.and.nest (groupFragments none .and scope conditions)
  | ⟨.any conditions, none, _⟩ => Junction.or.nest (groupFragments none .and scope conditions)
  | ⟨.between low high, none, _⟩ =>
    betweenFragment none (low.fragment .value scope) (high.fragment .value scope)
  | ⟨core, none, _⟩ => core.fragment scope

/-- The fragment of a wrapper before it is compared. -/
def Core.fragment (scope : Scope) : Core → Fragment
  | .string value prepare steps =>
    let inner := scope.withCall prepare.encryption
    stringFragment scope (prepare.apply inner (value.fragment .column inner)) steps
  | .number value prepare steps =>
    let inner := scope.withCall prepare.encryption
    numberFragment scope (prepare.apply inner (value.fragment .column inner)) steps
  | .date value prepare change =>
    let inner := scope.withCall prepare.encryption
    change.apply scope.dialect (prepare.apply inner (value.fragment .column inner))
  | .concat values separator cast encryption steps =>
    let inner := scope.withCall encryption
    let joined := concatFragment inner.dialect separator (exprFragments .column inner values)
    stringFragment inner (inner.dialect.castOptional joined cast) steps
  | .choice check yes no =>
    if scope.dialect = .mysql then
      call "IF" [Junction.and.chain (entryFragments none .and scope check),
        yes.fragment .value scope, no.fragment .value scope]
    else .fail (.unsupported "if" scope.dialect)
  | .cases branches otherwise =>
    let last := match otherwise with
      | some e => clause ["ELSE"] (e.fragment .value scope)
      | none => .empty
    .enclosed .cases (branchFragment scope branches ++ last)
  | .json options body source =>
    let built := match source with
      | some query =>
        parens (query.fragment scope (some fun inner => body.fragment options inner))
      | none => body.fragment options scope
    options.apply scope.dialect built
  | .refer query => parens (query.fragment scope none)
  | .aggregate kind value distinct ifNull cast encryption =>
    let inner := scope.withCall encryption
    let argument := value.fragment .column inner
    let applied := call kind.function [if distinct then spaced ["DISTINCT", argument] else argument]
    let filled := match ifNull with
      | some e => call inner.dialect.ifNullFunction [applied, e.fragment .value inner]
      | none => applied
    inner.dialect.castOptional filled cast
  | .all _ => noValue .all
  | .any _ => noValue .any
  | .between .. => noValue .between

/-- A text changed step by step. -/
def stringFragment (scope : Scope) (f : Fragment) : List StringStep → Fragment
  | [] => f
  | .trim side :: rest => stringFragment scope (call side.function [f]) rest
  | .substr start length :: rest =>
    let part := match length with
      | some length => [start.fragment .column scope, length.fragment .column scope]
      | none => [start.fragment .column scope]
    stringFragment scope (call scope.dialect.substrFunction (f :: part)) rest
  | .padding left right :: rest =>
    if scope.dialect = .sqlite then f ++ .fail (.unsupported "padding" scope.dialect)
    else
      stringFragment scope (padFragment scope "RPAD" (padFragment scope "LPAD" f left) right) rest
  | .textCase case :: rest => stringFragment scope (call case.function [f]) rest
  | .reverse :: rest =>
    if scope.dialect = .sqlite then f ++ .fail (.unsupported "reverse" scope.dialect)
    else stringFragment scope (call "REVERSE" [f]) rest
  | .replace target replacement :: rest =>
    stringFragment scope
      (call "REPLACE" [f, target.fragment .value scope, replacement.fragment .value scope]) rest
  | .encoding charset :: rest =>
    if scope.dialect = .mysql then
      stringFragment scope (word "CONVERT" ++ parens (spaced [f, "USING", charset.name])) rest
    else f ++ .fail (.unsupported "encoding" scope.dialect)

/-- A text padded on one side, if that is asked for. A space is used if there is no pattern. -/
def padFragment (scope : Scope) (function : String) (f : Fragment) : Option Pad → Fragment
  | some ⟨length, some pattern⟩ =>
    call function [f, length.fragment .column scope, pattern.fragment .value scope]
  | some ⟨length, none⟩ => call function [f, length.fragment .column scope, .text " "]
  | none => f

/-- A number changed step by step, in parentheses so that the order of the steps is kept. -/
def numberFragment (scope : Scope) (f : Fragment) : List NumberStep → Fragment
  | [] => f
  | .power exponent :: rest =>
    numberFragment scope (call "POWER" [f, exponent.fragment .column scope]) rest
  | .arithmetic operation operand :: rest =>
    numberFragment scope
      (parens (operated operation.operator [f, operand.fragment .column scope])) rest
  | .rounding rounding :: rest => numberFragment scope (rounding.apply scope.dialect f) rest

/-- The branches of a case expression, each after a space. -/
def branchFragment (scope : Scope) : List (List Entry × Expr) → Fragment
  | [] => .empty
  | (check, result) :: rest =>
    clause ["WHEN"] (Junction.and.chain (entryFragments none .and scope check))
      ++ clause ["THEN"] (result.fragment .value scope) ++ branchFragment scope rest

/-- A JSON value to build. -/
def JsonBody.fragment (options : JsonOptions) (scope : Scope) : JsonBody → Fragment
  | .object fields =>
    options.collect scope.dialect
      (call scope.dialect.jsonObjectFunction (fieldFragments scope fields))
  | .array items =>
    options.collect scope.dialect
      (call scope.dialect.jsonArrayFunction (exprFragments .column scope items))
  | .single value =>
    let built := value.fragment .column scope
    options.collect scope.dialect
      (if options.aggregate then built else call scope.dialect.jsonArrayFunction [built])

/-- Keys and values of a JSON object, one after the other. -/
def fieldFragments (scope : Scope) : List (String × Expr) → List Fragment
  | [] => []
  | (key, value) :: rest =>
    scope.dialect.textOperand (.text key) :: value.fragment .column scope
      :: fieldFragments scope rest

/-- The fragment of a query. Its select items may be built in its scope instead. -/
def Query.fragment (outer : Scope) (build : Option (Scope → Fragment)) : Query → Fragment
  | ⟨table, alias?, select, joins, filter, junction, groupBy, having, orderBy, limit, offset,
      encryption⟩ =>
    let scope := outer.enter table alias? joins encryption
    let outputs := outputAliases select
    let items := match build with
      | some build => build scope
      | none => if select.isEmpty then word "*" else commas (itemFragments scope select)
    let filtered := match filter with
      | some entries => entryFragments none junction scope entries
      | none => []
    let kept := match having with
      | some entries => entryFragments none junction scope entries
      | none => []
    spaced ["SELECT", items, "FROM", tableFragment table alias?]
      ++ joinsFragment (alias?.getD table) scope joins
      ++ conditionClause "WHERE" junction filtered
      ++ listClause ["GROUP", "BY"] (keyFragments scope outputs groupBy)
      ++ conditionClause "HAVING" junction kept
      ++ listClause ["ORDER", "BY"] (orderFragments scope outputs orderBy)
      ++ limitFragment scope.dialect limit offset

/-- The fragments of select items; wrappers carry their alias. -/
def itemFragments (scope : Scope) : List Expr → List Fragment
  | [] => []
  | .wrapper w :: rest => aliased w.alias? (w.fragment scope) :: itemFragments scope rest
  | e :: rest => e.fragment .column scope :: itemFragments scope rest

/-- The fragments of keys to group by. -/
def keyFragments (scope : Scope) (outputs : List String) : List Expr → List Fragment
  | [] => []
  | .text token :: rest => sortKey scope outputs token :: keyFragments scope outputs rest
  | e :: rest => e.fragment .column scope :: keyFragments scope outputs rest

/-- The joins of a query, each after a space. -/
def joinsFragment (parent : String) (scope : Scope) : List Join → Fragment
  | [] => .empty
  | join :: rest =>
    .token .space ++ join.fragment parent scope ++ joinsFragment parent scope rest

/-- The fragment of a join onto a query that goes by the name `parent`. -/
def Join.fragment (parent : String) (scope : Scope) : Join → Fragment
  | ⟨kind, matching, query⟩ =>
    let target :=
      if query.isDerived then
        match query.alias? with
        | some name => spaced [parens (query.fragment scope none), "AS", .path name]
        | none => .fail (.missing "alias" s!"derived join '{query.table}'")
      else tableFragment query.table query.alias?
    let outer := scope.target parent (some parent) none
    let inner := outer.target query.table (some query.qualifier) none
    spaced [words kind.words, target] ++ matching.fragment outer inner

/-- How the rows of a join are matched. -/
def Matching.fragment (outer inner : Scope) : Matching → Fragment
  | .unmatched => .empty
  | .shared columns => clause ["USING"] (parens (commas (columns.map Fragment.path)))
  | .pairs pairs => clause ["ON"] (Junction.and.chain (pairFragments outer inner pairs))

/-- Columns of the outer query and what they are compared with. -/
def pairFragments (outer inner : Scope) : List (String × Expr) → List Fragment
  | [] => []
  | (column, .text token) :: rest =>
    equals (Token.column outer column) (Token.column inner token) :: pairFragments outer inner rest
  | (column, .condition entries) :: rest =>
    let scope := { inner with alias? := outer.alias? }
    Junction.and.group (entryFragments (some (Token.column scope column)) .and scope entries)
      :: pairFragments outer inner rest
  | (column, e) :: rest =>
    equals (Token.column outer column) (e.fragment .value inner) :: pairFragments outer inner rest

end

end QueryTree
