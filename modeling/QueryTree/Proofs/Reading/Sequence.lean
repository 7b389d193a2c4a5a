import QueryTree.Tree.Reading.Wrapper

/-!
# Readers as sequences of steps

Some readers choose between two ways to read a part before they go on. Here each such choice is a
step of its own, so that these readers too are sequences of steps.

* `Record.givenExpr?`, `readSource`, `readNonEmpty`, `checkJoin`: the choices.
* `readJoin_eq`, `readConcat_eq`, `readCases_eq`, `readAggregateOf_eq`, `readJson_eq`: the readers.
-/

namespace QueryTree

/-- An expression that is read if it is given, null included. -/
def Record.givenExpr? (record : Record) (key : String) : Reading (Option Expr) :=
  match record.given? key with
  | some node => some <$> node.expr
  | none => pure none

/-- The query of a JSON value, which is there if a table is named. -/
def readSource (record : Record) : Reading (Option Query) :=
  match record.get? "table" with
  | some _ => some <$> readQuery record
  | none => pure none

/-- The items of a list that has to have one. -/
def readNonEmpty {α : Type} (read : Node → Reading α) (field : String) (shape : Shape)
    (list : Node) : Reading (List α) :=
  match list.json with
  | .arr (_ :: _) => list.items.mapM read
  | _ => Reading.invalid field (.expected shape)

/-- A join of given parts, which must be matched and named where this is needed. -/
def checkJoin (query : Query) (kind : JoinKind) (matching : Matching) : Reading Join :=
  if matching.isUnmatched && kind != .cross then
    throw (.missing "using" s!"join '{query.table}'")
  else if query.isDerived && query.alias?.isNone then
    throw (.missing "alias" s!"derived join '{query.table}'")
  else pure { kind, matching, query }

/-- A join from its options. -/
def readJoinOf (record : Record) : Reading Join := do
  let query ← readQuery record
  let kind ← record.named? JoinKind "type"
  let matching ← readMatching record
  checkJoin query (kind.getD default) matching

theorem readJoin_eq (fields : List (String × Node)) : readJoin fields
    = Record.ofFields "join" (queryKeys ++ ["type", "using"]) fields >>= readJoinOf := by
  unfold readJoin readJoinOf checkJoin
  refine bind_congr fun record => ?_
  refine bind_congr fun query => ?_
  refine bind_congr fun kind => ?_
  refine bind_congr fun matching => ?_
  dsimp only
  split
  · rfl
  · split <;> rfl

theorem readConcat_eq (node : Node) : readConcat node = (do
    let record ← Record.ofNode "concat"
      (["value", "pattern", "cast", "encryption", "compare", "as"] ++ stringKeys) node
    let list ← record.require "value"
    let values ← readNonEmpty (·.expr) "concat.value" .nonEmptyList list
    let separator ← record.string? "pattern"
    let cast ← record.named? CastType "cast"
    let encryption ← record.settings? "encryption"
    let steps ← readStringSteps record
    finish record (.concat values separator cast encryption steps)) := by
  unfold readConcat readNonEmpty
  refine bind_congr fun record => ?_
  refine bind_congr fun list => ?_
  dsimp only
  split <;> simp only [*]

theorem readCases_eq (node : Node) : readCases node = (do
    let record ← Record.ofNode "case" ["check", "else", "compare", "as"] node
    let list ← record.require "check"
    let branches ← readNonEmpty readBranch "case.check" .branches list
    let otherwise ← record.givenExpr? "else"
    finish record (.cases branches otherwise)) := by
  unfold readCases readNonEmpty Record.givenExpr?
  refine bind_congr fun record => ?_
  refine bind_congr fun list => ?_
  dsimp only
  split <;> split <;> simp only [*]

theorem readAggregateOf_eq (kind : AggregateKind) (node : Node) : readAggregateOf kind node = (do
    let record ← Record.ofNode kind.key
      ["value", "distinct", "ifNull", "cast", "encryption", "compare", "as"] node
    let value ← (← record.require "value").expr
    let distinct ← record.flag "distinct"
    let ifNull ← record.givenExpr? "ifNull"
    let cast ← record.named? CastType "cast"
    let encryption ← record.settings? "encryption"
    finish record (.aggregate kind value distinct ifNull cast encryption)) := by
  unfold readAggregateOf Record.givenExpr?
  refine bind_congr fun record => ?_
  refine bind_congr fun argument => ?_
  refine bind_congr fun value => ?_
  refine bind_congr fun distinct => ?_
  dsimp only
  split <;> simp only [*]

theorem readJson_eq (isArray : Bool) (node : Node) : readJson isArray node = (do
    let record ← Record.ofNode (if isArray then "array" else "json")
      (queryKeys.filter (· != "select")
        ++ ["value", "aggregate", "extract", "contains", "compare", "as"]) node
    let source ← readSource record
    let body ← readJsonBody (← record.require "value")
    let extract ← record.string? "extract"
    finish record (.json
      ⟨isArray, readAggregate record isArray, extract, (record.given? "contains").map Node.json⟩
      body source)) := by
  unfold readJson readSource
  refine bind_congr fun record => ?_
  dsimp only
  split <;> simp only [*]

end QueryTree
