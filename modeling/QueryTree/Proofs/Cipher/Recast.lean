import QueryTree.Sql.Statement

/-!
# Trees with other encryption settings

A tree is recast by changing the encryption settings in it, or by dropping them, and leaving
everything else as it is.

* `Recasting`: what becomes of the settings around columns and of those of columns.
* `Expr.recast`, `Entry.recast`, `Wrapper.recast`, `Query.recast`: expressions, conditions and
  queries.
* `Write.recast`, `Delete.recast`: statements that change data.
* `Scope.recast`: scopes, whose layers hold settings; entering a recast query is entering the query
  in a recast scope.
-/

namespace QueryTree

open Cipher (Settings)

/-- What becomes of encryption settings: each is changed by a function, or all are dropped. -/
structure Recasting where
  /-- Settings of the model, of queries and of wrappers. -/
  around : Option (Settings → Settings)
  /-- Settings of columns that are encrypted or decrypted; dropped, nothing is. -/
  column : Option (Settings → Settings)

namespace Recasting

/-- What becomes of settings around columns. -/
def aroundOf (p : Recasting) (settings : Option Settings) : Option Settings :=
  p.around.bind fun change => settings.map change

/-- What becomes of settings of a column. -/
def columnOf (p : Recasting) (settings : Settings) : Option Settings :=
  p.column.map fun change => change settings

end Recasting

/-! ## Trees -/

/-- A preparation with other settings. -/
def Preparation.recast (p : Recasting) (prepare : Preparation) : Preparation :=
  { prepare with
    decrypt := prepare.decrypt.bind p.columnOf
    encryption := p.aroundOf prepare.encryption }

mutual

/-- An expression with other settings. -/
def Expr.recast (p : Recasting) : Expr → Expr
  | .null => .null
  | .bool b => .bool b
  | .number n => .number n
  | .text token => .text token
  | .list items => .list (recastExprs p items)
  | .wrapper w => .wrapper (w.recast p)
  | .condition entries => .condition (recastEntries p entries)

/-- Expressions with other settings. -/
def recastExprs (p : Recasting) : List Expr → List Expr
  | [] => []
  | e :: rest => e.recast p :: recastExprs p rest

/-- An expression that may be absent, with other settings. -/
def recastExpr? (p : Recasting) : Option Expr → Option Expr
  | none => none
  | some e => some (e.recast p)

/-- Entries with other settings. -/
def recastEntries (p : Recasting) : List Entry → List Entry
  | [] => []
  | entry :: rest => entry.recast p :: recastEntries p rest

/-- Conditions with other settings. -/
def recastGroups (p : Recasting) : List (List Entry) → List (List Entry)
  | [] => []
  | entries :: rest => recastEntries p entries :: recastGroups p rest

/-- A condition that may be absent, with other settings. -/
def recastFilter (p : Recasting) : Option (List Entry) → Option (List Entry)
  | none => none
  | some entries => some (recastEntries p entries)

/-- An entry with other settings. -/
def Entry.recast (p : Recasting) : Entry → Entry
  | .wrapper w => .wrapper (w.recast p)
  | .all conditions => .all (recastGroups p conditions)
  | .any conditions => .any (recastGroups p conditions)
  | .between low high => .between (low.recast p) (high.recast p)
  | .compare comparator operand => .compare comparator (operand.recast p)
  | .column key operand => .column key (operand.recast p)

/-- A wrapper with other settings. -/
def Wrapper.recast (p : Recasting) : Wrapper → Wrapper
  | ⟨core, compare, alias?⟩ => ⟨core.recast p, recastFilter p compare, alias?⟩

/-- The shape of a wrapper with other settings. -/
def Core.recast (p : Recasting) : Core → Core
  | .string value prepare steps =>
    .string (value.recast p) (prepare.recast p) (recastStringSteps p steps)
  | .number value prepare steps =>
    .number (value.recast p) (prepare.recast p) (recastNumberSteps p steps)
  | .date value prepare change => .date (value.recast p) (prepare.recast p) change
  | .concat values separator cast encryption steps =>
    .concat (recastExprs p values) separator cast (p.aroundOf encryption)
      (recastStringSteps p steps)
  | .choice check yes no => .choice (recastEntries p check) (yes.recast p) (no.recast p)
  | .cases branches otherwise => .cases (recastBranches p branches) (recastExpr? p otherwise)
  | .json options body none => .json options (body.recast p) none
  | .json options body (some query) => .json options (body.recast p) (some (query.recast p))
  | .refer query => .refer (query.recast p)
  | .aggregate kind value distinct ifNull cast encryption =>
    .aggregate kind (value.recast p) distinct (recastExpr? p ifNull) cast (p.aroundOf encryption)
  | .all conditions => .all (recastGroups p conditions)
  | .any conditions => .any (recastGroups p conditions)
  | .between low high => .between (low.recast p) (high.recast p)

/-- Steps that change a text, with other settings. -/
def recastStringSteps (p : Recasting) : List StringStep → List StringStep
  | [] => []
  | step :: rest => step.recast p :: recastStringSteps p rest

/-- A step that changes a text, with other settings. -/
def StringStep.recast (p : Recasting) : StringStep → StringStep
  | .trim side => .trim side
  | .substr start length => .substr (start.recast p) (recastExpr? p length)
  | .padding left right => .padding (recastPad p left) (recastPad p right)
  | .textCase kind => .textCase kind
  | .reverse => .reverse
  | .replace target replacement => .replace (target.recast p) (replacement.recast p)
  | .encoding charset => .encoding charset

/-- Padding with other settings. -/
def recastPad (p : Recasting) : Option Pad → Option Pad
  | none => none
  | some ⟨length, pattern⟩ => some ⟨length.recast p, recastExpr? p pattern⟩

/-- Steps that change a number, with other settings. -/
def recastNumberSteps (p : Recasting) : List NumberStep → List NumberStep
  | [] => []
  | step :: rest => step.recast p :: recastNumberSteps p rest

/-- A step that changes a number, with other settings. -/
def NumberStep.recast (p : Recasting) : NumberStep → NumberStep
  | .power exponent => .power (exponent.recast p)
  | .arithmetic operation operand => .arithmetic operation (operand.recast p)
  | .rounding rounding => .rounding rounding

/-- Branches with other settings. -/
def recastBranches (p : Recasting) : List (List Entry × Expr) → List (List Entry × Expr)
  | [] => []
  | (check, result) :: rest =>
    (recastEntries p check, result.recast p) :: recastBranches p rest

/-- A JSON value to build, with other settings. -/
def JsonBody.recast (p : Recasting) : JsonBody → JsonBody
  | .object fields => .object (recastPairs p fields)
  | .array items => .array (recastExprs p items)
  | .single value => .single (value.recast p)

/-- Keys or columns with expressions with other settings. -/
def recastPairs (p : Recasting) : List (String × Expr) → List (String × Expr)
  | [] => []
  | (key, e) :: rest => (key, e.recast p) :: recastPairs p rest

/-- A query with other settings. -/
def Query.recast (p : Recasting) : Query → Query
  | ⟨table, alias?, select, joins, filter, junction, groupBy, having, orderBy, limit, offset,
      encryption⟩ =>
    ⟨table, alias?, recastExprs p select, recastJoins p joins, recastFilter p filter, junction,
      recastExprs p groupBy, recastFilter p having, orderBy, limit, offset, p.aroundOf encryption⟩

/-- Joins with other settings. -/
def recastJoins (p : Recasting) : List Join → List Join
  | [] => []
  | join :: rest => join.recast p :: recastJoins p rest

/-- A join with other settings. -/
def Join.recast (p : Recasting) : Join → Join
  | ⟨kind, matching, query⟩ => ⟨kind, matching.recast p, query.recast p⟩

/-- The matching of a join with other settings. -/
def Matching.recast (p : Recasting) : Matching → Matching
  | .unmatched => .unmatched
  | .shared columns => .shared columns
  | .pairs pairs => .pairs (recastPairs p pairs)

end

/-- A statement that writes, with other settings. -/
def Write.recast (p : Recasting) (write : Write) : Write :=
  { write with
    rows := write.rows.map (recastPairs p)
    filter := recastFilter p write.filter
    upsert := recastPairs p write.upsert
    encrypt := write.encrypt.filterMap fun (column, settings) =>
      (p.columnOf settings).map (column, ·)
    encryption := p.aroundOf write.encryption }

/-- A deletion with other settings. -/
def Delete.recast (p : Recasting) (delete : Delete) : Delete :=
  { delete with
    filter := recastFilter p delete.filter
    encryption := p.aroundOf delete.encryption }

/-! ## Lists -/

section Lists

variable {p : Recasting}

theorem recastExprs_eq_map (es : List Expr) : recastExprs p es = es.map (Expr.recast p) := by
  induction es with
  | nil => rfl
  | cons e es ih => rw [recastExprs, ih, List.map_cons]

/-- Entries are recast one by one. -/
theorem recastEntries_eq_map (entries : List Entry) :
    recastEntries p entries = entries.map (Entry.recast p) := by
  induction entries with
  | nil => rfl
  | cons entry entries ih => rw [recastEntries, ih, List.map_cons]

theorem recastGroups_eq_map (conditions : List (List Entry)) :
    recastGroups p conditions = conditions.map (recastEntries p) := by
  induction conditions with
  | nil => rfl
  | cons entries conditions ih => rw [recastGroups, ih, List.map_cons]

theorem recastStringSteps_eq_map (steps : List StringStep) :
    recastStringSteps p steps = steps.map (StringStep.recast p) := by
  induction steps with
  | nil => rfl
  | cons step steps ih => rw [recastStringSteps, ih, List.map_cons]

theorem recastNumberSteps_eq_map (steps : List NumberStep) :
    recastNumberSteps p steps = steps.map (NumberStep.recast p) := by
  induction steps with
  | nil => rfl
  | cons step steps ih => rw [recastNumberSteps, ih, List.map_cons]

theorem recastBranches_eq_map (branches : List (List Entry × Expr)) :
    recastBranches p branches
      = branches.map fun branch => (recastEntries p branch.1, branch.2.recast p) := by
  induction branches with
  | nil => rfl
  | cons branch branches ih => rw [recastBranches, ih, List.map_cons]

theorem recastPairs_eq_map (pairs : List (String × Expr)) :
    recastPairs p pairs = pairs.map fun pair => (pair.1, pair.2.recast p) := by
  induction pairs with
  | nil => rfl
  | cons pair pairs ih => rw [recastPairs, ih, List.map_cons]

theorem recastJoins_eq_map (joins : List Join) :
    recastJoins p joins = joins.map (Join.recast p) := by
  induction joins with
  | nil => rfl
  | cons join joins ih => rw [recastJoins, ih, List.map_cons]

theorem recastExpr?_eq_map (e : Option Expr) : recastExpr? p e = e.map (Expr.recast p) := by
  cases e <;> rfl

theorem recastFilter_eq_map (filter : Option (List Entry)) :
    recastFilter p filter = filter.map (recastEntries p) := by
  cases filter <;> rfl

end Lists

/-! ## Scopes -/

/-- Layers with other settings. -/
def Layers.recast (p : Recasting) (layers : Layers) : Layers :=
  ⟨p.aroundOf layers.call, p.aroundOf layers.query, p.aroundOf layers.model⟩

/-- A scope with other settings. -/
def Scope.recast (p : Recasting) (scope : Scope) : Scope :=
  { scope with layers := scope.layers.recast p }

section Scopes

variable (p : Recasting)

/-- Settings may be recast before or after they come into force. -/
theorem Scope.withCall_recast (scope : Scope) (settings : Option Settings) :
    (scope.recast p).withCall (p.aroundOf settings) = (scope.withCall settings).recast p := by
  obtain ⟨around, column⟩ := p
  cases around <;> cases settings <;> rfl

theorem Scope.target_recast (scope : Scope) (table : String) (alias? : Option String)
    (settings : Option Settings) :
    (scope.recast p).target table alias? (p.aroundOf settings)
      = (scope.target table alias? settings).recast p := by
  obtain ⟨around, column⟩ := p
  cases around <;> cases settings <;> rfl

theorem Query.table_recast (query : Query) : (query.recast p).table = query.table := by
  cases query
  rfl

theorem Query.alias?_recast (query : Query) : (query.recast p).alias? = query.alias? := by
  cases query
  rfl

/-- The names of joins do not depend on settings. -/
theorem namesOf_recastJoins (joins : List Join) :
    (recastJoins p joins).flatMap (fun join => Scope.namesOf join.query.table join.query.alias?)
      = joins.flatMap fun join => Scope.namesOf join.query.table join.query.alias? := by
  induction joins with
  | nil => rfl
  | cons join joins ih =>
      obtain ⟨kind, matching, query⟩ := join
      simp only [recastJoins, Join.recast, List.flatMap_cons, ih, Query.table_recast,
        Query.alias?_recast]

/-- **The scope inside a recast query is the recast scope inside the query.** -/
theorem Scope.enter_recast (scope : Scope) (table : String) (alias? : Option String)
    (joins : List Join) (settings : Option Settings) :
    (scope.recast p).enter table alias? (recastJoins p joins) (p.aroundOf settings)
      = (scope.enter table alias? joins settings).recast p := by
  obtain ⟨around, column⟩ := p
  unfold Scope.enter
  rw [namesOf_recastJoins]
  cases around <;> cases settings <;> rfl

/-- Texts of callers do not depend on settings. -/
theorem Place.token_recast (place : Place) (scope : Scope) (token : String) :
    place.token (scope.recast p) token = place.token scope token := by
  cases place <;> rfl

end Scopes

/-! ## What settings do not matter for -/

section Shapes

variable (p : Recasting)

/-- Aliases stay as they are. -/
theorem outputAliases_recast (items : List Expr) :
    outputAliases (recastExprs p items) = outputAliases items := by
  rw [recastExprs_eq_map, outputAliases, outputAliases, List.filterMap_map]
  congr 1
  funext e
  cases e with
  | wrapper w =>
      obtain ⟨core, compare, alias?⟩ := w
      rfl
  | _ => rfl

/-- A query that is recast is a mere table exactly if it was one. -/
theorem Query.isDerived_recast (query : Query) : (query.recast p).isDerived = query.isDerived := by
  obtain ⟨table, alias?, select, joins, filter, junction, groupBy, having, orderBy, limit, offset,
    encryption⟩ := query
  simp only [Query.isDerived, Query.recast, recastExprs_eq_map, recastJoins_eq_map,
    recastFilter_eq_map, List.isEmpty_map, Option.isSome_map]

theorem Query.qualifier_recast (query : Query) : (query.recast p).qualifier = query.qualifier := by
  rw [Query.qualifier, Query.qualifier, Query.table_recast, Query.alias?_recast]

end Shapes

end QueryTree
