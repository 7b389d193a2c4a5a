import QueryTree.Proofs.Nesting.Tree
import QueryTree.Tree.Reading.Query

/-!
# Well-formed trees

What can be relied on in a tree, at every depth, is said of the places in it: its comparisons, its
columns, its wrappers and its joins.

* `Site`: such a place; `Expr.sites`, `Entry.sites`, `Wrapper.sites`, `Query.sites` list those of a
  tree.
* `Site.WellFormed`: what holds at a place.
* `IsPath`: names with dots between them; `isPath_of_isColumn` says that columns are such paths.
* `Sound`: places that are all well formed.
* `CompileError.isInternal`: errors that no statement is to blame for.
-/

namespace QueryTree

/-- A place in a tree. -/
inductive Site where
  | comparison (comparator : Comparator) (operand : Expr)
  /-- A name that stands for a column. -/
  | column (key : String)
  /-- The shape of a wrapper. -/
  | shape (core : Core)
  | join (join : Join)

mutual

/-- The places in an expression. -/
def Expr.sites : Expr → List Site
  | .list items => exprSites items
  | .wrapper w => w.sites
  | .condition entries => entrySites entries
  | .null | .bool _ | .number _ | .text _ => []

/-- The places in expressions. -/
def exprSites : List Expr → List Site
  | [] => []
  | e :: rest => e.sites ++ exprSites rest

/-- The places in an expression that may be absent. -/
def exprSites? : Option Expr → List Site
  | none => []
  | some e => e.sites

/-- The places in entries. -/
def entrySites : List Entry → List Site
  | [] => []
  | entry :: rest => entry.sites ++ entrySites rest

/-- The places in conditions. -/
def groupSites : List (List Entry) → List Site
  | [] => []
  | entries :: rest => entrySites entries ++ groupSites rest

/-- The places in a condition that may be absent. -/
def filterSites : Option (List Entry) → List Site
  | none => []
  | some entries => entrySites entries

/-- The places in an entry. -/
def Entry.sites : Entry → List Site
  | .wrapper w => w.sites
  | .all conditions | .any conditions => groupSites conditions
  | .between low high => low.sites ++ high.sites
  | .compare comparator operand => .comparison comparator operand :: operand.sites
  | .column key operand => .column key :: operand.sites

/-- The places in a wrapper. -/
def Wrapper.sites : Wrapper → List Site
  | ⟨core, compare, _⟩ => .shape core :: (core.sites ++ filterSites compare)

/-- The places inside the shape of a wrapper. -/
def Core.sites : Core → List Site
  | .string value _ steps => value.sites ++ stringSites steps
  | .number value _ steps => value.sites ++ numberSites steps
  | .date value _ _ => value.sites
  | .concat values _ _ _ steps => exprSites values ++ stringSites steps
  | .choice check yes no => entrySites check ++ yes.sites ++ no.sites
  | .cases branches otherwise => branchSites branches ++ exprSites? otherwise
  | .json _ body none => body.sites
  | .json _ body (some query) => query.sites ++ body.sites
  | .refer query => query.sites
  | .aggregate _ value _ ifNull _ _ => value.sites ++ exprSites? ifNull
  | .all conditions | .any conditions => groupSites conditions
  | .between low high => low.sites ++ high.sites

/-- The places in steps that change a text. -/
def stringSites : List StringStep → List Site
  | [] => []
  | step :: rest => step.sites ++ stringSites rest

/-- The places in a step that changes a text. -/
def StringStep.sites : StringStep → List Site
  | .substr start length => start.sites ++ exprSites? length
  | .padding left right => padSites left ++ padSites right
  | .replace target replacement => target.sites ++ replacement.sites
  | .trim _ | .textCase _ | .reverse | .encoding _ => []

/-- The places in padding. -/
def padSites : Option Pad → List Site
  | none => []
  | some ⟨length, pattern⟩ => length.sites ++ exprSites? pattern

/-- The places in steps that change a number. -/
def numberSites : List NumberStep → List Site
  | [] => []
  | step :: rest => step.sites ++ numberSites rest

/-- The places in a step that changes a number. -/
def NumberStep.sites : NumberStep → List Site
  | .power exponent => exponent.sites
  | .arithmetic _ operand => operand.sites
  | .rounding _ => []

/-- The places in branches. -/
def branchSites : List (List Entry × Expr) → List Site
  | [] => []
  | (check, result) :: rest => entrySites check ++ result.sites ++ branchSites rest

/-- The places in a JSON value to build. -/
def JsonBody.sites : JsonBody → List Site
  | .object fields => fieldSites fields
  | .array items => exprSites items
  | .single value => value.sites

/-- The places in the fields of a JSON object, whose keys are no columns. -/
def fieldSites : List (String × Expr) → List Site
  | [] => []
  | (_, value) :: rest => value.sites ++ fieldSites rest

/-- The places in a query. -/
def Query.sites : Query → List Site
  | ⟨_, _, select, joins, filter, _, groupBy, having, _, _, _, _⟩ =>
    exprSites select ++ joinSites joins ++ exprSites groupBy ++ filterSites filter
      ++ filterSites having

/-- The places in joins. -/
def joinSites : List Join → List Site
  | [] => []
  | join :: rest => join.sites ++ joinSites rest

/-- The places in a join. -/
def Join.sites : Join → List Site
  | ⟨kind, matching, query⟩ => .join ⟨kind, matching, query⟩ :: (query.sites ++ matching.sites)

/-- The places in the matching of a join. -/
def Matching.sites : Matching → List Site
  | .unmatched => []
  | .shared columns => columns.map .column
  | .pairs pairs => pairSites pairs

/-- The places in columns and what is given for them. -/
def pairSites : List (String × Expr) → List Site
  | [] => []
  | (key, e) :: rest => .column key :: (e.sites ++ pairSites rest)

end

/-- The places in a statement that writes rows. -/
def Write.sites (write : Write) : List Site :=
  write.rows.flatMap pairSites ++ pairSites write.upsert ++ filterSites write.filter

/-! ## What holds at a place -/

/-- Names with dots between them. -/
def IsPath (key : String) : Prop :=
  ∃ names : List String, names ≠ [] ∧ (∀ name ∈ names, Text.isName name = true)
    ∧ key = String.intercalate "." names

/-- Whether an expression is a query used as a value, or a condition. -/
def Expr.isQueryOrCondition : Expr → Bool
  | .wrapper ⟨.refer _, _, _⟩ | .condition _ => true
  | _ => false

/-- Texts to put together and branches are never missing, and no wrapper is a combinator. -/
structure Core.WellFormed (core : Core) : Prop where
  values (values : List Expr) (separator : Option String) (cast : Option CastType)
    (encryption : Option Cipher.Settings) (steps : List StringStep) :
    core = .concat values separator cast encryption steps → values ≠ []
  branches (branches : List (List Entry × Expr)) (otherwise : Option Expr) :
    core = .cases branches otherwise → branches ≠ []
  kind_ne (c : Combinator) : core.kind ≠ .combinator c

/-- A join is matched unless it is a cross join, and a query that is joined has an alias. -/
structure Join.WellFormed (join : Join) : Prop where
  matched : join.kind ≠ .cross → join.matching.isUnmatched = false
  named : join.query.isDerived = true → join.query.alias?.isSome = true

/-- What holds at a place. -/
def Site.WellFormed : Site → Prop
  | .comparison comparator operand =>
    comparator.testsRows = true → operand.isQueryOrCondition = true
  | .column key => IsPath key
  | .shape core => core.WellFormed
  | .join j => j.WellFormed

/-- All places are well formed. -/
def Sound (sites : List Site) : Prop :=
  ∀ site ∈ sites, site.WellFormed

/-- The errors that no statement is to blame for: a value is asked of a combinator, or a letter that
ends a step of an interval has no unit. -/
def CompileError.isInternal : CompileError → Bool
  | .invalid _ .noValue | .invalid _ (.unknownUnit _) => true
  | _ => false

/-! ## Columns are paths -/

/-- **A column is a path.** -/
theorem isPath_of_isColumn {key : String} (h : isColumn key = true) : IsPath key :=
  ⟨Text.pathParts key, Text.pathParts_ne_nil key, List.all_eq_true.1 h,
    (Text.intercalate_pathParts key).symm⟩

/-! ## Sound lists -/

section Sound

variable {sites sites' : List Site}

@[simp] theorem sound_nil : Sound [] := by
  simp [Sound]

/-- A list is sound if its first place and the others are. -/
@[simp] theorem sound_cons {site : Site} :
    Sound (site :: sites) ↔ site.WellFormed ∧ Sound sites := by
  simp [Sound]

@[simp] theorem sound_append : Sound (sites ++ sites') ↔ Sound sites ∧ Sound sites' := by
  simp only [Sound, List.mem_append, or_imp, forall_and]

/-- The places in a list of expressions are those in each of them. -/
theorem sound_exprSites {items : List Expr} :
    Sound (exprSites items) ↔ ∀ e ∈ items, Sound e.sites := by
  induction items with
  | nil => simp [exprSites]
  | cons e items ih => simp [exprSites, ih]

theorem sound_entrySites {entries : List Entry} :
    Sound (entrySites entries) ↔ ∀ entry ∈ entries, Sound entry.sites := by
  induction entries with
  | nil => simp [entrySites]
  | cons entry entries ih => simp [entrySites, ih]

theorem sound_groupSites {conditions : List (List Entry)} :
    Sound (groupSites conditions) ↔ ∀ entries ∈ conditions, Sound (entrySites entries) := by
  induction conditions with
  | nil => simp [groupSites]
  | cons entries conditions ih => simp [groupSites, ih]

theorem stringSites_append (steps more : List StringStep) :
    stringSites (steps ++ more) = stringSites steps ++ stringSites more := by
  induction steps with
  | nil => rfl
  | cons step steps ih => rw [List.cons_append, stringSites, stringSites, ih, List.append_assoc]

theorem numberSites_append (steps more : List NumberStep) :
    numberSites (steps ++ more) = numberSites steps ++ numberSites more := by
  induction steps with
  | nil => rfl
  | cons step steps ih => rw [List.cons_append, numberSites, numberSites, ih, List.append_assoc]

/-- The places in a branch are those in its condition and in its result. -/
theorem sound_branchSites {branches : List (List Entry × Expr)} :
    Sound (branchSites branches)
      ↔ ∀ branch ∈ branches, Sound (entrySites branch.1) ∧ Sound branch.2.sites := by
  induction branches with
  | nil => simp [branchSites]
  | cons branch branches ih =>
      obtain ⟨check, result⟩ := branch
      simp [branchSites, ih, and_assoc]

theorem sound_fieldSites {fields : List (String × Expr)} :
    Sound (fieldSites fields) ↔ ∀ field ∈ fields, Sound field.2.sites := by
  induction fields with
  | nil => simp [fieldSites]
  | cons field fields ih =>
      obtain ⟨key, value⟩ := field
      simp [fieldSites, ih]

theorem sound_joinSites {joins : List Join} :
    Sound (joinSites joins) ↔ ∀ join ∈ joins, Sound join.sites := by
  induction joins with
  | nil => simp [joinSites]
  | cons join joins ih => simp [joinSites, ih]

/-- The column of a pair is a place of its own. -/
theorem sound_pairSites {pairs : List (String × Expr)} :
    Sound (pairSites pairs) ↔ ∀ pair ∈ pairs, IsPath pair.1 ∧ Sound pair.2.sites := by
  induction pairs with
  | nil => simp [pairSites]
  | cons pair pairs ih =>
      obtain ⟨key, e⟩ := pair
      simp [pairSites, ih, Site.WellFormed, and_assoc]

end Sound

end QueryTree
