import QueryTree.Sql.Query

/-!
# The predicates of a condition

A comparator with its operand, and a column with its operand, come to one of a few predicates:
which one depends on the two together. The cases are told apart here, once.

* `Predicate`, `Predicate.fragment`: predicates, and what is written for them.
* `Comparator.predicate`, `Expr.predicate`: the predicate that is chosen.
* `Comparator.Chooses`: what each predicate says about the comparator and the operand.
* `Entry.fragment_compare_eq`, `Entry.fragment_column_eq`: an entry is written as its predicate.
-/

namespace QueryTree

open Fragment (spaced words parens)

/-- Whether a comparator tests a query for rows, so that it compares nothing. -/
def Comparator.testsRows : Comparator → Bool
  | .hasRows | .hasNoRows => true
  | _ => false

/-- Whether an expression is a query used as a value. -/
def Expr.isQuery : Expr → Bool
  | .wrapper ⟨.refer _, _, _⟩ => true
  | _ => false

/-! ## Predicates -/

/-- What a comparison amounts to, once its comparator and its operand are known. -/
inductive Predicate where
  /-- A query is tested for rows; there is no left side. -/
  | rows (query : Query)
  /-- Something else is tested for rows. -/
  | noQuery
  | isNull
  | isNotNull
  /-- One of several, or none of them. -/
  | among (comparator : Comparator) (items : List Expr)
  /-- The right side is a condition that stands alone. -/
  | nested (entries : List Entry)
  | plain (operand : Expr)

/-- What is written for a predicate; `field` is what its errors name. -/
def Predicate.fragment (field : String) (comparator : Comparator) (left : Fragment)
    (junction : Junction) (scope : Scope) : Predicate → Fragment
  | .rows query => spaced [words comparator.words, parens (query.fragment scope none)]
  | .noQuery => .fail (.invalid field (.expected .subquery))
  | .isNull => isNullTest left
  | .isNotNull => isNotNullTest left
  | .among listed items => inList field listed left (exprFragments .value scope items)
  | .nested entries =>
    spaced [left, words comparator.words,
      junction.group (entryFragments none junction scope entries)]
  | .plain operand => compareWith scope.dialect comparator left (operand.fragment .value scope)

/-- The predicate of a comparator and its operand. -/
def Comparator.predicate (comparator : Comparator) (operand : Expr) : Predicate :=
  match comparator, operand with
  | .hasRows, .wrapper ⟨.refer query, _, _⟩ | .hasNoRows, .wrapper ⟨.refer query, _, _⟩ =>
    .rows query
  | .hasRows, _ | .hasNoRows, _ => .noQuery
  | .eq, .list items | .oneOf, .list items => .among .oneOf items
  | .notEq, .list items | .noneOf, .list items => .among .noneOf items
  | .oneOf, operand | .noneOf, operand => .among comparator [operand]
  | comparator, operand =>
    if comparator = .eq && operand.isNull then .isNull
    else if comparator = .notEq && operand.isNull then .isNotNull
    else
      match operand, comparator.wildcards with
      | .condition entries, none => .nested entries
      | operand, _ => .plain operand

/-- The predicate of a column and its operand, unless that is a condition about the column. -/
def Expr.predicate : Expr → Predicate
  | .list items => .among .oneOf items
  | operand =>
    match nullTest? operand with
    | some true => .isNull
    | some false => .isNotNull
    | none => .plain operand

/-! ## What a predicate says about its operand -/

/-- A predicate that a comparator may come to with an operand. -/
inductive Comparator.Chooses (comparator : Comparator) : Expr → Predicate → Prop
  | rows (query : Query) (compare : Option (List Entry)) (alias? : Option String)
      (h : comparator.testsRows = true) :
      Chooses comparator (.wrapper ⟨.refer query, compare, alias?⟩) (.rows query)
  | noQuery (operand : Expr) (h : comparator.testsRows = true) (hquery : operand.isQuery = false) :
      Chooses comparator operand .noQuery
  | isNull (operand : Expr) (h : comparator.testsRows = false) :
      Chooses comparator operand .isNull
  | isNotNull (operand : Expr) (h : comparator.testsRows = false) :
      Chooses comparator operand .isNotNull
  | items (items : List Expr) (listed : Comparator) (h : comparator.testsRows = false)
      (hlisted : listed.testsRows = false) :
      Chooses comparator (.list items) (.among listed items)
  | single (operand : Expr) (listed : Comparator) (h : comparator.testsRows = false)
      (hlisted : listed.testsRows = false) :
      Chooses comparator operand (.among listed [operand])
  | nested (entries : List Entry) (h : comparator.testsRows = false) :
      Chooses comparator (.condition entries) (.nested entries)
  | plain (operand : Expr) (h : comparator.testsRows = false) :
      Chooses comparator operand (.plain operand)

/-- **Every choice of a comparator is one of those.** -/
theorem Comparator.chooses_predicate (comparator : Comparator) (operand : Expr) :
    comparator.Chooses operand (comparator.predicate operand) := by
  fun_cases Comparator.predicate comparator operand with
  | case1 query compare alias? | case2 query compare alias? => exact .rows query compare alias? rfl
  | case3 operand | case4 operand => exact .noQuery operand rfl (by grind [Expr.isQuery])
  | case5 items | case6 items | case7 items | case8 items => exact .items items _ rfl rfl
  | case9 operand | case10 operand => exact .single operand _ rfl rfl
  | case11 => exact .isNull _ (by grind [testsRows])
  | case12 => exact .isNotNull _ (by grind [testsRows])
  | case13 => exact .nested _ (by grind [testsRows])
  | case14 => exact .plain _ (by grind [testsRows])

theorem Comparator.Chooses.of_testsRows {comparator : Comparator} {operand : Expr}
    {predicate : Predicate} (hchooses : comparator.Chooses operand predicate)
    (hrows : comparator.testsRows = true) :
    (∃ query compare alias?, operand = .wrapper ⟨.refer query, compare, alias?⟩
        ∧ predicate = .rows query)
      ∨ (operand.isQuery = false ∧ predicate = .noQuery) := by
  cases hchooses with
  | rows query compare alias? => exact .inl ⟨query, compare, alias?, rfl, rfl⟩
  | noQuery _ _ hquery => exact .inr ⟨hquery, rfl⟩
  | isNull _ h | isNotNull _ h | items _ _ h | single _ _ h | nested _ h | plain _ h =>
      simp [h] at hrows

theorem Comparator.isNull_of_predicate {comparator : Comparator} {operand : Expr}
    (h : comparator.predicate operand = .isNull ∨ comparator.predicate operand = .isNotNull) :
    operand.isNull = true := by
  revert h
  fun_cases Comparator.predicate comparator operand <;> simp_all

theorem Expr.chooses_predicate (operand : Expr) :
    Comparator.eq.Chooses operand operand.predicate := by
  fun_cases Expr.predicate operand with
  | case1 items => exact .items items _ rfl rfl
  | case2 operand => exact .isNull operand rfl
  | case3 operand => exact .isNotNull operand rfl
  | case4 operand => exact .plain operand rfl

/-! ## Entries as predicates -/

/-- **A comparison is written as its predicate.** -/
theorem Entry.fragment_compare_eq (parent : Option Fragment) (junction : Junction) (scope : Scope)
    (comparator : Comparator) (operand : Expr) :
    (Entry.compare comparator operand).fragment parent junction scope
      = (comparator.predicate operand).fragment comparator.operator comparator
        (leftOperand parent comparator.operator) junction scope := by
  cases operand with
  | text token =>
      cases comparator
      case eq | notEq =>
        simp only [Entry.fragment, Comparator.predicate]
        split
        · rfl
        · split <;> rfl
      all_goals rfl
  | wrapper w =>
      obtain ⟨core, compare, alias?⟩ := w
      cases comparator
      case hasRows | hasNoRows =>
        cases core with
        | json options body source => cases source <;> rfl
        | _ => rfl
      all_goals rfl
  | _ => cases comparator <;> rfl

/-- **A column is written as the predicate of its operand**, unless that is a condition. -/
theorem Entry.fragment_column_eq (parent : Option Fragment) (junction : Junction) (scope : Scope)
    (key : String) {operand : Expr} (h : ∀ entries, operand ≠ .condition entries) :
    (Entry.column key operand).fragment parent junction scope
      = operand.predicate.fragment key .eq (Token.column scope key) junction scope := by
  cases operand with
  | condition entries => exact absurd rfl (h entries)
  | text token =>
      simp only [Entry.fragment, Expr.predicate]
      generalize nullTest? _ = test
      obtain _ | _ | _ := test <;> rfl
  | _ => rfl

end QueryTree
