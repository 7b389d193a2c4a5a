import QueryTree.Proofs.Condition.Predicate
import QueryTree.Proofs.Emission.Congruence

/-!
# Queries without wrappers

A query that has no wrapper in it depends on the dialect only through single texts, comparators
and limits. Where two dialects agree on those, they agree on the query.

* `Vocabulary`: which texts, comparators and limits are in use.
* `Expr.isBare`, `Entry.isBare`, `Query.isBare`: no wrapper is in use, subqueries of `exists`
  apart.
* `Agreement`: a congruence that holds between two dialects for a vocabulary.
* `Query.agreement`: it holds for all bare queries with that vocabulary.
-/

namespace QueryTree

open Fragment (word tokens spaced commas operated words parens call)

/-! ## Bare trees -/

/-- The texts, comparators and limits that are in use. -/
structure Vocabulary where
  text : Place → String → Bool
  comparator : Comparator → Bool
  /-- A limit and an offset. -/
  page : Option Nat → Option Nat → Bool

mutual

/-- Whether an expression has no wrapper in it and keeps to a vocabulary. -/
def Expr.isBare (v : Vocabulary) (place : Place) : Expr → Bool
  | .null | .bool _ | .number _ => true
  | .text token => v.text place token
  | .list items => barePlaces v place items
  | .wrapper _ => false
  | .condition entries => bareEntries v entries

/-- Whether all expressions are bare. -/
def barePlaces (v : Vocabulary) (place : Place) : List Expr → Bool
  | [] => true
  | e :: rest => e.isBare v place && barePlaces v place rest

/-- Whether all entries are bare. -/
def bareEntries (v : Vocabulary) : List Entry → Bool
  | [] => true
  | entry :: rest => entry.isBare v && bareEntries v rest

/-- Whether all conditions are bare. -/
def bareGroups (v : Vocabulary) : List (List Entry) → Bool
  | [] => true
  | entries :: rest => bareEntries v entries && bareGroups v rest

/-- Whether an entry is bare. The subquery of an existence test is no wrapper. -/
def Entry.isBare (v : Vocabulary) : Entry → Bool
  | .wrapper _ => false
  | .all conditions | .any conditions => bareGroups v conditions
  | .between low high => low.isBare v .value && high.isBare v .value
  | .compare .hasRows (.wrapper ⟨.refer query, _, _⟩)
  | .compare .hasNoRows (.wrapper ⟨.refer query, _, _⟩) => query.isBare v
  | .compare comparator operand => v.comparator comparator && operand.isBare v .value
  | .column key operand => v.text .column key && operand.isBare v .value

/-- Whether a query is bare. -/
def Query.isBare (v : Vocabulary) : Query → Bool
  | ⟨_, _, select, joins, filter, _, groupBy, having, orderBy, limit, offset, _⟩ =>
    barePlaces v .column select && bareJoins v joins && bareFilter v filter
      && barePlaces v .column groupBy && bareFilter v having
      && orderBy.all (fun (key, _) => v.text .column key) && v.page limit offset

/-- Whether a filter, if there is one, is bare. -/
def bareFilter (v : Vocabulary) : Option (List Entry) → Bool
  | none => true
  | some entries => bareEntries v entries

/-- Whether all joins are bare. -/
def bareJoins (v : Vocabulary) : List Join → Bool
  | [] => true
  | join :: rest => join.isBare v && bareJoins v rest

/-- Whether a join is bare. -/
def Join.isBare (v : Vocabulary) : Join → Bool
  | ⟨_, matching, query⟩ => matching.isBare v && query.isBare v

/-- Whether the matching of a join is bare. -/
def Matching.isBare (v : Vocabulary) : Matching → Bool
  | .unmatched | .shared _ => true
  | .pairs pairs => barePairs v pairs

/-- Whether all pairs are bare. A text on the right side stands for a column. -/
def barePairs (v : Vocabulary) : List (String × Expr) → Bool
  | [] => true
  | (column, .text token) :: rest =>
    v.text .column column && v.text .column token && barePairs v rest
  | (column, e) :: rest => v.text .column column && e.isBare v .value && barePairs v rest

end

/-! ## Agreement of two dialects -/

/-- A scope in another dialect. -/
def Scope.on (scope : Scope) (dialect : Dialect) : Scope :=
  { scope with dialect }

@[simp]
theorem Scope.dialect_on (scope : Scope) (dialect : Dialect) :
    (scope.on dialect).dialect = dialect :=
  rfl

theorem Scope.target_on (scope : Scope) (dialect : Dialect) (table : String)
    (alias? : Option String) (settings : Option Cipher.Settings) :
    (scope.on dialect).target table alias? settings
      = (scope.target table alias? settings).on dialect := by
  cases settings <;> rfl

/-- A text that is neither a constant nor a star does not depend on the dialect. -/
theorem Fragment.Congruence.plainToken {R : Fragment → Fragment → Prop} (h : Congruence R)
    (scope : Scope) (d d' : Dialect) {place : Place} {token : String}
    (hconstant : Token.Constant.ofName? token = none)
    (hstar : place = .column → token.toList.contains '*' = false) :
    R (place.token (scope.on d) token) (place.token (scope.on d') token) := by
  cases place with
  | column =>
      simp only [Place.token, Token.column, hconstant, hstar rfl, Bool.false_eq_true, if_false]
      split
      · exact h.word (by decide)
      · split
        · exact h.text _
        · split
          · exact h.text _
          · exact h.path _
  | value =>
      have href : Token.isReference (scope.on d') token = Token.isReference (scope.on d) token :=
        rfl
      simp only [Place.token, Token.value, hconstant, href]
      split
      · exact h.word (by decide)
      · split
        · exact h.text _
        · split
          · exact h.path _
          · exact h.text _

/-- A congruence that holds between what two dialects write for a vocabulary. -/
structure Agreement (R : Fragment → Fragment → Prop) (d d' : Dialect) (v : Vocabulary) : Prop
    extends Fragment.Congruence R where
  text (place : Place) {token : String} (scope : Scope) : v.text place token = true →
    R (place.token (scope.on d) token) (place.token (scope.on d') token)
  compareWith {comparator : Comparator} {f f' g g' : Fragment} : v.comparator comparator = true →
    R f f' → R g g' → R (compareWith d comparator f g) (compareWith d' comparator f' g')
  limitFragment {limit offset : Option Nat} : v.page limit offset = true →
    R (limitFragment d limit offset) (limitFragment d' limit offset)

namespace Agreement

variable {R : Fragment → Fragment → Prop} {d d' : Dialect} {v : Vocabulary}

/-- Columns of the vocabulary agree. -/
theorem column (h : Agreement R d d' v) {token : String} (scope : Scope)
    (ht : v.text .column token = true) :
    R (Token.column (scope.on d) token) (Token.column (scope.on d') token) :=
  h.text .column scope ht

theorem sortKey (h : Agreement R d d' v) {token : String} (scope : Scope) (outputs : List String)
    (ht : v.text .column token = true) :
    R (sortKey (scope.on d) outputs token) (sortKey (scope.on d') outputs token) := by
  unfold QueryTree.sortKey
  split
  · exact h.path token
  · exact h.column scope ht

theorem orderFragments (h : Agreement R d d' v) (scope : Scope) (outputs : List String)
    {keys : List (String × SortOrder)}
    (hk : keys.all (fun (key, _) => v.text .column key) = true) :
    List.Forall₂ R (orderFragments (scope.on d) outputs keys)
      (orderFragments (scope.on d') outputs keys) := by
  induction keys with
  | nil => exact .nil
  | cons key keys ih =>
      obtain ⟨hkey, hkeys⟩ := Bool.and_eq_true_iff.1 hk
      refine .cons (h.spaced (.cons (h.sortKey scope outputs hkey) (.cons (h.word ?_) .nil)))
        (ih hkeys)
      exact Fragment.Congruence.sortOrder_keyword_not_mem key.2

end Agreement

/-! ## Bare trees in two dialects -/

section Trees

variable {R : Fragment → Fragment → Prop} {d d' : Dialect} {v : Vocabulary}

/-- Operands that a comparison takes apart, with their parts in two dialects. -/
def Expr.PartsAgree (R : Fragment → Fragment → Prop) (d d' : Dialect) (v : Vocabulary)
    (scope : Scope) (junction : Junction) : Expr → Prop
  | .list items =>
      barePlaces v .value items = true →
        List.Forall₂ R (exprFragments .value (scope.on d) items)
          (exprFragments .value (scope.on d') items)
  | .condition entries =>
      bareEntries v entries = true → ∀ parent parent' : Option Fragment,
        Option.Rel R parent parent' →
          List.Forall₂ R (entryFragments parent junction (scope.on d) entries)
            (entryFragments parent' junction (scope.on d') entries)
  | .wrapper w =>
      ∀ query, w.core = .refer query → query.isBare v = true →
        R (query.fragment (scope.on d) none) (query.fragment (scope.on d') none)
  | _ => True

/-- A bare comparison is in the vocabulary, and its operand is bare. -/
theorem Entry.bare_of_compare {comparator : Comparator} {operand : Expr}
    (hb : (Entry.compare comparator operand).isBare v = true)
    (hrows : comparator.testsRows = false) :
    v.comparator comparator = true ∧ operand.isBare v .value = true := by
  cases comparator
  case hasRows | hasNoRows => cases hrows
  all_goals exact Bool.and_eq_true_iff.1 hb

theorem Entry.bare_of_rowTest {comparator : Comparator} {query : Query}
    {compare : Option (List Entry)} {alias? : Option String}
    (hb : (Entry.compare comparator (.wrapper ⟨.refer query, compare, alias?⟩)).isBare v = true)
    (hrows : comparator.testsRows = true) : query.isBare v = true := by
  cases comparator
  case hasRows | hasNoRows => exact hb
  all_goals cases hrows

/-- **Bare comparisons agree**, if their left sides and their operands do. -/
theorem agreement_compareEntry (h : Agreement R d d' v) (scope : Scope) (junction : Junction)
    {parent parent' : Option Fragment} (hp : Option.Rel R parent parent')
    {comparator : Comparator} {operand : Expr}
    (hb : (Entry.compare comparator operand).isBare v = true)
    (hoperand : operand.isBare v .value = true →
      R (operand.fragment .value (scope.on d)) (operand.fragment .value (scope.on d')))
    (hparts : operand.PartsAgree R d d' v scope junction) :
    R ((Entry.compare comparator operand).fragment parent junction (scope.on d))
      ((Entry.compare comparator operand).fragment parent' junction (scope.on d')) := by
  have hleft := h.leftOperand hp comparator.operator
  have hwords := h.words (Fragment.Congruence.comparator_words_not_mem comparator)
  have hbare := Entry.bare_of_compare hb
  rw [Entry.fragment_compare_eq, Entry.fragment_compare_eq]
  have hchooses := comparator.chooses_predicate operand
  generalize comparator.predicate operand = predicate at hchooses ⊢
  cases hchooses with
  | rows query _ _ hrows =>
      have hquery := hparts query rfl (Entry.bare_of_rowTest hb hrows)
      exact h.spaced (.cons hwords (.cons (h.parens hquery) .nil))
  | noQuery => exact h.fail _
  | isNull => exact h.isNullTest hleft
  | isNotNull => exact h.isNotNullTest hleft
  | items items listed hrows => exact h.inList _ listed hleft (hparts (hbare hrows).2)
  | single _ listed hrows =>
      exact h.inList _ listed hleft (.cons (hoperand (hbare hrows).2) .nil)
  | nested entries hrows =>
      have hgroup := h.group junction (hparts (hbare hrows).2 none none .none)
      exact h.spaced (.cons hleft (.cons hwords (.cons hgroup .nil)))
  | plain _ hrows => exact h.compareWith (hbare hrows).1 hleft (hoperand (hbare hrows).2)

/-- Bare entries under a column agree, since columns do. -/
theorem agreement_columnEntry (h : Agreement R d d' v) (scope : Scope) (junction : Junction)
    (parent parent' : Option Fragment) {key : String} (hk : v.text .column key = true)
    {operand : Expr} (hbare : operand.isBare v .value = true)
    (hoperand : R (operand.fragment .value (scope.on d)) (operand.fragment .value (scope.on d')))
    (hparts : operand.PartsAgree R d d' v scope junction) :
    R ((Entry.column key operand).fragment parent junction (scope.on d))
      ((Entry.column key operand).fragment parent' junction (scope.on d')) := by
  have hleft := h.column scope hk
  cases operand with
  | condition entries => exact h.group junction (hparts hbare _ _ (.some hleft))
  | list items => exact h.inList key _ hleft (hparts hbare)
  | _ =>
      simp only [Entry.fragment]
      split
      · exact h.isNullTest hleft
      · exact h.isNotNullTest hleft
      · exact h.equals hleft hoperand

mutual

/-- **Bare expressions agree.** -/
theorem Expr.agreement (h : Agreement R d d' v) (scope : Scope) (place : Place) :
    ∀ e : Expr, e.isBare v place = true →
      R (e.fragment place (scope.on d)) (e.fragment place (scope.on d'))
  | .null, _ => h.word (by decide)
  | .bool b, _ => h.value (.bool b)
  | .number n, _ => h.value (.ofNumber n)
  | .text token, hb => h.text place scope hb
  | .list _, _ => h.fail _
  | .wrapper _, hb => nomatch hb
  | .condition entries, hb => h.group .and (agreement_entries h scope .and .none entries hb)

theorem agreement_exprs (h : Agreement R d d' v) (scope : Scope) (place : Place) :
    ∀ es : List Expr, barePlaces v place es = true →
      List.Forall₂ R (exprFragments place (scope.on d) es) (exprFragments place (scope.on d') es)
  | [], _ => .nil
  | e :: rest, hb => by
      obtain ⟨he, hrest⟩ := Bool.and_eq_true_iff.1 hb
      exact .cons (e.agreement h scope place he) (agreement_exprs h scope place rest hrest)

theorem agreement_entries (h : Agreement R d d' v) (scope : Scope) (junction : Junction)
    {parent parent' : Option Fragment} (hp : Option.Rel R parent parent') :
    ∀ entries : List Entry, bareEntries v entries = true →
      List.Forall₂ R (entryFragments parent junction (scope.on d) entries)
        (entryFragments parent' junction (scope.on d') entries)
  | [], _ => .nil
  | entry :: rest, hb => by
      obtain ⟨hentry, hrest⟩ := Bool.and_eq_true_iff.1 hb
      exact .cons (entry.agreement h scope junction hp hentry)
        (agreement_entries h scope junction hp rest hrest)

theorem agreement_groups (h : Agreement R d d' v) (scope : Scope) (junction : Junction)
    {parent parent' : Option Fragment} (hp : Option.Rel R parent parent') :
    ∀ conditions : List (List Entry), bareGroups v conditions = true →
      List.Forall₂ R (groupFragments parent junction (scope.on d) conditions)
        (groupFragments parent' junction (scope.on d') conditions)
  | [], _ => .nil
  | entries :: rest, hb => by
      obtain ⟨hentries, hrest⟩ := Bool.and_eq_true_iff.1 hb
      exact .cons (h.group junction (agreement_entries h scope junction hp entries hentries))
        (agreement_groups h scope junction hp rest hrest)

/-- **Bare entries agree**, if what they are about does. -/
theorem Entry.agreement (h : Agreement R d d' v) (scope : Scope) (junction : Junction)
    {parent parent' : Option Fragment} (hp : Option.Rel R parent parent') :
    ∀ entry : Entry, entry.isBare v = true →
      R (entry.fragment parent junction (scope.on d))
        (entry.fragment parent' junction (scope.on d'))
  | .wrapper _, hb => nomatch hb
  | .all conditions, hb => h.nest .and (agreement_groups h scope junction hp conditions hb)
  | .any conditions, hb => h.nest .or (agreement_groups h scope junction hp conditions hb)
  | .between low high, hb => by
      obtain ⟨hlow, hhigh⟩ := Bool.and_eq_true_iff.1 hb
      exact h.betweenFragment hp (low.agreement h scope .value hlow)
        (high.agreement h scope .value hhigh)
  | .compare _ operand, hb =>
      agreement_compareEntry h scope junction hp hb (operand.agreement h scope .value)
        (operand.partsAgree h scope junction)
  | .column key operand, hb => by
      obtain ⟨hkey, hoperand⟩ := Bool.and_eq_true_iff.1 hb
      exact agreement_columnEntry h scope junction parent parent' hkey hoperand
        (operand.agreement h scope .value hoperand) (operand.partsAgree h scope junction)

theorem Expr.partsAgree (h : Agreement R d d' v) (scope : Scope) (junction : Junction) :
    ∀ e : Expr, e.PartsAgree R d d' v scope junction
  | .list items => agreement_exprs h scope .value items
  | .condition entries => fun hb _ _ hp => agreement_entries h scope junction hp entries hb
  | .wrapper ⟨.refer query, _, _⟩ => by
      have hquery := query.agreement h scope
      rintro _ ⟨⟩ hb
      exact hquery hb
  | .wrapper ⟨.string .., _, _⟩ | .wrapper ⟨.number .., _, _⟩ | .wrapper ⟨.date .., _, _⟩
  | .wrapper ⟨.concat .., _, _⟩ | .wrapper ⟨.choice .., _, _⟩ | .wrapper ⟨.cases .., _, _⟩
  | .wrapper ⟨.json .., _, _⟩ | .wrapper ⟨.aggregate .., _, _⟩ | .wrapper ⟨.all .., _, _⟩
  | .wrapper ⟨.any .., _, _⟩ | .wrapper ⟨.between .., _, _⟩ => nofun
  | .null | .bool _ | .number _ | .text _ => trivial

/-- **Bare queries agree**, clause by clause. -/
theorem Query.agreement (h : Agreement R d d' v) (outer : Scope) :
    ∀ query : Query, query.isBare v = true →
      R (query.fragment (outer.on d) none) (query.fragment (outer.on d') none)
  | ⟨table, alias?, select, joins, filter, junction, groupBy, having, orderBy, limit, offset,
      encryption⟩, hb => by
      simp only [Query.isBare, Bool.and_eq_true] at hb
      obtain ⟨⟨⟨⟨⟨⟨hselect, hjoins⟩, hfilter⟩, hgroupBy⟩, hhaving⟩, horderBy⟩, hpage⟩ := hb
      let scope := outer.enter table alias? joins encryption
      have hjoined := agreement_joins h scope (alias?.getD table) joins hjoins
      have hkeys := agreement_keys h scope (outputAliases select) groupBy hgroupBy
      have hitems : R
          (if select.isEmpty then word "*" else commas (itemFragments (scope.on d) select))
          (if select.isEmpty then word "*" else commas (itemFragments (scope.on d') select)) := by
        split
        · exact h.word (by decide)
        · exact h.commas (agreement_items h scope select hselect)
      have hfiltered := agreement_filter h scope junction filter hfilter
      have hkept := agreement_filter h scope junction having hhaving
      have hquery := h.clauses junction hitems (h.tableFragment table alias?) hjoined hfiltered
        hkeys hkept (h.orderFragments scope (outputAliases select) horderBy)
        (h.limitFragment hpage)
      -- the query reads these parts by cases
      cases encryption <;> cases filter <;> cases having <;> exact hquery

theorem agreement_filter (h : Agreement R d d' v) (scope : Scope) (junction : Junction) :
    ∀ filter : Option (List Entry), bareFilter v filter = true →
      List.Forall₂ R (filter.elim [] (entryFragments none junction (scope.on d)))
        (filter.elim [] (entryFragments none junction (scope.on d')))
  | none, _ => .nil
  | some entries, hb => agreement_entries h scope junction .none entries hb

theorem agreement_items (h : Agreement R d d' v) (scope : Scope) :
    ∀ items : List Expr, barePlaces v .column items = true →
      List.Forall₂ R (itemFragments (scope.on d) items) (itemFragments (scope.on d') items)
  | [], _ => .nil
  | e :: rest, hb => by
      obtain ⟨he, hrest⟩ := Bool.and_eq_true_iff.1 hb
      have hitem := e.agreement h scope .column he
      have hitems := agreement_items h scope rest hrest
      cases e with
      | wrapper w => cases he
      | _ => exact .cons hitem hitems

theorem agreement_keys (h : Agreement R d d' v) (scope : Scope) (outputs : List String) :
    ∀ keys : List Expr, barePlaces v .column keys = true →
      List.Forall₂ R (keyFragments (scope.on d) outputs keys)
        (keyFragments (scope.on d') outputs keys)
  | [], _ => .nil
  | e :: rest, hb => by
      obtain ⟨he, hrest⟩ := Bool.and_eq_true_iff.1 hb
      have hkey := e.agreement h scope .column he
      have hkeys := agreement_keys h scope outputs rest hrest
      cases e with
      | text token => exact .cons (h.sortKey scope outputs he) hkeys
      | _ => exact .cons hkey hkeys

theorem agreement_joins (h : Agreement R d d' v) (scope : Scope) (parent : String) :
    ∀ joins : List Join, bareJoins v joins = true →
      R (joinsFragment parent (scope.on d) joins) (joinsFragment parent (scope.on d') joins)
  | [], _ => h.empty
  | join :: rest, hb => by
      obtain ⟨hjoin, hrest⟩ := Bool.and_eq_true_iff.1 hb
      exact h.append (h.append (h.token rfl) (join.agreement h scope parent hjoin))
        (agreement_joins h scope parent rest hrest)

/-- Bare joins agree, with a query or a table. -/
theorem Join.agreement (h : Agreement R d d' v) (scope : Scope) (parent : String) :
    ∀ join : Join, join.isBare v = true →
      R (join.fragment parent (scope.on d)) (join.fragment parent (scope.on d'))
  | ⟨kind, matching, query⟩, hb => by
      obtain ⟨hmatching, hquery⟩ := Bool.and_eq_true_iff.1 hb
      have hsub := query.agreement h scope hquery
      simp only [Join.fragment, Scope.target_on]
      refine h.append (h.spaced (.cons
        (h.words (Fragment.Congruence.joinKind_words_not_mem kind)) (.cons ?_ .nil)))
        (matching.agreement h _ _ hmatching)
      split
      · split
        · exact h.spaced (.cons (h.parens hsub) (.cons (h.word (by decide))
            (.cons (h.path _) .nil)))
        · exact h.fail _
      · exact h.tableFragment _ _

/-- The rows of bare joins are matched alike. -/
theorem Matching.agreement (h : Agreement R d d' v) (outer inner : Scope) :
    ∀ matching : Matching, matching.isBare v = true →
      R (matching.fragment (outer.on d) (inner.on d))
        (matching.fragment (outer.on d') (inner.on d'))
  | .unmatched, _ => h.empty
  | .shared columns, _ => h.clause (by decide) (h.parens (h.commas (h.shared columns)))
  | .pairs pairs, hb => h.clause (by decide) (h.chain .and (agreement_pairs h outer inner pairs hb))

theorem agreement_pairs (h : Agreement R d d' v) (outer inner : Scope) :
    ∀ pairs : List (String × Expr), barePairs v pairs = true →
      List.Forall₂ R (pairFragments (outer.on d) (inner.on d) pairs)
        (pairFragments (outer.on d') (inner.on d') pairs)
  | [], _ => .nil
  | (column, e) :: rest, hb => by
      let scope := { inner with alias? := outer.alias? }
      have hright := e.agreement h inner .value
      have hparts := e.partsAgree h scope .and
      have hpairs := agreement_pairs h outer inner rest
      cases e with
      | text token =>
          obtain ⟨hpair, hrest⟩ := Bool.and_eq_true_iff.1 hb
          obtain ⟨hcolumn, htoken⟩ := Bool.and_eq_true_iff.1 hpair
          exact .cons (h.equals (h.column outer hcolumn) (h.column inner htoken)) (hpairs hrest)
      | condition entries =>
          obtain ⟨hpair, hrest⟩ := Bool.and_eq_true_iff.1 hb
          obtain ⟨hcolumn, hentries⟩ := Bool.and_eq_true_iff.1 hpair
          have hleft := h.column scope hcolumn
          exact .cons (h.group .and (hparts hentries _ _ (.some hleft))) (hpairs hrest)
      | _ =>
          obtain ⟨hpair, hrest⟩ := Bool.and_eq_true_iff.1 hb
          obtain ⟨hcolumn, he⟩ := Bool.and_eq_true_iff.1 hpair
          exact .cons (h.equals (h.column outer hcolumn) (hright he)) (hpairs hrest)

end

end Trees

end QueryTree
