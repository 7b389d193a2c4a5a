import QueryTree.Proofs.Condition.Predicate
import QueryTree.Proofs.Emission.Phrase

/-!
# Trees as phrases

Every tree is written as a phrase of the dialect of its scope: one theorem for each emitter, by
recursion over the tree.

* `Expr.phrase_fragment`, `Entry.phrase_fragment`, `Wrapper.phrase_fragment`,
  `Core.phrase_fragment`: expressions and conditions.
* `Query.phrase_fragment`, `Join.phrase_fragment`: queries and joins.
* `Write.phrase_fragment`, `Delete.phrase_fragment`: statements that change data.
-/

namespace QueryTree

open Fragment (word tokens spaced commas operated words parens call)

variable {dialect : Dialect}

/-! ## The dialect of a scope -/

@[simp]
theorem Scope.dialect_withCall (scope : Scope) (settings : Option Cipher.Settings) :
    (scope.withCall settings).dialect = scope.dialect := by
  cases settings <;> rfl

@[simp]
theorem Scope.dialect_target (scope : Scope) (table : String) (alias? : Option String)
    (settings : Option Cipher.Settings) :
    (scope.target table alias? settings).dialect = scope.dialect := by
  cases settings <;> rfl

@[simp]
theorem Scope.dialect_enter (scope : Scope) (table : String) (alias? : Option String)
    (joins : List Join) (settings : Option Cipher.Settings) :
    (scope.enter table alias? joins settings).dialect = scope.dialect := by
  cases settings <;> rfl

/-! ## Expressions, conditions and queries -/

theorem phrase_of_mem_none : ∀ f ∈ (none : Option Fragment), Phrase dialect f := by
  simp

theorem phrase_of_mem_some {left : Fragment} (h : Phrase dialect left) :
    ∀ f ∈ some left, Phrase dialect f := by
  simpa using h

theorem substrFunction_mem_ownFunctions : dialect.substrFunction ∈ dialect.ownFunctions := by
  cases dialect <;> simp [Dialect.substrFunction, Dialect.ownFunctions]

theorem ifNullFunction_mem_ownFunctions : dialect.ifNullFunction ∈ dialect.ownFunctions := by
  cases dialect <;> simp [Dialect.ifNullFunction, Dialect.ownFunctions]

theorem jsonArrayFunction_mem_ownFunctions :
    dialect.jsonArrayFunction ∈ dialect.ownFunctions := by
  cases dialect <;> simp [Dialect.jsonArrayFunction, Dialect.ownFunctions]

/-- The call of an aggregate, with or without `DISTINCT`. -/
theorem phrase_aggregated (kind : AggregateKind) (distinct : Bool) {f : Fragment}
    (h : Phrase dialect f) :
    Phrase dialect (call kind.function [if distinct then spaced ["DISTINCT", f] else f]) := by
  refine phrase_commonCall ?_ ⟨?_, trivial⟩
  · cases kind <;> simp [AggregateKind.function, commonFunctions]
  · split
    · exact phrase_spaced ⟨phrase_word (by simp [commonWords]), h, trivial⟩
    · exact h

theorem phrase_encoding (hmysql : dialect = .mysql) (charset : Charset) {f : Fragment}
    (h : Phrase dialect f) :
    Phrase dialect (word "CONVERT" ++ parens (spaced [f, "USING", charset.name])) := by
  subst hmysql
  have hcharset : charset.name ∈ Dialect.mysql.ownWords := by
    cases charset <;> simp [Charset.name, Dialect.ownWords]
  refine .call (by simp [Dialect.functions, Dialect.ownFunctions]) (phrase_spaced
    ⟨h, phrase_word (by simp [commonWords]), phrase_ownWord hcharset, trivial⟩)

/-- Bounds stand on either side of `AND`, after the column. -/
theorem phrase_between {parent : Option Fragment} (hp : ∀ f ∈ parent, Phrase dialect f)
    {low high : Fragment} (hlow : Phrase dialect low) (hhigh : Phrase dialect high) :
    Phrase dialect (betweenFragment parent low high) :=
  phrase_spaced ⟨phrase_leftOperand hp _, phrase_word (by simp [commonWords]), hlow,
    phrase_word (by simp [commonWords]), hhigh, trivial⟩

/-- Operands that a comparison takes apart, with their parts as phrases. -/
def Expr.PartPhrases (dialect : Dialect) (scope : Scope) (junction : Junction) : Expr → Prop
  | .list items => Phrases dialect (exprFragments .value scope items)
  | .condition entries =>
      ∀ parent : Option Fragment, (∀ f ∈ parent, Phrase dialect f) →
        Phrases dialect (entryFragments parent junction scope entries)
  | .wrapper w => ∀ query, w.core = .refer query → Phrase dialect (query.fragment scope none)
  | _ => True

/-- A predicate is a phrase if its left side and the parts of its operand are. -/
theorem phrase_predicate {scope : Scope} (hd : scope.dialect = dialect) (field : String)
    {left : Fragment} (hleft : Phrase dialect left) (junction : Junction)
    {comparator : Comparator} {operand : Expr} {predicate : Predicate}
    (hchooses : comparator.Chooses operand predicate)
    (hoperand : Phrase dialect (operand.fragment .value scope))
    (hparts : operand.PartPhrases dialect scope junction) :
    Phrase dialect (predicate.fragment field comparator left junction scope) := by
  subst hd
  have hwords : Phrase scope.dialect (words comparator.words) :=
    phrase_words (comparator_mem_words comparator)
  cases hchooses with
  | rows query => exact phrase_spaced ⟨hwords, .parens (hparts query rfl), trivial⟩
  | noQuery => exact .fail _
  | isNull => exact phrase_isNullTest hleft
  | isNotNull => exact phrase_isNotNullTest hleft
  | items items listed => exact phrase_inList field listed hleft hparts
  | single _ listed => exact phrase_inList field listed hleft ⟨hoperand, trivial⟩
  | nested entries =>
      exact phrase_spaced
        ⟨hleft, hwords, phrase_group junction (hparts none phrase_of_mem_none), trivial⟩
  | plain => exact phrase_compareWith comparator hleft hoperand

/-- Under a column the left side is the column, which is always a phrase. -/
theorem phrase_columnEntry {scope : Scope} (hd : scope.dialect = dialect)
    (parent : Option Fragment) (junction : Junction) (key : String) {operand : Expr}
    (hoperand : Phrase dialect (operand.fragment .value scope))
    (hparts : operand.PartPhrases dialect scope junction) :
    Phrase dialect ((Entry.column key operand).fragment parent junction scope) := by
  have hleft := phrase_column hd key
  cases operand with
  | condition entries => exact phrase_group junction (hparts _ (phrase_of_mem_some hleft))
  | _ =>
      rw [Entry.fragment_column_eq]
      · exact phrase_predicate hd key hleft junction (Expr.chooses_predicate _) hoperand hparts
      · rintro _ ⟨⟩

mutual

/-- **Every expression is written as a phrase**, wherever it stands. -/
theorem Expr.phrase_fragment {scope : Scope} (hd : scope.dialect = dialect) (place : Place) :
    ∀ e : Expr, Phrase dialect (e.fragment place scope)
  | .null => phrase_null
  | .bool _ => .value rfl
  | .number n => phrase_ofNumber n
  | .text token => phrase_token hd place token
  | .list _ => .fail _
  | .wrapper w => w.phrase_fragment hd
  | .condition entries =>
      phrase_group .and (phrases_entryFragments hd .and phrase_of_mem_none entries)

theorem phrases_exprFragments {scope : Scope} (hd : scope.dialect = dialect) (place : Place) :
    ∀ es : List Expr, Phrases dialect (exprFragments place scope es)
  | [] => trivial
  | e :: rest => ⟨e.phrase_fragment hd place, phrases_exprFragments hd place rest⟩

theorem phrases_entryFragments {scope : Scope} (hd : scope.dialect = dialect)
    {parent : Option Fragment} (junction : Junction) (hp : ∀ f ∈ parent, Phrase dialect f) :
    ∀ entries : List Entry, Phrases dialect (entryFragments parent junction scope entries)
  | [] => trivial
  | entry :: rest =>
      ⟨entry.phrase_fragment hd junction hp, phrases_entryFragments hd junction hp rest⟩

theorem phrases_groupFragments {scope : Scope} (hd : scope.dialect = dialect)
    {parent : Option Fragment} (junction : Junction) (hp : ∀ f ∈ parent, Phrase dialect f) :
    ∀ conditions : List (List Entry),
      Phrases dialect (groupFragments parent junction scope conditions)
  | [] => trivial
  | entries :: rest =>
      ⟨phrase_group junction (phrases_entryFragments hd junction hp entries),
        phrases_groupFragments hd junction hp rest⟩

/-- **Every entry of a condition is written as a phrase**, if what it is about is one. -/
theorem Entry.phrase_fragment {scope : Scope} (hd : scope.dialect = dialect)
    {parent : Option Fragment} (junction : Junction) (hp : ∀ f ∈ parent, Phrase dialect f) :
    ∀ entry : Entry, Phrase dialect (entry.fragment parent junction scope)
  | .wrapper w => phrase_wrapperEntry hp _ (w.phrase_fragment hd)
  | .all conditions => phrase_nest .and (phrases_groupFragments hd junction hp conditions)
  | .any conditions => phrase_nest .or (phrases_groupFragments hd junction hp conditions)
  | .between low high =>
      phrase_between hp (low.phrase_fragment hd .value) (high.phrase_fragment hd .value)
  | .compare comparator operand => by
      rw [Entry.fragment_compare_eq]
      exact phrase_predicate hd _ (phrase_leftOperand hp _) junction
        (comparator.chooses_predicate operand) (operand.phrase_fragment hd .value)
        (operand.partPhrases hd junction)
  | .column key operand =>
      phrase_columnEntry hd parent junction key (operand.phrase_fragment hd .value)
        (operand.partPhrases hd junction)

/-- The parts of an operand, for the predicates that take it apart. -/
theorem Expr.partPhrases {scope : Scope} (hd : scope.dialect = dialect) (junction : Junction) :
    ∀ e : Expr, e.PartPhrases dialect scope junction
  | .list items => phrases_exprFragments hd .value items
  | .condition entries => fun _ hp => phrases_entryFragments hd junction hp entries
  | .wrapper ⟨.refer query, _, _⟩ => by
      have hquery : Phrase dialect (query.fragment scope none) :=
        query.phrase_fragment hd (by simp)
      rintro _ ⟨⟩
      exact hquery
  | .wrapper ⟨.string .., _, _⟩ | .wrapper ⟨.number .., _, _⟩ | .wrapper ⟨.date .., _, _⟩
  | .wrapper ⟨.concat .., _, _⟩ | .wrapper ⟨.choice .., _, _⟩ | .wrapper ⟨.cases .., _, _⟩
  | .wrapper ⟨.json .., _, _⟩ | .wrapper ⟨.aggregate .., _, _⟩ | .wrapper ⟨.all .., _, _⟩
  | .wrapper ⟨.any .., _, _⟩ | .wrapper ⟨.between .., _, _⟩ => nofun
  | .null | .bool _ | .number _ | .text _ => trivial

/-- **Every wrapper is written as a phrase**; its comparisons are entries about its core. -/
theorem Wrapper.phrase_fragment {scope : Scope} (hd : scope.dialect = dialect) :
    ∀ w : Wrapper, Phrase dialect (w.fragment scope)
  | ⟨core, none, _⟩ => by
      have hcore := core.phrase_fragment hd
      cases core with
      | all conditions =>
          exact phrase_nest .and (phrases_groupFragments hd .and phrase_of_mem_none conditions)
      | any conditions =>
          exact phrase_nest .or (phrases_groupFragments hd .and phrase_of_mem_none conditions)
      | between low high =>
          exact phrase_between phrase_of_mem_none (low.phrase_fragment hd .value)
            (high.phrase_fragment hd .value)
      | _ => exact hcore
  | ⟨core, some entries, _⟩ => by
      have hcore := core.phrase_fragment hd
      exact phrase_group .and
        (phrases_entryFragments hd .and (phrase_of_mem_some hcore) entries)

/-- **Every core is written as a phrase**: what is called on it belongs to the dialect. -/
theorem Core.phrase_fragment {scope : Scope} (hd : scope.dialect = dialect) :
    ∀ core : Core, Phrase dialect (core.fragment scope)
  | .string value prepare steps => by
      have hi : (scope.withCall prepare.encryption).dialect = dialect := by simpa using hd
      exact phrase_stringFragment hd steps
        (phrase_preparation hi prepare (value.phrase_fragment hi .column))
  | .number value prepare steps => by
      have hi : (scope.withCall prepare.encryption).dialect = dialect := by simpa using hd
      exact phrase_numberFragment hd steps
        (phrase_preparation hi prepare (value.phrase_fragment hi .column))
  | .date value prepare change => by
      have hi : (scope.withCall prepare.encryption).dialect = dialect := by simpa using hd
      have hvalue := phrase_preparation hi prepare (value.phrase_fragment hi .column)
      simp only [Core.fragment, hd]
      exact phrase_dateChange change hvalue
  | .concat values separator cast encryption steps => by
      have hi : (scope.withCall encryption).dialect = dialect := by simpa using hd
      have hvalues := phrases_exprFragments hi .column values
      simp only [Core.fragment]
      refine phrase_stringFragment hi steps ?_
      rw [hi]
      exact phrase_castOptional (phrase_concatFragment separator hvalues) cast
  | .choice check yes no => by
      have hcheck := phrase_chain .and (phrases_entryFragments hd .and phrase_of_mem_none check)
      have hyes := yes.phrase_fragment hd .value
      have hno := no.phrase_fragment hd .value
      subst hd
      simp only [Core.fragment]
      split
      · next hmysql =>
          rw [hmysql] at hcheck hyes hno ⊢
          exact phrase_ownCall (by simp [Dialect.ownFunctions]) ⟨hcheck, hyes, hno, trivial⟩
      · exact .fail _
  | .cases branches none => .cases (.clauses (tail_branchFragment hd branches) .empty)
  | .cases branches (some e) => by
      refine .cases (.clauses (tail_branchFragment hd branches) ?_)
      exact tail_clause (common_mem_words (by simp [commonWords]))
        (e.phrase_fragment hd .value)
  | .json options body none => by
      have hbody := body.phrase_fragment hd options
      simp only [Core.fragment, hd]
      exact phrase_jsonOptions options hbody
  | .json options body (some query) => by
      have hbody : ∀ inner : Scope, inner.dialect = dialect →
          Phrase dialect (body.fragment options inner) :=
        fun inner hi => body.phrase_fragment hi options
      have hquery : Phrase dialect
          (query.fragment scope (some fun inner => body.fragment options inner)) :=
        query.phrase_fragment hd (by simpa using hbody)
      simp only [Core.fragment, hd]
      exact phrase_jsonOptions options (.parens hquery)
  | .refer query => .parens (query.phrase_fragment hd (by simp))
  | .aggregate kind value distinct none cast encryption => by
      have hi : (scope.withCall encryption).dialect = dialect := by simpa using hd
      have hvalue := value.phrase_fragment hi .column
      simp only [Core.fragment, hi]
      exact phrase_castOptional (phrase_aggregated kind distinct hvalue) cast
  | .aggregate kind value distinct (some e) cast encryption => by
      have hi : (scope.withCall encryption).dialect = dialect := by simpa using hd
      have hvalue := value.phrase_fragment hi .column
      have he := e.phrase_fragment hi .value
      simp only [Core.fragment, hi]
      refine phrase_castOptional ?_ cast
      exact phrase_ownCall ifNullFunction_mem_ownFunctions
        ⟨phrase_aggregated kind distinct hvalue, he, trivial⟩
  | .all _ | .any _ | .between _ _ => .fail _

/-- Each step that changes a text puts a call around the phrase so far. -/
theorem phrase_stringFragment {scope : Scope} (hd : scope.dialect = dialect) :
    ∀ (steps : List StringStep) {f : Fragment}, Phrase dialect f →
      Phrase dialect (stringFragment scope f steps)
  | [], _, h => h
  | .trim side :: rest, f, h => by
      refine phrase_stringFragment hd rest (phrase_commonCall ?_ ⟨h, trivial⟩)
      cases side <;> simp [Side.function, commonFunctions]
  | .substr start none :: rest, f, h => by
      have hstart := start.phrase_fragment hd .column
      simp only [stringFragment, hd]
      exact phrase_stringFragment hd rest
        (phrase_ownCall substrFunction_mem_ownFunctions ⟨h, hstart, trivial⟩)
  | .substr start (some length) :: rest, f, h => by
      have hstart := start.phrase_fragment hd .column
      have hlength := length.phrase_fragment hd .column
      simp only [stringFragment, hd]
      exact phrase_stringFragment hd rest
        (phrase_ownCall substrFunction_mem_ownFunctions ⟨h, hstart, hlength, trivial⟩)
  | .padding left right :: rest, f, h => by
      simp only [stringFragment]
      split
      · exact phrase_halted h _
      · next hsqlite =>
          rw [hd] at hsqlite
          have hleft : "LPAD" ∈ dialect.ownFunctions := by
            cases dialect <;> simp [Dialect.ownFunctions] at hsqlite ⊢
          have hright : "RPAD" ∈ dialect.ownFunctions := by
            cases dialect <;> simp [Dialect.ownFunctions] at hsqlite ⊢
          exact phrase_stringFragment hd rest
            (phrase_padFragment hd hright right (phrase_padFragment hd hleft left h))
  | .textCase case :: rest, f, h => by
      refine phrase_stringFragment hd rest (phrase_commonCall ?_ ⟨h, trivial⟩)
      cases case <;> simp [TextCase.function, commonFunctions]
  | .reverse :: rest, f, h => by
      simp only [stringFragment]
      split
      · exact phrase_halted h _
      · next hsqlite =>
          refine phrase_stringFragment hd rest (phrase_ownCall ?_ ⟨h, trivial⟩)
          rw [hd] at hsqlite
          cases dialect <;> simp [Dialect.ownFunctions] at hsqlite ⊢
  | .replace target replacement :: rest, f, h =>
      phrase_stringFragment hd rest (phrase_commonCall (by simp [commonFunctions])
        ⟨h, target.phrase_fragment hd .value, replacement.phrase_fragment hd .value, trivial⟩)
  | .encoding charset :: rest, f, h => by
      simp only [stringFragment]
      split
      · next hmysql =>
          exact phrase_stringFragment hd rest (phrase_encoding (hd.symm.trans hmysql) charset h)
      · exact phrase_halted h _

theorem phrase_padFragment {scope : Scope} (hd : scope.dialect = dialect) {function : String}
    (hw : function ∈ dialect.ownFunctions) :
    ∀ (pad : Option Pad) {f : Fragment}, Phrase dialect f →
      Phrase dialect (padFragment scope function f pad)
  | none, _, h => h
  | some ⟨length, none⟩, _, h =>
      phrase_ownCall hw ⟨h, length.phrase_fragment hd .column, phrase_text " ", trivial⟩
  | some ⟨length, some pattern⟩, _, h =>
      phrase_ownCall hw
        ⟨h, length.phrase_fragment hd .column, pattern.phrase_fragment hd .value, trivial⟩

/-- Each step that changes a number puts a call or an operator around the phrase so far. -/
theorem phrase_numberFragment {scope : Scope} (hd : scope.dialect = dialect) :
    ∀ (steps : List NumberStep) {f : Fragment}, Phrase dialect f →
      Phrase dialect (numberFragment scope f steps)
  | [], _, h => h
  | .power exponent :: rest, f, h =>
      phrase_numberFragment hd rest (phrase_commonCall (by simp [commonFunctions])
        ⟨h, exponent.phrase_fragment hd .column, trivial⟩)
  | .arithmetic operation operand :: rest, f, h => by
      have hoperator : operation.operator ∈ dialect.phraseWords :=
        mem_phraseWords_of_common (by cases operation <;> simp [Arithmetic.operator, commonWords])
      exact phrase_numberFragment hd rest (.parens (phrase_operated hoperator
        ⟨h, operand.phrase_fragment hd .column, trivial⟩))
  | .rounding rounding :: rest, f, h => by
      simp only [numberFragment, hd]
      exact phrase_numberFragment hd rest (phrase_rounding h rounding)

/-- The branches of a case expression follow a word, so they begin with a space. -/
theorem tail_branchFragment {scope : Scope} (hd : scope.dialect = dialect) :
    ∀ branches : List (List Entry × Expr), Tail dialect (branchFragment scope branches)
  | [] => .empty
  | (check, result) :: rest =>
      .clauses (.clauses
        (tail_clause (common_mem_words (by simp [commonWords]))
          (phrase_chain .and (phrases_entryFragments hd .and phrase_of_mem_none check)))
        (tail_clause (common_mem_words (by simp [commonWords]))
          (result.phrase_fragment hd .value)))
        (tail_branchFragment hd rest)

theorem JsonBody.phrase_fragment {scope : Scope} (hd : scope.dialect = dialect)
    (options : JsonOptions) :
    ∀ body : JsonBody, Phrase dialect (body.fragment options scope)
  | .object fields => by
      have hfields := phrases_fieldFragments hd fields
      simp only [JsonBody.fragment, hd]
      refine phrase_collect options (phrase_ownCall ?_ hfields)
      cases dialect <;> simp [Dialect.jsonObjectFunction, Dialect.ownFunctions]
  | .array items => by
      have hitems := phrases_exprFragments hd .column items
      simp only [JsonBody.fragment, hd]
      exact phrase_collect options (phrase_ownCall jsonArrayFunction_mem_ownFunctions hitems)
  | .single value => by
      have hvalue := value.phrase_fragment hd .column
      simp only [JsonBody.fragment, hd]
      refine phrase_collect options ?_
      split
      · exact hvalue
      · exact phrase_ownCall jsonArrayFunction_mem_ownFunctions ⟨hvalue, trivial⟩

theorem phrases_fieldFragments {scope : Scope} (hd : scope.dialect = dialect) :
    ∀ fields : List (String × Expr), Phrases dialect (fieldFragments scope fields)
  | [] => trivial
  | (key, value) :: rest => by
      have hkey : Phrase dialect (scope.dialect.textOperand (.text key)) := by
        rw [hd]
        exact phrase_textOperand (phrase_text key)
      exact ⟨hkey, value.phrase_fragment hd .column, phrases_fieldFragments hd rest⟩

/-- **Every query is written as a phrase**: `SELECT` with its items, and then the clauses. -/
theorem Query.phrase_fragment {outer : Scope} (hd : outer.dialect = dialect)
    {build : Option (Scope → Fragment)}
    (hb : ∀ g ∈ build, ∀ scope : Scope, scope.dialect = dialect → Phrase dialect (g scope)) :
    ∀ query : Query, Phrase dialect (query.fragment outer build)
  | ⟨table, alias?, select, joins, filter, junction, groupBy, having, orderBy, limit, offset,
      encryption⟩ => by
      have hs : (outer.enter table alias? joins encryption).dialect = dialect := by simpa using hd
      have hselect := phrases_itemFragments hs select
      have hjoins := tail_joinsFragment hs (alias?.getD table) joins
      have hkeys := phrases_keyFragments hs (outputAliases select) groupBy
      have horder := phrases_orderFragments hs (outputAliases select) orderBy
      have hitems : Phrase dialect (build.elim
          (if select.isEmpty then word "*" else
            commas (itemFragments (outer.enter table alias? joins encryption) select))
          fun build => build (outer.enter table alias? joins encryption)) := by
        cases build with
        | some g => exact hb g rfl _ hs
        | none =>
            simp only [Option.elim]
            split
            · exact phrase_word (by simp [commonWords])
            · exact phrase_commas hselect
      have hfiltered : Phrases dialect (filter.elim []
          (entryFragments none junction (outer.enter table alias? joins encryption))) := by
        cases filter with
        | none => trivial
        | some entries => exact phrases_entryFragments hs junction phrase_of_mem_none entries
      have hkept : Phrases dialect (having.elim []
          (entryFragments none junction (outer.enter table alias? joins encryption))) := by
        cases having with
        | none => trivial
        | some entries => exact phrases_entryFragments hs junction phrase_of_mem_none entries
      have hquery := phrase_clauses junction hitems (phrase_tableFragment table alias?) hjoins
        hfiltered hkeys hkept horder limit offset
      rw [← hs] at hquery ⊢
      -- the query reads these parts by cases, so they are settled before it is opened
      cases build <;> cases filter <;> cases having <;> exact hquery

theorem phrases_itemFragments {scope : Scope} (hd : scope.dialect = dialect) :
    ∀ items : List Expr, Phrases dialect (itemFragments scope items)
  | [] => trivial
  | e :: rest => by
      have he := e.phrase_fragment hd .column
      have hrest := phrases_itemFragments hd rest
      cases e with
      | wrapper w => exact ⟨phrase_aliased _ he, hrest⟩
      | _ => exact ⟨he, hrest⟩

theorem phrases_keyFragments {scope : Scope} (hd : scope.dialect = dialect)
    (outputs : List String) :
    ∀ keys : List Expr, Phrases dialect (keyFragments scope outputs keys)
  | [] => trivial
  | e :: rest => by
      have he := e.phrase_fragment hd .column
      have hrest := phrases_keyFragments hd outputs rest
      cases e with
      | text token => exact ⟨phrase_sortKey hd outputs token, hrest⟩
      | _ => exact ⟨he, hrest⟩

theorem tail_joinsFragment {scope : Scope} (hd : scope.dialect = dialect) (parent : String) :
    ∀ joins : List Join, Tail dialect (joinsFragment parent scope joins)
  | [] => .empty
  | join :: rest =>
      .clauses (.clause (join.phrase_fragment hd parent)) (tail_joinsFragment hd parent rest)

/-- **Every join is written as a phrase**, with its query in parentheses if it is more than a table.
-/
theorem Join.phrase_fragment {scope : Scope} (hd : scope.dialect = dialect) (parent : String) :
    ∀ join : Join, Phrase dialect (join.fragment parent scope)
  | ⟨kind, matching, query⟩ => by
      have hquery : Phrase dialect (query.fragment scope none) :=
        query.phrase_fragment hd (by simp)
      have hkind : ∀ w ∈ kind.words, w ∈ dialect.phraseWords :=
        common_mem_words (by cases kind <;> simp [JoinKind.words, commonWords])
      have ho : (scope.target parent (some parent) none).dialect = dialect := by simpa using hd
      have hi : ((scope.target parent (some parent) none).target query.table
          (some query.qualifier) none).dialect = dialect := by simpa using hd
      have hmatching := matching.tail_fragment ho hi
      simp only [Join.fragment]
      refine .followed (phrase_spaced ⟨phrase_words hkind, ?_, trivial⟩) hmatching
      split
      · split
        · exact phrase_spaced
            ⟨.parens hquery, phrase_word (by simp [commonWords]), .path _, trivial⟩
        · exact .fail _
      · exact phrase_tableFragment _ _

theorem Matching.tail_fragment {outer inner : Scope} (ho : outer.dialect = dialect)
    (hi : inner.dialect = dialect) :
    ∀ matching : Matching, Tail dialect (matching.fragment outer inner)
  | .unmatched => .empty
  | .shared columns =>
      tail_clause (common_mem_words (by simp [commonWords]))
        (.parens (phrase_commas (phrases_map fun column _ => .path column)))
  | .pairs pairs =>
      tail_clause (common_mem_words (by simp [commonWords]))
        (phrase_chain .and (phrases_pairFragments ho hi pairs))

theorem phrases_pairFragments {outer inner : Scope} (ho : outer.dialect = dialect)
    (hi : inner.dialect = dialect) :
    ∀ pairs : List (String × Expr), Phrases dialect (pairFragments outer inner pairs)
  | [] => trivial
  | (column, e) :: rest => by
      have houter := phrase_column ho column
      have he := e.phrase_fragment hi .value
      have hrest := phrases_pairFragments ho hi rest
      cases e with
      | text token => exact ⟨phrase_equals houter (phrase_column hi token), hrest⟩
      | condition entries =>
          have hs : ({ inner with alias? := outer.alias? } : Scope).dialect = dialect := hi
          exact ⟨phrase_group .and (phrases_entryFragments hs .and
            (phrase_of_mem_some (phrase_column hs column)) entries), hrest⟩
      | _ => exact ⟨phrase_equals houter he, hrest⟩

end

/-! ## Statements that change data -/

theorem phrases_filterFragments {scope : Scope} (hd : scope.dialect = dialect)
    (junction : Junction) (filter : Option Condition) :
    Phrases dialect (filterFragments junction scope filter) := by
  cases filter with
  | none => trivial
  | some entries => exact phrases_entryFragments hd junction phrase_of_mem_none entries

theorem phrases_paths (names : List String) : Phrases dialect (names.map Fragment.path) :=
  phrases_map fun name _ => .path name

namespace Write

variable {scope : Scope} (hd : scope.dialect = dialect)

include hd

/-- A value that is written to a column may be encrypted on the way. -/
theorem phrase_cell (write : Write) (column : String) (e : Expr) :
    Phrase dialect (write.cell scope column e) := by
  have hplain : Phrase dialect (plainCell scope column e) := by
    have he := e.phrase_fragment hd .value
    cases e with
    | text s => exact phrase_text s
    | list items => exact .fail _
    | condition entries => exact .fail _
    | _ => exact he
  unfold cell
  split
  · exact phrase_cipher hd .encrypt _ hplain
  · exact hplain

theorem phrase_assignments (write : Write) (row : Row) :
    Phrase dialect (write.assignments scope row) :=
  phrase_commas (phrases_map fun (column, e) _ =>
    phrase_equals (.path column) (phrase_cell hd write column e))

theorem phrase_tuple (write : Write) (first : Row) (index : Nat) (row : Row) :
    Phrase dialect (write.tuple scope first index row) := by
  unfold tuple
  split
  · refine .parens (phrase_commas (phrases_map fun (column, _) _ => ?_))
    simp only
    split
    · exact phrase_cell hd write column _
    · exact .fail _
  · exact .fail _

/-- What happens to rows that exist, in the words of each dialect. -/
theorem tail_upsertFragment (write : Write) : Tail dialect (write.upsertFragment scope) := by
  have hset := phrase_assignments hd write write.upsert
  have hconflict : "CONFLICT" ∈ dialect.ownWords → "DO" ∈ dialect.ownWords → Tail dialect
      (if write.indexes.isEmpty then .fail (.missing "indexes" "save.upsert")
      else
        clause ["ON", "CONFLICT"] (spaced [parens (commas (write.indexes.map Fragment.path)), "DO",
          "UPDATE", "SET", write.assignments scope write.upsert])) := by
    intro hword hdo
    have hkeywords : ∀ w ∈ ["ON", "CONFLICT"], w ∈ dialect.phraseWords := by
      simp [Dialect.words, hword, commonWords]
    split
    · exact .fail _
    · exact tail_clause hkeywords (phrase_spaced ⟨.parens (phrase_commas (phrases_paths _)),
        phrase_ownWord hdo, phrase_word (by simp [commonWords]),
        phrase_word (by simp [commonWords]), hset, trivial⟩)
  unfold upsertFragment
  rw [hd]
  split
  · exact .empty
  · cases dialect with
    | mysql =>
        refine tail_clause ?_ hset
        simp [Dialect.words, Dialect.ownWords, commonWords]
    | postgresql => exact hconflict (by simp [Dialect.ownWords]) (by simp [Dialect.ownWords])
    | sqlite => exact hconflict (by simp [Dialect.ownWords]) (by simp [Dialect.ownWords])

end Write

theorem Write.phrase_insertFragment (write : Write) {outer : Scope}
    (hd : outer.dialect = dialect) : Phrase dialect (write.insertFragment outer) := by
  have hs : (outer.target write.table none write.encryption).dialect = dialect := by
    simpa using hd
  unfold Write.insertFragment
  split
  · exact .fail _
  · next first _ _ =>
      have hcolumns : Phrases dialect (first.map fun entry => Fragment.path entry.1) :=
        phrases_map fun entry _ => .path entry.1
      have hrows : Phrases dialect (write.rows.mapIdx
          (write.tuple (outer.target write.table none write.encryption) first)) := by
        refine phrases_of_forall_mem fun f hf => ?_
        obtain ⟨index, hindex, rfl⟩ := List.mem_mapIdx.1 hf
        exact phrase_tuple hs write first index _
      refine .followed (phrase_spaced ⟨phrase_word ?_, phrase_word ?_, .path _,
        .parens (phrase_commas hcolumns), phrase_word ?_, phrase_commas hrows, trivial⟩)
        (tail_upsertFragment hs write) <;> simp [commonWords]

theorem Write.phrase_updateFragment (write : Write) {outer : Scope}
    (hd : outer.dialect = dialect) : Phrase dialect (write.updateFragment outer) := by
  have hs : (outer.target write.table write.alias? write.encryption).dialect = dialect := by
    simpa using hd
  unfold Write.updateFragment
  split
  · next row _ =>
      split
      · refine .followed (phrase_spaced ⟨phrase_word ?_, phrase_tableFragment _ _, phrase_word ?_,
          phrase_assignments hs write row, trivial⟩)
          (tail_conditionClause ?_ _ (phrases_filterFragments hs _ _)) <;> simp [commonWords]
      · exact .fail _
  · exact .fail _

/-- **Every insertion and every update is written as a phrase.** -/
theorem Write.phrase_fragment (write : Write) {outer : Scope} (hd : outer.dialect = dialect) :
    Phrase dialect (write.fragment outer) := by
  unfold Write.fragment
  split
  · exact write.phrase_updateFragment hd
  · exact write.phrase_insertFragment hd

/-- **Every deletion is written as a phrase**, or as the error for a missing filter. -/
theorem Delete.phrase_fragment (delete : Delete) (safeMode : Bool) {outer : Scope}
    (hd : outer.dialect = dialect) : Phrase dialect (delete.fragment safeMode outer) := by
  have hs : (outer.target delete.table delete.alias? delete.encryption).dialect = dialect := by
    simpa using hd
  unfold Delete.fragment
  split
  · exact .fail _
  · refine .followed (phrase_spaced ⟨phrase_word ?_, phrase_word ?_, phrase_tableFragment _ _,
      trivial⟩) (tail_conditionClause ?_ _ (phrases_filterFragments hs _ _)) <;> simp [commonWords]

end QueryTree
