import QueryTree.Proofs.Cipher.Recast
import QueryTree.Proofs.Condition.Predicate
import QueryTree.Proofs.Emission.Congruence

/-!
# Trees under two recastings

A relation between fragments that is kept by all constructors, and by ciphers under two
recastings, holds between what is written for a tree under the one and under the other.

* `Scope.pass`: an expression passed through a cipher, if a column has settings.
* `Recasting.Respected`: the relations in question.
* `Expr.related`, `Entry.related`, `Wrapper.related`, `Query.related`: expressions, conditions and
  queries.
* `Write.related`, `Delete.related`: statements that change data.
-/

namespace QueryTree

open Fragment (word tokens spaced commas operated words parens call)
open Cipher (Settings)

/-- Passes an expression through a cipher if a column has settings. -/
def Scope.pass (scope : Scope) (direction : Direction) (column : Option Settings) (f : Fragment) :
    Fragment :=
  column.elim f fun settings => scope.cipher direction settings f

/-- The scope is in a dialect and has certain settings of the model. -/
structure Scope.Under (dialect : Dialect) (model : Option Settings) (scope : Scope) : Prop where
  dialect_eq : scope.dialect = dialect
  model_eq : scope.layers.model = model

/-- A full congruence that is kept by ciphers under two recastings. -/
structure Recasting.Respected (p q : Recasting) (dialect : Dialect) (model : Option Settings)
    (R : Fragment → Fragment → Prop) : Prop extends Fragment.FullCongruence R where
  pass {scope : Scope} (hs : scope.Under dialect model) (direction : Direction)
    (settings : Settings) {f g : Fragment} : R f g →
    R ((scope.recast p).pass direction (p.columnOf settings) f)
      ((scope.recast q).pass direction (q.columnOf settings) g)

namespace Scope.Under

variable {dialect : Dialect} {model : Option Settings} {scope : Scope}

theorem withCall (h : scope.Under dialect model) (settings : Option Settings) :
    (scope.withCall settings).Under dialect model := by
  cases settings <;> exact ⟨h.1, h.2⟩

theorem target (h : scope.Under dialect model) (table : String) (alias? : Option String)
    (settings : Option Settings) : (scope.target table alias? settings).Under dialect model := by
  cases settings <;> exact ⟨h.1, h.2⟩

/-- Inside a query the dialect and the settings of the model stay in force. -/
theorem enter (h : scope.Under dialect model) (table : String) (alias? : Option String)
    (joins : List Join) (settings : Option Settings) :
    (scope.enter table alias? joins settings).Under dialect model := by
  cases settings <;> exact ⟨h.1, h.2⟩

end Scope.Under

section Trees

variable {p q : Recasting} {dialect : Dialect} {model : Option Settings}
  {R : Fragment → Fragment → Prop} {scope : Scope}

/-- The functions that depend on the dialect are no ciphers. -/
theorem dialect_functions_not_mem (d : Dialect) :
    d.substrFunction ∉ cipherFunctions ∧ d.ifNullFunction ∉ cipherFunctions
      ∧ d.jsonObjectFunction ∉ cipherFunctions ∧ d.jsonArrayFunction ∉ cipherFunctions := by
  cases d <;> decide

/-- A choice that both sides make alike. -/
theorem related_ite {c : Prop} [Decidable c] {f f' g g' : Fragment} (hf : R f f') (hg : R g g') :
    R (if c then f else g) (if c then f' else g') := by
  split
  · exact hf
  · exact hg

/-- A value that is decrypted under settings that were recast on either side. -/
theorem related_preparation (h : p.Respected q dialect model R) (hs : scope.Under dialect model)
    (prepare : Preparation) {f g : Fragment} (hf : R f g) :
    R ((prepare.recast p).apply (scope.recast p) f)
      ((prepare.recast q).apply (scope.recast q) g) := by
  obtain ⟨decrypt, encryption, cast⟩ := prepare
  refine h.castOptional _ cast ?_
  cases decrypt with
  | none => exact hf
  | some settings => exact h.pass hs .decrypt settings hf

/-- Operands that a comparison takes apart, with their parts under two recastings. -/
def Expr.PartsRelated (R : Fragment → Fragment → Prop) (p q : Recasting) (scope : Scope)
    (junction : Junction) : Expr → Prop
  | .list items =>
      List.Forall₂ R (exprFragments .value (scope.recast p) (recastExprs p items))
        (exprFragments .value (scope.recast q) (recastExprs q items))
  | .condition entries =>
      ∀ parent parent' : Option Fragment, Option.Rel R parent parent' →
        List.Forall₂ R (entryFragments parent junction (scope.recast p) (recastEntries p entries))
          (entryFragments parent' junction (scope.recast q) (recastEntries q entries))
  | .wrapper w =>
      ∀ query, w.core = .refer query →
        R ((query.recast p).fragment (scope.recast p) none)
          ((query.recast q).fragment (scope.recast q) none)
  | _ => True

/-- A predicate with its parts recast. -/
def Predicate.recast (p : Recasting) : Predicate → Predicate
  | .rows query => .rows (query.recast p)
  | .noQuery => .noQuery
  | .isNull => .isNull
  | .isNotNull => .isNotNull
  | .among comparator items => .among comparator (recastExprs p items)
  | .nested entries => .nested (recastEntries p entries)
  | .plain operand => .plain (operand.recast p)

/-- Settings have no say in which predicate is chosen. -/
theorem Comparator.predicate_recast (comparator : Comparator) (operand : Expr) :
    comparator.predicate (operand.recast p) = (comparator.predicate operand).recast p := by
  cases operand with
  | text token =>
      cases comparator
      case eq | notEq =>
        simp only [Expr.recast, Comparator.predicate]
        split
        · rfl
        · split <;> rfl
      all_goals rfl
  | wrapper w =>
      obtain ⟨core, compare, alias?⟩ := w
      cases comparator
      case hasRows | hasNoRows =>
        cases core with
        | json options body source => cases source <;> rfl
        | _ => rfl
      all_goals rfl
  | _ => cases comparator <;> rfl

theorem Expr.predicate_recast (operand : Expr) :
    (operand.recast p).predicate = operand.predicate.recast p := by
  cases operand with
  | text token =>
      simp only [Expr.recast, Expr.predicate]
      generalize nullTest? _ = test
      obtain _ | _ | _ := test <;> rfl
  | _ => rfl

/-- **Predicates are related if their left sides and their operands are.** -/
theorem related_predicate (h : p.Respected q dialect model R) (field : String)
    {left left' : Fragment} (hleft : R left left') (junction : Junction)
    {comparator : Comparator} {operand : Expr} {predicate : Predicate}
    (hchooses : comparator.Chooses operand predicate)
    (hoperand : R ((operand.recast p).fragment .value (scope.recast p))
      ((operand.recast q).fragment .value (scope.recast q)))
    (hparts : operand.PartsRelated R p q scope junction) :
    R ((predicate.recast p).fragment field comparator left junction (scope.recast p))
      ((predicate.recast q).fragment field comparator left' junction (scope.recast q)) := by
  have hwords := h.words (Fragment.Congruence.comparator_words_not_mem comparator)
  cases hchooses with
  | rows query => exact h.spaced (.cons hwords (.cons (h.parens (hparts query rfl)) .nil))
  | noQuery => exact h.fail _
  | isNull => exact h.isNullTest hleft
  | isNotNull => exact h.isNotNullTest hleft
  | items items listed => exact h.inList field listed hleft hparts
  | single _ listed => exact h.inList field listed hleft (.cons hoperand .nil)
  | nested entries =>
      have hgroup := h.group junction (hparts none none .none)
      exact h.spaced (.cons hleft (.cons hwords (.cons hgroup .nil)))
  | plain => exact h.compareWith comparator hleft hoperand

theorem related_compareEntry (h : p.Respected q dialect model R) (junction : Junction)
    {parent parent' : Option Fragment} (hp : Option.Rel R parent parent')
    (comparator : Comparator) {operand : Expr}
    (hoperand : R ((operand.recast p).fragment .value (scope.recast p))
      ((operand.recast q).fragment .value (scope.recast q)))
    (hparts : operand.PartsRelated R p q scope junction) :
    R (((Entry.compare comparator operand).recast p).fragment parent junction (scope.recast p))
      (((Entry.compare comparator operand).recast q).fragment parent' junction
        (scope.recast q)) := by
  rw [Entry.recast, Entry.recast, Entry.fragment_compare_eq, Entry.fragment_compare_eq,
    comparator.predicate_recast, comparator.predicate_recast]
  exact related_predicate h _ (h.leftOperand hp _) junction
    (comparator.chooses_predicate operand) hoperand hparts

/-- Under a column both left sides are the column. -/
theorem related_columnEntry (h : p.Respected q dialect model R) (junction : Junction)
    (parent parent' : Option Fragment) (key : String) {operand : Expr}
    (hoperand : R ((operand.recast p).fragment .value (scope.recast p))
      ((operand.recast q).fragment .value (scope.recast q)))
    (hparts : operand.PartsRelated R p q scope junction) :
    R (((Entry.column key operand).recast p).fragment parent junction (scope.recast p))
      (((Entry.column key operand).recast q).fragment parent' junction (scope.recast q)) := by
  have hleft : R (Token.column (scope.recast p) key) (Token.column (scope.recast q) key) :=
    h.column scope key
  cases operand with
  | condition entries => exact h.group junction (hparts _ _ (.some hleft))
  | _ =>
      rw [Entry.recast, Entry.recast, Entry.fragment_column_eq, Entry.fragment_column_eq,
        Expr.predicate_recast, Expr.predicate_recast]
      · exact related_predicate h key hleft junction (Expr.chooses_predicate _) hoperand hparts
      all_goals rintro _ ⟨⟩

mutual

/-- **Expressions recast in two ways are related.** -/
theorem Expr.related (h : p.Respected q dialect model R) {scope : Scope}
    (hs : scope.Under dialect model) (place : Place) :
    ∀ e : Expr, R ((e.recast p).fragment place (scope.recast p))
      ((e.recast q).fragment place (scope.recast q))
  | .null => h.word (by decide)
  | .bool b => h.value (.bool b)
  | .number n => h.value (.ofNumber n)
  | .text token => by
      simp only [Expr.recast, Expr.fragment, Place.token_recast]
      exact h.placeToken place scope token
  | .list _ => h.fail _
  | .wrapper w => w.related h hs
  | .condition entries => h.group .and (related_entries h hs .and .none entries)

theorem related_exprs (h : p.Respected q dialect model R) {scope : Scope}
    (hs : scope.Under dialect model) (place : Place) :
    ∀ es : List Expr, List.Forall₂ R (exprFragments place (scope.recast p) (recastExprs p es))
      (exprFragments place (scope.recast q) (recastExprs q es))
  | [] => .nil
  | e :: rest => .cons (e.related h hs place) (related_exprs h hs place rest)

theorem related_entries (h : p.Respected q dialect model R) {scope : Scope}
    (hs : scope.Under dialect model) (junction : Junction)
    {parent parent' : Option Fragment} (hp : Option.Rel R parent parent') :
    ∀ entries : List Entry,
      List.Forall₂ R (entryFragments parent junction (scope.recast p) (recastEntries p entries))
        (entryFragments parent' junction (scope.recast q) (recastEntries q entries))
  | [] => .nil
  | entry :: rest =>
      .cons (entry.related h hs junction hp) (related_entries h hs junction hp rest)

theorem related_groups (h : p.Respected q dialect model R) {scope : Scope}
    (hs : scope.Under dialect model) (junction : Junction)
    {parent parent' : Option Fragment} (hp : Option.Rel R parent parent') :
    ∀ conditions : List (List Entry),
      List.Forall₂ R (groupFragments parent junction (scope.recast p) (recastGroups p conditions))
        (groupFragments parent' junction (scope.recast q) (recastGroups q conditions))
  | [] => .nil
  | entries :: rest =>
      .cons (h.group junction (related_entries h hs junction hp entries))
        (related_groups h hs junction hp rest)

theorem related_filter (h : p.Respected q dialect model R) {scope : Scope}
    (hs : scope.Under dialect model) (junction : Junction) :
    ∀ filter : Option (List Entry),
      List.Forall₂ R (filterFragments junction (scope.recast p) (recastFilter p filter))
        (filterFragments junction (scope.recast q) (recastFilter q filter))
  | none => .nil
  | some entries => related_entries h hs junction .none entries

/-- **Entries recast in two ways are related**, if what they are about is. -/
theorem Entry.related (h : p.Respected q dialect model R) {scope : Scope}
    (hs : scope.Under dialect model) (junction : Junction)
    {parent parent' : Option Fragment} (hp : Option.Rel R parent parent') :
    ∀ entry : Entry, R ((entry.recast p).fragment parent junction (scope.recast p))
      ((entry.recast q).fragment parent' junction (scope.recast q))
  | .wrapper ⟨core, none, alias?⟩ =>
      h.wrapperEntry hp false (Wrapper.related h hs ⟨core, none, alias?⟩)
  | .wrapper ⟨core, some entries, alias?⟩ =>
      h.wrapperEntry hp true (Wrapper.related h hs ⟨core, some entries, alias?⟩)
  | .all conditions => h.nest .and (related_groups h hs junction hp conditions)
  | .any conditions => h.nest .or (related_groups h hs junction hp conditions)
  | .between low high =>
      h.betweenFragment hp (low.related h hs .value) (high.related h hs .value)
  | .compare comparator operand =>
      related_compareEntry h junction hp comparator (operand.related h hs .value)
        (operand.partsRelated h hs junction)
  | .column key operand =>
      related_columnEntry h junction parent parent' key (operand.related h hs .value)
        (operand.partsRelated h hs junction)

theorem Expr.partsRelated (h : p.Respected q dialect model R) {scope : Scope}
    (hs : scope.Under dialect model) (junction : Junction) :
    ∀ e : Expr, e.PartsRelated R p q scope junction
  | .list items => related_exprs h hs .value items
  | .condition entries => fun _ _ hp => related_entries h hs junction hp entries
  | .wrapper ⟨.refer query, _, _⟩ => by
      have hquery := query.related h hs .none
      rintro _ ⟨⟩
      exact hquery
  | .wrapper ⟨.string .., _, _⟩ | .wrapper ⟨.number .., _, _⟩ | .wrapper ⟨.date .., _, _⟩
  | .wrapper ⟨.concat .., _, _⟩ | .wrapper ⟨.choice .., _, _⟩ | .wrapper ⟨.cases .., _, _⟩
  | .wrapper ⟨.json .., _, _⟩ | .wrapper ⟨.aggregate .., _, _⟩ | .wrapper ⟨.all .., _, _⟩
  | .wrapper ⟨.any .., _, _⟩ | .wrapper ⟨.between .., _, _⟩ => nofun
  | .null | .bool _ | .number _ | .text _ => trivial

/-- **Wrappers recast in two ways are related.** -/
theorem Wrapper.related (h : p.Respected q dialect model R) {scope : Scope}
    (hs : scope.Under dialect model) :
    ∀ w : Wrapper, R ((w.recast p).fragment (scope.recast p))
      ((w.recast q).fragment (scope.recast q))
  | ⟨core, none, _⟩ => by
      have hcore := core.related h hs
      cases core with
      | all conditions => exact h.nest .and (related_groups h hs .and .none conditions)
      | any conditions => exact h.nest .or (related_groups h hs .and .none conditions)
      | between low high =>
          exact h.betweenFragment .none (low.related h hs .value) (high.related h hs .value)
      | json options body source => cases source <;> exact hcore
      | _ => exact hcore
  | ⟨core, some entries, _⟩ =>
      h.group .and (related_entries h hs .and (.some (core.related h hs)) entries)

/-- **Cores recast in two ways are related**, each under the settings of its own call. -/
theorem Core.related (h : p.Respected q dialect model R) {scope : Scope}
    (hs : scope.Under dialect model) :
    ∀ core : Core, R ((core.recast p).fragment (scope.recast p))
      ((core.recast q).fragment (scope.recast q))
  | .string value prepare steps => by
      have hi := hs.withCall prepare.encryption
      have hvalue := related_preparation h hi prepare (value.related h hi .column)
      simp only [← Scope.withCall_recast] at hvalue
      exact related_stringSteps h hs steps hvalue
  | .number value prepare steps => by
      have hi := hs.withCall prepare.encryption
      have hvalue := related_preparation h hi prepare (value.related h hi .column)
      simp only [← Scope.withCall_recast] at hvalue
      exact related_numberSteps h hs steps hvalue
  | .date value prepare change => by
      have hi := hs.withCall prepare.encryption
      have hvalue := related_preparation h hi prepare (value.related h hi .column)
      simp only [← Scope.withCall_recast] at hvalue
      exact h.dateChange change hvalue
  | .concat values separator cast encryption steps => by
      have hi := hs.withCall encryption
      have hvalues := related_exprs h hi .column values
      have hjoined := h.castOptional (scope.withCall encryption).dialect cast
        (h.concatFragment (scope.withCall encryption).dialect separator hvalues)
      have hsteps := related_stringSteps h hi steps hjoined
      rw [Core.recast, Core.recast, Core.fragment, Core.fragment, Scope.withCall_recast,
        Scope.withCall_recast]
      exact hsteps
  | .choice check yes no =>
      related_ite
        (h.call (by decide) (.cons (h.chain .and (related_entries h hs .and .none check))
          (.cons (yes.related h hs .value) (.cons (no.related h hs .value) .nil))))
        (h.fail _)
  | .cases branches none =>
      h.enclosed .cases (h.append (related_branches h hs branches) h.empty)
  | .cases branches (some e) =>
      h.enclosed .cases (h.append (related_branches h hs branches)
        (h.clause (by decide) (e.related h hs .value)))
  | .json options body none => h.jsonOptions options (body.related h hs options)
  | .json options body (some query) => by
      have hbody : ∀ scope : Scope, scope.Under dialect model →
          R ((body.recast p).fragment options (scope.recast p))
            ((body.recast q).fragment options (scope.recast q)) :=
        fun scope hs => body.related h hs options
      exact h.jsonOptions options (h.parens (query.related h hs (.some hbody)))
  | .refer query => h.parens (query.related h hs .none)
  | .aggregate kind value distinct none cast encryption => by
      have hvalue := value.related h (hs.withCall encryption) .column
      simp only [Core.recast, Core.fragment, Scope.withCall_recast, recastExpr?]
      exact h.castOptional _ cast (h.aggregated kind distinct hvalue)
  | .aggregate kind value distinct (some e) cast encryption => by
      have hi := hs.withCall encryption
      have hvalue := value.related h hi .column
      have he := e.related h hi .value
      simp only [Core.recast, Core.fragment, Scope.withCall_recast, recastExpr?]
      exact h.castOptional _ cast (h.call (dialect_functions_not_mem _).2.1
        (.cons (h.aggregated kind distinct hvalue) (.cons he .nil)))
  | .all _ | .any _ | .between _ _ => h.fail _

theorem related_stringSteps (h : p.Respected q dialect model R) {scope : Scope}
    (hs : scope.Under dialect model) :
    ∀ (steps : List StringStep) {f g : Fragment}, R f g →
      R (stringFragment (scope.recast p) f (recastStringSteps p steps))
        (stringFragment (scope.recast q) g (recastStringSteps q steps))
  | [], _, _, hf => hf
  | .trim side :: rest, _, _, hf => by
      have hfunction : side.function ∉ cipherFunctions := by cases side <;> decide
      exact related_stringSteps h hs rest (h.call hfunction (.cons hf .nil))
  | .substr start none :: rest, _, _, hf =>
      related_stringSteps h hs rest (h.call (dialect_functions_not_mem _).1
        (.cons hf (.cons (start.related h hs .column) .nil)))
  | .substr start (some length) :: rest, _, _, hf =>
      related_stringSteps h hs rest (h.call (dialect_functions_not_mem _).1
        (.cons hf (.cons (start.related h hs .column) (.cons (length.related h hs .column) .nil))))
  | .padding left right :: rest, _, _, hf =>
      related_ite (h.halted _ hf) (related_stringSteps h hs rest
        (related_pad h hs "RPAD" (by decide) right (related_pad h hs "LPAD" (by decide) left hf)))
  | .textCase case :: rest, _, _, hf => by
      have hfunction : case.function ∉ cipherFunctions := by cases case <;> decide
      exact related_stringSteps h hs rest (h.call hfunction (.cons hf .nil))
  | .reverse :: rest, _, _, hf =>
      related_ite (h.halted _ hf)
        (related_stringSteps h hs rest (h.call (by decide) (.cons hf .nil)))
  | .replace target replacement :: rest, _, _, hf =>
      related_stringSteps h hs rest (h.call (by decide) (.cons hf
        (.cons (target.related h hs .value) (.cons (replacement.related h hs .value) .nil))))
  | .encoding charset :: rest, _, _, hf =>
      related_ite (related_stringSteps h hs rest (h.encoding charset hf)) (h.halted _ hf)

theorem related_pad (h : p.Respected q dialect model R) {scope : Scope}
    (hs : scope.Under dialect model) (function : String) (hw : function ∉ cipherFunctions) :
    ∀ (pad : Option Pad) {f g : Fragment}, R f g →
      R (padFragment (scope.recast p) function f (recastPad p pad))
        (padFragment (scope.recast q) function g (recastPad q pad))
  | none, _, _, hf => hf
  | some ⟨length, none⟩, _, _, hf =>
      h.call hw (.cons hf (.cons (length.related h hs .column) (.cons (h.text " ") .nil)))
  | some ⟨length, some pattern⟩, _, _, hf =>
      h.call hw (.cons hf (.cons (length.related h hs .column)
        (.cons (pattern.related h hs .value) .nil)))

theorem related_numberSteps (h : p.Respected q dialect model R) {scope : Scope}
    (hs : scope.Under dialect model) :
    ∀ (steps : List NumberStep) {f g : Fragment}, R f g →
      R (numberFragment (scope.recast p) f (recastNumberSteps p steps))
        (numberFragment (scope.recast q) g (recastNumberSteps q steps))
  | [], _, _, hf => hf
  | .power exponent :: rest, _, _, hf =>
      related_numberSteps h hs rest
        (h.call (by decide) (.cons hf (.cons (exponent.related h hs .column) .nil)))
  | .arithmetic operation operand :: rest, _, _, hf => by
      have hoperator : operation.operator ∉ cipherFunctions := by cases operation <;> decide
      exact related_numberSteps h hs rest
        (h.parens (h.operated hoperator (.cons hf (.cons (operand.related h hs .column) .nil))))
  | .rounding rounding :: rest, _, _, hf => related_numberSteps h hs rest (h.rounding rounding hf)

theorem related_branches (h : p.Respected q dialect model R) {scope : Scope}
    (hs : scope.Under dialect model) :
    ∀ branches : List (List Entry × Expr),
      R (branchFragment (scope.recast p) (recastBranches p branches))
        (branchFragment (scope.recast q) (recastBranches q branches))
  | [] => h.empty
  | (check, result) :: rest =>
      h.append (h.append
        (h.clause (by decide) (h.chain .and (related_entries h hs .and .none check)))
        (h.clause (by decide) (result.related h hs .value)))
        (related_branches h hs rest)

theorem JsonBody.related (h : p.Respected q dialect model R) {scope : Scope}
    (hs : scope.Under dialect model) (options : JsonOptions) :
    ∀ body : JsonBody, R ((body.recast p).fragment options (scope.recast p))
      ((body.recast q).fragment options (scope.recast q))
  | .object fields =>
      h.collect options
        (h.call (dialect_functions_not_mem _).2.2.1 (related_fields h hs fields))
  | .array items =>
      h.collect options
        (h.call (dialect_functions_not_mem _).2.2.2 (related_exprs h hs .column items))
  | .single value => by
      have hvalue := value.related h hs .column
      refine h.collect options ?_
      split
      · exact hvalue
      · exact h.call (dialect_functions_not_mem _).2.2.2 (.cons hvalue .nil)

theorem related_fields (h : p.Respected q dialect model R) {scope : Scope}
    (hs : scope.Under dialect model) :
    ∀ fields : List (String × Expr),
      List.Forall₂ R (fieldFragments (scope.recast p) (recastPairs p fields))
        (fieldFragments (scope.recast q) (recastPairs q fields))
  | [] => .nil
  | (key, value) :: rest =>
      .cons (h.textOperand _ (h.text key))
        (.cons (value.related h hs .column) (related_fields h hs rest))

/-- **Queries recast in two ways are related**, each under the settings of its own. -/
theorem Query.related (h : p.Respected q dialect model R) {outer : Scope}
    (hs : outer.Under dialect model) {build build' : Option (Scope → Fragment)}
    (hb : Option.Rel (fun g g' => ∀ scope : Scope, scope.Under dialect model →
      R (g (scope.recast p)) (g' (scope.recast q))) build build') :
    ∀ query : Query, R ((query.recast p).fragment (outer.recast p) build)
      ((query.recast q).fragment (outer.recast q) build')
  | ⟨table, alias?, select, joins, filter, junction, groupBy, having, orderBy, limit, offset,
      encryption⟩ => by
      let scope := outer.enter table alias? joins encryption
      have hi : scope.Under dialect model := hs.enter table alias? joins encryption
      have hselect := related_items h hi select
      have hjoins := related_joins h hi (alias?.getD table) joins
      have hfiltered := related_filter h hi junction filter
      have hkeys := related_keys h hi (outputAliases select) groupBy
      have hkept := related_filter h hi junction having
      have hitems : R
          (build.elim (if (recastExprs p select).isEmpty then word "*"
            else commas (itemFragments (scope.recast p) (recastExprs p select)))
            fun g => g (scope.recast p))
          (build'.elim (if (recastExprs q select).isEmpty then word "*"
            else commas (itemFragments (scope.recast q) (recastExprs q select)))
            fun g => g (scope.recast q)) := by
        cases hb with
        | some hg => exact hg scope hi
        | none =>
            cases select with
            | nil => exact h.word (by decide)
            | cons e rest => exact h.commas hselect
      rw [Query.fragment_eq, Query.fragment_eq]
      simp only [Query.scope, Query.recast, Scope.enter_recast, outputAliases_recast]
      exact h.clauses junction hitems (h.tableFragment table alias?) hjoins hfiltered hkeys hkept
        (h.orderFragments scope _ orderBy) (h.limitFragment limit offset)

theorem related_items (h : p.Respected q dialect model R) {scope : Scope}
    (hs : scope.Under dialect model) :
    ∀ items : List Expr, List.Forall₂ R (itemFragments (scope.recast p) (recastExprs p items))
      (itemFragments (scope.recast q) (recastExprs q items))
  | [] => .nil
  | e :: rest => by
      have he := e.related h hs .column
      have hrest := related_items h hs rest
      cases e with
      | wrapper w =>
          obtain ⟨core, compare, alias?⟩ := w
          exact .cons (h.aliased alias? he) hrest
      | _ => exact .cons he hrest

theorem related_keys (h : p.Respected q dialect model R) {scope : Scope}
    (hs : scope.Under dialect model) (outputs : List String) :
    ∀ keys : List Expr,
      List.Forall₂ R (keyFragments (scope.recast p) outputs (recastExprs p keys))
        (keyFragments (scope.recast q) outputs (recastExprs q keys))
  | [] => .nil
  | e :: rest => by
      have he := e.related h hs .column
      have hrest := related_keys h hs outputs rest
      cases e with
      | text token => exact .cons (h.sortKey scope outputs token) hrest
      | _ => exact .cons he hrest

theorem related_joins (h : p.Respected q dialect model R) {scope : Scope}
    (hs : scope.Under dialect model) (parent : String) :
    ∀ joins : List Join, R (joinsFragment parent (scope.recast p) (recastJoins p joins))
      (joinsFragment parent (scope.recast q) (recastJoins q joins))
  | [] => h.empty
  | join :: rest =>
      h.append (h.append (h.token rfl) (join.related h hs parent))
        (related_joins h hs parent rest)

/-- What is joined is recast in the scope around it. -/
theorem Join.related (h : p.Respected q dialect model R) {scope : Scope}
    (hs : scope.Under dialect model) (parent : String) :
    ∀ join : Join, R ((join.recast p).fragment parent (scope.recast p))
      ((join.recast q).fragment parent (scope.recast q))
  | ⟨kind, matching, query⟩ => by
      have hquery := query.related h hs .none
      have ho := hs.target parent (some parent) none
      have hi := ho.target query.table (some query.qualifier) none
      have hmatching := matching.related h ho hi
      simp only [Join.recast, Join.fragment, Query.isDerived_recast, Query.alias?_recast,
        Query.table_recast, Query.qualifier_recast]
      refine h.append (h.spaced (.cons
        (h.words (Fragment.Congruence.joinKind_words_not_mem kind)) (.cons ?_ .nil))) hmatching
      refine related_ite ?_ (h.tableFragment _ _)
      split
      · exact h.spaced
          (.cons (h.parens hquery) (.cons (h.word (by decide)) (.cons (h.path _) .nil)))
      · exact h.fail _

theorem Matching.related (h : p.Respected q dialect model R) {outer inner : Scope}
    (ho : outer.Under dialect model) (hi : inner.Under dialect model) :
    ∀ matching : Matching, R ((matching.recast p).fragment (outer.recast p) (inner.recast p))
      ((matching.recast q).fragment (outer.recast q) (inner.recast q))
  | .unmatched => h.empty
  | .shared columns => h.clause (by decide) (h.parens (h.commas (h.shared columns)))
  | .pairs pairs => h.clause (by decide) (h.chain .and (related_pairs h ho hi pairs))

theorem related_pairs (h : p.Respected q dialect model R) {outer inner : Scope}
    (ho : outer.Under dialect model) (hi : inner.Under dialect model) :
    ∀ pairs : List (String × Expr),
      List.Forall₂ R (pairFragments (outer.recast p) (inner.recast p) (recastPairs p pairs))
        (pairFragments (outer.recast q) (inner.recast q) (recastPairs q pairs))
  | [] => .nil
  | (column, e) :: rest => by
      let scope : Scope := { inner with alias? := outer.alias? }
      have hs : scope.Under dialect model := ⟨hi.1, hi.2⟩
      have hcolumn := h.column outer column
      have hright := e.related h hi .value
      have hparts := e.partsRelated h hs .and
      have hrest := related_pairs h ho hi rest
      cases e with
      | text token => exact .cons (h.equals hcolumn (h.column inner token)) hrest
      | condition entries =>
          exact .cons (h.group .and (hparts _ _ (.some (h.column scope column)))) hrest
      | _ => exact .cons (h.equals hcolumn hright) hrest

end

/-! ## Statements that change data -/

theorem Write.cell_eq (write : Write) (scope : Scope) (column : String) (e : Expr) :
    write.cell scope column e
      = scope.pass .encrypt (write.encrypt.lookup column) (plainCell scope column e) := by
  unfold Write.cell
  cases write.encrypt.lookup column <;> rfl

/-- The columns that are encrypted stay the same. -/
theorem Write.lookup_encrypt_recast (p : Recasting) (write : Write) (column : String) :
    (write.recast p).encrypt.lookup column = (write.encrypt.lookup column).bind p.columnOf := by
  obtain ⟨around, change⟩ := p
  simp only [Write.recast]
  induction write.encrypt with
  | nil => rfl
  | cons entry rest ih =>
      obtain ⟨name, settings⟩ := entry
      cases change with
      | none =>
          rw [List.filterMap_cons_none rfl, ih, List.lookup_cons]
          split
          · cases rest.lookup column <;> rfl
          · rfl
      | some change =>
          rw [List.filterMap_cons, List.lookup_cons]
          simp only [Recasting.columnOf, Option.map_some, List.lookup_cons] at ih ⊢
          rw [ih]
          split <;> rfl

/-- A value that is written is encrypted under settings that were recast. -/
theorem Write.related_cell (h : p.Respected q dialect model R) (hs : scope.Under dialect model)
    (write : Write) (column : String) (e : Expr) :
    R ((write.recast p).cell (scope.recast p) column (e.recast p))
      ((write.recast q).cell (scope.recast q) column (e.recast q)) := by
  have hplain : R (Write.plainCell (scope.recast p) column (e.recast p))
      (Write.plainCell (scope.recast q) column (e.recast q)) := by
    have he := e.related h hs .value
    cases e with
    | text s => exact h.text s
    | list items => exact h.fail _
    | condition entries => exact h.fail _
    | _ => exact he
  rw [Write.cell_eq, Write.cell_eq, Write.lookup_encrypt_recast, Write.lookup_encrypt_recast]
  cases write.encrypt.lookup column with
  | none => exact hplain
  | some settings => exact h.pass hs .encrypt settings hplain

theorem Write.related_assignments (h : p.Respected q dialect model R)
    (hs : scope.Under dialect model) (write : Write) (row : Row) :
    R ((write.recast p).assignments (scope.recast p) (recastPairs p row))
      ((write.recast q).assignments (scope.recast q) (recastPairs q row)) := by
  refine h.commas ?_
  induction row with
  | nil => exact .nil
  | cons cell row ih =>
      exact .cons (h.equals (h.path cell.1) (write.related_cell h hs cell.1 cell.2)) ih

theorem lookup_recastPairs (p : Recasting) (column : String) (row : Row) :
    (recastPairs p row).lookup column = (row.lookup column).map (Expr.recast p) := by
  induction row with
  | nil => rfl
  | cons cell row ih =>
      obtain ⟨name, e⟩ := cell
      rw [recastPairs, List.lookup_cons, List.lookup_cons, ih]
      split <;> rfl

theorem Write.related_tuple (h : p.Respected q dialect model R) (hs : scope.Under dialect model)
    (write : Write) (first : Row) (index : Nat) (row : Row) :
    R ((write.recast p).tuple (scope.recast p) (recastPairs p first) index (recastPairs p row))
      ((write.recast q).tuple (scope.recast q) (recastPairs q first) index
        (recastPairs q row)) := by
  simp only [Write.tuple, lookup_recastPairs]
  simp only [recastPairs_eq_map, List.length_map, List.map_map]
  refine related_ite (h.parens (h.commas ?_)) (h.fail _)
  -- A cell for each column, whatever the number of columns is.
  induction first with
  | nil => exact .nil
  | cons cell first ih =>
      refine .cons ?_ ih
      simp only [Function.comp_apply]
      cases row.lookup cell.1 with
      | none => exact h.fail _
      | some e => exact write.related_cell h hs cell.1 e

theorem Write.isEmpty_upsert_recast (p : Recasting) (write : Write) :
    (write.recast p).upsert.isEmpty = write.upsert.isEmpty := by
  rw [Write.recast, recastPairs_eq_map, List.isEmpty_map]

/-- **What happens to rows that exist is related**, in the words of each dialect. -/
theorem Write.related_upsert (h : p.Respected q dialect model R) (hs : scope.Under dialect model)
    (write : Write) :
    R ((write.recast p).upsertFragment (scope.recast p))
      ((write.recast q).upsertFragment (scope.recast q)) := by
  have hset := write.related_assignments h hs write.upsert
  have hindexes := h.parens (h.commas (h.shared write.indexes))
  have hkeywords : ∀ w ∈ ["ON", "CONFLICT"], w ∉ cipherFunctions := by decide
  have hconflict := related_ite (c := write.indexes.isEmpty = true)
    (h.fail (.missing "indexes" "save.upsert")) (h.clause hkeywords
      (h.spaced (.cons hindexes (.cons (h.word (w := "DO") (by decide))
        (.cons (h.word (w := "UPDATE") (by decide)) (.cons (h.word (w := "SET") (by decide))
          (.cons hset .nil)))))))
  rw [Write.upsertFragment, Write.upsertFragment, Write.isEmpty_upsert_recast,
    Write.isEmpty_upsert_recast]
  refine related_ite h.empty ?_
  have hd : (scope.recast q).dialect = (scope.recast p).dialect := rfl
  rw [hd]
  cases (scope.recast p).dialect with
  | mysql => exact h.clause (by decide) hset
  | postgresql => exact hconflict
  | sqlite => exact hconflict

/-- Rows that are related one by one, each with its index. -/
theorem forall₂_mapIdx {α : Type} {c c' : α → Row} {f f' : Nat → Row → Fragment}
    (rows : List α) (h : ∀ i row, R (f i (c row)) (f' i (c' row))) :
    List.Forall₂ R ((rows.map c).mapIdx f) ((rows.map c').mapIdx f') := by
  induction rows generalizing f f' with
  | nil => exact .nil
  | cons row rows ih =>
      rw [List.map_cons, List.map_cons, List.mapIdx_cons, List.mapIdx_cons]
      exact .cons (h 0 row) (ih fun i row => h (i + 1) row)

theorem Write.related_insert (h : p.Respected q dialect model R) (hs : scope.Under dialect model)
    (write : Write) :
    R ((write.recast p).insertFragment (scope.recast p))
      ((write.recast q).insertFragment (scope.recast q)) := by
  have hi := hs.target write.table none write.encryption
  have hupsert := write.related_upsert h hi
  have hrows : ∀ p : Recasting, (write.recast p).rows = write.rows.map (recastPairs p) :=
    fun _ => rfl
  have hscope : ∀ p : Recasting,
      (scope.recast p).target (write.recast p).table none (write.recast p).encryption
        = (scope.target write.table none write.encryption).recast p :=
    fun p => Scope.target_recast p scope write.table none write.encryption
  simp only [Write.insertFragment, hrows, hscope]
  cases write.rows with
  | nil => exact h.fail _
  | cons first rest =>
      have hcolumns : ∀ p : Recasting,
          (recastPairs p first).map (fun cell => Fragment.path cell.1)
            = (first.map Prod.fst).map Fragment.path := by
        intro p
        simp [recastPairs_eq_map, Function.comp_def]
      have htuples := forall₂_mapIdx (first :: rest) (write.related_tuple h hi first)
      simp only [List.map_cons, hcolumns]
      exact h.append (h.spaced (.cons (h.word (by decide)) (.cons (h.word (by decide))
        (.cons (h.path _) (.cons (h.parens (h.commas (h.shared _))) (.cons (h.word (by decide))
          (.cons (h.commas htuples) .nil))))))) hupsert

theorem Write.related_update (h : p.Respected q dialect model R) (hs : scope.Under dialect model)
    (write : Write) :
    R ((write.recast p).updateFragment (scope.recast p))
      ((write.recast q).updateFragment (scope.recast q)) := by
  have hi := hs.target write.table write.alias? write.encryption
  have hfiltered := related_filter h hi write.junction write.filter
  have hrows : ∀ p : Recasting, (write.recast p).rows = write.rows.map (recastPairs p) :=
    fun _ => rfl
  have hscope : ∀ p : Recasting,
      (scope.recast p).target (write.recast p).table (write.recast p).alias?
          (write.recast p).encryption
        = (scope.target write.table write.alias? write.encryption).recast p :=
    fun p => Scope.target_recast p scope write.table write.alias? write.encryption
  simp only [Write.updateFragment, hrows, hscope, Write.isEmpty_upsert_recast]
  match write.rows with
  | [] => exact h.fail _
  | [row] =>
      have hset := write.related_assignments h hi row
      refine related_ite (h.append ?_ ?_) (h.fail _)
      · exact h.spaced (.cons (h.word (by decide)) (.cons (h.tableFragment _ _)
          (.cons (h.word (by decide)) (.cons hset .nil))))
      · exact h.conditionClause (by decide) write.junction hfiltered
  | _ :: _ :: _ => exact h.fail _

/-- **Insertions and updates recast in two ways are related.** -/
theorem Write.related (h : p.Respected q dialect model R) (hs : scope.Under dialect model)
    (write : Write) :
    R ((write.recast p).fragment (scope.recast p))
      ((write.recast q).fragment (scope.recast q)) := by
  have hfilter : ∀ p : Recasting, (write.recast p).filter.isSome = write.filter.isSome := by
    intro p
    simp [Write.recast, recastFilter_eq_map]
  simp only [Write.fragment, hfilter]
  exact related_ite (write.related_update h hs) (write.related_insert h hs)

/-- **Deletions recast in two ways are related.** -/
theorem Delete.related (h : p.Respected q dialect model R) (hs : scope.Under dialect model)
    (delete : Delete) (safeMode : Bool) :
    R ((delete.recast p).fragment safeMode (scope.recast p))
      ((delete.recast q).fragment safeMode (scope.recast q)) := by
  have hempty : ∀ p : Recasting,
      ((delete.recast p).filter.getD []).isEmpty = (delete.filter.getD []).isEmpty := by
    intro p
    cases hfilter : delete.filter <;>
      simp [Delete.recast, recastFilter_eq_map, recastEntries_eq_map, hfilter]
  have hi := hs.target delete.table delete.alias? delete.encryption
  have hfiltered := related_filter h hi delete.junction delete.filter
  have hscope : ∀ p : Recasting,
      (scope.recast p).target (delete.recast p).table (delete.recast p).alias?
          (delete.recast p).encryption
        = (scope.target delete.table delete.alias? delete.encryption).recast p :=
    fun p => Scope.target_recast p scope delete.table delete.alias? delete.encryption
  rw [Delete.fragment, Delete.fragment, hempty, hempty, hscope, hscope]
  refine related_ite (h.fail _) (h.append ?_ ?_)
  · exact h.spaced (.cons (h.word (by decide)) (.cons (h.word (by decide))
      (.cons (h.tableFragment _ _) .nil)))
  · exact h.conditionClause (by decide) delete.junction hfiltered

end Trees

end QueryTree
