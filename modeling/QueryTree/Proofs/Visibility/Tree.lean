import QueryTree.Proofs.Condition.Predicate
import QueryTree.Proofs.Emission.Congruence
import QueryTree.Proofs.Visibility.Mention

/-!
# Mentions in trees

The texts in the place of values that are written for a tree, each with the sources of the queries
around it, and the proof that they are written as they should be.

* `Expr.mentions`, `Entry.mentions`, `Core.mentions`, `Query.mentions`: the mentions of a tree, in
  the order of the text. What a comparison is about is written again for each comparison, and its
  mentions are listed again.
* `Expr.places`, `Entry.places`, `Core.places`, `Query.places`: the fragment of a tree writes what
  it should for each of them.
-/

namespace QueryTree

open Fragment (word spaced commas parens call operated words)

/-! ## Mentions -/

/-- Whether an operand under a column asks for a test of null by name. -/
def Expr.asksForNull : Expr → Bool
  | .text token => token == "isNull" || token == "isNotNull"
  | _ => false

/-- The sources of a query. -/
def Query.sources (query : Query) : List Source :=
  sourcesOf query.table query.alias? query.joins

mutual

/-- The mentions of an expression. -/
def Expr.mentions (place : Place) (sources : List Source) : Expr → List Mention
  | .text token =>
    match place with
    | .column => []
    | .value => [⟨token, sources⟩]
  | .list items => exprMentions place sources items
  | .wrapper w => w.mentions sources
  | .condition entries => entryMentions [] sources entries
  | .null | .bool _ | .number _ => []

/-- The mentions of expressions. -/
def exprMentions (place : Place) (sources : List Source) : List Expr → List Mention
  | [] => []
  | e :: rest => e.mentions place sources ++ exprMentions place sources rest

/-- The mentions of an expression that may be absent. -/
def exprMentions? (place : Place) (sources : List Source) : Option Expr → List Mention
  | none => []
  | some e => e.mentions place sources

/-- The mentions of entries; `left` are those of what the entries are about. -/
def entryMentions (left : List Mention) (sources : List Source) : List Entry → List Mention
  | [] => []
  | entry :: rest => entry.mentions left sources ++ entryMentions left sources rest

/-- The mentions of conditions. -/
def groupMentions (left : List Mention) (sources : List Source) :
    List (List Entry) → List Mention
  | [] => []
  | entries :: rest => entryMentions left sources entries ++ groupMentions left sources rest

/-- The mentions of a condition that may be absent. -/
def filterMentions (sources : List Source) : Option (List Entry) → List Mention
  | none => []
  | some entries => entryMentions [] sources entries

/-- The mentions of an entry. Tests for rows, columns and wrappers with comparisons of their own are
not about what stands around them. -/
def Entry.mentions (left : List Mention) (sources : List Source) : Entry → List Mention
  | .wrapper w => (if w.compare.isSome then [] else left) ++ w.mentions sources
  | .all conditions | .any conditions => groupMentions left sources conditions
  | .between low high => left ++ low.mentions .value sources ++ high.mentions .value sources
  | .compare comparator operand =>
    match comparator, operand with
    | .hasRows, .wrapper ⟨.refer query, _, _⟩ | .hasNoRows, .wrapper ⟨.refer query, _, _⟩ =>
      query.mentions sources none
    | .hasRows, _ | .hasNoRows, _ => []
    | _, operand => left ++ operand.mentions .value sources
  | .column _ operand => if operand.asksForNull then [] else operand.mentions .value sources

/-- The mentions of a wrapper. -/
def Wrapper.mentions (sources : List Source) : Wrapper → List Mention
  | ⟨core, compare, _⟩ =>
    match compare with
    | some entries => entryMentions (core.mentions sources) sources entries
    | none => core.mentions sources

/-- The mentions of a wrapper before it is compared. -/
def Core.mentions (sources : List Source) : Core → List Mention
  | .string value _ steps => value.mentions .column sources ++ stringMentions sources steps
  | .number value _ steps => value.mentions .column sources ++ numberMentions sources steps
  | .date value _ _ => value.mentions .column sources
  | .concat values _ _ _ steps =>
    exprMentions .column sources values ++ stringMentions sources steps
  | .choice check yes no =>
    entryMentions [] sources check ++ yes.mentions .value sources ++ no.mentions .value sources
  | .cases branches otherwise =>
    branchMentions sources branches ++ exprMentions? .value sources otherwise
  | .json _ body none => body.mentions sources
  | .json _ body (some query) =>
    query.mentions sources (some (body.mentions (query.sources ++ sources)))
  | .refer query => query.mentions sources none
  | .aggregate _ value _ ifNull _ _ =>
    value.mentions .column sources ++ exprMentions? .value sources ifNull
  | .all conditions | .any conditions => groupMentions [] sources conditions
  | .between low high => low.mentions .value sources ++ high.mentions .value sources

/-- The mentions of steps that change a text. -/
def stringMentions (sources : List Source) : List StringStep → List Mention
  | [] => []
  | step :: rest => step.mentions sources ++ stringMentions sources rest

/-- The mentions of a step that changes a text. -/
def StringStep.mentions (sources : List Source) : StringStep → List Mention
  | .substr start length =>
    start.mentions .column sources ++ exprMentions? .column sources length
  | .padding left right => padMentions sources left ++ padMentions sources right
  | .replace target replacement =>
    target.mentions .value sources ++ replacement.mentions .value sources
  | .trim _ | .textCase _ | .reverse | .encoding _ => []

/-- The mentions of padding. -/
def padMentions (sources : List Source) : Option Pad → List Mention
  | none => []
  | some ⟨length, pattern⟩ =>
    length.mentions .column sources ++ exprMentions? .value sources pattern

/-- The mentions of steps that change a number. -/
def numberMentions (sources : List Source) : List NumberStep → List Mention
  | [] => []
  | step :: rest => step.mentions sources ++ numberMentions sources rest

/-- The mentions of a step that changes a number. -/
def NumberStep.mentions (sources : List Source) : NumberStep → List Mention
  | .power exponent => exponent.mentions .column sources
  | .arithmetic _ operand => operand.mentions .column sources
  | .rounding _ => []

/-- The mentions of branches. -/
def branchMentions (sources : List Source) : List (List Entry × Expr) → List Mention
  | [] => []
  | (check, result) :: rest =>
    entryMentions [] sources check ++ result.mentions .value sources
      ++ branchMentions sources rest

/-- The mentions of a JSON value to build. -/
def JsonBody.mentions (sources : List Source) : JsonBody → List Mention
  | .object fields => fieldMentions sources fields
  | .array items => exprMentions .column sources items
  | .single value => value.mentions .column sources

/-- The mentions of the fields of a JSON object. -/
def fieldMentions (sources : List Source) : List (String × Expr) → List Mention
  | [] => []
  | (_, value) :: rest => value.mentions .column sources ++ fieldMentions sources rest

/-- The mentions of a query, inside which its own sources are in sight too; `built` are those of
what is built in the place of its select items. -/
def Query.mentions (around : List Source) (built : Option (List Mention)) : Query → List Mention
  | ⟨table, alias?, select, joins, filter, _, groupBy, having, _, _, _, _⟩ =>
    let sources := sourcesOf table alias? joins ++ around
    built.getD (exprMentions .column sources select) ++ joinMentions sources joins
      ++ filterMentions sources filter ++ exprMentions .column sources groupBy
      ++ filterMentions sources having

/-- The mentions of joins. -/
def joinMentions (sources : List Source) : List Join → List Mention
  | [] => []
  | join :: rest => join.mentions sources ++ joinMentions sources rest

/-- The mentions of a join. -/
def Join.mentions (sources : List Source) : Join → List Mention
  | ⟨_, matching, query⟩ => query.mentions sources none ++ matching.mentions sources

/-- The mentions of the matching of a join. -/
def Matching.mentions (sources : List Source) : Matching → List Mention
  | .unmatched | .shared _ => []
  | .pairs pairs => pairMentions sources pairs

/-- The mentions of pairs; a text that is paired with a column is a column itself. -/
def pairMentions (sources : List Source) : List (String × Expr) → List Mention
  | [] => []
  | (_, .text _) :: rest => pairMentions sources rest
  | (_, e) :: rest => e.mentions .value sources ++ pairMentions sources rest

end

/-! ## Ways to put fragments together -/

section Combinators

variable {dialect : Dialect} {f g : Fragment} {fs : List Fragment} {ms ns left : List Mention}

open Fragment (places_nil places_fail)

/-- What is written for what comparisons are about. -/
def ParentPlaces (dialect : Dialect) (parent : Option Fragment) (left : List Mention) : Prop :=
  match parent with
  | some f => f.Places dialect left
  | none => left = []

theorem places_ite {c : Prop} [Decidable c] (hf : f.Places dialect ms) (hg : g.Places dialect ms) :
    (if c then f else g).Places dialect ms := by
  split
  · exact hf
  · exact hg

theorem parentPlaces_none : ParentPlaces dialect none [] := rfl

/-- What a comparison is about stands first in it. -/
theorem places_leftOperand {parent : Option Fragment} (h : ParentPlaces dialect parent left)
    (comparison : String) : (leftOperand parent comparison).Places dialect left := by
  cases parent with
  | none => exact places_fail _ _
  | some f => exact h

theorem places_cast (hf : f.Places dialect ms) (type : List String) :
    (f.cast type).Places dialect ms :=
  (PlacesAll.lead hf _).spaced.parens.after _

/-- A conversion mentions what it converts. -/
theorem places_castOptional (d : Dialect) (hf : f.Places dialect ms) (type : Option CastType) :
    (d.castOptional f type).Places dialect ms := by
  cases type with
  | none => exact hf
  | some type =>
      simp only [Dialect.castOptional, Dialect.castTo]
      split
      · exact places_cast hf _
      · exact hf.before _

theorem places_textOperand (d : Dialect) (hf : f.Places dialect ms) :
    (d.textOperand f).Places dialect ms := by
  cases d
  case postgresql => exact places_cast hf _
  all_goals exact hf

/-- Keys are bound and not mentioned. -/
theorem places_cipher (scope : Scope) (direction : Direction) (settings : Cipher.Settings)
    (hf : f.Places dialect ms) : (scope.cipher direction settings f).Places dialect ms := by
  unfold Scope.cipher
  split
  · next key _ =>
      cases scope.dialect with
      | mysql => exact (PlacesAll.lead hf _).call _
      | postgresql =>
          cases direction <;> exact (PlacesAll.lead (places_cast hf _) _).call _
      | sqlite => exact hf.before _
  · exact hf.before _

theorem places_preparation (scope : Scope) (prepare : Preparation) (hf : f.Places dialect ms) :
    (prepare.apply scope f).Places dialect ms := by
  refine places_castOptional _ ?_ _
  cases prepare.decrypt with
  | none => exact hf
  | some settings => exact places_cipher scope .decrypt settings hf

theorem places_parseDate (d : Dialect) (hf : f.Places dialect ms) (pattern : String) :
    (parseDate d f pattern).Places dialect ms := by
  unfold parseDate
  split
  · exact hf.before _
  · cases d
    case sqlite => exact hf.before _
    all_goals exact (PlacesAll.lead hf _).call _

theorem places_formatDate (d : Dialect) (hf : f.Places dialect ms) (pattern : String) :
    (formatDate d f pattern).Places dialect ms := by
  unfold formatDate
  split
  · exact hf.before _
  · cases d
    case sqlite => exact (((hf.after _).led _).parens).after _
    all_goals exact (PlacesAll.lead hf _).call _

theorem places_shiftBy (d : Dialect) (shift : Shift) (hf : f.Places dialect ms)
    (step : Interval.Step) : (shiftBy d shift f step).Places dialect ms := by
  unfold shiftBy
  cases d with
  | mysql => exact (PlacesAll.lead hf _).call _
  | postgresql => exact (PlacesAll.lead hf _).spaced.parens
  | sqlite =>
      simp only
      split
      · exact (PlacesAll.lead hf _).call _
      · exact hf.before _

theorem places_shifts (d : Dialect) (shift : Shift) (steps : List Interval.Step)
    (hf : f.Places dialect ms) : (steps.foldl (shiftBy d shift) f).Places dialect ms := by
  induction steps generalizing f with
  | nil => exact hf
  | cons step steps ih => exact ih (places_shiftBy d shift hf step)

/-- **Changes of a date mention nothing but the date.** -/
theorem places_dateChange (d : Dialect) (change : DateChange) (hf : f.Places dialect ms) :
    (change.apply d f).Places dialect ms := by
  have hparsed : (change.fromPattern.elim f (parseDate d f)).Places dialect ms := by
    cases change.fromPattern with
    | none => exact hf
    | some pattern => exact places_parseDate d hf pattern
  have hshifted := places_shifts d .sub change.sub (places_shifts d .add change.add hparsed)
  unfold DateChange.apply
  cases change.format with
  | none => exact hshifted
  | some pattern => exact places_formatDate d hshifted pattern

/-- A separator is a literal between the texts. -/
theorem places_concat (d : Dialect) (separator : Option String) (h : PlacesAll dialect fs ms) :
    (concatFragment d separator fs).Places dialect ms := by
  cases separator with
  | none =>
      cases d
      case sqlite => exact (h.operated _).parens
      all_goals exact h.call _
  | some separator =>
      cases d
      case sqlite => exact ((h.intersperse _).operated _).parens
      all_goals exact (h.skip _).call _

theorem places_rounding (d : Dialect) (hf : f.Places dialect ms) (rounding : Rounding) :
    (rounding.apply d f).Places dialect ms := by
  cases rounding with
  | digits n =>
      cases d
      case postgresql => exact (PlacesAll.lead (places_cast hf _) _).call _
      all_goals exact (PlacesAll.lead hf _).call _
  | _ => exact (PlacesAll.lead hf _).call _

/-- A path into a JSON value is a literal. -/
theorem places_jsonOptions (d : Dialect) (options : JsonOptions) (hf : f.Places dialect ms) :
    (options.apply d f).Places dialect ms := by
  -- The value that is searched: what is extracted, whether it is searched or not.
  have hextracted :
      (JsonOptions.apply d { options with contains := none } f).Places dialect ms := by
    simp only [JsonOptions.apply]
    split
    · cases d
      case postgresql => exact ((PlacesAll.lead (places_cast hf _) _).operated _).parens
      all_goals exact (PlacesAll.lead hf _).call _
    · exact hf
  unfold JsonOptions.apply
  simp only
  split
  · cases d with
    | mysql => exact (PlacesAll.lead hextracted _).call _
    | postgresql => exact (PlacesAll.lead (places_cast hextracted _) _).operated _
    | sqlite => exact (hextracted.before _).before _
  · exact hextracted

theorem places_collect (d : Dialect) (options : JsonOptions) (hf : f.Places dialect ms) :
    (options.collect d f).Places dialect ms := by
  unfold JsonOptions.collect
  split
  · exact (PlacesAll.lead hf _).call _
  · exact hf

theorem places_clause (keywords : List String) (hf : f.Places dialect ms) :
    (clause keywords f).Places dialect ms :=
  ((PlacesAll.lead hf []).skip _).spaced.after _

theorem places_listClause (keywords : List String) (h : PlacesAll dialect fs ms) :
    (listClause keywords fs).Places dialect ms := by
  cases h with
  | nil => exact places_nil _
  | cons hf hfs => exact places_clause keywords (hfs.cons hf).commas

theorem places_chain (junction : Junction) (h : PlacesAll dialect fs ms) :
    (junction.chain fs).Places dialect ms :=
  h.operated _

/-- A clause mentions what its conditions do. -/
theorem places_conditionClause (keyword : String) (junction : Junction)
    (h : PlacesAll dialect fs ms) : (conditionClause keyword junction fs).Places dialect ms := by
  cases h with
  | nil => exact places_nil _
  | cons hf hfs => exact places_clause _ (places_chain junction (hfs.cons hf))

theorem places_nest (junction : Junction) (h : PlacesAll dialect fs ms) :
    (junction.nest fs).Places dialect ms := by
  cases h with
  | nil => exact places_nil _
  | cons hf hfs =>
      cases hfs with
      | nil => simpa [Junction.nest] using hf
      | cons hg hgs => exact (places_chain junction ((hgs.cons hg).cons hf)).parens

/-- **Conditions are mentioned one after the other.** -/
theorem places_group (junction : Junction) (h : PlacesAll dialect fs ms) :
    (junction.group fs).Places dialect ms := by
  unfold Junction.group
  split
  · exact places_fail _ _
  · exact places_nest junction h

theorem places_equals (hf : f.Places dialect ms) (hg : g.Places dialect ns) :
    (equals f g).Places dialect (ms ++ ns) :=
  (PlacesAll.cons hf ((PlacesAll.lead hg []).skip _)).spaced

theorem places_inList (field : String) (comparator : Comparator) (hf : f.Places dialect ms)
    (h : PlacesAll dialect fs ns) : (inList field comparator f fs).Places dialect (ms ++ ns) := by
  unfold inList
  split
  · exact places_fail _ _
  · exact (PlacesAll.cons hf ((PlacesAll.lead h.commas.parens []).skip _)).spaced

/-- The left side is mentioned before the right side. -/
theorem places_compareWith (d : Dialect) (comparator : Comparator) (hf : f.Places dialect ms)
    (hg : g.Places dialect ns) : (compareWith d comparator f g).Places dialect (ms ++ ns) := by
  refine (PlacesAll.cons hf ((PlacesAll.lead ?_ []).skip _)).spaced
  split
  · next ends _ =>
      have hparts : PlacesAll dialect ((if ends.1 then [Fragment.literal "%"] else [])
          ++ [d.textOperand g] ++ if ends.2 then [Fragment.literal "%"] else []) ns := by
        have hoperand := places_textOperand d hg
        cases ends.1
        · exact .lead hoperand _
        · exact (PlacesAll.lead hoperand _).skip _
      cases d
      case mysql => exact hparts.call _
      all_goals exact hparts.operated _
  · exact hg

/-- The side that is bound last is mentioned first. -/
theorem places_wrapperEntry {parent : Option Fragment} (h : ParentPlaces dialect parent left)
    (compared : Bool) (hf : f.Places dialect ms) :
    (wrapperEntry parent compared f).Places dialect ((if compared then [] else left) ++ ms) := by
  cases parent with
  | none =>
      cases h
      simpa [wrapperEntry] using hf
  | some g =>
      cases compared with
      | true => exact hf
      | false => exact h.crossed (hf.after _)

theorem places_between {parent : Option Fragment} (h : ParentPlaces dialect parent left)
    (hf : f.Places dialect ms) (hg : g.Places dialect ns) :
    (betweenFragment parent f g).Places dialect (left ++ ms ++ ns) := by
  have hbounds := (PlacesAll.cons hf ((PlacesAll.lead hg []).skip "AND")).skip "BETWEEN"
  have hparts := PlacesAll.cons (places_leftOperand h "between") hbounds
  rw [← List.append_assoc] at hparts
  exact hparts.spaced

theorem places_aggregated (kind : AggregateKind) (distinct : Bool) (hf : f.Places dialect ms) :
    (call kind.function [if distinct then spaced ["DISTINCT", f] else f]).Places dialect ms := by
  refine (PlacesAll.lead ?_ []).call _
  exact places_ite ((PlacesAll.lead hf []).skip _).spaced hf

theorem places_aliased (alias? : Option String) (hf : f.Places dialect ms) :
    (aliased alias? f).Places dialect ms := by
  cases alias? with
  | none => exact hf
  | some name => exact (PlacesAll.lead hf _).spaced

end Combinators

/-! ## Trees -/

/-- Inside a query its own table and those of its joins are seen first. -/
theorem Query.sees_scope {dialect : Dialect} {outer : Scope} {around : List Source}
    (hs : outer.Sees dialect around) (query : Query) :
    (query.scope outer).Sees dialect (query.sources ++ around) :=
  hs.enter query.table query.alias? query.joins query.encryption

theorem isNamed_getD (table : String) (alias? : Option String) :
    (⟨table, alias?⟩ : Source).IsNamed (alias?.getD table) := by
  cases alias? with
  | none => exact .inl rfl
  | some name => exact .inr rfl

/-- A bare table has no mentions. -/
theorem Query.mentions_eq_nil (query : Query) (h : query.isDerived = false)
    (around : List Source) : query.mentions around none = [] := by
  obtain ⟨table, alias?, select, joins, filter, junction, groupBy, having, orderBy, limit, offset,
    encryption⟩ := query
  simp only [Query.isDerived, Bool.or_eq_false_iff, Bool.not_eq_false', List.isEmpty_iff,
    Option.isSome_eq_false_iff, Option.isNone_iff_eq_none] at h
  obtain ⟨⟨⟨⟨⟨⟨⟨rfl, rfl⟩, rfl⟩, rfl⟩, rfl⟩, -⟩, -⟩, -⟩ := h
  rfl

section Entries

variable {dialect : Dialect} {scope : Scope} {sources : List Source} {left : List Mention}

/-- Null is written for an operand that is null. -/
theorem Expr.places_null {operand : Expr} (h : operand.isNull = true) (sources : List Source) :
    (word "NULL").Places dialect (operand.mentions .value sources) := by
  cases operand with
  | text token =>
      have hkeyword : (⟨token, sources⟩ : Mention).IsKeyword :=
        .inr (by simpa [Expr.isNull] using h)
      exact hkeyword.places_word "NULL"
  | null => exact Fragment.places_nil _
  | _ => cases h

/-- Where a test for null is chosen, the operand is null unless its text asks for the test. -/
theorem Expr.isNull_of_predicate {operand : Expr} (hasks : ¬ operand.asksForNull = true)
    (h : operand.predicate = .isNull ∨ operand.predicate = .isNotNull) :
    operand.isNull = true := by
  have htest : nullTest? operand ≠ none := by
    intro hnone
    cases operand <;> simp_all [Expr.predicate]
  by_contra hnull
  refine htest ?_
  unfold nullTest?
  rw [if_neg hnull]
  split
  · exact absurd rfl hasks
  · exact absurd rfl hasks
  · rfl

/-- Operands that a comparison takes apart, with what is written for their parts. -/
def Expr.PartsPlaced (dialect : Dialect) (scope : Scope) (sources : List Source)
    (junction : Junction) : Expr → Prop
  | .list items =>
      PlacesAll dialect (exprFragments .value scope items) (exprMentions .value sources items)
  | .condition entries =>
      ∀ parent left, ParentPlaces dialect parent left →
        PlacesAll dialect (entryFragments parent junction scope entries)
          (entryMentions left sources entries)
  | .wrapper w =>
      ∀ query, w.core = .refer query →
        (query.fragment scope none).Places dialect (query.mentions sources none)
  | _ => True

theorem Entry.mentions_compare {comparator : Comparator} (h : comparator.testsRows = false)
    (operand : Expr) :
    (Entry.compare comparator operand).mentions left sources
      = left ++ operand.mentions .value sources := by
  cases comparator
  case hasRows | hasNoRows => cases h
  all_goals rfl

/-- **A predicate mentions its left side and then its operand.** -/
theorem places_predicate (field : String) {f : Fragment} (hleft : f.Places dialect left)
    (junction : Junction) {comparator : Comparator} (hrows : comparator.testsRows = false)
    {operand : Expr} {predicate : Predicate} (hchooses : comparator.Chooses operand predicate)
    (hnull : predicate = .isNull ∨ predicate = .isNotNull → operand.isNull = true)
    (hoperand : (operand.fragment .value scope).Places dialect (operand.mentions .value sources))
    (hparts : operand.PartsPlaced dialect scope sources junction) :
    (predicate.fragment field comparator f junction scope).Places dialect
      (left ++ operand.mentions .value sources) := by
  cases hchooses with
  | rows _ _ _ h | noQuery _ h => simp [h] at hrows
  | isNull =>
      have hword : (word "NULL").Places dialect _ := Expr.places_null (hnull (.inl rfl)) sources
      exact (PlacesAll.cons hleft ((PlacesAll.lead hword []).skip _)).spaced
  | isNotNull =>
      have hword : (word "NULL").Places dialect _ := Expr.places_null (hnull (.inr rfl)) sources
      exact (PlacesAll.cons hleft (((PlacesAll.lead hword []).skip _).skip _)).spaced
  | items items listed => exact places_inList field listed hleft hparts
  | single _ listed => exact places_inList field listed hleft (.lead hoperand [])
  | nested entries =>
      have hgroup := places_group junction (hparts none [] parentPlaces_none)
      exact (PlacesAll.cons hleft ((PlacesAll.lead hgroup []).skip _)).spaced
  | plain => exact places_compareWith _ comparator hleft hoperand

theorem places_compareEntry (junction : Junction) {parent : Option Fragment}
    (hp : ParentPlaces dialect parent left) (comparator : Comparator) {operand : Expr}
    (hoperand : (operand.fragment .value scope).Places dialect (operand.mentions .value sources))
    (hparts : operand.PartsPlaced dialect scope sources junction) :
    ((Entry.compare comparator operand).fragment parent junction scope).Places dialect
      ((Entry.compare comparator operand).mentions left sources) := by
  rw [Entry.fragment_compare_eq]
  have hchooses := comparator.chooses_predicate operand
  cases hrows : comparator.testsRows with
  | false =>
      rw [Entry.mentions_compare hrows]
      exact places_predicate _ (places_leftOperand hp _) junction hrows hchooses
        Comparator.isNull_of_predicate hoperand hparts
  | true =>
      obtain ⟨query, compare, alias?, rfl, hpredicate⟩ | ⟨-, hpredicate⟩ :=
        hchooses.of_testsRows hrows
      · have hquery := ((PlacesAll.lead (hparts query rfl).parens []).skip
          (words comparator.words)).spaced
        rw [hpredicate]
        cases comparator
        case hasRows | hasNoRows => exact hquery
        all_goals cases hrows
      · rw [hpredicate]
        exact Fragment.places_fail _ _

/-- The column of an entry is no mention. -/
theorem places_columnEntry (junction : Junction) (parent : Option Fragment) (key : String)
    {operand : Expr}
    (hoperand : (operand.fragment .value scope).Places dialect (operand.mentions .value sources))
    (hparts : operand.PartsPlaced dialect scope sources junction) :
    ((Entry.column key operand).fragment parent junction scope).Places dialect
      ((Entry.column key operand).mentions left sources) := by
  have hleft : (Token.column scope key).Places dialect [] := Fragment.places_nil _
  rw [Entry.mentions]
  split
  · exact Fragment.places_nil _
  · next hasks =>
      cases operand with
      | condition entries => exact places_group junction (hparts _ [] hleft)
      | _ =>
          rw [Entry.fragment_column_eq]
          · exact places_predicate key hleft junction rfl (Expr.chooses_predicate _)
              (Expr.isNull_of_predicate hasks) hoperand hparts
          · rintro _ ⟨⟩

end Entries

mutual

/-- **Every expression is written with its mentions in order.** -/
theorem Expr.places {dialect : Dialect} {scope : Scope} {sources : List Source}
    (hs : scope.Sees dialect sources) (place : Place) :
    ∀ e : Expr, (e.fragment place scope).Places dialect (e.mentions place sources)
  | .null | .bool _ | .number _ => Fragment.places_nil _
  | .text token => by
      cases place with
      | column => exact Fragment.places_nil _
      | value => exact Token.places_value hs token
  | .list _ => Fragment.places_fail _ _
  | .wrapper w => w.places hs
  | .condition entries => places_group .and (places_entries hs .and parentPlaces_none entries)

theorem places_exprs {dialect : Dialect} {scope : Scope} {sources : List Source}
    (hs : scope.Sees dialect sources) (place : Place) :
    ∀ es : List Expr,
      PlacesAll dialect (exprFragments place scope es) (exprMentions place sources es)
  | [] => .nil
  | e :: rest => .cons (e.places hs place) (places_exprs hs place rest)

theorem places_entries {dialect : Dialect} {scope : Scope} {sources : List Source}
    (hs : scope.Sees dialect sources) (junction : Junction) {parent : Option Fragment}
    {left : List Mention} (hp : ParentPlaces dialect parent left) :
    ∀ entries : List Entry, PlacesAll dialect (entryFragments parent junction scope entries)
      (entryMentions left sources entries)
  | [] => .nil
  | entry :: rest => .cons (entry.places hs junction hp) (places_entries hs junction hp rest)

theorem places_groups {dialect : Dialect} {scope : Scope} {sources : List Source}
    (hs : scope.Sees dialect sources) (junction : Junction) {parent : Option Fragment}
    {left : List Mention} (hp : ParentPlaces dialect parent left) :
    ∀ conditions : List (List Entry),
      PlacesAll dialect (groupFragments parent junction scope conditions)
        (groupMentions left sources conditions)
  | [] => .nil
  | entries :: rest =>
      .cons (places_group junction (places_entries hs junction hp entries))
        (places_groups hs junction hp rest)

theorem places_filter {dialect : Dialect} {scope : Scope} {sources : List Source}
    (hs : scope.Sees dialect sources) (junction : Junction) :
    ∀ filter : Option (List Entry),
      PlacesAll dialect (filterFragments junction scope filter) (filterMentions sources filter)
  | none => .nil
  | some entries => places_entries hs junction parentPlaces_none entries

/-- **Every entry is written with its mentions in order**, those of what it is about included. -/
theorem Entry.places {dialect : Dialect} {scope : Scope} {sources : List Source}
    (hs : scope.Sees dialect sources) (junction : Junction) {parent : Option Fragment}
    {left : List Mention} (hp : ParentPlaces dialect parent left) :
    ∀ entry : Entry,
      (entry.fragment parent junction scope).Places dialect (entry.mentions left sources)
  | .wrapper w => places_wrapperEntry hp w.compare.isSome (w.places hs)
  | .all conditions => places_nest .and (places_groups hs junction hp conditions)
  | .any conditions => places_nest .or (places_groups hs junction hp conditions)
  | .between low high =>
      places_between hp (low.places hs .value) (high.places hs .value)
  | .compare comparator operand =>
      places_compareEntry junction hp comparator (operand.places hs .value)
        (operand.partsPlaced hs junction)
  | .column key operand =>
      places_columnEntry junction parent key (operand.places hs .value)
        (operand.partsPlaced hs junction)

theorem Expr.partsPlaced {dialect : Dialect} {scope : Scope} {sources : List Source}
    (hs : scope.Sees dialect sources) (junction : Junction) :
    ∀ e : Expr, e.PartsPlaced dialect scope sources junction
  | .list items => places_exprs hs .value items
  | .condition entries => fun _ _ hp => places_entries hs junction hp entries
  | .wrapper ⟨.refer query, _, _⟩ => by
      have hquery := query.places hs .none
      rintro _ ⟨⟩
      exact hquery
  | .wrapper ⟨.string .., _, _⟩ | .wrapper ⟨.number .., _, _⟩ | .wrapper ⟨.date .., _, _⟩
  | .wrapper ⟨.concat .., _, _⟩ | .wrapper ⟨.choice .., _, _⟩ | .wrapper ⟨.cases .., _, _⟩
  | .wrapper ⟨.json .., _, _⟩ | .wrapper ⟨.aggregate .., _, _⟩ | .wrapper ⟨.all .., _, _⟩
  | .wrapper ⟨.any .., _, _⟩ | .wrapper ⟨.between .., _, _⟩ => nofun
  | .null | .bool _ | .number _ | .text _ => trivial

/-- **Every wrapper is written with its mentions in order.** -/
theorem Wrapper.places {dialect : Dialect} {scope : Scope} {sources : List Source}
    (hs : scope.Sees dialect sources) :
    ∀ w : Wrapper, (w.fragment scope).Places dialect (w.mentions sources)
  | ⟨core, none, _⟩ => by
      have hcore := core.places hs
      cases core with
      | all conditions =>
          exact places_nest .and (places_groups hs .and parentPlaces_none conditions)
      | any conditions =>
          exact places_nest .or (places_groups hs .and parentPlaces_none conditions)
      | between low high =>
          exact places_between parentPlaces_none (low.places hs .value) (high.places hs .value)
      | _ => exact hcore
  | ⟨core, some entries, _⟩ => by
      have hp : ParentPlaces dialect (some (core.fragment scope)) (core.mentions sources) :=
        core.places hs
      exact places_group .and (places_entries hs .and hp entries)

/-- **Every core is written with its mentions in order.** -/
theorem Core.places {dialect : Dialect} {scope : Scope} {sources : List Source}
    (hs : scope.Sees dialect sources) :
    ∀ core : Core, (core.fragment scope).Places dialect (core.mentions sources)
  | .string value prepare steps => by
      have hi := hs.withCall prepare.encryption
      exact places_stringSteps hs steps (places_preparation _ prepare (value.places hi .column))
  | .number value prepare steps => by
      have hi := hs.withCall prepare.encryption
      exact places_numberSteps hs steps (places_preparation _ prepare (value.places hi .column))
  | .date value prepare change => by
      have hi := hs.withCall prepare.encryption
      exact places_dateChange _ change (places_preparation _ prepare (value.places hi .column))
  | .concat values separator cast encryption steps => by
      have hi := hs.withCall encryption
      exact places_stringSteps hi steps
        (places_castOptional _ (places_concat _ separator (places_exprs hi .column values)) cast)
  | .choice check yes no => by
      have hcheck := places_chain .and (places_entries hs .and parentPlaces_none check)
      have hparts := PlacesAll.cons hcheck
        (.cons (yes.places hs .value) (.lead (no.places hs .value) []))
      rw [← List.append_assoc] at hparts
      exact places_ite (hparts.call _) (Fragment.places_fail _ _)
  | .cases branches none => by
      have hbranches := places_branches hs branches
      exact (hbranches.append (Fragment.places_nil _)).enclosed .cases
  | .cases branches (some e) =>
      ((places_branches hs branches).append
        (places_clause _ (e.places hs .value))).enclosed .cases
  | .json options body none => places_jsonOptions _ options (body.places hs options)
  | .json options body (some query) => by
      have hbody := body.places (Query.sees_scope hs query) options
      exact places_jsonOptions _ options (query.places hs (.some hbody)).parens
  | .refer query => (query.places hs .none).parens
  | .aggregate kind value distinct none cast encryption => by
      have hvalue := value.places (hs.withCall encryption) .column
      have happlied := places_aggregated kind distinct hvalue
      have hfilled := places_castOptional (scope.withCall encryption).dialect happlied cast
      exact hfilled.congr (List.append_nil _).symm
  | .aggregate kind value distinct (some e) cast encryption => by
      have hi := hs.withCall encryption
      have happlied := places_aggregated kind distinct (value.places hi .column)
      exact places_castOptional _
        ((PlacesAll.cons happlied (.lead (e.places hi .value) [])).call _) cast
  | .all _ | .any _ | .between _ _ => Fragment.places_fail _ _

theorem places_stringSteps {dialect : Dialect} {scope : Scope} {sources : List Source}
    (hs : scope.Sees dialect sources) :
    ∀ (steps : List StringStep) {f : Fragment} {ms : List Mention}, f.Places dialect ms →
      (stringFragment scope f steps).Places dialect (ms ++ stringMentions sources steps)
  | [], _, _, hf => hf.congr (List.append_nil _).symm
  | .trim side :: rest, _, _, hf => places_stringSteps hs rest ((PlacesAll.lead hf []).call _)
  | .substr start none :: rest, _, _, hf => by
      have hpart := (PlacesAll.cons hf (.cons (start.places hs .column) .nil)).call
        scope.dialect.substrFunction
      exact (places_stringSteps hs rest hpart).congr (List.append_assoc _ _ _)
  | .substr start (some length) :: rest, _, _, hf => by
      have hpart := (PlacesAll.cons hf (.cons (start.places hs .column)
        (.lead (length.places hs .column) []))).call scope.dialect.substrFunction
      exact (places_stringSteps hs rest hpart).congr (List.append_assoc _ _ _)
  | .padding left right :: rest, _, _, hf => by
      have hleft := places_pad hs "LPAD" left hf
      have hpadded := (places_pad hs "RPAD" right hleft).congr (List.append_assoc _ _ _)
      have hrest := (places_stringSteps hs rest hpadded).congr (List.append_assoc _ _ _)
      exact places_ite (hf.append (Fragment.places_fail _ _)) hrest
  | .textCase case :: rest, _, _, hf =>
      places_stringSteps hs rest ((PlacesAll.lead hf []).call _)
  | .reverse :: rest, _, _, hf => by
      have hrest := places_stringSteps hs rest ((PlacesAll.lead hf []).call "REVERSE")
      exact places_ite (hf.append (Fragment.places_fail _ _)) hrest
  | .replace target replacement :: rest, _, _, hf => by
      have hreplaced := (PlacesAll.cons hf (.cons (target.places hs .value)
        (.lead (replacement.places hs .value) []))).call "REPLACE"
      exact (places_stringSteps hs rest hreplaced).congr (List.append_assoc _ _ _)
  | .encoding charset :: rest, _, _, hf => by
      have hconverted := (PlacesAll.lead hf ["USING", charset.name]).spaced.parens.after
        (word "CONVERT")
      have hrest := places_stringSteps hs rest hconverted
      exact places_ite hrest (hf.append (Fragment.places_fail _ _))

theorem places_pad {dialect : Dialect} {scope : Scope} {sources : List Source}
    (hs : scope.Sees dialect sources) (function : String) :
    ∀ (pad : Option Pad) {f : Fragment} {ms : List Mention}, f.Places dialect ms →
      (padFragment scope function f pad).Places dialect (ms ++ padMentions sources pad)
  | none, _, _, hf => hf.congr (List.append_nil _).symm
  | some ⟨length, none⟩, _, _, hf =>
      (PlacesAll.cons hf (.cons (length.places hs .column) (.none [_]))).call _
  | some ⟨length, some pattern⟩, _, _, hf =>
      (PlacesAll.cons hf (.cons (length.places hs .column)
        (.lead (pattern.places hs .value) []))).call _

theorem places_numberSteps {dialect : Dialect} {scope : Scope} {sources : List Source}
    (hs : scope.Sees dialect sources) :
    ∀ (steps : List NumberStep) {f : Fragment} {ms : List Mention}, f.Places dialect ms →
      (numberFragment scope f steps).Places dialect (ms ++ numberMentions sources steps)
  | [], _, _, hf => hf.congr (List.append_nil _).symm
  | .power exponent :: rest, _, _, hf => by
      have hpower := (PlacesAll.cons hf (.lead (exponent.places hs .column) [])).call "POWER"
      exact (places_numberSteps hs rest hpower).congr (List.append_assoc _ _ _)
  | .arithmetic operation operand :: rest, _, _, hf => by
      have hresult := ((PlacesAll.cons hf (.lead (operand.places hs .column) [])).operated
        operation.operator).parens
      exact (places_numberSteps hs rest hresult).congr (List.append_assoc _ _ _)
  | .rounding rounding :: rest, _, _, hf =>
      places_numberSteps hs rest (places_rounding scope.dialect hf rounding)

theorem places_branches {dialect : Dialect} {scope : Scope} {sources : List Source}
    (hs : scope.Sees dialect sources) :
    ∀ branches : List (List Entry × Expr),
      (branchFragment scope branches).Places dialect (branchMentions sources branches)
  | [] => Fragment.places_nil _
  | (check, result) :: rest =>
      ((places_clause _ (places_chain .and (places_entries hs .and parentPlaces_none check))).append
        (places_clause _ (result.places hs .value))).append (places_branches hs rest)

theorem JsonBody.places {dialect : Dialect} {scope : Scope} {sources : List Source}
    (hs : scope.Sees dialect sources) (options : JsonOptions) :
    ∀ body : JsonBody, (body.fragment options scope).Places dialect (body.mentions sources)
  | .object fields => places_collect _ options ((places_fields hs fields).call _)
  | .array items => places_collect _ options ((places_exprs hs .column items).call _)
  | .single value => by
      have hvalue := value.places hs .column
      exact places_collect _ options (places_ite hvalue ((PlacesAll.lead hvalue []).call _))

theorem places_fields {dialect : Dialect} {scope : Scope} {sources : List Source}
    (hs : scope.Sees dialect sources) :
    ∀ fields : List (String × Expr),
      PlacesAll dialect (fieldFragments scope fields) (fieldMentions sources fields)
  | [] => .nil
  | (_, value) :: rest => (PlacesAll.cons (value.places hs .column) (places_fields hs rest)).skip _

/-- **Every query is written with its mentions in order**: the items, the joins and then the
clauses. -/
theorem Query.places {dialect : Dialect} {outer : Scope} {around : List Source}
    (hs : outer.Sees dialect around) {build : Option (Scope → Fragment)}
    {built : Option (List Mention)} :
    ∀ query : Query,
      Option.Rel (fun g ms => (g (query.scope outer)).Places dialect ms) build built →
      (query.fragment outer build).Places dialect (query.mentions around built)
  | ⟨table, alias?, select, joins, filter, junction, groupBy, having, orderBy, limit, offset,
      encryption⟩, hb => by
      have hi := hs.enter table alias? joins encryption
      have hselect := places_items hi select
      have hparent : ∃ source ∈ sourcesOf table alias? joins ++ around,
          source.IsNamed (alias?.getD table) :=
        ⟨⟨table, alias?⟩, by simp [sourcesOf], isNamed_getD table alias?⟩
      have hjoins := places_joins hi hparent joins fun join hjoin =>
        List.mem_append_left _ (List.mem_cons_of_mem _ (List.mem_map_of_mem hjoin))
      have hfiltered := places_conditionClause "WHERE" junction (places_filter hi junction filter)
      have hkeys := places_listClause ["GROUP", "BY"]
        (places_keys hi (outputAliases select) groupBy)
      have hkept := places_conditionClause "HAVING" junction (places_filter hi junction having)
      rw [Query.fragment_eq]
      have hitems : (build.elim (if select.isEmpty then word "*"
            else commas (itemFragments (outer.enter table alias? joins encryption) select))
          fun g => g (outer.enter table alias? joins encryption)).Places dialect
          (built.getD (exprMentions .column (sourcesOf table alias? joins ++ around) select)) := by
        cases hb with
        | some hg => exact hg
        | none =>
            cases select with
            | nil => exact Fragment.places_nil _
            | cons e rest => exact hselect.commas
      have hhead := ((PlacesAll.lead hitems ["FROM", tableFragment table alias?]).skip
        "SELECT").spaced
      have hclauses := (((hhead.append hjoins).append hfiltered).append hkeys).append hkept
      exact (hclauses.before _).before _

theorem places_items {dialect : Dialect} {scope : Scope} {sources : List Source}
    (hs : scope.Sees dialect sources) :
    ∀ items : List Expr,
      PlacesAll dialect (itemFragments scope items) (exprMentions .column sources items)
  | [] => .nil
  | e :: rest => by
      have he := e.places hs .column
      have hrest := places_items hs rest
      cases e with
      | wrapper w => exact .cons (places_aliased w.alias? he) hrest
      | _ => exact .cons he hrest

theorem places_keys {dialect : Dialect} {scope : Scope} {sources : List Source}
    (hs : scope.Sees dialect sources) (outputs : List String) :
    ∀ keys : List Expr,
      PlacesAll dialect (keyFragments scope outputs keys) (exprMentions .column sources keys)
  | [] => .nil
  | e :: rest => by
      have he := e.places hs .column
      have hrest := places_keys hs outputs rest
      cases e with
      | text token => exact hrest.skip _
      | _ => exact .cons he hrest

theorem places_joins {dialect : Dialect} {scope : Scope} {sources : List Source}
    (hs : scope.Sees dialect sources) {parent : String}
    (hparent : ∃ source ∈ sources, source.IsNamed parent) :
    ∀ joins : List Join,
      (∀ join ∈ joins, (⟨join.query.table, join.query.alias?⟩ : Source) ∈ sources) →
      (joinsFragment parent scope joins).Places dialect (joinMentions sources joins)
  | [], _ => Fragment.places_nil _
  | join :: rest, hjoins =>
      ((join.places hs hparent (hjoins join (by simp))).after _).append
        (places_joins hs hparent rest fun join hjoin => hjoins join (by simp [hjoin]))

/-- **Every join is written with its mentions in order**: the query, and then the matching. -/
theorem Join.places {dialect : Dialect} {scope : Scope} {sources : List Source}
    (hs : scope.Sees dialect sources) {parent : String}
    (hparent : ∃ source ∈ sources, source.IsNamed parent) :
    ∀ join : Join, (⟨join.query.table, join.query.alias?⟩ : Source) ∈ sources →
      (join.fragment parent scope).Places dialect (join.mentions sources)
  | ⟨kind, matching, query⟩, hjoin => by
      have hquery := query.places hs .none
      -- the names that the matching adds are in sight already
      have ho : (scope.target parent (some parent) none).Sees dialect sources := by
        refine hs.target_of_named (fun name hname => ?_) none
        obtain rfl : name = parent := hname.elim id fun h => (Option.some.inj h).symm
        exact hparent
      have hi : ((scope.target parent (some parent) none).target query.table
          (some query.qualifier) none).Sees dialect sources := by
        refine ho.target_of_named (fun name hname => ⟨_, hjoin, ?_⟩) none
        rcases hname with rfl | hname
        · exact .inl rfl
        · exact Option.some.inj hname ▸ isNamed_getD query.table query.alias?
      have hmatching := matching.places hi (scope.target parent (some parent) none)
      refine Fragment.Places.append ?_ hmatching
      refine ((PlacesAll.lead ?_ []).skip _).spaced
      split
      · split
        · exact (PlacesAll.lead hquery.parens _).spaced
        · exact Fragment.places_fail _ _
      · next hderived =>
          rw [query.mentions_eq_nil (eq_false_of_ne_true hderived)]
          exact Fragment.places_nil _

/-- Columns that are shared or paired mention nothing; what a column is paired with may. -/
theorem Matching.places {dialect : Dialect} {inner : Scope} {sources : List Source}
    (hi : inner.Sees dialect sources) (outer : Scope) :
    ∀ matching : Matching,
      (matching.fragment outer inner).Places dialect (matching.mentions sources)
  | .unmatched => Fragment.places_nil _
  | .shared _ => Fragment.places_nil _
  | .pairs pairs => places_clause _ (places_chain .and (places_pairs hi outer pairs))

theorem places_pairs {dialect : Dialect} {inner : Scope} {sources : List Source}
    (hi : inner.Sees dialect sources) (outer : Scope) :
    ∀ pairs : List (String × Expr),
      PlacesAll dialect (pairFragments outer inner pairs) (pairMentions sources pairs)
  | [] => .nil
  | (column, e) :: rest => by
      let scope : Scope := { inner with alias? := outer.alias? }
      have hs : scope.Sees dialect sources := ⟨hi.1, hi.2⟩
      have hright := e.places hi .value
      have hparts := e.partsPlaced hs .and
      have hrest := places_pairs hi outer rest
      have hcolumn : ∀ scope, (Token.column scope column).Places dialect [] :=
        fun _ => Fragment.places_nil _
      cases e with
      | text token => exact hrest.skip _
      | condition entries =>
          exact .cons (places_group .and (hparts _ [] (hcolumn scope))) hrest
      | _ => exact .cons (places_equals (hcolumn outer) hright) hrest

end

end QueryTree
