import QueryTree.Proofs.Tree.Blame

/-!
# Trees answer for their errors

What is written for a tree holds an error that a well-formed tree rules out only if the tree has a
place that raises it.

* `Expr.accounted`, `Entry.accounted`, `Wrapper.accounted`, `Query.accounted`: trees.
* `Write.accounted`, `Delete.accounted`: statements that change data.
-/

namespace QueryTree

open Fragment (word spaced commas parens call)

/-! ## Expressions, conditions and queries -/

section Trees

variable {sites : List Site}

/-- Operands that a comparison takes apart, with their parts accounted for. -/
def Expr.PartsAccounted (sites : List Site) (scope : Scope) (junction : Junction) : Expr → Prop
  | .list items => ∀ f ∈ exprFragments .value scope items, f.Accounted sites
  | .condition entries =>
      ∀ parent : Option Fragment, (∀ f ∈ parent, f.Accounted sites) →
        ∀ f ∈ entryFragments parent junction scope entries, f.Accounted sites
  | .wrapper ⟨.refer query, _, _⟩ => (query.fragment scope none).Accounted sites
  | _ => True

/-- A test for rows of something that is no query is a place that raises its error. -/
theorem accounted_rowTest {comparator : Comparator} {operand : Expr}
    (hsite : Site.comparison comparator operand ∈ sites) (hrows : comparator.testsRows = true)
    (hquery : operand.isQuery = false) (field : String) :
    (Fragment.fail (.invalid field (.expected .subquery))).Accounted sites := by
  intro e hmem _
  cases List.mem_singleton.1 hmem
  exact ⟨_, hsite, hrows, hquery, field, rfl⟩

/-- A combinator that is asked for a value is a place that raises its error. -/
theorem accounted_noValue {core : Core} {c : Combinator} (hsite : .shape core ∈ sites)
    (hcore : core.kind = .combinator c) : (noValue c).Accounted sites := by
  intro e hmem _
  cases List.mem_singleton.1 hmem
  exact ⟨_, hsite, c, hcore, rfl⟩

/-- **A predicate has a guarded error of its own only where something else than a query is tested
for rows.** -/
theorem accounted_predicate {scope : Scope} (field : String) {left : Fragment}
    (hleft : left.Accounted sites) (junction : Junction) {comparator : Comparator}
    {operand : Expr} {predicate : Predicate} (hchooses : comparator.Chooses operand predicate)
    (hsite : comparator.testsRows = true → Site.comparison comparator operand ∈ sites)
    (hoperand : (operand.fragment .value scope).Accounted sites)
    (hparts : operand.PartsAccounted sites scope junction) :
    (predicate.fragment field comparator left junction scope).Accounted sites := by
  cases hchooses with
  | rows query => exact accounted_pair (accounted_words _) hparts
  | noQuery _ hrows hquery => exact accounted_rowTest (hsite hrows) hrows hquery field
  | isNull => simpa [Predicate.fragment, isNullTest] using hleft
  | isNotNull => simpa [Predicate.fragment, isNotNullTest] using hleft
  | items items listed => exact accounted_inList field listed hleft hparts
  | single _ listed =>
      exact accounted_inList field listed hleft (by simpa [exprFragments] using hoperand)
  | nested entries =>
      exact accounted_three hleft (accounted_words _)
        (accounted_group junction (hparts none accounted_none))
  | plain => exact accounted_compareWith comparator hleft hoperand

theorem accounted_columnEntry {scope : Scope} (junction : Junction) (parent : Option Fragment)
    (key : String) {operand : Expr} (hoperand : (operand.fragment .value scope).Accounted sites)
    (hparts : operand.PartsAccounted sites scope junction) :
    ((Entry.column key operand).fragment parent junction scope).Accounted sites := by
  have hleft : (Token.column scope key).Accounted sites := accounted_column scope key
  cases operand with
  | condition entries =>
      refine accounted_group junction (hparts _ ?_)
      rintro _ ⟨⟩
      exact hleft
  | _ =>
      rw [Entry.fragment_column_eq]
      · exact accounted_predicate key hleft junction (Expr.chooses_predicate _) (by rintro ⟨⟩)
          hoperand hparts
      · rintro _ ⟨⟩

mutual

/-- **Every expression answers for its guarded errors.** -/
theorem Expr.accounted (place : Place) (scope : Scope) :
    ∀ e : Expr, e.sites ⊆ sites → (e.fragment place scope).Accounted sites
  | .null, _ => accounted_word _
  | .bool _, _ => accounted_value _
  | .number _, _ => accounted_value _
  | .text token, _ => accounted_placeToken place scope token
  | .list _, _ => accounted_fail rfl
  | .wrapper w, h => w.accounted scope h
  | .condition entries, h =>
    accounted_group .and (accounted_entries accounted_none .and scope entries h)

theorem accounted_exprs (place : Place) (scope : Scope) :
    ∀ es : List Expr, exprSites es ⊆ sites →
      ∀ f ∈ exprFragments place scope es, f.Accounted sites
  | [], _ => nofun
  | e :: rest, h => by
      rw [exprSites, List.append_subset] at h
      rw [exprFragments, List.forall_mem_cons]
      exact ⟨e.accounted place scope h.1, accounted_exprs place scope rest h.2⟩

theorem accounted_entries {parent : Option Fragment} (hp : ∀ f ∈ parent, f.Accounted sites)
    (junction : Junction) (scope : Scope) :
    ∀ entries : List Entry, entrySites entries ⊆ sites →
      ∀ f ∈ entryFragments parent junction scope entries, f.Accounted sites
  | [], _ => nofun
  | entry :: rest, h => by
      rw [entrySites, List.append_subset] at h
      rw [entryFragments, List.forall_mem_cons]
      exact ⟨entry.accounted hp junction scope h.1, accounted_entries hp junction scope rest h.2⟩

theorem accounted_groups {parent : Option Fragment} (hp : ∀ f ∈ parent, f.Accounted sites)
    (junction : Junction) (scope : Scope) :
    ∀ conditions : List (List Entry), groupSites conditions ⊆ sites →
      ∀ f ∈ groupFragments parent junction scope conditions, f.Accounted sites
  | [], _ => nofun
  | entries :: rest, h => by
      rw [groupSites, List.append_subset] at h
      rw [groupFragments, List.forall_mem_cons]
      exact ⟨accounted_group junction (accounted_entries hp junction scope entries h.1),
        accounted_groups hp junction scope rest h.2⟩

theorem accounted_filter (junction : Junction) (scope : Scope) :
    ∀ filter : Option (List Entry), filterSites filter ⊆ sites →
      ∀ f ∈ filterFragments junction scope filter, f.Accounted sites
  | none, _ => nofun
  | some entries, h => accounted_entries accounted_none junction scope entries h

/-- **Every entry answers for its guarded errors**, if what it is about does. -/
theorem Entry.accounted {parent : Option Fragment} (hp : ∀ f ∈ parent, f.Accounted sites)
    (junction : Junction) (scope : Scope) :
    ∀ entry : Entry, entry.sites ⊆ sites →
      (entry.fragment parent junction scope).Accounted sites
  | .wrapper w, h => accounted_wrapperEntry hp _ (w.accounted scope h)
  | .all conditions, h => accounted_nest .and (accounted_groups hp junction scope conditions h)
  | .any conditions, h => accounted_nest .or (accounted_groups hp junction scope conditions h)
  | .between low high, h => by
      have hbounds := List.append_subset.1 h
      exact accounted_between hp (low.accounted .value scope hbounds.1)
        (high.accounted .value scope hbounds.2)
  | .compare comparator operand, h => by
      rw [Entry.sites, List.cons_subset] at h
      rw [Entry.fragment_compare_eq]
      exact accounted_predicate _ (accounted_leftOperand hp _) junction
        (comparator.chooses_predicate operand) (fun _ => h.1) (operand.accounted .value scope h.2)
        (operand.partsAccounted scope junction h.2)
  | .column key operand, h => by
      rw [Entry.sites, List.cons_subset] at h
      exact accounted_columnEntry junction parent key (operand.accounted .value scope h.2)
        (operand.partsAccounted scope junction h.2)

theorem Expr.partsAccounted (scope : Scope) (junction : Junction) :
    ∀ e : Expr, e.sites ⊆ sites → e.PartsAccounted sites scope junction
  | .list items, h => accounted_exprs .value scope items h
  | .condition entries, h => fun _ hp => accounted_entries hp junction scope entries h
  | .wrapper ⟨.refer query, _, _⟩, h => by
      rw [Expr.sites, Wrapper.sites, List.cons_subset, List.append_subset] at h
      exact query.accounted scope none nofun h.2.1
  | .wrapper ⟨.string .., _, _⟩, _ | .wrapper ⟨.number .., _, _⟩, _ | .wrapper ⟨.date .., _, _⟩, _
  | .wrapper ⟨.concat .., _, _⟩, _ | .wrapper ⟨.choice .., _, _⟩, _ | .wrapper ⟨.cases .., _, _⟩, _
  | .wrapper ⟨.json .., _, _⟩, _ | .wrapper ⟨.aggregate .., _, _⟩, _ | .wrapper ⟨.all .., _, _⟩, _
  | .wrapper ⟨.any .., _, _⟩, _ | .wrapper ⟨.between .., _, _⟩, _ => trivial
  | .null, _ | .bool _, _ | .number _, _ | .text _, _ => trivial

/-- **Every wrapper answers for its guarded errors**; a combinator has no value to compare. -/
theorem Wrapper.accounted (scope : Scope) :
    ∀ w : Wrapper, w.sites ⊆ sites → (w.fragment scope).Accounted sites
  | ⟨core, none, _⟩, h => by
      rw [Wrapper.sites, List.cons_subset, List.append_subset] at h
      have hcore := core.accounted scope h.1 h.2.1
      cases core with
      | all conditions =>
          exact accounted_nest .and
            (accounted_groups accounted_none .and scope conditions h.2.1)
      | any conditions =>
          exact accounted_nest .or (accounted_groups accounted_none .and scope conditions h.2.1)
      | between low high =>
          have hbounds := List.append_subset.1 h.2.1
          exact accounted_between accounted_none (low.accounted .value scope hbounds.1)
            (high.accounted .value scope hbounds.2)
      | _ => exact hcore
  | ⟨core, some entries, _⟩, h => by
      rw [Wrapper.sites, List.cons_subset, List.append_subset] at h
      have hcore : ∀ f ∈ some (core.fragment scope), f.Accounted sites := by
        rintro _ ⟨⟩
        exact core.accounted scope h.1 h.2.1
      exact accounted_group .and (accounted_entries hcore .and scope entries h.2.2)

/-- **Every core answers for its guarded errors**, with its own shape among the places. -/
theorem Core.accounted (scope : Scope) :
    ∀ core : Core, .shape core ∈ sites → core.sites ⊆ sites →
      (core.fragment scope).Accounted sites
  | .string value prepare steps, _, h => by
      rw [Core.sites, List.append_subset] at h
      exact accounted_stringSteps scope steps h.2
        (accounted_preparation _ prepare (value.accounted .column _ h.1))
  | .number value prepare steps, _, h => by
      rw [Core.sites, List.append_subset] at h
      exact accounted_numberSteps scope steps h.2
        (accounted_preparation _ prepare (value.accounted .column _ h.1))
  | .date value prepare change, _, h =>
      accounted_dateChange change
        (accounted_preparation _ prepare (value.accounted .column _ h))
  | .concat values separator cast encryption steps, _, h => by
      rw [Core.sites, List.append_subset] at h
      exact accounted_stringSteps _ steps h.2
        (accounted_castOptional _ cast
          (accounted_concatFragment _ separator (accounted_exprs .column _ values h.1)))
  | .choice check yes no, _, h => by
      rw [Core.sites, List.append_subset, List.append_subset] at h
      have hcheck := accounted_entries accounted_none .and scope check h.1.1
      have hyes := yes.accounted .value scope h.1.2
      have hno := no.accounted .value scope h.2
      refine accounted_ite ((accounted_call _).2 ?_) (accounted_fail rfl)
      simp only [List.forall_mem_cons]
      exact ⟨accounted_chain .and hcheck, hyes, hno, nofun⟩
  | .cases branches none, _, h => by
      rw [Core.sites, List.append_subset] at h
      exact accounted_append.2 ⟨accounted_branches scope branches h.1, accounted_empty⟩
  | .cases branches (some e), _, h => by
      rw [Core.sites, List.append_subset] at h
      exact accounted_append.2 ⟨accounted_branches scope branches h.1,
        (accounted_clause _).2 (e.accounted .value scope h.2)⟩
  | .json options body none, _, h => accounted_jsonOptions options (body.accounted options scope h)
  | .json options body (some query), _, h => by
      rw [Core.sites, List.append_subset] at h
      have hbody : ∀ g ∈ some fun inner => body.fragment options inner, ∀ scope : Scope,
          (g scope).Accounted sites := by
        rintro _ ⟨⟩ scope
        exact body.accounted options scope h.2
      exact accounted_jsonOptions options (query.accounted scope _ hbody h.1)
  | .refer query, _, h => query.accounted scope none nofun h
  | .aggregate kind value distinct none cast encryption, _, h => by
      rw [Core.sites, List.append_subset] at h
      exact accounted_castOptional _ cast
        (accounted_aggregated kind distinct (value.accounted .column _ h.1))
  | .aggregate kind value distinct (some e) cast encryption, _, h => by
      rw [Core.sites, List.append_subset] at h
      have happlied := accounted_aggregated kind distinct
        (value.accounted .column (scope.withCall encryption) h.1)
      have he := e.accounted .value (scope.withCall encryption) h.2
      refine accounted_castOptional _ cast ((accounted_call _).2 ?_)
      simp only [List.forall_mem_cons]
      exact ⟨happlied, he, nofun⟩
  | .all _, h, _ => accounted_noValue h rfl
  | .any _, h, _ => accounted_noValue h rfl
  | .between _ _, h, _ => accounted_noValue h rfl

theorem accounted_stringSteps (scope : Scope) :
    ∀ (steps : List StringStep), stringSites steps ⊆ sites → ∀ {f : Fragment},
      f.Accounted sites → (stringFragment scope f steps).Accounted sites
  | [], _, _, hf => hf
  | .trim side :: rest, h, _, hf =>
      accounted_stringSteps scope rest h (by simpa using hf)
  | .substr start none :: rest, h, _, hf => by
      rw [stringSites, StringStep.sites, List.append_subset, List.append_subset] at h
      exact accounted_stringSteps scope rest h.2
        (by simpa using ⟨hf, start.accounted .column scope h.1.1⟩)
  | .substr start (some length) :: rest, h, _, hf => by
      rw [stringSites, StringStep.sites, List.append_subset, List.append_subset] at h
      exact accounted_stringSteps scope rest h.2
        (by simpa using ⟨hf, start.accounted .column scope h.1.1,
          length.accounted .column scope h.1.2⟩)
  | .padding left right :: rest, h, _, hf => by
      rw [stringSites, StringStep.sites, List.append_subset, List.append_subset] at h
      have hpadded := accounted_pad scope "RPAD" right h.1.2
        (accounted_pad scope "LPAD" left h.1.1 hf)
      have hrest := accounted_stringSteps scope rest h.2 hpadded
      exact accounted_ite (accounted_halted hf rfl) hrest
  | .textCase case :: rest, h, _, hf =>
      accounted_stringSteps scope rest h (by simpa using hf)
  | .reverse :: rest, h, f, hf => by
      have hrest := accounted_stringSteps scope rest h (f := call "REVERSE" [f])
        (by simpa using hf)
      exact accounted_ite (accounted_halted hf rfl) hrest
  | .replace target replacement :: rest, h, _, hf => by
      rw [stringSites, StringStep.sites, List.append_subset, List.append_subset] at h
      exact accounted_stringSteps scope rest h.2
        (by simpa using ⟨hf, target.accounted .value scope h.1.1,
          replacement.accounted .value scope h.1.2⟩)
  | .encoding charset :: rest, h, f, hf => by
      have hrest := accounted_stringSteps scope rest h
        (f := word "CONVERT" ++ parens (spaced [f, "USING", charset.name])) (by simpa using hf)
      exact accounted_ite hrest (accounted_halted hf rfl)

theorem accounted_pad (scope : Scope) (function : String) :
    ∀ (pad : Option Pad), padSites pad ⊆ sites → ∀ {f : Fragment},
      f.Accounted sites → (padFragment scope function f pad).Accounted sites
  | none, _, _, hf => hf
  | some ⟨length, none⟩, h, _, hf => by
      have hlength := length.accounted .column scope (List.append_subset.1 h).1
      exact (accounted_call function).2 (by simpa using ⟨hf, hlength⟩)
  | some ⟨length, some pattern⟩, h, _, hf => by
      have hlength := length.accounted .column scope (List.append_subset.1 h).1
      have hpattern := pattern.accounted .value scope (List.append_subset.1 h).2
      exact (accounted_call function).2 (by simpa using ⟨hf, hlength, hpattern⟩)

theorem accounted_numberSteps (scope : Scope) :
    ∀ (steps : List NumberStep), numberSites steps ⊆ sites → ∀ {f : Fragment},
      f.Accounted sites → (numberFragment scope f steps).Accounted sites
  | [], _, _, hf => hf
  | .power exponent :: rest, h, _, hf => by
      rw [numberSites, NumberStep.sites, List.append_subset] at h
      exact accounted_numberSteps scope rest h.2
        (by simpa using ⟨hf, exponent.accounted .column scope h.1⟩)
  | .arithmetic operation operand :: rest, h, _, hf => by
      rw [numberSites, NumberStep.sites, List.append_subset] at h
      exact accounted_numberSteps scope rest h.2
        (by simpa using ⟨hf, operand.accounted .column scope h.1⟩)
  | .rounding rounding :: rest, h, _, hf =>
      accounted_numberSteps scope rest h (accounted_rounding rounding hf)

theorem accounted_branches (scope : Scope) :
    ∀ branches : List (List Entry × Expr), branchSites branches ⊆ sites →
      (branchFragment scope branches).Accounted sites
  | [], _ => accounted_empty
  | (check, result) :: rest, h => by
      rw [branchSites, List.append_subset, List.append_subset] at h
      have hcheck := accounted_chain .and
        (accounted_entries accounted_none .and scope check h.1.1)
      have hresult := result.accounted .value scope h.1.2
      simpa [branchFragment] using
        ⟨⟨hcheck, hresult⟩, accounted_branches scope rest h.2⟩

theorem JsonBody.accounted (options : JsonOptions) (scope : Scope) :
    ∀ body : JsonBody, body.sites ⊆ sites → (body.fragment options scope).Accounted sites
  | .object fields, h =>
      accounted_collect options ((accounted_call _).2 (accounted_fields scope fields h))
  | .array items, h =>
      accounted_collect options ((accounted_call _).2 (accounted_exprs .column scope items h))
  | .single value, h => by
      have hvalue := value.accounted .column scope h
      refine accounted_collect options ?_
      split
      · exact hvalue
      · simpa using hvalue

theorem accounted_fields (scope : Scope) :
    ∀ fields : List (String × Expr), fieldSites fields ⊆ sites →
      ∀ f ∈ fieldFragments scope fields, f.Accounted sites
  | [], _ => nofun
  | (key, value) :: rest, h => by
      rw [fieldSites, List.append_subset] at h
      rw [fieldFragments, List.forall_mem_cons, List.forall_mem_cons]
      exact ⟨accounted_textOperand _ (accounted_text key), value.accounted .column scope h.1,
        accounted_fields scope rest h.2⟩

/-- **Every query answers for its guarded errors.** -/
theorem Query.accounted (outer : Scope) (build : Option (Scope → Fragment))
    (hb : ∀ g ∈ build, ∀ scope : Scope, (g scope).Accounted sites) :
    ∀ query : Query, query.sites ⊆ sites → (query.fragment outer build).Accounted sites
  | ⟨table, alias?, select, joins, filter, junction, groupBy, having, orderBy, limit, offset,
      encryption⟩, h => by
      simp only [Query.sites, List.append_subset] at h
      obtain ⟨⟨⟨⟨hselect, hjoins⟩, hgroupBy⟩, hfilter⟩, hhaving⟩ := h
      let scope := outer.enter table alias? joins encryption
      have hitems := accounted_items scope select hselect
      have hjoined := accounted_joins (alias?.getD table) scope joins hjoins
      have hkeys := accounted_keys scope (outputAliases select) groupBy hgroupBy
      have hfiltered := accounted_filter junction scope filter hfilter
      have hkept := accounted_filter junction scope having hhaving
      have hwhole : (build.elim (if select.isEmpty then word "*"
          else commas (itemFragments scope select)) fun g => g scope).Accounted sites := by
        cases build with
        | some g => exact hb g rfl scope
        | none =>
            cases select with
            | nil => exact accounted_word _
            | cons e rest => exact accounted_commas.2 hitems
      rw [Query.fragment_eq]
      simp only [accounted_append]
      refine ⟨⟨⟨⟨⟨⟨?_, hjoined⟩, accounted_conditionClause _ junction hfiltered⟩,
        accounted_listClause _ hkeys⟩, accounted_conditionClause _ junction hkept⟩,
        accounted_listClause _ (accounted_orderFragments scope _ orderBy)⟩,
        accounted_limitFragment limit offset⟩
      simp only [accounted_spaced, List.forall_mem_cons]
      exact ⟨accounted_word _, hwhole, accounted_word _, accounted_tableFragment table alias?,
        nofun⟩

theorem accounted_items (scope : Scope) :
    ∀ items : List Expr, exprSites items ⊆ sites →
      ∀ f ∈ itemFragments scope items, f.Accounted sites
  | [], _ => nofun
  | e :: rest, h => by
      rw [exprSites, List.append_subset] at h
      have he := e.accounted .column scope h.1
      have hrest := accounted_items scope rest h.2
      cases e with
      | wrapper w =>
          rw [itemFragments, List.forall_mem_cons]
          exact ⟨accounted_aliased w.alias? he, hrest⟩
      | _ => exact List.forall_mem_cons.2 ⟨he, hrest⟩

theorem accounted_keys (scope : Scope) (outputs : List String) :
    ∀ keys : List Expr, exprSites keys ⊆ sites →
      ∀ f ∈ keyFragments scope outputs keys, f.Accounted sites
  | [], _ => nofun
  | e :: rest, h => by
      rw [exprSites, List.append_subset] at h
      have he := e.accounted .column scope h.1
      have hrest := accounted_keys scope outputs rest h.2
      cases e with
      | text token => exact List.forall_mem_cons.2 ⟨accounted_sortKey scope outputs token, hrest⟩
      | _ => exact List.forall_mem_cons.2 ⟨he, hrest⟩

theorem accounted_joins (parent : String) (scope : Scope) :
    ∀ joins : List Join, joinSites joins ⊆ sites →
      (joinsFragment parent scope joins).Accounted sites
  | [], _ => accounted_empty
  | join :: rest, h => by
      rw [joinSites, List.append_subset] at h
      simpa [joinsFragment] using
        ⟨join.accounted parent scope h.1, accounted_joins parent scope rest h.2⟩

/-- **Every join answers for its guarded errors**: a query that is joined needs an alias. -/
theorem Join.accounted (parent : String) (scope : Scope) :
    ∀ join : Join, join.sites ⊆ sites → (join.fragment parent scope).Accounted sites
  | ⟨kind, matching, query⟩, h => by
      rw [Join.sites, List.cons_subset, List.append_subset] at h
      obtain ⟨hsite, hquery, hmatching⟩ := h
      have hbody := query.accounted scope none nofun hquery
      have hmatched := matching.accounted (scope.target parent (some parent) none)
        ((scope.target parent (some parent) none).target query.table (some query.qualifier) none)
        hmatching
      have htarget : (if query.isDerived then
            match query.alias? with
            | some name => spaced [parens (query.fragment scope none), "AS", .path name]
            | none => .fail (.missing "alias" s!"derived join '{query.table}'")
          else tableFragment query.table query.alias?).Accounted sites := by
        split
        · next hderived =>
            split
            · simpa using hbody
            · next halias =>
                intro e hmem _
                cases List.mem_singleton.1 hmem
                exact ⟨_, hsite, hderived, halias, _, rfl⟩
        · exact accounted_tableFragment _ _
      rw [Join.fragment, accounted_append]
      simp only [accounted_spaced, List.forall_mem_cons]
      exact ⟨⟨accounted_words _, htarget, nofun⟩, hmatched⟩

theorem Matching.accounted (outer inner : Scope) :
    ∀ matching : Matching, matching.sites ⊆ sites →
      (matching.fragment outer inner).Accounted sites
  | .unmatched, _ => accounted_empty
  | .shared columns, _ => by simp [Matching.fragment]
  | .pairs pairs, h =>
      (accounted_clause _).2 (accounted_chain .and (accounted_pairs outer inner pairs h))

theorem accounted_pairs (outer inner : Scope) :
    ∀ pairs : List (String × Expr), pairSites pairs ⊆ sites →
      ∀ f ∈ pairFragments outer inner pairs, f.Accounted sites
  | [], _ => nofun
  | (column, e) :: rest, h => by
      rw [pairSites, List.cons_subset, List.append_subset] at h
      let scope : Scope := { inner with alias? := outer.alias? }
      have hcolumn (scope : Scope) : (Token.column scope column).Accounted sites :=
        accounted_column scope column
      have hright := e.accounted .value inner h.2.1
      have hparts := e.partsAccounted scope .and h.2.1
      have hrest := accounted_pairs outer inner rest h.2.2
      cases e with
      | text token =>
          exact List.forall_mem_cons.2
            ⟨accounted_equals (hcolumn outer) (accounted_column inner token), hrest⟩
      | condition entries =>
          refine List.forall_mem_cons.2 ⟨accounted_group .and (hparts _ ?_), hrest⟩
          rintro _ ⟨⟩
          exact hcolumn scope
      | _ =>
          exact List.forall_mem_cons.2 ⟨accounted_equals (hcolumn outer) hright, hrest⟩

end

/-! ## Statements that change data -/

theorem sites_subset_pairSites {pairs : List (String × Expr)} {pair : String × Expr}
    (h : pair ∈ pairs) : pair.2.sites ⊆ pairSites pairs := by
  induction pairs with
  | nil => cases h
  | cons first rest ih =>
      obtain ⟨key, e⟩ := first
      intro site hsite
      obtain rfl | h := List.mem_cons.1 h
      · exact List.mem_cons_of_mem _ (List.mem_append_left _ hsite)
      · exact List.mem_cons_of_mem _ (List.mem_append_right _ (ih h hsite))

/-- A value that is written to a column has its own errors only. -/
theorem Write.accounted_cell (write : Write) (scope : Scope) (column : String) {e : Expr}
    (h : e.sites ⊆ sites) : (write.cell scope column e).Accounted sites := by
  have hplain : (plainCell scope column e).Accounted sites := by
    unfold plainCell
    split
    · exact accounted_text _
    · exact accounted_fail rfl
    · exact accounted_fail rfl
    · exact e.accounted .value scope h
  unfold Write.cell
  split
  · exact accounted_cipher scope .encrypt _ hplain
  · exact hplain

theorem Write.accounted_assignments (write : Write) (scope : Scope) {row : Row}
    (h : pairSites row ⊆ sites) : (write.assignments scope row).Accounted sites := by
  unfold Write.assignments
  rw [accounted_commas]
  intro f hf
  obtain ⟨pair, hpair, rfl⟩ := List.mem_map.1 hf
  exact accounted_equals (accounted_path _)
    (write.accounted_cell scope pair.1 (List.Subset.trans (sites_subset_pairSites hpair) h))

theorem Write.accounted_tuple (write : Write) (scope : Scope) (first : Row) (index : Nat)
    {row : Row} (h : pairSites row ⊆ sites) :
    (write.tuple scope first index row).Accounted sites := by
  unfold Write.tuple
  refine accounted_ite ?_ (accounted_fail rfl)
  rw [accounted_parens, accounted_commas]
  intro f hf
  obtain ⟨pair, -, rfl⟩ := List.mem_map.1 hf
  dsimp only
  split
  · next e hlookup =>
      obtain ⟨before, after, rfl, -⟩ := List.lookup_eq_some_iff.1 hlookup
      have hmem : (pair.1, e) ∈ before ++ (pair.1, e) :: after := by simp
      exact write.accounted_cell scope pair.1 (List.Subset.trans (sites_subset_pairSites hmem) h)
  · exact accounted_fail rfl

theorem Write.accounted_upsert (write : Write) (scope : Scope)
    (h : pairSites write.upsert ⊆ sites) : (write.upsertFragment scope).Accounted sites := by
  have hassigned := write.accounted_assignments scope h
  unfold Write.upsertFragment
  refine accounted_ite accounted_empty ?_
  split
  · exact (accounted_clause _).2 hassigned
  · refine accounted_ite (accounted_fail rfl) ?_
    simpa using hassigned
  · refine accounted_ite (accounted_fail rfl) ?_
    simpa using hassigned

/-- **What is written for an insertion or an update answers for its errors**, if there is a row. -/
theorem Write.accounted (write : Write) (outer : Scope) (hrows : write.rows ≠ []) :
    (write.fragment outer).Accounted write.sites := by
  have hrow : ∀ row ∈ write.rows, pairSites row ⊆ write.sites := by
    intro row hrow site hsite
    exact List.mem_append_left _
      (List.mem_append_left _ (List.mem_flatMap.2 ⟨row, hrow, hsite⟩))
  have hupsert : pairSites write.upsert ⊆ write.sites := fun site hsite =>
    List.mem_append_left _ (List.mem_append_right _ hsite)
  have hfilter : filterSites write.filter ⊆ write.sites := fun site hsite =>
    List.mem_append_right _ hsite
  unfold Write.fragment
  refine accounted_ite ?_ ?_
  · unfold Write.updateFragment
    split
    · next row hone =>
        refine accounted_ite ?_ (accounted_fail rfl)
        rw [accounted_append]
        refine ⟨?_, accounted_conditionClause _ _ (accounted_filter _ _ _ hfilter)⟩
        have hassigned := write.accounted_assignments
          (outer.target write.table write.alias? write.encryption)
          (hrow row (hone ▸ List.mem_cons_self))
        simpa using ⟨accounted_tableFragment _ _, hassigned⟩
    · exact accounted_fail rfl
  · unfold Write.insertFragment
    split
    · next hnone => exact absurd hnone hrows
    · next first rest _ =>
        rw [accounted_append]
        refine ⟨?_, write.accounted_upsert _ hupsert⟩
        have htuples : ∀ f ∈ write.rows.mapIdx
            (write.tuple (outer.target write.table none write.encryption) first),
            f.Accounted write.sites := by
          intro f hf
          obtain ⟨index, hindex, rfl⟩ := List.mem_mapIdx.1 hf
          exact write.accounted_tuple _ first index (hrow _ (List.getElem_mem hindex))
        have hcolumns : ∀ f ∈ first.map fun pair => Fragment.path pair.1,
            f.Accounted write.sites := by
          intro f hf
          obtain ⟨pair, -, rfl⟩ := List.mem_map.1 hf
          exact accounted_path _
        simp only [accounted_spaced, List.forall_mem_cons, accounted_parens, accounted_commas]
        exact ⟨accounted_word _, accounted_word _, accounted_path _, hcolumns, accounted_word _,
          htuples, nofun⟩

/-- A missing filter is no guarded error. -/
theorem Delete.accounted (delete : Delete) (safeMode : Bool) (outer : Scope) :
    (delete.fragment safeMode outer).Accounted (filterSites delete.filter) := by
  unfold Delete.fragment
  refine accounted_ite (accounted_fail rfl) ?_
  rw [accounted_append]
  refine ⟨?_, accounted_conditionClause _ _ (accounted_filter _ _ _ (List.Subset.refl _))⟩
  simpa using accounted_tableFragment _ _

end Trees

end QueryTree
