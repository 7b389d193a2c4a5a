import Mathlib.Data.List.Perm.Subperm
import QueryTree.Proofs.Statement.Basic
import QueryTree.Proofs.Visibility.Tree

/-!
# References in statements

A text in the place of a value reaches a statement as a column of a table in sight, or as one bound
value. In sight are the tables and aliases of the query around it and of what that query is joined
with, and the same for every query further out.

* `Write.mentions`, `Delete.mentions`, `Config.mentions`: the mentions of a statement.
* `Config.references_of_statement`: each of them is written as it should be.
* `Config.mention_bound_twice_or_never`: mentions are listed as often as they are written, which is
  not always once.
-/

namespace QueryTree

open Fragment (spaced commas parens places_nil places_fail)

/-! ## Mentions of statements -/

namespace Write

/-- The mentions of the value of a column; a text given as data is bound in any case. -/
def cellMentions (sources : List Source) : Expr → List Mention
  | .text _ | .list _ | .condition _ => []
  | e => e.mentions .value sources

/-- The mentions of columns set to values. -/
def assignmentMentions (sources : List Source) (row : Row) : List Mention :=
  row.flatMap fun (_, e) => cellMentions sources e

/-- The mentions of a row, in the order of the columns of the first row. -/
def tupleMentions (sources : List Source) (first row : Row) : List Mention :=
  first.flatMap fun (column, _) => ((row.lookup column).map (cellMentions sources)).getD []

/-- The mentions of a statement that writes. An insertion has no alias. -/
def mentions (write : Write) : List Mention :=
  if write.filter.isSome then
    let sources := [⟨write.table, write.alias?⟩]
    write.rows.flatMap (assignmentMentions sources) ++ filterMentions sources write.filter
  else
    let sources := [⟨write.table, none⟩]
    write.rows.flatMap (tupleMentions sources (write.rows.headD []))
      ++ assignmentMentions sources write.upsert

end Write

/-- The mentions of a deletion. -/
def Delete.mentions (delete : Delete) : List Mention :=
  filterMentions [⟨delete.table, delete.alias?⟩] delete.filter

/-- The mentions of a statement. -/
def Config.mentions (kind : StatementKind) (json : Json) : Except CompileError (List Mention) :=
  match kind with
  | .select => (readSelectStatement json []).map fun (query, _) => query.mentions [] none
  | .write => (readWrite json []).map fun (write, _) => write.mentions
  | .delete => (readDelete json []).map fun (delete, _) => delete.mentions

/-! ## Fragments of statements -/

variable {dialect : Dialect} {scope : Scope} {sources : List Source}

theorem PlacesAll.flatMap {α : Type} {fragment : α → Fragment} {ms : α → List Mention}
    (h : ∀ a, (fragment a).Places dialect (ms a)) (as : List α) :
    PlacesAll dialect (as.map fragment) (as.flatMap ms) := by
  induction as with
  | nil => exact .nil
  | cons a as ih => exact .cons (h a) ih

theorem PlacesAll.mapIdx {α : Type} {fragment : Nat → α → Fragment} {ms : α → List Mention}
    (h : ∀ i a, (fragment i a).Places dialect (ms a)) (as : List α) :
    PlacesAll dialect (as.mapIdx fragment) (as.flatMap ms) := by
  induction as generalizing fragment with
  | nil => exact .nil
  | cons a as ih =>
      rw [List.mapIdx_cons]
      exact .cons (h 0 a) (ih fun i a => h (i + 1) a)

namespace Write

theorem places_plainCell (hs : scope.Sees dialect sources) (column : String) (e : Expr) :
    (plainCell scope column e).Places dialect (cellMentions sources e) := by
  cases e with
  | text s => exact places_nil _
  | list items => exact places_fail _ _
  | condition entries => exact places_fail _ _
  | wrapper w => exact (Expr.wrapper w).places hs .value
  | null => exact places_nil _
  | bool b => exact places_nil _
  | number n => exact places_nil _

theorem places_cell (hs : scope.Sees dialect sources) (write : Write) (column : String)
    (e : Expr) : (write.cell scope column e).Places dialect (cellMentions sources e) := by
  unfold cell
  split
  · exact places_cipher scope .encrypt _ (places_plainCell hs column e)
  · exact places_plainCell hs column e

theorem places_assignments (hs : scope.Sees dialect sources) (write : Write) (row : Row) :
    (write.assignments scope row).Places dialect (assignmentMentions sources row) := by
  refine (PlacesAll.flatMap (fun (column, e) => ?_) row).commas
  exact places_equals (places_nil _) (write.places_cell hs column e)

theorem places_tuple (hs : scope.Sees dialect sources) (write : Write) (first : Row) (index : Nat)
    (row : Row) :
    (write.tuple scope first index row).Places dialect (tupleMentions sources first row) := by
  refine places_ite ?_ (places_fail _ _)
  refine (PlacesAll.flatMap (fun (column, _) => ?_) first).commas.parens
  dsimp only
  cases row.lookup column with
  | none => exact places_fail _ _
  | some e => exact write.places_cell hs column e

theorem places_upsert (hs : scope.Sees dialect sources) (write : Write) :
    (write.upsertFragment scope).Places dialect (assignmentMentions sources write.upsert) := by
  have hassignments := write.places_assignments hs write.upsert
  unfold upsertFragment
  split
  · next hempty =>
      rw [List.isEmpty_iff.1 hempty]
      exact places_nil _
  · cases scope.dialect with
    | mysql => exact places_clause _ hassignments
    | postgresql | sqlite =>
        refine places_ite (places_fail _ _) (places_clause _ ?_)
        exact ((PlacesAll.lead hassignments []).skips
          [parens (commas (write.indexes.map Fragment.path)), "DO", "UPDATE", "SET"]).spaced

theorem places_insert {outer : Scope} (hs : outer.Sees dialect []) (write : Write) :
    (write.insertFragment outer).Places dialect
      (write.rows.flatMap (tupleMentions [⟨write.table, none⟩] (write.rows.headD []))
        ++ assignmentMentions [⟨write.table, none⟩] write.upsert) := by
  have hi := hs.target write.table none write.encryption
  unfold insertFragment
  split
  · exact places_fail _ _
  · next first rest hrows =>
      have htuples := (PlacesAll.mapIdx (write.places_tuple hi first) write.rows).commas
      have hhead : write.rows.headD [] = first := by rw [hrows]; rfl
      rw [hhead]
      have hrow := (PlacesAll.lead htuples []).skips ["INSERT", "INTO", .path write.table,
        parens (commas (first.map fun (column, _) => Fragment.path column)), "VALUES"]
      exact hrow.spaced.append (write.places_upsert hi)

theorem places_update {outer : Scope} (hs : outer.Sees dialect []) (write : Write) :
    (write.updateFragment outer).Places dialect
      (write.rows.flatMap (assignmentMentions [⟨write.table, write.alias?⟩])
        ++ filterMentions [⟨write.table, write.alias?⟩] write.filter) := by
  have hi := hs.target write.table write.alias? write.encryption
  unfold updateFragment
  split
  · next row hrows =>
      have hrow := (PlacesAll.cons (write.places_assignments hi row) .nil).skips
        ["UPDATE", tableFragment write.table write.alias?, "SET"]
      have hfilter := places_conditionClause "WHERE" write.junction
        (places_filter hi write.junction write.filter)
      rw [hrows]
      exact places_ite (hrow.spaced.append hfilter) (places_fail _ _)
  · exact places_fail _ _

theorem places_fragment {outer : Scope} (hs : outer.Sees dialect []) (write : Write) :
    (write.fragment outer).Places dialect write.mentions := by
  unfold fragment mentions
  split
  · exact write.places_update hs
  · exact write.places_insert hs

end Write

theorem Delete.places_fragment {outer : Scope} (hs : outer.Sees dialect []) (delete : Delete)
    (safeMode : Bool) : (delete.fragment safeMode outer).Places dialect delete.mentions := by
  have hfilter := places_filter (hs.target delete.table delete.alias? delete.encryption)
    delete.junction delete.filter
  refine places_ite (places_fail _ _) ?_
  exact (places_conditionClause "WHERE" delete.junction hfilter).after _

namespace Config

/-- The fragment of a statement writes what it should for its mentions. -/
theorem places_of_fragment {config : Config} {kind : StatementKind} {json : Json} {f : Fragment}
    (h : config.fragment kind json = .ok f) :
    ∃ ms, mentions kind json = .ok ms ∧ f.Places config.dialect ms := by
  have hs : config.scope.Sees config.dialect [] := Scope.sees_outermost _ _
  cases kind with
  | select =>
      cases hread : readSelectStatement json [] with
      | error e =>
          rw [fragment, hread] at h
          cases h
      | ok r =>
          rw [fragment, hread] at h
          cases h
          exact ⟨_, by rw [mentions, hread]; rfl, r.1.places hs .none⟩
  | write =>
      cases hread : readWrite json [] with
      | error e =>
          rw [fragment, hread] at h
          cases h
      | ok r =>
          rw [fragment, hread] at h
          cases h
          exact ⟨_, by rw [mentions, hread]; rfl, r.1.places_fragment hs⟩
  | delete =>
      cases hread : readDelete json [] with
      | error e =>
          rw [fragment, hread] at h
          cases h
      | ok r =>
          rw [fragment, hread] at h
          cases h
          exact ⟨_, by rw [mentions, hread]; rfl, r.1.places_fragment hs config.safeMode⟩

/-- **References in statements.** The mentions of a compiled statement stand in its text, in their
order, each as one lexeme of its own: as an identifier exactly if the mention is a reference to a
column of a source in sight, and otherwise, unless it is a keyword, as the placeholder of one bound
text. Each of these texts is a value of its own. -/
theorem references_of_statement {config : Config} {kind : StatementKind} {json : Json}
    {c : Compiled} (h : config.statement kind json = .ok c) :
    ∃ ms f marks stored atoms shown, mentions kind json = .ok ms
      ∧ Traced config kind json c f marks stored atoms
      ∧ shown.Sublist marks ∧ (placed shown).Subperm stored
      ∧ List.Forall₂ (Mention.Marked config.dialect) ms shown := by
  obtain ⟨f, marks, stored, htraced, -, -⟩ := exists_traced h
  obtain ⟨ms, hms, hplaces⟩ := places_of_fragment htraced.fragment_eq
  obtain ⟨mode, htraces⟩ := htraced.traces
  obtain ⟨shown, hshown, hsub⟩ := List.sublistForall₂_iff.1 (hplaces htraces)
  have hplaced : (placed shown).Subperm stored :=
    (hsub.filterMap Mark.call?).subperm.trans htraces.perm_placed.subperm
  exact ⟨ms, f, marks, stored, _, shown, hms, htraced, hsub, hplaced, hshown⟩

/-- The users for whom there is an order with their number in one column and a text in another. -/
def usersWithOrders : Json :=
  .obj [("table", .str "users"), ("alias", .str "u"), ("where", .obj [("exists", .obj [("refer",
    .obj [("table", .str "orders"), ("alias", .str "o"),
      ("where", .obj [("a", .str "u.id"), ("b", .str "x.id")])])])])]

theorem references_of_statement_correlated :
    let sources : List Source := [⟨"orders", some "o"⟩, ⟨"users", some "u"⟩]
    (⟨"u.id", sources⟩ : Mention).IsReference ∧ ¬ (⟨"x.id", sources⟩ : Mention).IsReference
      ∧ ∃ c marks shown, ({ dialect := .sqlite } : Config).statement .select usersWithOrders = .ok c
        ∧ c.sql = render .sqlite (marks.map Mark.lexeme) ∧ shown.Sublist marks
        ∧ List.Forall₂ (Mention.Marked .sqlite) [⟨"u.id", sources⟩, ⟨"x.id", sources⟩] shown := by
  intro sources
  refine ⟨⟨Mention.not_isKeyword rfl (by decide), ?_, ?_⟩, ?_, ?_⟩
  · rintro ⟨rest, h⟩
    have htext : "u.id".toList = ['u', '.', 'i', 'd'] := by decide
    cases htext.symm.trans h
  · have hcolumn : Text.isName (String.ofList ['i', 'd']) = true := rfl
    obtain ⟨hne, hname⟩ := Text.isName_ofList.1 hcolumn
    exact ⟨['u'], ['i', 'd'], by decide, by decide, hne, hname, ⟨"users", some "u"⟩,
      by simp [sources], .inr (by decide)⟩
  · rintro ⟨-, -, name, column, htext, hdot, -, -, source, hsource, hname⟩
    have hcut : Text.cutAt? '.' "x.id".toList = some (['x'], ['i', 'd']) := by decide
    cases hcut.symm.trans (Text.cutAt?_eq_some.2 ⟨htext, hdot⟩)
    revert source
    simp [sources, Source.IsNamed]
  · obtain ⟨c, hc⟩ : ∃ c,
        ({ dialect := .sqlite } : Config).statement .select usersWithOrders = .ok c := ⟨_, rfl⟩
    obtain ⟨ms, f, marks, stored, atoms, shown, hms, htraced, hsub, -, hshown⟩ :=
      references_of_statement hc
    cases hms
    exact ⟨c, marks, shown, hc, htraced.sql_eq, hsub, hshown⟩

/-- The rows where a column is what a text says. -/
def comparedWith (token : String) : Json :=
  .obj [("table", .str "t"), ("where", .obj [("a", .str token)])]

/-- The rows where a column, with a text replaced in it, lies strictly between two others. -/
def replacedAndCompared (token : String) : Json :=
  .obj [("table", .str "t"), ("where", .obj [("str", .obj [("value", .str "a"),
    ("replace", .obj [("target", .str token), ("replaceWith", .str "y")]),
    ("compare", .obj [("gt", .str "p"), ("lt", .str "q")])])])]

/-- A text in the place of a value that is neither a reference nor a keyword need not be bound
once: not at all if it asks for a test of null, and twice if what it belongs to is compared
twice. -/
theorem mention_bound_twice_or_never :
    (¬ ∀ (token : String) (c : Compiled), ¬ (⟨token, [⟨"t", none⟩]⟩ : Mention).IsReference →
        ¬ (⟨token, [⟨"t", none⟩]⟩ : Mention).IsKeyword →
        ({ dialect := .postgresql } : Config).statement .select (comparedWith token) = .ok c →
        c.values.count (.text token) = 1)
      ∧ ¬ ∀ (token : String) (c : Compiled), ¬ (⟨token, [⟨"t", none⟩]⟩ : Mention).IsReference →
        ¬ (⟨token, [⟨"t", none⟩]⟩ : Mention).IsKeyword →
        ({ dialect := .postgresql } : Config).statement .select (replacedAndCompared token)
          = .ok c →
        c.values.count (.text token) = 1 := by
  have hreference : ∀ token, '.' ∉ token.toList →
      ¬ (⟨token, [⟨"t", none⟩]⟩ : Mention).IsReference := by
    rintro token hdot ⟨-, -, name, column, htext, -⟩
    have htext : token.toList = name ++ '.' :: column := htext
    exact hdot (by simp [htext])
  refine ⟨fun h => ?_, fun h => ?_⟩
  · cases h "isNull" _ (hreference _ (by decide)) (Mention.not_isKeyword rfl (by decide)) rfl
  · cases h "x" _ (hreference _ (by decide)) (Mention.not_isKeyword rfl (by decide)) rfl

end Config

end QueryTree
