import Mathlib.Logic.Relation
import QueryTree.Proofs.Options.Pruned
import QueryTree.Proofs.Options.Reading
import QueryTree.Proofs.Statement.Outcome
import QueryTree.Proofs.Statement.Reading

/-!
# Options of whole statements

What the options of a description mean does not depend on how they are written down: not on their
order, not on whether an absent one is given as null, and not on clauses that are left out because
of their shape.

* `Config.statement_of_alike`: alike descriptions are compiled to the same, but for what is left
  out of them.
* `Config.statement_rearranged`: option objects are records.
* `Config.statement_pruned`: a clause that is left out may as well be deleted.
-/

namespace QueryTree

open Reading (Agree)

variable {drops : Bool} {json json' : Json}

theorem agree_readStatement (kind : StatementKind) (h : json.Alike drops kind.slot json') :
    Agree (json.omitted kind.slot) (json'.omitted kind.slot) (readStatement kind json)
      (readStatement kind json') := by
  cases kind with
  | select => exact (agree_readSelectStatement h).map StatementTree.select
  | write => exact (agree_readWrite h).map StatementTree.write
  | delete => exact (agree_readDelete h).map StatementTree.delete

namespace Config

/-- What was left out is passed on, and changes nothing else. -/
theorem finish_eq_ok_iff (config : Config) (f : Fragment) (w w' : List Omission) (c : Compiled) :
    config.finish f w = .ok c
      ↔ c.omissions = w ∧ config.finish f w' = .ok { c with omissions := w' } := by
  rw [finish_eq, finish_eq]
  cases Hurdle.passAll none f.hurdles with
  | error e => simp [Except.map]
  | ok mode =>
      obtain ⟨dialect, sql, values, preamble, omissions⟩ := c
      simp only [Except.map, outcome, Except.ok.injEq, Compiled.mk.injEq]
      constructor
      · rintro ⟨hdialect, hsql, hvalues, hpreamble, homissions⟩
        exact ⟨homissions.symm, hdialect, hsql, hvalues, hpreamble, trivial⟩
      · rintro ⟨homissions, hdialect, hsql, hvalues, hpreamble, -⟩
        exact ⟨hdialect, hsql, hvalues, hpreamble, homissions.symm⟩

/-- **Alike descriptions are compiled to the same**, but for what is left out of them, or none of
them is compiled. -/
theorem statement_of_alike (config : Config) (kind : StatementKind)
    (h : json.Alike drops kind.slot json') (c : Compiled) :
    config.statement kind json = .ok c
      ↔ c.omissions = json.omitted kind.slot
        ∧ config.statement kind json' = .ok { c with omissions := json'.omitted kind.slot } := by
  rw [statement_eq_finish, statement_eq_finish]
  rcases agree_readStatement kind h with ⟨tree, hgives, hgives'⟩ | ⟨hfails, hfails'⟩
  · rw [hgives, hgives']
    exact config.finish_eq_ok_iff _ _ _ c
  · obtain ⟨e, he⟩ := hfails []
    obtain ⟨e', he'⟩ := hfails' []
    rw [he, he']
    simp [Except.bind]

/-- What is left out can be read off the description. -/
theorem omissions_of_statement {config : Config} {kind : StatementKind} {c : Compiled}
    (h : config.statement kind json = .ok c) : c.omissions = json.omitted kind.slot :=
  ((config.statement_of_alike kind (.refl false _ _) c).1 h).1

/-- **Option objects are records.** Their keys may be put into another order and absent options may
be given as null, or taken away where they are null, at any depth and any number of times: both
descriptions fail to compile, or both are compiled to the same text, values and preamble, with the
same clauses left out. -/
theorem statement_rearranged (config : Config) (kind : StatementKind)
    (h : Relation.EqvGen (Json.Rearranged kind.slot) json json') (c : Compiled) :
    config.statement kind json = .ok c ↔ config.statement kind json' = .ok c := by
  induction h with
  | rel json json' hstep =>
      have halike : json.Alike false kind.slot json' := hstep.alike
      rw [config.statement_of_alike kind halike, halike.omitted_eq]
      constructor
      · rintro ⟨homissions, hok⟩
        rwa [← homissions] at hok
      · intro hok
        have homissions : c.omissions = json.omitted kind.slot :=
          (omissions_of_statement hok).trans halike.omitted_eq
        exact ⟨homissions, by rwa [← homissions]⟩
  | refl => rfl
  | symm _ _ _ ih => exact ih.symm
  | trans _ _ _ _ _ ih ih' => exact ih.trans ih'

/-- A query for parts of texts, under a test for rows. -/
def textQuery (text tested : Json) : Json :=
  .obj [("table", .str "t"), ("select", .arr [.str "a", .obj [("str", text)]]),
    ("where", .obj [("exists", tested)])]

/-- Such a query with its options in another order. -/
def movedQuery : Json :=
  .obj [("where", .obj [("exists", .obj [("having", .null), ("table", .str "u")])]),
    ("table", .str "t"), ("select", .arr [.str "a", .obj [("str",
      .obj [("substr", .obj [("start", .num (.int 2))]), ("value", .str "b")])]])]

/-- Options are moved inside a select item, an option of the query that is tested is given as null,
and the options of the statement are moved last. -/
theorem statement_rearranged_movedQuery :
    Relation.EqvGen (Json.Rearranged (.options .select))
        (textQuery (.obj [("value", .str "b"), ("substr", .obj [("start", .num (.int 2))])])
          (.obj [("table", .str "u")])) movedQuery
      ∧ ({} : Config).statement .select movedQuery = .ok {
          dialect := .mysql
          sql := "SELECT ??, SUBSTRING(??, ?) FROM ?? WHERE EXISTS (SELECT * FROM ??)"
          values := [.identifier "a", .identifier "b", .int 2, .identifier "t", .identifier "u"]
          preamble := []
          omissions := [] } := by
  have htext {text text' : Json} (tested : Json)
      (h : text.Rearranged (.options (.wrapper .string)) text') :
      (textQuery text tested).Rearranged (.options .select) (textQuery text' tested) :=
    @Json.Rearranged.field _ _ _ _ [("table", _)] _
      (@Json.Rearranged.item _ _ _ [.str "a"] _ (@Json.Rearranged.field _ _ _ _ [] _ h))
  have htested (text : Json) {tested tested' : Json} (h : tested.Rearranged .subquery tested') :
      (textQuery text tested).Rearranged (.options .select) (textQuery text tested') :=
    @Json.Rearranged.field _ _ _ _ [("table", _), ("select", _)] _
      (@Json.Rearranged.field _ _ _ _ [] _ h)
  have hmoved : Relation.EqvGen (Json.Rearranged (.options .select)) (textQuery _ _) movedQuery :=
    .trans _ _ _ (.rel _ _ (htext _ (.permute rfl (by decide) (.swap _ _ _))))
      (.trans _ _ _
        (.rel _ _ (htested _ (@Json.Rearranged.insert _ _ "having" [] [("table", .str "u")] rfl
          (by decide) (by decide) rfl)))
        (.rel _ _ (.permute rfl (by decide) (@List.perm_append_comm _ [_, _] [_]))))
  exact ⟨hmoved, (statement_rearranged {} .select hmoved _).1 rfl⟩

/-- **A clause that is left out may as well be deleted.** A description is compiled exactly if it is
compiled without the clauses of the wrong shape, at every depth. Nothing is left out then, text,
values and preamble are the same, and what is left out otherwise are these clauses, in the order in
which they are met. -/
theorem statement_pruned (config : Config) (kind : StatementKind) (json : Json) (c : Compiled) :
    config.statement kind json = .ok c
      ↔ c.omissions = json.omitted kind.slot
        ∧ config.statement kind (json.pruned kind.slot) = .ok { c with omissions := [] } := by
  have halike : json.Alike true kind.slot (json.pruned kind.slot) := json.alike_pruned kind.slot
  rw [config.statement_of_alike kind halike, Json.omitted_pruned]

/-- A query with clauses of the wrong shape in itself, in a join, in a query that is tested for rows
and in a JSON value. -/
def malformedQuery : Json :=
  .obj [("table", .str "t"), ("orderBy", .str "a"),
    ("join", .arr [.obj [("type", .str "cross"), ("table", .str "u"), ("alias", .str "w"),
      ("using", .str "x"), ("select", .bool true)]]),
    ("where", .obj [("exists", .obj [("groupBy", .num (.int 1)), ("table", .str "v")]),
      ("b", .obj [("json", .obj [("groupBy", .bool false), ("value", .arr [.str "a"])])])])]

/-- The clauses are met join first, and the one of a JSON value without a table is not met. -/
theorem statement_pruned_malformedQuery :
    ∃ c, ({} : Config).statement .select malformedQuery = .ok c
      ∧ c.omissions = [⟨"join", "select", "a list"⟩, ⟨"join", "using", "a list or an object"⟩,
          ⟨"select", "orderBy", "an object of column: asc|desc"⟩,
          ⟨"refer", "groupBy", "a list of columns"⟩]
      ∧ ({} : Config).statement .select (.obj [("table", .str "t"),
          ("join", .arr [.obj [("type", .str "cross"), ("table", .str "u"), ("alias", .str "w")]]),
          ("where", .obj [("exists", .obj [("table", .str "v")]),
            ("b", .obj [("json", .obj [("value", .arr [.str "a"])])])])])
        = .ok { c with omissions := [] } := by
  obtain ⟨c, hok⟩ : ∃ c, ({} : Config).statement .select malformedQuery = .ok c := ⟨_, rfl⟩
  obtain ⟨homissions, hpruned⟩ := (statement_pruned {} .select malformedQuery c).1 hok
  exact ⟨c, hok, homissions, hpruned⟩

end Config

end QueryTree
