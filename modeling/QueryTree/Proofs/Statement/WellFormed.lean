import QueryTree.Proofs.Statement.BlockMode
import QueryTree.Proofs.Statement.Reading
import QueryTree.Proofs.Tree.Accounted
import QueryTree.Proofs.Tree.Reading

/-!
# Statements that are read are well formed

Every statement that can be read is well formed at every depth, so that the errors which are there
for trees that are not are never met.

* `StatementTree.WellFormed`: what holds of such a tree; `wellFormed_readStatement` says that it
  holds of all that are read.
* `StatementTree.WellFormed.of_guarded`: the one guarded error that a well-formed tree can meet.
* `Config.isInternal_eq_false`: a statement is to blame for whatever it is refused for.
* `Config.statement_wellFormed`: the theorem.
-/

namespace QueryTree

/-! ## Well-formed statements -/

namespace StatementTree

/-- The places in a statement. -/
def sites : StatementTree → List Site
  | .select query => query.sites
  | .write tree => tree.sites
  | .delete tree => filterSites tree.filter

/-- All places of a statement are well formed, and there is a row to write. -/
structure WellFormed (tree : StatementTree) : Prop where
  sound : Sound tree.sites
  rows (write : Write) : tree = .write write → write.rows ≠ []

end StatementTree

/-- **Statements that are read are well formed.** -/
theorem wellFormed_readStatement (kind : StatementKind) (json : Json) :
    Reading.Delivers StatementTree.WellFormed (readStatement kind json) := by
  cases kind with
  | select =>
      refine (sound_readSelectStatement json).map fun query hquery => ⟨hquery, ?_⟩
      rintro _ ⟨⟩
  | write =>
      refine (sound_readWrite json).map fun write hwrite => ⟨hwrite.2, ?_⟩
      rintro _ ⟨⟩
      exact hwrite.1
  | delete =>
      refine (sound_readDelete json).map fun delete hdelete => ⟨hdelete, ?_⟩
      rintro _ ⟨⟩

/-! ## Errors of well-formed statements -/

/-- A well-formed statement answers for the guarded errors of what is written for it. -/
theorem StatementTree.WellFormed.accounted {tree : StatementTree} (h : tree.WellFormed)
    (config : Config) : (tree.fragment config).Accounted tree.sites := by
  cases tree with
  | select query => exact query.accounted config.scope none (by rintro _ ⟨⟩) (List.Subset.refl _)
  | write write => exact write.accounted config.scope (h.rows write rfl)
  | delete delete => exact delete.accounted config.safeMode config.scope

/-- The only guarded error of a well-formed statement is that of a condition that is tested for
rows. -/
theorem StatementTree.WellFormed.of_guarded {tree : StatementTree} (h : tree.WellFormed)
    {config : Config} {omissions : List Omission} {e : CompileError}
    (he : config.finish (tree.fragment config) omissions = .error e) (hguarded : e.isGuarded) :
    ∃ comparator entries field, .comparison comparator (.condition entries) ∈ tree.sites
      ∧ comparator.testsRows = true ∧ e = .invalid field (.expected .subquery) := by
  rw [Config.finish_eq] at he
  cases hpass : Hurdle.passAll none (tree.fragment config).hurdles with
  | ok mode =>
      rw [hpass] at he
      cases he
  | error e' =>
      rw [hpass] at he
      cases he
      rcases Hurdle.passAll_error hpass with ⟨m, m', -, rfl⟩ | ⟨before, after, m, heq, -, -⟩
      · cases hguarded
      · have hmem : .error e ∈ (tree.fragment config).hurdles := by
          rw [heq]
          simp
        obtain ⟨site, hsite, hraises⟩ := h.accounted config e hmem hguarded
        have hwf : site.WellFormed := h.sound site hsite
        cases site with
        | join join =>
            obtain ⟨kind, matching, query⟩ := join
            obtain ⟨hderived, halias, -⟩ := hraises
            have hnamed : query.alias?.isSome = true := hwf.named hderived
            rw [halias] at hnamed
            cases hnamed
        | comparison comparator operand =>
            obtain ⟨hrows, hquery, field, rfl⟩ := hraises
            have hoperand : operand.isQueryOrCondition = true := hwf hrows
            cases operand with
            | condition entries => exact ⟨comparator, entries, field, hsite, hrows, rfl⟩
            | wrapper w =>
                obtain ⟨core, compare, alias?⟩ := w
                cases core with
                | refer query => cases hquery
                | _ => cases hoperand
            | _ => cases hoperand
        | shape core =>
            obtain ⟨c, hkind, -⟩ := hraises
            exact absurd hkind (hwf.kind_ne c)
        | column key => exact hraises.elim

/-- **A statement is to blame for whatever it is refused for**, when it is read and when it is
written. -/
theorem Config.isInternal_eq_false {config : Config} {kind : StatementKind} {json : Json}
    {e : CompileError} (h : config.statement kind json = .error e) : e.isInternal = false := by
  have hdelivers := wellFormed_readStatement kind json
  rw [config.statement_eq_finish] at h
  cases hread : readStatement kind json [] with
  | error e' =>
      rw [hread] at h
      cases h
      exact hdelivers.isInternal_eq_false hread
  | ok read =>
      obtain ⟨tree, omissions⟩ := read
      rw [hread] at h
      rw [Bool.eq_false_iff]
      intro hinternal
      obtain ⟨_, _, _, -, -, rfl⟩ :=
        (hdelivers.ensures [] tree omissions hread).of_guarded h (isGuarded_of_isInternal hinternal)
      cases hinternal

/-! ## The theorem -/

/-- **Every statement that can be read is well formed at every depth, and the errors that guard
against others are never met.** A joined query has an alias, any join but a cross join is matched,
there is a row to write, lists of texts and of branches have an item, no wrapper is a combinator,
only queries and conditions are tested for rows, and columns are paths of names. So once a
statement is read, no alias and no row is missing where it is written, and a subquery is missing
only where a condition is tested for rows. No statement is refused for the value of a combinator
or for an unknown unit of time. -/
theorem Config.statement_wellFormed (config : Config) (kind : StatementKind) (json : Json) :
    (∀ tree omissions, readStatement kind json [] = .ok (tree, omissions) →
      tree.WellFormed
        ∧ config.statement kind json = config.finish (tree.fragment config) omissions
        ∧ ∀ e, config.statement kind json = .error e →
          (∀ context, e ≠ .missing "alias" context) ∧ (∀ context, e ≠ .missing "data" context)
            ∧ ∀ field, e = .invalid field (.expected .subquery) →
              ∃ comparator entries, comparator.testsRows = true
                ∧ .comparison comparator (.condition entries) ∈ tree.sites)
    ∧ ∀ e, config.statement kind json = .error e →
      (∀ field, e ≠ .invalid field .noValue)
        ∧ ∀ field symbol, e ≠ .invalid field (.unknownUnit symbol) := by
  constructor
  · intro tree omissions hread
    have hwf : tree.WellFormed :=
      (wellFormed_readStatement kind json).ensures [] tree omissions hread
    have hfinish : config.statement kind json = config.finish (tree.fragment config) omissions := by
      rw [config.statement_eq_finish, hread]
      rfl
    refine ⟨hwf, hfinish, fun e he => ?_⟩
    rw [hfinish] at he
    refine ⟨?_, ?_, ?_⟩
    · rintro context rfl
      obtain ⟨_, _, _, -, -, ⟨⟩⟩ := hwf.of_guarded he rfl
    · rintro context rfl
      obtain ⟨_, _, _, -, -, ⟨⟩⟩ := hwf.of_guarded he rfl
    · rintro field rfl
      obtain ⟨comparator, entries, _, hsite, hrows, -⟩ := hwf.of_guarded he rfl
      exact ⟨comparator, entries, hrows, hsite⟩
  · intro e he
    have hinternal := Config.isInternal_eq_false he
    constructor
    · rintro field rfl
      cases hinternal
    · rintro field symbol rfl
      cases hinternal

/-- An insertion of a value that is selected from a joined query, under a test for rows. -/
def guardedRow (tested : Json) : Json :=
  .obj [("table", .str "t"),
    ("data", .obj [("a", .obj [("refer", .obj [("table", .str "u"),
      ("select", .arr [.obj [("concat", .obj [("value", .arr [.str "b", .str "#c"])])]]),
      ("join", .arr [.obj [("table", .str "v"), ("alias", .str "w"), ("limit", .num (.int 1)),
        ("using", .arr [.str "d"])]]),
      ("where", .obj [("notExists", tested)])])])])]

/-- A date that is shifted, if its value is between two bounds. -/
def boundedShift (interval : String) : Json :=
  .obj [("table", .str "t"),
    ("select", .arr [.obj [("date", .obj [
      ("value", .obj [("between", .obj [("gt", .num (.int 1)), ("lt", .num (.int 2))])]),
      ("add", .str interval)])]])]

/-- A query is tested for rows; with another key beside it there is a condition instead, which can
be read but not written. A unit that is not known makes the text no interval, and bounds without a
column lack that column. -/
theorem Config.statement_wellFormed_guardedRow :
    (∃ tree omissions, readStatement .write (guardedRow (.obj [("table", .str "x")])) []
          = .ok (tree, omissions) ∧ tree.WellFormed
        ∧ ({} : Config).statement .write (guardedRow (.obj [("table", .str "x")]))
          = ({} : Config).finish (tree.fragment {}) omissions)
      ∧ (∃ tree omissions comparator entries,
        readStatement .write (guardedRow (.obj [("refer", .obj [("table", .str "x")]),
          ("e", .null)])) [] = .ok (tree, omissions)
          ∧ ({} : Config).statement .write (guardedRow (.obj [("refer", .obj [("table", .str "x")]),
            ("e", .null)])) = .error (.invalid "NOT EXISTS" (.expected .subquery))
          ∧ tree.WellFormed ∧ .comparison comparator (.condition entries) ∈ tree.sites)
      ∧ ∀ interval ∈ ["3x", "3d"], ∃ e,
        ({} : Config).statement .select (boundedShift interval) = .error e
          ∧ (∀ field, e ≠ .invalid field .noValue)
          ∧ ∀ field symbol, e ≠ .invalid field (.unknownUnit symbol) := by
  refine ⟨?_, ?_, ?_⟩
  · obtain ⟨tree, omissions, hread⟩ : ∃ tree omissions,
        readStatement .write (guardedRow (.obj [("table", .str "x")])) []
          = .ok (tree, omissions) := ⟨_, _, rfl⟩
    obtain ⟨hwf, hfinish, -⟩ := (statement_wellFormed {} .write _).1 tree omissions hread
    exact ⟨tree, omissions, hread, hwf, hfinish⟩
  · obtain ⟨tree, omissions, hread⟩ : ∃ tree omissions,
        readStatement .write (guardedRow (.obj [("refer", .obj [("table", .str "x")]),
          ("e", .null)])) [] = .ok (tree, omissions) := ⟨_, _, rfl⟩
    have herror : ({} : Config).statement .write (guardedRow (.obj
        [("refer", .obj [("table", .str "x")]), ("e", .null)]))
        = .error (.invalid "NOT EXISTS" (.expected .subquery)) := rfl
    obtain ⟨hwf, -, hguarded⟩ := (statement_wellFormed {} .write _).1 tree omissions hread
    obtain ⟨comparator, entries, -, hsite⟩ := (hguarded _ herror).2.2 _ rfl
    exact ⟨tree, omissions, comparator, entries, hread, herror, hwf, hsite⟩
  · have herror : ∀ interval ∈ ["3x", "3d"], ∃ e,
        ({} : Config).statement .select (boundedShift interval) = .error e := by
      rw [List.forall_mem_cons, List.forall_mem_singleton]
      exact ⟨⟨_, rfl⟩, ⟨_, rfl⟩⟩
    intro interval hinterval
    obtain ⟨e, he⟩ := herror interval hinterval
    exact ⟨e, he, (statement_wellFormed {} .select (boundedShift interval)).2 e he⟩

-- the two errors are there to be raised, by trees and letters that are never read
example : (Wrapper.fragment ({} : Config).scope
    ⟨.all [], some [.compare .eq (.bool true)], none⟩).hurdles
      = [.error (.invalid "and" .noValue)] := rfl

example : Interval.step "date.add" (3, 'x')
    = .error (.invalid "date.add" (.unknownUnit 'x')) := rfl

end QueryTree
