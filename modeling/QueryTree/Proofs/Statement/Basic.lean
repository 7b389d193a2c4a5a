import QueryTree.Compiler
import QueryTree.Proofs.Binding.Placeholders
import QueryTree.Proofs.Emission.Tree

/-!
# Compiled statements

The three kinds of statement as one function of the kind, and what stands behind a statement that
is compiled: a phrase of the dialect, bound from nothing without an error.

* `StatementKind`, `Config.statement`: all statements.
* `Config.fragment`: the fragment that a description amounts to.
* `Config.statement_ok`: what a compiled statement is made of.
* `Config.Traced`, `Config.exists_traced`: how it came about.
-/

namespace QueryTree

/-- The kinds of statement. -/
inductive StatementKind where
  | select
  | write
  | delete
deriving DecidableEq, Repr

namespace Config

/-- Compiles a statement of a given kind. -/
def statement (config : Config) : StatementKind → Json → Except CompileError Compiled
  | .select => config.select
  | .write => config.write
  | .delete => config.delete

/-- The fragment of a description, before anything is bound. -/
def fragment (config : Config) (kind : StatementKind) (json : Json) :
    Except CompileError Fragment :=
  match kind with
  | .select => (readSelectStatement json []).map fun (query, _) => query.fragment config.scope none
  | .write => (readWrite json []).map fun (write, _) => write.fragment config.scope
  | .delete =>
    (readDelete json []).map fun (delete, _) => delete.fragment config.safeMode config.scope

variable {config : Config}

theorem compile_ok {α : Type} {read : Reading α} {fragment : α → Fragment} {c : Compiled}
    (h : config.compile read fragment = .ok c) :
    ∃ tree omissions ts b, read [] = .ok (tree, omissions)
      ∧ (fragment tree).run config.dialect .empty = (.ok ts, b)
      ∧ c.sql = render config.dialect ts ∧ c.values = b.values := by
  unfold compile at h
  cases hread : read [] with
  | error e => simp [hread, bind, Except.bind] at h
  | ok result =>
      obtain ⟨tree, omissions⟩ := result
      simp only [hread, bind, Except.bind, finish] at h
      split at h
      · cases h
      · next ts b hrun =>
          cases h
          exact ⟨tree, omissions, ts, b, rfl, hrun, rfl, rfl⟩

/-- **Behind every compiled statement stands a phrase of its dialect, bound from nothing.** -/
theorem statement_ok {kind : StatementKind} {json : Json} {c : Compiled}
    (h : config.statement kind json = .ok c) :
    ∃ f ts b, config.fragment kind json = .ok f ∧ Phrase config.dialect f
      ∧ f.run config.dialect .empty = (.ok ts, b)
      ∧ c.sql = render config.dialect ts ∧ c.values = b.values := by
  have hd : config.scope.dialect = config.dialect := rfl
  cases kind with
  | select =>
      simp only [statement, select] at h
      obtain ⟨query, omissions, ts, b, hread, hrun, hsql, hvalues⟩ := compile_ok h
      have hphrase : Phrase config.dialect (query.fragment config.scope none) :=
        query.phrase_fragment hd (by simp)
      exact ⟨_, ts, b, by simp [fragment, hread, Except.map], hphrase, hrun, hsql, hvalues⟩
  | write =>
      simp only [statement, write] at h
      obtain ⟨write, omissions, ts, b, hread, hrun, hsql, hvalues⟩ := compile_ok h
      have hphrase : Phrase config.dialect (write.fragment config.scope) :=
        write.phrase_fragment hd
      exact ⟨_, ts, b, by simp [fragment, hread, Except.map], hphrase, hrun, hsql, hvalues⟩
  | delete =>
      simp only [statement, delete] at h
      obtain ⟨delete, omissions, ts, b, hread, hrun, hsql, hvalues⟩ := compile_ok h
      have hphrase : Phrase config.dialect (delete.fragment config.safeMode config.scope) :=
        delete.phrase_fragment config.safeMode hd
      exact ⟨_, ts, b, by simp [fragment, hread, Except.map], hphrase, hrun, hsql, hvalues⟩

/-- How a compiled statement came about: its fragment `f` was bound from nothing, `marks` are its
lexemes with the calls that gave them, `stored` are the calls that stored its values, and `atoms`
are the units that its text is read as. -/
structure Traced (config : Config) (kind : StatementKind) (json : Json) (c : Compiled)
    (f : Fragment) (marks : List Mark) (stored : List Call) (atoms : List Atom) : Prop where
  fragment_eq : config.fragment kind json = .ok f
  traces : ∃ mode, Traces config.dialect f 0 none marks stored mode
  sql_eq : c.sql = render config.dialect (marks.map Mark.lexeme)
  values_eq : c.values = stored.map Call.value
  atoms_eq : atoms? config.dialect c.sql = some atoms
  /-- The placeholders that are read are those of the calls. -/
  placeholders_eq : atoms.filter Atom.isPlaceholder = (placed marks).map (Call.atom config.dialect)

/-- Every compiled statement has a trace, with a plain fragment and a tidy text. -/
theorem exists_traced {kind : StatementKind} {json : Json} {c : Compiled}
    (h : config.statement kind json = .ok c) :
    ∃ f marks stored,
      Traced config kind json c f marks stored (atomsOf config.dialect (marks.map Mark.lexeme))
        ∧ f.Plain config.dialect ∧ Tidy config.dialect (marks.map Mark.lexeme) := by
  obtain ⟨f, ts, b, hfragment, hphrase, hrun, hsql, hvalues⟩ := statement_ok h
  have htidy : Tidy config.dialect ts := hphrase.tidy hrun
  obtain ⟨marks, stored, mode, htraces, rfl, rfl⟩ := Traces.of_run hrun
  refine ⟨f, marks, stored, ⟨hfragment, ⟨mode, htraces⟩, hsql, ?_, ?_, ?_⟩, hphrase.plain, htidy⟩
  · simpa using hvalues
  · rw [hsql]
    exact atoms?_render htidy
  · exact filter_isPlaceholder_atomsOf (htraces.genuine hphrase.plain)

end Config

end QueryTree
