import QueryTree.Proofs.Binding.Content
import QueryTree.Proofs.Statement.Basic

/-!
# Outcomes of compilations

The outcome of a compilation can be told from the fragment of the statement: the first hurdle that
it does not get over, or the text and the values that the fragment amounts to.

* `Config.outcome`: the compiled statement of a fragment, under a block mode.
* `Config.finish_eq`: a compilation ends in it, or in the error of a hurdle.
* `Config.prepared`, `Config.statement_eq`: the same for all kinds of statement.
-/

namespace QueryTree.Config

/-- The compiled statement of a fragment that gets over its hurdles. -/
def outcome (config : Config) (f : Fragment) (omissions : List Omission)
    (mode : Option Cipher.Mode) : Compiled where
  dialect := config.dialect
  sql := render config.dialect (f.lexemes config.dialect 0)
  values := (f.stored config.dialect).map Stored.value
  preamble := mode.toList.map Cipher.Mode.preamble
  omissions := omissions

/-- **A compilation ends in the error of a hurdle or in what the fragment amounts to.** -/
theorem finish_eq (config : Config) (f : Fragment) (omissions : List Omission) :
    config.finish f omissions
      = (Hurdle.passAll none f.hurdles).map (config.outcome f omissions) := by
  rcases f.run_or_stop config.dialect .empty with ⟨mode, hpass, hrun⟩ | ⟨e, hstop, hrun⟩
  · have hpass : Hurdle.passAll none f.hurdles = .ok mode := hpass
    rw [finish, hrun, hpass]
    simp [outcome, Fragment.extend, Bindings.empty, Except.map]
  · have hstop : Hurdle.passAll none f.hurdles = .error e := hstop
    rw [finish, hstop]
    split <;> simp_all [Except.map]

/-- The fragment of a description, with what was left out of it. -/
def prepared (config : Config) (kind : StatementKind) (json : Json) :
    Except CompileError (Fragment × List Omission) :=
  match kind with
  | .select =>
    (readSelectStatement json []).map fun (query, omissions) =>
      (query.fragment config.scope none, omissions)
  | .write =>
    (readWrite json []).map fun (write, omissions) => (write.fragment config.scope, omissions)
  | .delete =>
    (readDelete json []).map fun (delete, omissions) =>
      (delete.fragment config.safeMode config.scope, omissions)

theorem statement_eq (config : Config) (kind : StatementKind) (json : Json) :
    config.statement kind json = (config.prepared kind json).bind fun (f, omissions) =>
      (Hurdle.passAll none f.hurdles).map (config.outcome f omissions) := by
  simp only [← finish_eq]
  cases kind with
  | select =>
      cases hread : readSelectStatement json [] <;>
        simp [statement, select, compile, prepared, hread, bind, Except.bind, Except.map]
  | write =>
      cases hread : readWrite json [] <;>
        simp [statement, write, compile, prepared, hread, bind, Except.bind, Except.map]
  | delete =>
      cases hread : readDelete json [] <;>
        simp [statement, delete, compile, prepared, hread, bind, Except.bind, Except.map]

end QueryTree.Config
