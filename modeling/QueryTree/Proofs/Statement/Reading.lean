import QueryTree.Proofs.Statement.Basic

/-!
# Statements as trees

* `StatementTree`, `readStatement`: statements of all kinds as trees.
* `Config.statement_eq_finish`: a statement is read, and its fragment is bound.
-/

namespace QueryTree

/-- A statement of any kind. -/
inductive StatementTree where
  | select (query : Query)
  | write (tree : Write)
  | delete (tree : Delete)

/-- The fragment of a statement. -/
def StatementTree.fragment (config : Config) : StatementTree → Fragment
  | .select query => query.fragment config.scope none
  | .write tree => tree.fragment config.scope
  | .delete tree => tree.fragment config.safeMode config.scope

/-- Reads a statement of a given kind. -/
def readStatement (kind : StatementKind) (json : Json) : Reading StatementTree :=
  match kind with
  | .select => .select <$> readSelectStatement json
  | .write => .write <$> readWrite json
  | .delete => .delete <$> readDelete json

theorem Config.statement_eq_finish (config : Config) (kind : StatementKind) (json : Json) :
    config.statement kind json = (readStatement kind json []).bind fun (tree, omissions) =>
      config.finish (tree.fragment config) omissions := by
  have hmap {α : Type} (read : Reading α) (tree : α → StatementTree) :
      config.compile read (fun a => (tree a).fragment config)
        = ((tree <$> read) []).bind fun (tree, omissions) =>
          config.finish (tree.fragment config) omissions := by
    change _ = ((read []).bind fun r => .ok (tree r.1, r.2)).bind _
    unfold Config.compile
    cases read [] <;> rfl
  cases kind with
  | select => exact hmap (readSelectStatement json) .select
  | write => exact hmap (readWrite json) .write
  | delete => exact hmap (readDelete json) .delete

end QueryTree
