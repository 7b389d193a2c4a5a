import QueryTree.Config
import QueryTree.Sql.Statement
import QueryTree.Tree.Reading.Statement

/-!
# Compilation

A description of a statement in JSON becomes the text of the statement in the dialect of the
configuration, with the values for its placeholders in order. Nothing is executed.

- `Statement`: a text with its values.
- `Compiled`: a statement, what has to run before it, and what was left out of it.
- `Config.select`, `Config.write`, `Config.delete`: the three kinds of statement.
-/

namespace QueryTree

/-- A text with the values for its placeholders. -/
structure Statement where
  sql : String
  values : List Value
deriving DecidableEq, Repr

/-- The result of a compilation. -/
structure Compiled where
  dialect : Dialect
  sql : String
  values : List Value
  /-- Statements to run first, on the same connection. -/
  preamble : List Statement
  /-- Optional clauses that were left out because of their shape. -/
  omissions : List Omission
deriving DecidableEq, Repr

/-- The statement that puts a block mode into force. -/
def Cipher.Mode.preamble (mode : Cipher.Mode) : Statement :=
  ⟨"SET SESSION block_encryption_mode = ?", [.text mode.name]⟩

namespace Config

/-- The scope of a whole statement. -/
def scope (config : Config) : Scope :=
  Scope.outermost config.dialect config.encryption

/-- Binds the fragment of a statement that was read. -/
def finish (config : Config) (f : Fragment) (omissions : List Omission) :
    Except CompileError Compiled :=
  match f.run config.dialect .empty with
  | (.error e, _) => .error e
  | (.ok lexemes, b) =>
    .ok {
      dialect := config.dialect
      sql := render config.dialect lexemes
      values := b.values
      preamble := b.mode.toList.map Cipher.Mode.preamble
      omissions }

/-- Reads a tree and compiles its fragment. -/
def compile {α : Type} (config : Config) (read : Reading α) (fragment : α → Fragment) :
    Except CompileError Compiled := do
  let (tree, omissions) ← read []
  config.finish (fragment tree) omissions

/-- Compiles a query. -/
def select (config : Config) (json : Json) : Except CompileError Compiled :=
  config.compile (readSelectStatement json) fun query => query.fragment config.scope none

/-- Compiles an insertion, an update or both in one. -/
def write (config : Config) (json : Json) : Except CompileError Compiled :=
  config.compile (readWrite json) fun write => write.fragment config.scope

/-- Compiles a deletion. -/
def delete (config : Config) (json : Json) : Except CompileError Compiled :=
  config.compile (readDelete json) fun delete => delete.fragment config.safeMode config.scope

end Config

end QueryTree
