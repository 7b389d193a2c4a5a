import QueryTree.Sql.Lexeme
import QueryTree.Value
import QueryTree.Error

/-!
# Bindings

What has been bound while a statement is written: its values in order, and the block mode that
its encryption relies on.

- `Bindings.value`, `Bindings.identifier`, `Bindings.outputName`: bind, or write out what the
  dialect does not bind, and give the lexeme to write.
- `Bindings.insert`: bind in front of values that were bound before.
- `Bindings.require`: one statement runs under one block mode.
-/

namespace QueryTree

/-- The values bound so far and the block mode in use. -/
structure Bindings where
  /-- How many times a value has been bound; the number of the last placeholder. -/
  index : Nat := 0
  values : List Value := []
  mode : Option Cipher.Mode := none
deriving DecidableEq, Repr

namespace Bindings

/-- Nothing is bound. -/
def empty : Bindings := {}

/-- The number of values. -/
def count (b : Bindings) : Nat :=
  b.values.length

/-- Binds a value after all others. -/
def value (b : Bindings) (v : Value) : Lexeme × Bindings :=
  (.slot (b.index + 1), { b with index := b.index + 1, values := b.values ++ [v] })

/-- Refers to an identifier path: bound where the dialect binds names, else written out. -/
def identifier (dialect : Dialect) (b : Bindings) (path : String) : Lexeme × Bindings :=
  if dialect.bindsNames then
    (.nameSlot, { b with index := b.index + 1, values := b.values ++ [.identifier path] })
  else (.name (Text.pathParts path), b)

/-- Refers to an alias, a single name: bound as a value where the dialect binds names, else
written out. -/
def outputName (dialect : Dialect) (b : Bindings) (name : String) : Lexeme × Bindings :=
  if dialect.bindsNames then b.value (.text name) else (.name [name], b)

/-- Binds a value in front of those bound since `mark` values were there. -/
def insert (b : Bindings) (mark : Nat) (v : Value) : Lexeme × Bindings :=
  (.slot (b.index + 1),
    { b with index := b.index + 1, values := b.values.take mark ++ v :: b.values.drop mark })

/-- Takes a block mode into use; a second one is refused. -/
def require (b : Bindings) (mode : Cipher.Mode) : Except CompileError Bindings :=
  match b.mode with
  | some current =>
    if current = mode then .ok b
    else .error (.invalid "encryption.mode" (.modeConflict mode current))
  | none => .ok { b with mode := some mode }

end Bindings

end QueryTree
