import QueryTree.Sql.Bindings

/-!
# Fragments

A fragment is a piece of a statement whose values have not been bound yet. It can be bound at any
place, any number of times; binding writes its lexemes, appends its values, and stops at the first
error.

Values are bound in the order of the text, with two exceptions that are constructors of their
own: `crossed` and `led`.

- `Fragment`: fragments.
- `Fragment.run`: binding.
- `Fragment.join`, `spaced`, `commas`, `parens`, `call`: ways to put fragments together.
-/

namespace QueryTree

/-- What stands around the body of an enclosed fragment. -/
inductive Delimiters where
  | parens
  /-- `CASE` and `END`. -/
  | cases
deriving DecidableEq, Repr

/-- The lexemes in front of the body. -/
def Delimiters.left : Delimiters → List Lexeme
  | .parens => [.opening]
  | .cases => [.word "CASE"]

/-- The lexemes after the body. -/
def Delimiters.right : Delimiters → List Lexeme
  | .parens => [.closing]
  | .cases => [.space, .word "END"]

/-- A piece of a statement whose values have not been bound yet. -/
inductive Fragment where
  | empty
  /-- A fixed lexeme. -/
  | token (t : Lexeme)
  /-- A value to bind. -/
  | value (v : Value)
  /-- Key material to bind. -/
  | secret (s : String)
  /-- An identifier path. -/
  | path (p : String)
  /-- An alias, a single name. -/
  | outputName (name : String)
  /-- Nothing to write, but the statement must run under this block mode. -/
  | mode (m : Cipher.Mode)
  /-- An error. -/
  | fail (e : CompileError)
  | enclosed (delimiters : Delimiters) (body : Fragment)
  | append (first second : Fragment)
  /-- Both sides in the order of the text, the right one bound first. -/
  | crossed (left right : Fragment)
  /-- A value in front of a body, bound after the body but placed in front of its values. -/
  | led (v : Value) (body : Fragment)
deriving DecidableEq, Repr

namespace Fragment

instance : Append Fragment := ⟨Fragment.append⟩

/-- A keyword, function, operator or numeral. -/
def word (w : String) : Fragment :=
  .token (.word w)

instance : Coe String Fragment := ⟨word⟩

/-- A fixed text between single quotes. -/
def literal (s : String) : Fragment :=
  .token (.literal s)

/-- A text to bind. -/
def text (s : String) : Fragment :=
  .value (.text s)

/-- Fixed lexemes. -/
def tokens : List Lexeme → Fragment
  | [] => .empty
  | t :: ts => .append (.token t) (tokens ts)

/-- Fragments with fixed lexemes between them. -/
def join (separator : List Lexeme) : List Fragment → Fragment
  | [] => .empty
  | [f] => f
  | f :: rest => f ++ tokens separator ++ join separator rest

/-- Fragments with a space between them. -/
def spaced (parts : List Fragment) : Fragment :=
  join [.space] parts

/-- Fragments with a comma and a space between them. -/
def commas (parts : List Fragment) : Fragment :=
  join [.comma, .space] parts

/-- Fragments with an operator between them. -/
def operated (operator : String) (parts : List Fragment) : Fragment :=
  join [.space, .word operator, .space] parts

/-- Several words. -/
def words (ws : List String) : Fragment :=
  spaced (ws.map word)

/-- A fragment in parentheses. -/
def parens (body : Fragment) : Fragment :=
  .enclosed .parens body

/-- A function applied to arguments. -/
def call (function : String) (arguments : List Fragment) : Fragment :=
  word function ++ parens (commas arguments)

/-- The conversion of a fragment to a type. -/
def cast (body : Fragment) (type : List String) : Fragment :=
  word "CAST" ++ parens (spaced [body, "AS", words type])

/-! ## Binding -/

/-- The lexemes written, or the error met, and what has been bound by then. -/
abbrev Outcome := Except CompileError (List Lexeme) × Bindings

/-- Writes a lexeme that came with bindings. -/
def single : Lexeme × Bindings → Outcome
  | (t, b) => (.ok [t], b)

/-- Binds a fragment after what is bound already. -/
def run (dialect : Dialect) : Fragment → Bindings → Outcome
  | .empty, b => (.ok [], b)
  | .token t, b => (.ok [t], b)
  | .value v, b => single (b.value v)
  | .secret s, b => single (b.value (.text s))
  | .path p, b => single (b.identifier dialect p)
  | .outputName name, b => single (b.outputName dialect name)
  | .mode m, b =>
    match b.require m with
    | .ok b => (.ok [], b)
    | .error e => (.error e, b)
  | .fail e, b => (.error e, b)
  | .enclosed delimiters body, b =>
    match body.run dialect b with
    | (.ok ts, b) => (.ok (delimiters.left ++ ts ++ delimiters.right), b)
    | (.error e, b) => (.error e, b)
  | .append first second, b =>
    match first.run dialect b with
    | (.error e, b) => (.error e, b)
    | (.ok ts, b) =>
      match second.run dialect b with
      | (.ok us, b) => (.ok (ts ++ us), b)
      | (.error e, b) => (.error e, b)
  | .crossed left right, b =>
    match right.run dialect b with
    | (.error e, b) => (.error e, b)
    | (.ok us, b) =>
      match left.run dialect b with
      | (.ok ts, b) => (.ok (ts ++ us), b)
      | (.error e, b) => (.error e, b)
  | .led v body, b =>
    match body.run dialect b with
    | (.error e, b) => (.error e, b)
    | (.ok ts, after) =>
      match after.insert b.count v with
      | (t, b) => (.ok (t :: ts), b)

/-- The text of a fragment that is bound after what is bound already. -/
def sql (dialect : Dialect) (f : Fragment) (b : Bindings) : Except CompileError String × Bindings :=
  match f.run dialect b with
  | (.ok ts, b) => (.ok (render dialect ts), b)
  | (.error e, b) => (.error e, b)

end Fragment

end QueryTree
