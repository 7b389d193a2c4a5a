import QueryTree.Proofs.Statement.Basic

/-!
# The vocabulary of statements

Texts of callers never become part of a statement, except between the quotes of a name.

* `Config.vocabulary_of_statement`: the text of every compiled statement splits into units that
  its dialect admits.
* `Config.vocabulary_of_statement_hostile`: a query that tries to break out of its quotes.
-/

namespace QueryTree

namespace Config

/-- **A compiled statement is written in the words of its dialect.** A reader that knows nothing
but quotes splits the text into units that make up all of it. Each of them is a word, a function
or a literal of the lists of the dialect, a placeholder of the dialect, or a name in quotes; and
what belongs to one dialect only is found in no other. -/
theorem vocabulary_of_statement {config : Config} {kind : StatementKind} {json : Json}
    {c : Compiled} (h : config.statement kind json = .ok c) :
    ∃ atoms, atoms? config.dialect c.sql = some atoms
      ∧ Atom.textOf config.dialect atoms = c.sql
      ∧ (∀ a ∈ atoms, a.Admitted config.dialect)
      ∧ ∀ a ∈ atoms, ∀ owner, a.only? = some owner → config.dialect = owner := by
  obtain ⟨f, ts, b, -, hphrase, hrun, hsql, -⟩ := statement_ok h
  have htidy : Tidy config.dialect ts := hphrase.tidy hrun
  have hadmitted := admitted_atomsOf htidy
  rw [hsql]
  exact ⟨atomsOf config.dialect ts, atoms?_render htidy, textOf_atomsOf htidy, hadmitted,
    fun a ha owner ho => (hadmitted a ha).dialect_eq ho⟩

/-- A query whose texts hold quotes, placeholders and keywords. -/
def hostileQuery : Json :=
  .obj [("table", .str "a\" $1?"), ("where", .obj [("b", .str "' OR 1")])]

/-- Hostile names stay between their quotes, and hostile values out of the text. -/
theorem vocabulary_of_statement_hostile :
    ∃ c, ({ dialect := .postgresql } : Config).statement .select hostileQuery = .ok c
      ∧ c.sql = "SELECT * FROM \"a\"\" $1?\" WHERE \"b\" = $1"
      ∧ c.values = [.text "' OR 1"]
      ∧ ∃ atoms, atoms? .postgresql c.sql = some atoms
        ∧ Atom.textOf .postgresql atoms = c.sql
        ∧ (∀ a ∈ atoms, a.Admitted .postgresql)
        ∧ ∀ a ∈ atoms, ∀ owner, a.only? = some owner → .postgresql = owner := by
  have hc : ({ dialect := .postgresql } : Config).statement .select hostileQuery = .ok
      { dialect := .postgresql, values := [.text "' OR 1"], preamble := [], omissions := [],
        sql := "SELECT * FROM \"a\"\" $1?\" WHERE \"b\" = $1" } := rfl
  exact ⟨_, hc, rfl, rfl, vocabulary_of_statement hc⟩

end Config

end QueryTree
