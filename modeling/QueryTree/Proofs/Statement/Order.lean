import QueryTree.Proofs.Statement.Basic

/-!
# The order of placeholders and values

Values are meant to be listed as their placeholders stand in the text. They are, unless a value
wrapper is compared with a column: then the values of the wrapper are listed first.

* `Config.order_of_statement`: the placeholders of a statement follow its values exactly if its
  fragment is aligned; filled with the values, an aligned statement is the one in which the values
  are written out.
* `Config.order_of_statement_crossed`: a statement whose values are out of order.
-/

namespace QueryTree

namespace Config

/-- **The placeholders of a statement follow its values exactly if its fragment is aligned.** Then,
read from left to right, a placeholder is one for names where the value is a name, and filling
the placeholders with the values from first to last gives the text in which each value was
written out where it stands, however values are spelled. -/
theorem order_of_statement {config : Config} {kind : StatementKind} {json : Json}
    {c : Compiled} (h : config.statement kind json = .ok c) :
    ∃ f marks stored atoms, Traced config kind json c f marks stored atoms
      ∧ (placed marks = stored ↔ f.aligned config.dialect = true)
      ∧ (f.aligned config.dialect = true →
        (atoms.filter Atom.isPlaceholder).map (· == .doubleQuestion)
            = c.values.map Value.isIdentifier
          ∧ ∀ spell, Atom.fill config.dialect spell atoms c.values
            = some (f.inline config.dialect spell)) := by
  obtain ⟨f, marks, stored, htraced, hplain, htidy⟩ := exists_traced h
  obtain ⟨mode, htraces⟩ := htraced.traces
  refine ⟨f, marks, stored, _, htraced, htraces.placed_eq_stored_iff, fun haligned => ?_⟩
  have hplaced : placed marks = stored := htraces.placed_eq_stored_iff.2 haligned
  refine ⟨?_, fun spell => ?_⟩
  · rw [htraced.placeholders_eq, htraced.values_eq, hplaced]
    simp [Function.comp_def, Call.atom_beq_doubleQuestion]
  · rw [htraced.values_eq, ← hplaced]
    exact htraces.fill_eq_inline hplain htidy

/-- The query for the rows where `score` and one more is `age` and two more. -/
def scoresByAge : Json :=
  .obj [("table", .str "users"), ("where", .obj [("num", .obj [("value", .str "score"),
    ("add", .num (.int 1)), ("compare", .obj [("num", .obj [("value", .str "age"),
      ("add", .num (.int 2))])])])])]

/-- The query for the rows where `score` and one more is over 9. -/
def scoresOverNine : Json :=
  .obj [("table", .str "users"), ("where", .obj [("num", .obj [("value", .str "score"),
    ("add", .num (.int 1)), ("compare", .obj [("gt", .num (.int 9))])])])]

/-- Names and whole numbers, spelled out. -/
def spellOut : Value → String
  | .identifier path => path
  | .int n => Decimal.intText n
  | _ => "?"

/-- The values of a comparison of two sums are listed the wrong way round. Those of a comparison
with a number are not, so that the text can be filled with them. -/
theorem order_of_statement_crossed :
    (∃ c, ({ dialect := .sqlite } : Config).statement .select scoresByAge = .ok c
      ∧ c.sql = "SELECT * FROM \"users\" WHERE (\"score\" + ?) = (\"age\" + ?)"
      ∧ c.values = [.int 2, .int 1]
      ∧ ∃ f marks stored atoms,
        Traced { dialect := .sqlite } .select scoresByAge c f marks stored atoms
          ∧ f.aligned .sqlite = false ∧ placed marks ≠ stored)
    ∧ ∃ c, ({} : Config).statement .select scoresOverNine = .ok c
      ∧ c.sql = "SELECT * FROM ?? WHERE (?? + ?) > ?"
      ∧ ∃ f marks stored atoms,
        Traced {} .select scoresOverNine c f marks stored atoms ∧ placed marks = stored
          ∧ (atoms.filter Atom.isPlaceholder).map (· == .doubleQuestion)
            = [true, true, false, false]
          ∧ Atom.fill .mysql spellOut atoms c.values
            = some "SELECT * FROM users WHERE (score + 1) > 9" := by
  constructor
  · have hc : ({ dialect := .sqlite } : Config).statement .select scoresByAge = .ok
        { dialect := .sqlite, values := [.int 2, .int 1], preamble := [], omissions := [],
          sql := "SELECT * FROM \"users\" WHERE (\"score\" + ?) = (\"age\" + ?)" } := rfl
    obtain ⟨f, marks, stored, atoms, htraced, hiff, -⟩ := order_of_statement hc
    have haligned : f.aligned .sqlite = false := by
      cases htraced.fragment_eq
      rfl
    refine ⟨_, hc, rfl, rfl, f, marks, stored, atoms, htraced, haligned, fun heq => ?_⟩
    rw [hiff.1 heq] at haligned
    cases haligned
  · have hc : ({} : Config).statement .select scoresOverNine = .ok
        { dialect := .mysql, preamble := [], omissions := [],
          values := [.identifier "users", .identifier "score", .int 1, .int 9],
          sql := "SELECT * FROM ?? WHERE (?? + ?) > ?" } := rfl
    obtain ⟨f, marks, stored, atoms, htraced, hiff, hfill⟩ := order_of_statement hc
    have hf : f.aligned .mysql = true ∧ f.inline .mysql spellOut
        = "SELECT * FROM users WHERE (score + 1) > 9" := by
      cases htraced.fragment_eq
      exact ⟨rfl, rfl⟩
    obtain ⟨hkinds, hspelled⟩ := hfill hf.1
    refine ⟨_, hc, rfl, f, marks, stored, atoms, htraced, hiff.2 hf.1, hkinds, ?_⟩
    rw [← hf.2]
    exact hspelled spellOut

end Config

end QueryTree
