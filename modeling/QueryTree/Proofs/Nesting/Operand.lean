import QueryTree.Compiler
import QueryTree.Proofs.Binding.Written
import QueryTree.Proofs.Nesting.Tree

/-!
# Operands

Operands are put next to an operator as they are. Whether such an operand holds together depends on
what stands at depth zero of its text, and that is settled by the shape of its tree.

* `Expr.operand_of_text`: what stands at depth zero of the text of an expression.
* `sumWithComparison`: a sum whose operand falls apart.
-/

namespace QueryTree

/-- **What stands at depth zero of an operand.** The parentheses and case expressions of the text
of an expression match. Outside of them no clause begins, and a comparison or a connective stands
there exactly if the tree is exposed: if it comes down to a single comparison, be it a condition
with one entry or a wrapper with one, to the value of which nothing else is done. -/
theorem Expr.operand_of_text (e : Expr) (place : Place) (scope : Scope) {b b' : Bindings}
    {text : String} (h : (e.fragment place scope).sql scope.dialect b = (.ok text, b')) :
    ∃ ps, pieces? scope.dialect text = some ps
      ∧ ((∃ w ∈ wordsOf ps, w ∈ relations) ↔ e.face = .exposed)
      ∧ ∀ w ∈ wordsOf ps, w ∉ clauseWords := by
  obtain ⟨ts, hrun, rfl⟩ := Fragment.sql_ok.1 h
  have hphrase : Phrase scope.dialect (e.fragment place scope) := e.phrase_fragment rfl place
  obtain ⟨ps, hps, -, hreads⟩ := hphrase.exists_pieces hrun
  have hface := e.shows_fragment place scope (Fragment.halts_eq_false_of_run hrun)
  have hinline : (e.fragment place scope).face ≠ .clausal := hface ▸ e.face_ne_clausal
  refine ⟨ps, hps, ?_, fun w hw hclause => ?_⟩
  · rw [hreads.words_eq, ← Fragment.face_eq_exposed hinline, hface]
  · rw [hreads.words_eq] at hw
    exact hinline ((Fragment.face_eq_clausal _).2 ⟨w, hw, hclause⟩)

/-- The condition that `a` is greater than one. -/
def aboveOne : Json :=
  .obj [("a", .obj [("gt", .num (.int 1))])]

/-- The query for the sum of `x` and a condition. -/
def sumWithComparison : Json :=
  .obj [("table", .str "t"), ("select", .arr [.obj [("num", .obj [("value", .str "x"),
    ("add", aboveOne)])]])]

/-- In `"x" + "a" > ?` the operand of the sum falls apart. -/
theorem Expr.operand_of_text_sum :
    (∃ c, ({ dialect := .sqlite } : Config).select sumWithComparison = .ok c
      ∧ c.sql = "SELECT (\"x\" + \"a\" > ?) FROM \"t\"")
    ∧ ∃ (e : Expr) (b : Bindings) (ps : List Piece),
      (Node.ofJson aboveOne).expr [] = .ok (e, [])
        ∧ (e.fragment .column { dialect := .sqlite }).sql .sqlite .empty = (.ok "\"a\" > ?", b)
        ∧ pieces? .sqlite "\"a\" > ?" = some ps
        ∧ (∃ w ∈ wordsOf ps, w ∈ relations) ∧ e.face = .exposed := by
  refine ⟨⟨_, rfl, rfl⟩, ?_⟩
  let operand : Expr := .condition [.column "a" (.condition [.compare .gt (.number (.int 1))])]
  have hsql : (operand.fragment .column { dialect := .sqlite }).sql .sqlite .empty
      = (.ok "\"a\" > ?", ⟨1, [.int 1], none⟩) := rfl
  obtain ⟨ps, hps, hexposed, -⟩ := Expr.operand_of_text operand .column { dialect := .sqlite } hsql
  exact ⟨operand, _, ps, rfl, hsql, hps, hexposed.2 rfl, rfl⟩

end QueryTree
