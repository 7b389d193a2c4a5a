import QueryTree.Proofs.Binding.Written
import QueryTree.Proofs.Condition.Formula
import QueryTree.Proofs.Nesting.Tree

/-!
# Atomic comparisons

A column compared with scalars is what a condition is made of. However it is written, its text is
one operand of the connectives around it, also where it has an `AND` of its own.

* `Relation`, `Test`: how a column is compared, and a column that is.
* `Test.Spelled`: the pieces that a comparison is written as.
* `Comparator.relation`, `Expr.relation`: the comparisons that entries stand for.
* `Test.exists_operand`: a plain comparison is written as one operand.
-/

namespace QueryTree

open Fragment (word spaced commas words parens Shows Avoids Writes)

/-! ## Atomic comparisons -/

/-- How a column is compared. -/
inductive Relation where
  | null
  | notNull
  | compare (comparator : Comparator) (operand : Expr)
  | member (comparator : Comparator) (items : List Expr)
  | between (low high : Expr)

/-- A left side compared. -/
def Relation.fragment (scope : Scope) (left : Fragment) : Relation → Fragment
  | .null => isNullTest left
  | .notNull => isNotNullTest left
  | .compare comparator operand =>
    compareWith scope.dialect comparator left (operand.fragment .value scope)
  | .member comparator items =>
    spaced [left, words comparator.words, parens (commas (exprFragments .value scope items))]
  | .between low high =>
    spaced [left, "BETWEEN", low.fragment .value scope, "AND", high.fragment .value scope]

/-- An atomic comparison. -/
structure Test where
  column : String
  relation : Relation

namespace Test

/-- What is written for an atomic comparison. -/
def fragment (scope : Scope) (test : Test) : Fragment :=
  test.relation.fragment scope (Token.column scope test.column)

/-- The pieces are those of a text of the comparison. -/
def Spelled (scope : Scope) (test : Test) (ps : List Piece) : Prop :=
  ∃ b text b', (test.fragment scope).sql scope.dialect b = (.ok text, b')
    ∧ pieces? scope.dialect text = some ps

end Test

/-- Whether an expression is null, a boolean, a number or a text. -/
def Expr.isScalar : Expr → Bool
  | .null | .bool _ | .number _ | .text _ => true
  | _ => false

/-- Whether an expression is a scalar or a list of scalars. -/
def Expr.isPlain : Expr → Bool
  | .list items => items.all Expr.isScalar
  | e => e.isScalar

/-- The comparison that an entry of a comparator stands for. -/
def Comparator.relation (comparator : Comparator) (operand : Expr) : Relation :=
  match comparator, operand with
  | .eq, .list items | .oneOf, .list items => .member .oneOf items
  | .notEq, .list items | .noneOf, .list items => .member .noneOf items
  | .oneOf, operand | .noneOf, operand => .member comparator [operand]
  | comparator, operand =>
    if comparator = .eq && operand.isNull then .null
    else if comparator = .notEq && operand.isNull then .notNull
    else .compare comparator operand

/-- The comparison that a column and its operand stand for. -/
def Expr.relation : Expr → Relation
  | .list items => .member .oneOf items
  | operand =>
    match nullTest? operand with
    | some true => .null
    | some false => .notNull
    | none => .compare .eq operand

/-! ## What is written for comparisons -/

theorem Expr.isPlain_of_isScalar {e : Expr} (h : e.isScalar = true) : e.isPlain = true := by
  cases e <;> first | exact h | cases h

theorem Expr.shows_closed {e : Expr} (h : e.isPlain = true) (place : Place) (scope : Scope) :
    Shows .closed (e.fragment place scope) := by
  have hshows := e.shows_fragment place scope
  cases e with
  | wrapper w => cases h
  | condition entries => cases h
  | _ => exact hshows

theorem avoids_dividers {f : Fragment} (h : Shows .closed f) : Avoids dividers f :=
  h.avoids_relations.mono (by decide +kernel)

namespace Relation

/-- Whether all operands are scalars or lists of scalars. -/
def isPlain : Relation → Bool
  | .null | .notNull | .member .. => true
  | .compare _ operand => operand.isPlain
  | .between low high => low.isPlain && high.isPlain

variable {scope : Scope} {left : Fragment}

theorem phrase_fragment (hl : Phrase scope.dialect left) (relation : Relation) :
    Phrase scope.dialect (relation.fragment scope left) := by
  have hoperand : ∀ e : Expr, Phrase scope.dialect (e.fragment .value scope) :=
    fun e => e.phrase_fragment rfl .value
  cases relation with
  | null => exact phrase_isNullTest hl
  | notNull => exact phrase_isNotNullTest hl
  | compare comparator operand => exact phrase_compareWith comparator hl (hoperand operand)
  | member comparator items =>
      exact phrase_spaced ⟨hl, phrase_words (comparator_mem_words comparator),
        .parens (phrase_commas (phrases_exprFragments rfl .value items)), trivial⟩
  | between low high =>
      exact phrase_spaced ⟨hl, phrase_word (by simp [commonWords]), hoperand low,
        phrase_word (by simp [commonWords]), hoperand high, trivial⟩

/-- Nothing is compared without a left side. -/
theorem halts_fragment (hl : left.halts = true) (relation : Relation) :
    (relation.fragment scope left).halts = true := by
  cases relation <;> simp [fragment, isNullTest, isNotNullTest, compareWith, spaced,
    Fragment.halts_join, hl]

/-- A comparison other than `BETWEEN` has a word of its own and no dividers. -/
theorem avoids_fragment (scope : Scope) (hl : Avoids dividers left) {relation : Relation}
    (h : relation.isPlain = true) (hb : ∀ low high, relation ≠ .between low high) :
    Avoids dividers (relation.fragment scope left)
      ∧ (relation.fragment scope left).surface ≠ [] := by
  have hword : ∀ w ∈ ["IS", "NOT", "NULL"], Avoids dividers (word w) := fun w hw =>
    Fragment.avoids_word ((by decide +kernel : ∀ w ∈ ["IS", "NOT", "NULL"], w ∉ dividers) w hw)
  have hwords : ∀ comparator : Comparator, Avoids dividers (words comparator.words) := by
    intro comparator
    refine Fragment.avoids_words ?_
    cases comparator <;> decide +kernel
  have hne : ∀ comparator : Comparator, comparator.words ≠ [] := by
    intro comparator
    cases comparator <;> simp [Comparator.words]
  cases relation with
  | null => exact ⟨Fragment.avoids_spaced (by simp_all), by simp [fragment, isNullTest]⟩
  | notNull => exact ⟨Fragment.avoids_spaced (by simp_all), by simp [fragment, isNotNullTest]⟩
  | compare comparator operand =>
      have hoperand := avoids_dividers (operand.shows_closed h .value scope)
      refine ⟨Fragment.avoids_spaced (List.forall_mem_cons.2 ⟨hl, ?_⟩),
        by simp [fragment, compareWith, hne]⟩
      refine List.forall_mem_cons.2 ⟨hwords comparator, List.forall_mem_singleton.2 ?_⟩
      split
      · exact avoids_wildcarded (by decide +kernel) _ hoperand
      · exact hoperand
  | member comparator items =>
      refine ⟨Fragment.avoids_spaced ?_, by simp [fragment, hne]⟩
      simp [hl, hwords, Fragment.avoids_parens]
  | between low high => exact absurd rfl (hb low high)

end Relation

namespace Test

variable {scope : Scope} {test : Test}

theorem phrase_fragment : Phrase scope.dialect (test.fragment scope) :=
  Relation.phrase_fragment (phrase_column rfl test.column) test.relation

theorem spelled {ts : List Lexeme} {ps : List Piece}
    (h : Writes scope.dialect (test.fragment scope) ts)
    (hps : Outlines scope.dialect ts ps) : test.Spelled scope ps := by
  obtain ⟨b, b', hrun⟩ := h
  exact ⟨b, _, b', Fragment.sql_ok.2 ⟨ts, hrun, rfl⟩,
    hps.pieces_eq (phrase_fragment.tidy hrun)⟩

end Test

theorem Fragment.Writes.exists_outlines {dialect : Dialect} {f : Fragment} {ts : List Lexeme}
    (h : Writes dialect f ts) (hf : Phrase dialect f) :
    ∃ ps, Outlines dialect ts ps ∧ f.Reads ps ∧ f.halts = false := by
  obtain ⟨b, b', hrun⟩ := h
  have hhalts := Fragment.halts_eq_false_of_run hrun
  obtain ⟨ps, hps, hreads⟩ := Fragment.exists_outlines (hf.paired hhalts) hrun
  exact ⟨ps, hps, hreads, hhalts⟩

theorem Fragment.Avoids.undivided {f : Fragment} (h : Avoids dividers f) {ps : List Piece}
    (hreads : f.Reads ps) (hf : f.halts = false) : Undivided ps := by
  intro w hw
  rw [hreads.words_eq] at hw
  exact h hf w hw

section Leaves

variable {scope : Scope}

/-- A part of a comparison that shows no divider. -/
theorem exists_undivided {f : Fragment} {ts : List Lexeme} (h : Writes scope.dialect f ts)
    (hf : Phrase scope.dialect f) (hclosed : Shows .closed f) :
    ∃ ps, Outlines scope.dialect ts ps ∧ Undivided ps := by
  obtain ⟨ps, hps, hreads, hhalts⟩ := h.exists_outlines hf
  exact ⟨ps, hps, (avoids_dividers hclosed).undivided hreads hhalts⟩

theorem exists_operand_between {left low high : Fragment} {ts : List Lexeme}
    (h : Writes scope.dialect (spaced [left, "BETWEEN", low, "AND", high]) ts)
    (hl : ∀ us, Writes scope.dialect left us → ∃ ps, Outlines scope.dialect us ps ∧ Undivided ps)
    (hlow : ∀ us, Writes scope.dialect low us → ∃ ps, Outlines scope.dialect us ps ∧ Undivided ps)
    (hhigh : ∀ us, Writes scope.dialect high us →
      ∃ ps, Outlines scope.dialect us ps ∧ Undivided ps) :
    ∃ ps, Outlines scope.dialect ts ps ∧ Operand (.test ps) ps := by
  obtain ⟨tss, htss, rfl⟩ := h.join
  obtain _ | ⟨hleft, _ | ⟨hbetween, _ | ⟨hlow', _ | ⟨hand, _ | ⟨hhigh', _ | _⟩⟩⟩⟩⟩ := htss
  obtain ⟨ps₁, hps₁, hu₁⟩ := hl _ hleft
  obtain ⟨ps₂, hps₂, hu₂⟩ := hlow _ hlow'
  obtain ⟨ps₃, hps₃, hu₃⟩ := hhigh _ hhigh'
  obtain rfl := hbetween.token
  obtain rfl := hand.token
  have hword : ∀ w, standsAlone w = true →
      Outlines scope.dialect [.word w] [.token (.bare w)] := fun w hw => Lexeme.outlines_pieces hw
  have hall := Outlines.space.intercalate (.cons hps₁ (.cons (hword "BETWEEN" (by simp))
    (.cons hps₂ (.cons (hword "AND" (by simp)) (.cons hps₃ .nil)))))
  have hflat : ([] : List Piece).intercalate
      [ps₁, [.token (.bare "BETWEEN")], ps₂, [.token (.bare "AND")], ps₃]
        = ps₁ ++ [.token (.bare "BETWEEN")] ++ ps₂ ++ [.token (.bare "AND")] ++ ps₃ := by
    simp [List.intercalate]
  rw [hflat] at hall
  exact ⟨_, hall, .test (solid_between hu₁ hu₂ hu₃) (by simp [wordsOf, Piece.word?])⟩

/-- **A plain comparison is written as one operand.** -/
theorem Test.exists_operand {test : Test} (h : test.relation.isPlain = true) {ts : List Lexeme}
    (hw : Writes scope.dialect (test.fragment scope) ts) :
    ∃ ps, Outlines scope.dialect ts ps ∧ Operand (.test ps) ps ∧ test.Spelled scope ps := by
  have hcolumn := shows_column scope test.column
  suffices hops : ∃ ps, Outlines scope.dialect ts ps ∧ Operand (.test ps) ps by
    obtain ⟨ps, hps, hoperand⟩ := hops
    exact ⟨ps, hps, hoperand, spelled hw hps⟩
  by_cases hbetween : ∃ low high, test.relation = .between low high
  · obtain ⟨low, high, hrelation⟩ := hbetween
    rw [hrelation, Relation.isPlain, Bool.and_eq_true] at h
    rw [Test.fragment, hrelation] at hw
    have hoperand : ∀ e : Expr, e.isPlain = true → ∀ us,
        Writes scope.dialect (e.fragment .value scope) us →
          ∃ ps, Outlines scope.dialect us ps ∧ Undivided ps := fun e he us hus =>
      exists_undivided hus (e.phrase_fragment rfl .value) (e.shows_closed he .value scope)
    exact exists_operand_between hw
      (fun us hus => exists_undivided hus (phrase_column rfl test.column) hcolumn)
      (hoperand low h.1) (hoperand high h.2)
  · obtain ⟨havoids, hsurface⟩ := Relation.avoids_fragment scope
      (avoids_dividers hcolumn) h fun low high hrelation => hbetween ⟨low, high, hrelation⟩
    obtain ⟨ps, hps, hreads, hhalts⟩ := hw.exists_outlines Test.phrase_fragment
    refine ⟨ps, hps, .test (havoids.undivided hreads hhalts).solid ?_⟩
    rw [hreads.words_eq]
    exact hsurface

end Leaves

end QueryTree
