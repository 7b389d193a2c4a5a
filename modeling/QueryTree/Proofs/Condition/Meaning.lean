import QueryTree.Proofs.Condition.Comparison
import QueryTree.Proofs.Statement.Independence

/-!
# What conditions mean

A condition of plain comparisons is read as a formula twice: from its tree, where each connective
has its place, and from its text, where only parentheses and precedence are left. Both readings
agree.

* `Entry.isPlain`: conditions of plain comparisons.
* `Entry.reading`, `Condition.reading`: the formula of a tree.
* `Means`: what is written for a part of a condition is read as its formula.
* `Entry.means`: that it is, by recursion over the tree.
* `Condition.formula_of_text`: the text of a condition has the value of its tree.
-/

namespace QueryTree

open Fragment (spaced commas words parens Writes)

/-! ## Conditions -/

mutual

/-- Whether an entry is made of plain comparisons and lists of conditions that are not empty. -/
def Entry.isPlain : Entry → Bool
  | .wrapper _ => false
  | .all conditions => !conditions.isEmpty && plainConditions conditions
  | .any conditions => !conditions.isEmpty && plainConditions conditions
  | .between low high => low.isScalar && high.isScalar
  | .compare _ operand => operand.isPlain
  | .column _ (.condition entries) => plainEntries entries
  | .column _ operand => operand.isPlain

/-- Whether all entries are plain. -/
def plainEntries : List Entry → Bool
  | [] => true
  | entry :: rest => entry.isPlain && plainEntries rest

/-- Whether all conditions are plain. -/
def plainConditions : List (List Entry) → Bool
  | [] => true
  | entries :: rest => plainEntries entries && plainConditions rest

end

/-- The formula of parts that have one. -/
def Junction.formula? {α : Type} (junction : Junction) (parts : List (Option (Formula α))) :
    Option (Formula α) :=
  (parts.mapM id).map junction.formula

mutual

/-- The formula of an entry under a column. Entries are joined by the junction, conditions in a
list by the connective of the list, and comparisons are about the nearest column around them. -/
def Entry.reading (column : Option String) (junction : Junction) : Entry → Option (Formula Test)
  | .wrapper _ => none
  | .all conditions => Junction.and.formula? (conditionReadings column junction conditions)
  | .any conditions => Junction.or.formula? (conditionReadings column junction conditions)
  | .between low high => column.map fun key => .test ⟨key, .between low high⟩
  | .compare comparator operand => column.map fun key => .test ⟨key, comparator.relation operand⟩
  | .column key (.condition entries) =>
    junction.formula? (entryReadings (some key) junction entries)
  | .column key operand => some (.test ⟨key, operand.relation⟩)

/-- The formulas of entries. -/
def entryReadings (column : Option String) (junction : Junction) :
    List Entry → List (Option (Formula Test))
  | [] => []
  | entry :: rest => entry.reading column junction :: entryReadings column junction rest

/-- The formulas of conditions. -/
def conditionReadings (column : Option String) (junction : Junction) :
    List (List Entry) → List (Option (Formula Test))
  | [] => []
  | entries :: rest =>
    junction.formula? (entryReadings column junction entries)
      :: conditionReadings column junction rest

end

/-! ## What is written for conditions -/

/-- A formula of tests with the pieces of each, which spell it. -/
def Formula.Spells (scope : Scope) (marked : Formula (Test × List Piece)) : Prop :=
  ∀ leaf ∈ marked.tests, leaf.1.Spelled scope leaf.2

/-- What the fragment writes is read as one operand, with the same formula as the reading. -/
def Means (scope : Scope) (f : Fragment) (reading : Option (Formula Test)) : Prop :=
  ∀ ts, Writes scope.dialect f ts → ∃ (marked : Formula (Test × List Piece)) (ps : List Piece),
    reading = some (marked.map Prod.fst) ∧ marked.Spells scope
      ∧ Outlines scope.dialect ts ps ∧ Operand (marked.map Prod.snd) ps

section Means

variable {scope : Scope}

theorem Means.of_halts {f : Fragment} (h : f.halts = true) (reading : Option (Formula Test)) :
    Means scope f reading := by
  rintro ts ⟨b, b', hrun⟩
  rw [Fragment.halts_eq_false_of_run hrun] at h
  cases h

theorem Means.test (test : Test) (h : test.relation.isPlain = true) :
    Means scope (test.fragment scope) (some (.test test)) := by
  intro ts hts
  obtain ⟨ps, hps, hoperand, hspelled⟩ := Test.exists_operand h hts
  refine ⟨.test (test, ps), ps, rfl, ?_, hps, hoperand⟩
  simpa [Formula.Spells, Formula.tests] using hspelled

/-- A comparison of the column around it. -/
theorem Means.relation (relation : Relation) (h : relation.isPlain = true)
    (column : Option String) (comparison : String) :
    Means scope
      (relation.fragment scope (leftOperand (column.map (Token.column scope)) comparison))
      (column.map fun key => .test ⟨key, relation⟩) := by
  cases column with
  | none => exact .of_halts (Relation.halts_fragment rfl relation) _
  | some key => exact .test ⟨key, relation⟩ h

theorem isPlain_relation (comparator : Comparator) {operand : Expr} (h : operand.isPlain = true) :
    (comparator.relation operand).isPlain = true := by
  unfold Comparator.relation
  split
  any_goals rfl
  split
  · rfl
  · split
    · rfl
    · exact h

theorem Expr.isPlain_relation {operand : Expr} (h : operand.isPlain = true) :
    operand.relation.isPlain = true := by
  unfold Expr.relation
  split
  · rfl
  · split <;> first | rfl | exact h

theorem writes_inList {field : String} {comparator : Comparator} {left : Fragment}
    {items : List Fragment} {ts : List Lexeme}
    (h : Writes scope.dialect (inList field comparator left items) ts) :
    Writes scope.dialect (spaced [left, words comparator.words, parens (commas items)]) ts := by
  unfold inList at h
  split at h
  · exact absurd h Writes.fail
  · exact h

/-- What is written for a comparator is what is written for its relation. -/
theorem writes_compareEntry {parent : Option Fragment} {junction : Junction}
    {comparator : Comparator} {operand : Expr} (h : operand.isPlain = true) {ts : List Lexeme}
    (hw : Writes scope.dialect
      ((Entry.compare comparator operand).fragment parent junction scope) ts) :
    Writes scope.dialect ((comparator.relation operand).fragment scope
      (leftOperand parent comparator.operator)) ts := by
  -- what is written unless the operand or the comparator is special
  have hplain : (if comparator = .eq && operand.isNull then
        isNullTest (leftOperand parent comparator.operator)
      else if comparator = .notEq && operand.isNull then
        isNotNullTest (leftOperand parent comparator.operator)
      else
        compareWith scope.dialect comparator (leftOperand parent comparator.operator)
          (operand.fragment .value scope))
      = Relation.fragment scope (leftOperand parent comparator.operator)
        (if comparator = .eq && operand.isNull then .null
        else if comparator = .notEq && operand.isNull then .notNull
        else .compare comparator operand) := by
    split
    · rfl
    · split <;> rfl
  cases operand with
  | list items =>
      cases comparator
      case eq | notEq | oneOf | noneOf => exact writes_inList hw
      case hasRows | hasNoRows => exact absurd hw Writes.fail
      all_goals exact hw
  | wrapper w => cases h
  | condition entries => cases h
  | _ =>
      cases comparator
      case oneOf | noneOf => exact writes_inList hw
      case hasRows | hasNoRows => exact absurd hw Writes.fail
      all_goals exact hplain ▸ hw

theorem writes_columnEntry {parent : Option Fragment} {junction : Junction} {key : String}
    {operand : Expr} (h : operand.isPlain = true) {ts : List Lexeme}
    (hw : Writes scope.dialect ((Entry.column key operand).fragment parent junction scope) ts) :
    Writes scope.dialect (Test.fragment scope ⟨key, operand.relation⟩) ts := by
  cases operand with
  | wrapper w => cases h
  | condition entries => cases h
  | list items => exact writes_inList hw
  | _ =>
      simp only [Entry.fragment] at hw
      simp only [Test.fragment, Expr.relation]
      generalize nullTest? _ = test at hw ⊢
      obtain _ | _ | _ := test <;> exact hw

theorem Means.columnEntry (parent : Option Fragment) (junction : Junction) (key : String)
    {operand : Expr} (h : operand.isPlain = true) :
    Means scope ((Entry.column key operand).fragment parent junction scope)
      (some (.test ⟨key, operand.relation⟩)) :=
  fun ts hts => Means.test ⟨key, operand.relation⟩ (Expr.isPlain_relation h) ts
    (writes_columnEntry h hts)

/-- The parts of a condition, each with its formula and its pieces. -/
theorem exists_marked {fs : List Fragment} {readings : List (Option (Formula Test))}
    (h : List.Forall₂ (Means scope) fs readings) {tss : List (List Lexeme)}
    (hw : List.Forall₂ (Writes scope.dialect) fs tss) :
    ∃ (marked : List (Formula (Test × List Piece))) (pss : List (List Piece)),
      readings = (Formula.mapAll Prod.fst marked).map some
        ∧ (∀ part ∈ marked, part.Spells scope)
        ∧ List.Forall₂ (Outlines scope.dialect) tss pss
        ∧ List.Forall₂ Operand (Formula.mapAll Prod.snd marked) pss := by
  induction h generalizing tss with
  | nil =>
      cases hw
      exact ⟨[], [], rfl, by simp, .nil, .nil⟩
  | cons hmeans _ ih =>
      cases hw with
      | cons hfirst hrest =>
          obtain ⟨part, ps, rfl, hspells, hps, hoperand⟩ := hmeans _ hfirst
          obtain ⟨marked, pss, rfl, hall, hpss, hoperands⟩ := ih hrest
          exact ⟨part :: marked, ps :: pss, rfl, by simpa using ⟨hspells, hall⟩,
            .cons hps hpss, .cons hoperand hoperands⟩

theorem Junction.formula?_map_some {α : Type} (junction : Junction) (parts : List (Formula α)) :
    junction.formula? (parts.map some) = some (junction.formula parts) := by
  have hparts : (parts.map some).mapM id = some parts := by
    induction parts with
    | nil => rfl
    | cons φ parts ih => simp_all
  rw [Junction.formula?, hparts, Option.map_some]

theorem spells_formula {junction : Junction} {parts : List (Formula (Test × List Piece))}
    (h : ∀ part ∈ parts, part.Spells scope) : (junction.formula parts).Spells scope := by
  unfold Formula.Spells
  rw [Formula.tests_formula]
  induction parts with
  | nil => simp [Formula.testsOfAll]
  | cons part parts ih =>
      intro leaf hleaf
      rw [Formula.testsOfAll, List.mem_append] at hleaf
      obtain hleaf | hleaf := hleaf
      · exact h part (by simp) leaf hleaf
      · exact ih (fun part hpart => h part (by simp [hpart])) leaf hleaf

theorem outlines_connective (junction : Junction) :
    Outlines scope.dialect [.space, .word junction.keyword, .space] [junction.piece] := by
  have hword : Outlines scope.dialect [.word junction.keyword] [junction.piece] :=
    Lexeme.outlines_pieces (by cases junction <;> simp [Lexeme.isInner, Junction.keyword])
  exact (Outlines.space.append hword).append .space

/-- **Parts joined by a connective are read as their formula.** -/
theorem exists_marked_chain {junction : Junction} {fs : List Fragment}
    {readings : List (Option (Formula Test))} (h : List.Forall₂ (Means scope) fs readings)
    (hne : fs ≠ []) {ts : List Lexeme} (hw : Writes scope.dialect (junction.chain fs) ts) :
    ∃ (marked : Formula (Test × List Piece)) (ps : List Piece),
      junction.formula? readings = some (marked.map Prod.fst) ∧ marked.Spells scope
        ∧ Outlines scope.dialect ts ps ∧ readFormula ps = some (marked.map Prod.snd) := by
  obtain ⟨tss, htss, rfl⟩ := hw.join
  obtain ⟨parts, pss, rfl, hspells, hpss, hoperands⟩ := exists_marked h htss
  refine ⟨junction.formula parts, [junction.piece].intercalate pss, ?_, spells_formula hspells,
    (outlines_connective junction).intercalate hpss, ?_⟩
  · rw [Junction.formula?_map_some, Formula.map_formula]
  · rw [Formula.map_formula]
    refine readFormula_intercalate junction hoperands ?_
    rintro rfl
    cases hpss
    cases htss
    exact hne rfl

/-- Several parts in parentheses, or a single one, are one operand. -/
theorem Means.nest {junction : Junction} {fs : List Fragment}
    {readings : List (Option (Formula Test))} (h : List.Forall₂ (Means scope) fs readings)
    (hne : fs ≠ []) : Means scope (junction.nest fs) (junction.formula? readings) := by
  intro ts hts
  match fs, h with
  | [f], .cons hf .nil =>
      obtain ⟨marked, ps, rfl, hspells, hps, hoperand⟩ := hf ts hts
      exact ⟨marked, ps, Junction.formula?_map_some junction [marked.map Prod.fst], hspells, hps,
        hoperand⟩
  | f :: g :: rest, h =>
      obtain ⟨us, hus, rfl⟩ := hts.enclosed
      obtain ⟨marked, ps, hreading, hspells, hps, hread⟩ := exists_marked_chain h hne hus
      exact ⟨marked, _, hreading, hspells, hps.enclosed .parens, .parens hread⟩

theorem Means.group {junction : Junction} {fs : List Fragment}
    {readings : List (Option (Formula Test))} (h : List.Forall₂ (Means scope) fs readings) :
    Means scope (junction.group fs) (junction.formula? readings) := by
  unfold Junction.group
  split
  · exact .of_halts rfl _
  · next hne => exact .nest h (by simpa using hne)

mutual

theorem Entry.means (column : Option String) (junction : Junction) :
    ∀ entry : Entry, entry.isPlain = true →
      Means scope (entry.fragment (column.map (Token.column scope)) junction scope)
        (entry.reading column junction)
  | .wrapper _, h => by cases h
  | .all [], h => by cases h
  | .all (entries :: rest), h =>
      .nest (forall₂_means_conditions column junction (entries :: rest) h)
        (by simp [groupFragments])
  | .any [], h => by cases h
  | .any (entries :: rest), h =>
      .nest (forall₂_means_conditions column junction (entries :: rest) h)
        (by simp [groupFragments])
  | .between low high, h => by
      rw [Entry.isPlain, Bool.and_eq_true] at h
      refine Means.relation (.between low high) ?_ column "between"
      simp [Relation.isPlain, Expr.isPlain_of_isScalar, h]
  | .compare comparator operand, h => fun ts hts =>
      Means.relation _ (isPlain_relation comparator h) column comparator.operator ts
        (writes_compareEntry h hts)
  | .column key (.condition entries), h =>
      .group (forall₂_means_entries (some key) junction entries h)
  | .column key .null, h | .column key (.bool _), h | .column key (.number _), h
  | .column key (.text _), h | .column key (.list _), h => .columnEntry _ junction key h
  | .column _ (.wrapper _), h => by cases h

theorem forall₂_means_entries (column : Option String) (junction : Junction) :
    ∀ entries : List Entry, plainEntries entries = true →
      List.Forall₂ (Means scope)
        (entryFragments (column.map (Token.column scope)) junction scope entries)
        (entryReadings column junction entries)
  | [], _ => .nil
  | entry :: rest, h => by
      rw [plainEntries, Bool.and_eq_true] at h
      exact .cons (entry.means column junction h.1) (forall₂_means_entries column junction rest h.2)

theorem forall₂_means_conditions (column : Option String) (junction : Junction) :
    ∀ conditions : List (List Entry), plainConditions conditions = true →
      List.Forall₂ (Means scope)
        (groupFragments (column.map (Token.column scope)) junction scope conditions)
        (conditionReadings column junction conditions)
  | [], _ => .nil
  | entries :: rest, h => by
      rw [plainConditions, Bool.and_eq_true] at h
      exact .cons (.group (forall₂_means_entries column junction entries h.1))
        (forall₂_means_conditions column junction rest h.2)

end

end Means

/-! ## Whole conditions -/

/-- The formula of a condition under a column. -/
def Condition.reading (column : Option String) (junction : Junction) (entries : Condition) :
    Option (Formula Test) :=
  junction.formula? (entryReadings column junction entries)

/-- The subject of a condition under a column. -/
def Subject.ofColumn : Option String → Subject
  | some key => .column key
  | Option.none => .none

end QueryTree
