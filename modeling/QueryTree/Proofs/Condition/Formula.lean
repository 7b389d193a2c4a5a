import Mathlib.Data.List.Forall2
import QueryTree.Proofs.Nesting.Outline
import QueryTree.Sql.Comparison

/-!
# Boolean formulas and how they are read

A condition is a formula of atomic tests. Its text is read with the usual precedence: what is in
parentheses first, then the tests, to which the `AND` of a `BETWEEN` belongs, then `AND`, then `OR`.

* `Formula`, `Formula.value`: formulas, and their value if the truth of each test is given.
* `Junction.formula`: formulas joined by a connective; a single one stands for itself.
* `readFormula`, `formula?`: the formula of an outline or of a text.
* `Operand`: pieces that are read as one operand of any connective around them.
* `readFormula_intercalate`: operands with a connective between them.
-/

namespace QueryTree

/-! ## Formulas -/

/-- A boolean formula of atomic tests. -/
inductive Formula (α : Type) where
  | test (a : α)
  | joined (junction : Junction) (parts : List (Formula α))

/-- What a connective makes of truth values. -/
def Junction.holds : Junction → List Bool → Bool
  | .and, values => values.all id
  | .or, values => values.any id

/-- Formulas joined by a connective. -/
def Junction.formula {α : Type} (junction : Junction) : List (Formula α) → Formula α
  | [φ] => φ
  | parts => .joined junction parts

namespace Formula

variable {α β : Type}

mutual

/-- The tests of a formula, from left to right. -/
def tests : Formula α → List α
  | .test a => [a]
  | .joined _ parts => testsOfAll parts

/-- The tests of formulas. -/
def testsOfAll : List (Formula α) → List α
  | [] => []
  | φ :: rest => φ.tests ++ testsOfAll rest

end

mutual

/-- The value of a formula whose tests are numbered from `n` on. -/
def valueFrom (truth : Nat → Bool) (n : Nat) : Formula α → Bool
  | .test _ => truth n
  | .joined junction parts => junction.holds (valuesFrom truth n parts)

/-- The values of formulas whose tests are numbered from `n` on. -/
def valuesFrom (truth : Nat → Bool) (n : Nat) : List (Formula α) → List Bool
  | [] => []
  | φ :: rest => φ.valueFrom truth n :: valuesFrom truth (n + φ.tests.length) rest

end

/-- The value of a formula, with the truth of each of its tests from left to right. -/
def value (truth : Nat → Bool) (φ : Formula α) : Bool :=
  φ.valueFrom truth 0

mutual

/-- A formula with other tests in the same places. -/
def map (f : α → β) : Formula α → Formula β
  | .test a => .test (f a)
  | .joined junction parts => .joined junction (mapAll f parts)

/-- Formulas with other tests in the same places. -/
def mapAll (f : α → β) : List (Formula α) → List (Formula β)
  | [] => []
  | φ :: rest => φ.map f :: mapAll f rest

end

mutual

theorem tests_map (f : α → β) : ∀ φ : Formula α, (φ.map f).tests = φ.tests.map f
  | .test _ => rfl
  | .joined _ parts => testsOfAll_mapAll f parts

theorem testsOfAll_mapAll (f : α → β) :
    ∀ parts : List (Formula α), testsOfAll (mapAll f parts) = (testsOfAll parts).map f
  | [] => rfl
  | φ :: rest => by
      rw [mapAll, testsOfAll, testsOfAll, tests_map f φ, testsOfAll_mapAll f rest,
        List.map_append]

end

mutual

theorem valueFrom_map (f : α → β) (truth : Nat → Bool) :
    ∀ (φ : Formula α) (n : Nat), (φ.map f).valueFrom truth n = φ.valueFrom truth n
  | .test _, _ => rfl
  | .joined junction parts, n => by
      rw [map, valueFrom, valueFrom, valuesFrom_mapAll f truth parts n]

theorem valuesFrom_mapAll (f : α → β) (truth : Nat → Bool) :
    ∀ (parts : List (Formula α)) (n : Nat),
      valuesFrom truth n (mapAll f parts) = valuesFrom truth n parts
  | [], _ => rfl
  | φ :: rest, n => by
      rw [mapAll, valuesFrom, valuesFrom, valueFrom_map f truth φ n, tests_map, List.length_map,
        valuesFrom_mapAll f truth rest]

end

theorem map_formula (f : α → β) (junction : Junction) (parts : List (Formula α)) :
    (junction.formula parts).map f = junction.formula (mapAll f parts) := by
  match parts with
  | [] => rfl
  | [φ] => rfl
  | φ :: ψ :: rest => rfl

theorem tests_formula (junction : Junction) (parts : List (Formula α)) :
    (junction.formula parts).tests = testsOfAll parts := by
  match parts with
  | [] => rfl
  | [φ] => simp [Junction.formula, testsOfAll]
  | φ :: ψ :: rest => rfl

end Formula

/-! ## Reading outlines -/

/-- A piece, and the formula in it if it is in parentheses. -/
abbrev Scanned := Piece × Option (Formula (List Piece))

/-- Operands that connectives divide: the first one, what it is joined with by `AND`, and what all
this is joined with by `OR`. -/
structure Division where
  operand : List Scanned
  conjuncts : List (List Scanned)
  disjuncts : List (List (List Scanned))

namespace Division

/-- Pieces in front of the first operand. -/
def push (xs : List Scanned) (d : Division) : Division :=
  { d with operand := xs ++ d.operand }

/-- A connective in front of the first operand. -/
def cut : Junction → Division → Division
  | .and, d => ⟨[], d.operand :: d.conjuncts, d.disjuncts⟩
  | .or, d => ⟨[], [], (d.operand :: d.conjuncts) :: d.disjuncts⟩

end Division

/-- The words that matter to a division. -/
inductive Divider where
  | connective (junction : Junction)
  | between

/-- The divider that a word is. -/
def Divider.ofWord? (w : String) : Option Divider :=
  if w = "AND" then some (.connective .and)
  else if w = "OR" then some (.connective .or)
  else if w = "BETWEEN" then some .between
  else none

/-- The words that are dividers. -/
def dividers : List String :=
  ["AND", "OR", "BETWEEN"]

theorem Divider.ofWord?_eq_none {w : String} (h : w ∉ dividers) : Divider.ofWord? w = none := by
  simp only [dividers, List.mem_cons, List.not_mem_nil, or_false, not_or] at h
  simp [ofWord?, h]

/-- Divides pieces at the connectives. While a `BETWEEN` is `pending`, the next `AND` belongs to
it. -/
def divide (pending : Bool) : List Scanned → Division
  | [] => ⟨[], [], []⟩
  | x :: rest =>
    match x.1.word?.bind Divider.ofWord?, pending with
    | some (.connective .or), _ => (divide false rest).cut .or
    | some (.connective .and), false => (divide false rest).cut .and
    | some (.connective .and), true => (divide false rest).push [x]
    | some .between, _ => (divide true rest).push [x]
    | none, pending => (divide pending rest).push [x]

/-- The formula of an operand: that in its parentheses, or a test. Nothing is no operand. -/
def operand? : List Scanned → Option (Formula (List Piece))
  | [] => none
  | [(.enclosed .parens _, inner)] => inner
  | xs => some (.test (xs.map Prod.fst))

/-- The formula of operands that are joined by `AND`. -/
def conjunction? (operands : List (List Scanned)) : Option (Formula (List Piece)) :=
  (operands.mapM operand?).map Junction.and.formula

/-- The formula of divided operands. -/
def Division.formula? (d : Division) : Option (Formula (List Piece)) :=
  (((d.operand :: d.conjuncts) :: d.disjuncts).mapM conjunction?).map Junction.or.formula

mutual

/-- The formula in a piece. -/
def Piece.inner? : Piece → Option (Formula (List Piece))
  | .enclosed .parens body => (divide false (scan body)).formula?
  | _ => none

/-- The pieces with the formulas in them. -/
def scan : List Piece → List Scanned
  | [] => []
  | p :: ps => (p, p.inner?) :: scan ps

end

/-- The formula of an outline. -/
def readFormula (ps : List Piece) : Option (Formula (List Piece)) :=
  (divide false (scan ps)).formula?

/-- The formula of a text. -/
def formula? (dialect : Dialect) (sql : String) : Option (Formula (List Piece)) :=
  (pieces? dialect sql).bind readFormula

/-! ## Operands -/

@[simp] theorem scan_append (ps qs : List Piece) : scan (ps ++ qs) = scan ps ++ scan qs := by
  induction ps with
  | nil => rfl
  | cons p ps ih => simp only [List.cons_append, scan, ih]

theorem map_fst_scan (ps : List Piece) : (scan ps).map Prod.fst = ps := by
  induction ps with
  | nil => rfl
  | cons p ps ih => rw [scan, List.map_cons, ih]

@[simp] theorem Division.push_push (xs ys : List Scanned) (d : Division) :
    (d.push ys).push xs = d.push (xs ++ ys) := by
  simp [push]

/-- No word at depth zero matters to a division. -/
def Undivided (ps : List Piece) : Prop :=
  ∀ w ∈ wordsOf ps, w ∉ dividers

theorem Undivided.head {p : Piece} {ps : List Piece} (h : Undivided (p :: ps)) :
    p.word?.bind Divider.ofWord? = none := by
  cases hw : p.word? with
  | none => rfl
  | some w => exact Divider.ofWord?_eq_none (h w (by simp [wordsOf, hw]))

theorem Undivided.tail {p : Piece} {ps : List Piece} (h : Undivided (p :: ps)) : Undivided ps := by
  intro w hw
  refine h w ?_
  rw [wordsOf, List.mem_filterMap] at hw ⊢
  obtain ⟨q, hq, hqw⟩ := hw
  exact ⟨q, List.mem_cons_of_mem _ hq, hqw⟩

theorem divide_piece {x : Scanned} (h : x.1.word?.bind Divider.ofWord? = none) (pending : Bool)
    (rest : List Scanned) : divide pending (x :: rest) = (divide pending rest).push [x] := by
  simp [divide, h]

/-- The piece of a connective. -/
def Junction.piece (junction : Junction) : Piece :=
  .token (.bare junction.keyword)

theorem divide_connective (junction : Junction) (inner : Option (Formula (List Piece)))
    (rest : List Scanned) :
    divide false ((junction.piece, inner) :: rest) = (divide false rest).cut junction := by
  cases junction <;>
    simp [divide, Junction.piece, Junction.keyword, Piece.word?, Divider.ofWord?]

/-- Without dividers all pieces go to the first operand. -/
theorem Undivided.divide_append {ps : List Piece} (h : Undivided ps) (pending : Bool)
    (rest : List Scanned) :
    divide pending (scan ps ++ rest) = (divide pending rest).push (scan ps) := by
  induction ps with
  | nil => rfl
  | cons p ps ih =>
      rw [scan, List.cons_append, divide_piece h.head, ih h.tail, Division.push_push]
      rfl

/-- Pieces that no connective around them divides. -/
def Solid (ps : List Piece) : Prop :=
  ∀ rest, divide false (scan ps ++ rest) = (divide false rest).push (scan ps)

theorem Undivided.solid {ps : List Piece} (h : Undivided ps) : Solid ps :=
  h.divide_append false

/-- The `AND` of a `BETWEEN` does not divide it. -/
theorem solid_between {left low high : List Piece} (hleft : Undivided left) (hlow : Undivided low)
    (hhigh : Undivided high) :
    Solid (left ++ [.token (.bare "BETWEEN")] ++ low ++ [.token (.bare "AND")] ++ high) := by
  intro rest
  have hand : ∀ xs, divide true ((.token (.bare "AND"), none) :: xs)
      = (divide false xs).push [(.token (.bare "AND"), none)] := fun xs => by
    simp [divide, Piece.word?, Divider.ofWord?]
  have hbetween : ∀ xs, divide false ((.token (.bare "BETWEEN"), none) :: xs)
      = (divide true xs).push [(.token (.bare "BETWEEN"), none)] := fun xs => by
    simp [divide, Piece.word?, Divider.ofWord?]
  simp only [scan_append, scan, Piece.inner?, List.append_assoc, List.cons_append, List.nil_append]
  rw [hleft.divide_append, hbetween, hlow.divide_append, hand, hhigh.divide_append]
  simp

/-- Pieces that are read as one operand, whatever connectives are around them. -/
structure Operand (φ : Formula (List Piece)) (ps : List Piece) : Prop where
  solid : Solid ps
  operand_eq : operand? (scan ps) = some φ

theorem Operand.test {ps : List Piece} (hsolid : Solid ps) (hwords : wordsOf ps ≠ []) :
    Operand (.test ps) ps := by
  refine ⟨hsolid, ?_⟩
  match ps with
  | [] => exact absurd rfl hwords
  | [.enclosed delimiters body] => exact absurd rfl hwords
  | [.token a] => rfl
  | p :: q :: rest =>
      have hfst := map_fst_scan (p :: q :: rest)
      simp only [scan] at hfst ⊢
      rw [operand?, hfst] <;> simp

theorem Operand.parens {φ : Formula (List Piece)} {body : List Piece}
    (h : readFormula body = some φ) : Operand φ [.enclosed .parens body] := by
  have hundivided : Undivided [.enclosed .parens body] := by simp [Undivided, wordsOf, Piece.word?]
  exact ⟨hundivided.solid, h⟩

/-! ## Operands with a connective between them -/

section Intercalate

variable {φs : List (Formula (List Piece))} {pss : List (List Piece)}

theorem intercalate_cons_cons (junction : Junction) (ps qs : List Piece)
    (pss : List (List Piece)) :
    [junction.piece].intercalate (ps :: qs :: pss)
      = ps ++ junction.piece :: [junction.piece].intercalate (qs :: pss) := by
  simp [List.intercalate]

/-- Operands that one connective divides. -/
def Division.linked : Junction → List Scanned → List (List Scanned) → Division
  | .and, operand, others => ⟨operand, others, []⟩
  | .or, operand, others => ⟨operand, [], others.map fun other => [other]⟩

theorem divide_intercalate (junction : Junction) {ps : List Piece}
    (h : ∀ qs ∈ ps :: pss, Solid qs) :
    divide false (scan ([junction.piece].intercalate (ps :: pss)))
      = .linked junction (scan ps) (pss.map scan) := by
  induction pss generalizing ps with
  | nil =>
      have hsolid := h ps (by simp) []
      cases junction <;>
        simpa [List.intercalate, Division.push, Division.linked, divide] using hsolid
  | cons qs pss ih =>
      have hrest := ih fun rs hrs => h rs (List.mem_cons_of_mem _ hrs)
      rw [intercalate_cons_cons, scan_append, h ps (by simp), scan, divide_connective, hrest]
      cases junction <;> simp [Division.push, Division.cut, Division.linked]

theorem solid_of_forall₂ (h : List.Forall₂ Operand φs pss) : ∀ ps ∈ pss, Solid ps := by
  induction h with
  | nil => simp
  | cons hoperand _ ih => simpa using ⟨hoperand.solid, ih⟩

theorem mapM_operand? (h : List.Forall₂ Operand φs pss) :
    (pss.map scan).mapM operand? = some φs := by
  induction h with
  | nil => rfl
  | cons hoperand _ ih => simp [hoperand.operand_eq, ih]

theorem mapM_conjunction? (h : List.Forall₂ Operand φs pss) :
    ((pss.map scan).map fun operand => [operand]).mapM conjunction? = some φs := by
  induction h with
  | nil => rfl
  | @cons φ ps φs pss hoperand _ ih =>
      have hsingle : conjunction? [scan ps] = some φ := by
        simp [conjunction?, hoperand.operand_eq, Junction.formula]
      rw [List.map_cons, List.map_cons, List.mapM_cons, hsingle, ih]
      rfl

/-- **Operands with a connective between them are read as its formula.** -/
theorem readFormula_intercalate (junction : Junction) (h : List.Forall₂ Operand φs pss)
    (hne : pss ≠ []) :
    readFormula ([junction.piece].intercalate pss) = some (junction.formula φs) := by
  cases h with
  | nil => exact absurd rfl hne
  | @cons φ ps φs pss hoperand hrest =>
      have hall : List.Forall₂ Operand (φ :: φs) (ps :: pss) := .cons hoperand hrest
      have hoperands := mapM_operand? hall
      have hconjunctions := mapM_conjunction? hall
      rw [readFormula, divide_intercalate junction (solid_of_forall₂ hall), Division.formula?]
      simp only [List.map_cons] at hoperands hconjunctions
      cases junction with
      | and => simp [Division.linked, conjunction?, hoperands, Junction.formula]
      | or => simp only [Division.linked, hconjunctions, Option.map_some]

end Intercalate

end QueryTree
