import QueryTree.Proofs.Binding.Written
import QueryTree.Proofs.Nesting.Face
import QueryTree.Proofs.Statement.Independence
import QueryTree.Tree.Reading.Statement

/-!
# Balanced texts

A scanner passes over the tokens of a text and keeps the delimiters that are open on a stack. It
gets to the end of everything that is compiled, with nothing left open.

* `Atom.scan`, `openAfter`: the delimiters that are open after a token, and after all of them.
* `depth`: how many of one kind are open, as a number; `depth_eq_count` says that it is the number
  of those on the stack.
* `openAfter_of_outlineFrom`: what has an outline is closed.
* `Part.balanced_of_text`: all parts of statements are balanced.
* `delimitersInNames`: a query whose names hold delimiters.
-/

namespace QueryTree

/-- The delimiters that are open after a token, innermost first. There is no such list if the token
closes what was not opened last. -/
def Atom.scan (around : List Delimiters) (a : Atom) : Option (List Delimiters) :=
  match a.opens?, a.closes? with
  | some delimiters, _ => some (delimiters :: around)
  | none, some delimiters => if around.head? = some delimiters then some around.tail else none
  | none, none => some around

/-- The delimiters that are open after some tokens. -/
def openAfter (around : List Delimiters) (tokens : List Atom) : Option (List Delimiters) :=
  tokens.foldlM Atom.scan around

/-- How many delimiters of a kind are opened by some tokens and not closed by them. -/
def depth (delimiters : Delimiters) (tokens : List Atom) : Int :=
  tokens.count delimiters.opener - tokens.count delimiters.closer

/-! ## Single tokens -/

namespace Atom

theorem opens?_eq_some {a : Atom} {delimiters : Delimiters} :
    a.opens? = some delimiters ↔ a = delimiters.opener := by
  constructor
  · intro h
    unfold opens? at h
    split at h <;> cases h <;> rfl
  · rintro rfl
    cases delimiters <;> rfl

theorem closes?_eq_some {a : Atom} {delimiters : Delimiters} :
    a.closes? = some delimiters ↔ a = delimiters.closer := by
  constructor
  · intro h
    unfold closes? at h
    split at h <;> cases h <;> rfl
  · rintro rfl
    cases delimiters <;> rfl

/-- A token opens delimiters, closes the last ones that were opened, or does neither. -/
theorem scan_eq_some {around opened : List Delimiters} {a : Atom}
    (h : a.scan around = some opened) :
    (∃ delimiters, a = delimiters.opener ∧ opened = delimiters :: around)
      ∨ (∃ delimiters, a = delimiters.closer ∧ around = delimiters :: opened)
      ∨ (a.isInner = true ∧ opened = around) := by
  unfold scan at h
  split at h
  · next delimiters hopens =>
      cases h
      exact .inl ⟨delimiters, opens?_eq_some.1 hopens, rfl⟩
  · next delimiters hopens hcloses =>
      by_cases hlast : around.head? = some delimiters
      · rw [if_pos hlast] at h
        cases h
        exact .inr (.inl ⟨delimiters, closes?_eq_some.1 hcloses, List.eq_cons_of_mem_head? hlast⟩)
      · rw [if_neg hlast] at h
        cases h
  · next hopens hcloses =>
      cases h
      exact .inr (.inr ⟨by simp [isInner, hopens, hcloses], rfl⟩)

end Atom

/-! ## Depths -/

theorem depth_cons (delimiters : Delimiters) (a : Atom) (rest : List Atom) :
    depth delimiters (a :: rest) = depth delimiters [a] + depth delimiters rest := by
  have hcount (token : Atom) : (a :: rest).count token = [a].count token + rest.count token := by
    rw [← List.singleton_append, List.count_append]
  simp only [depth, hcount]
  omega

theorem depth_inner (delimiters : Delimiters) {a : Atom} (h : a.isInner = true) :
    depth delimiters [a] = 0 := by
  have hopener : a ≠ delimiters.opener := by
    rintro rfl
    cases delimiters <;> cases h
  have hcloser : a ≠ delimiters.closer := by
    rintro rfl
    cases delimiters <;> cases h
  simp [depth, hopener, hcloser]

/-- A token changes the depth as it changes the stack. -/
theorem depth_of_scan {a : Atom} {around opened : List Delimiters}
    (h : a.scan around = some opened) (delimiters : Delimiters) :
    depth delimiters [a] = opened.count delimiters - around.count delimiters := by
  rcases Atom.scan_eq_some h with ⟨last, rfl, rfl⟩ | ⟨last, rfl, rfl⟩ | ⟨hinner, rfl⟩
  · have hone : depth delimiters [last.opener] = List.count delimiters [last] := by
      cases delimiters <;> cases last <;> rfl
    simp only [hone, List.count_cons, List.count_nil]
    omega
  · have hone : depth delimiters [last.closer] = -List.count delimiters [last] := by
      cases delimiters <;> cases last <;> rfl
    simp only [hone, List.count_cons, List.count_nil]
    omega
  · rw [depth_inner delimiters hinner]
    omega

theorem openAfter_cons (around : List Delimiters) (a : Atom) (rest : List Atom) :
    openAfter around (a :: rest) = (a.scan around).bind fun opened => openAfter opened rest :=
  List.foldlM_cons

/-- The depth is the number of delimiters on the stack of the scanner. -/
theorem depth_eq_count {tokens : List Atom} {around opened : List Delimiters}
    (h : openAfter around tokens = some opened) (delimiters : Delimiters) :
    depth delimiters tokens = opened.count delimiters - around.count delimiters := by
  induction tokens generalizing around with
  | nil =>
      cases h
      simp [depth]
  | cons a rest ih =>
      rw [openAfter_cons] at h
      obtain ⟨middle, hscan, hrest⟩ := Option.bind_eq_some_iff.1 h
      rw [depth_cons, depth_of_scan hscan, ih hrest]
      omega

/-- What is closed in the end is at no place closed too often. -/
theorem depth_of_closed {tokens : List Atom} (h : openAfter [] tokens = some [])
    (delimiters : Delimiters) :
    depth delimiters tokens = 0 ∧ ∀ n, 0 ≤ depth delimiters (tokens.take n) := by
  refine ⟨by simpa using depth_eq_count h delimiters, fun n => ?_⟩
  rw [← List.take_append_drop n tokens, openAfter, List.foldlM_append] at h
  obtain ⟨opened, hopened, -⟩ := Option.bind_eq_some_iff.1 h
  have hdepth := depth_eq_count hopened delimiters
  rw [List.count_nil] at hdepth
  omega

/-! ## Outlines -/

/-- Tokens that have an outline are closed. -/
theorem openAfter_of_outlineFrom {tokens : List Atom}
    {around : List (Delimiters × List Piece)} {seen ps : List Piece}
    (h : outlineFrom around seen tokens = some ps) :
    openAfter (around.map Prod.fst) tokens = some [] := by
  induction tokens generalizing around seen with
  | nil =>
      cases around with
      | nil => rfl
      | cons last outer => cases h
  | cons a rest ih =>
      rw [outlineFrom.eq_def] at h
      rw [openAfter_cons, Atom.scan.eq_def]
      cases hopens : a.opens? with
      | some delimiters =>
          simp only [hopens] at h ⊢
          exact ih h
      | none =>
          cases hcloses : a.closes? with
          | none =>
              simp only [hopens, hcloses] at h ⊢
              exact ih h
          | some delimiters =>
              cases around with
              | nil => simp [hopens, hcloses] at h
              | cons last outer =>
                  simp only [hopens, hcloses] at h ⊢
                  by_cases hlast : last.1 = delimiters
                  · rw [if_pos hlast] at h
                    rw [if_pos (by simp [hlast])]
                    exact ih h
                  · rw [if_neg hlast] at h
                    cases h

/-! ## Parts of statements -/

namespace Part

/-- **All that is compiled is balanced.** The text of an expression, a condition, a wrapper, a join
or a statement is read to its end: no quoted name and no literal is left open. Parentheses and case
expressions are closed in the opposite order to that in which they are opened. At no place more of
them are closed than were opened, and in the end all of them are closed. -/
theorem balanced_of_text (part : Part) (scope : Scope) {b b' : Bindings} {text : String}
    (h : (part.fragment scope).sql scope.dialect b = (.ok text, b')) :
    ∃ atoms tokens, atoms? scope.dialect text = some atoms
      ∧ Atom.textOf scope.dialect atoms = text
      ∧ tokens = atoms.filterMap Atom.token?
      ∧ openAfter [] tokens = some []
      ∧ ∀ delimiters, depth delimiters tokens = 0
        ∧ ∀ n, 0 ≤ depth delimiters (tokens.take n) := by
  obtain ⟨ts, hrun, rfl⟩ := Fragment.sql_ok.1 h
  have hphrase := phrase_fragment scope part
  have htidy : Tidy scope.dialect ts := hphrase.tidy hrun
  have hatoms := atoms?_render htidy
  obtain ⟨ps, hps, -, -⟩ := hphrase.exists_pieces hrun
  have houtline : outline? ((atomsOf scope.dialect ts).filterMap Atom.token?) = some ps := by
    simpa [pieces?, tokens?, hatoms] using hps
  have hclosed := openAfter_of_outlineFrom houtline
  exact ⟨_, _, hatoms, textOf_atomsOf htidy, rfl, hclosed, depth_of_closed hclosed⟩

/-- A case expression over a table whose name opens a parenthesis, if a table named `CASE` has
rows. -/
def delimitersInNames : Json :=
  .obj [("table", .str "a\" ("),
    ("select", .arr [.obj [("case", .obj [("check", .arr [.obj [("when", .obj [("x", .null)]),
      ("then", .str "END")]])])]]),
    ("where", .obj [("exists", .obj [("table", .str "CASE")])])]

/-- What is written for it. -/
def delimitersInNamesText : String :=
  "SELECT CASE WHEN \"x\" IS NULL THEN $1 END FROM \"a\"\" (\""
    ++ " WHERE EXISTS (SELECT * FROM \"CASE\")"

/-- Delimiters in names and values do not count. -/
theorem balanced_of_text_quoted :
    ∃ query b atoms, readSelectStatement delimitersInNames [] = .ok (query, [])
      ∧ ((Part.select query).fragment { dialect := .postgresql }).sql .postgresql .empty
        = (.ok delimitersInNamesText, b)
      ∧ atoms? .postgresql delimitersInNamesText = some atoms
      ∧ openAfter [] (atoms.filterMap Atom.token?) = some []
      ∧ ∀ delimiters, depth delimiters (atoms.filterMap Atom.token?) = 0
        ∧ ∀ n, 0 ≤ depth delimiters ((atoms.filterMap Atom.token?).take n) := by
  obtain ⟨query, b, hread, hsql⟩ :
      ∃ query b, readSelectStatement delimitersInNames [] = .ok (query, [])
        ∧ ((Part.select query).fragment { dialect := .postgresql }).sql .postgresql .empty
          = (.ok delimitersInNamesText, b) := ⟨_, _, rfl, rfl⟩
  obtain ⟨atoms, tokens, hatoms, -, rfl, hclosed, hdepth⟩ :=
    balanced_of_text (.select query) { dialect := .postgresql } hsql
  exact ⟨query, b, atoms, hread, hsql, hatoms, hclosed, hdepth⟩

end Part

end QueryTree
