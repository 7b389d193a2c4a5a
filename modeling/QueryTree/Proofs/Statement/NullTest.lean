import QueryTree.Proofs.Statement.Composition

/-!
# Comparisons with null

Comparing a column with null for equality is a test of null in a condition, at any depth. In the
pairs of a join it is not: there it stays an equality, which holds of no row.

* `NullTest`, `Segment.nullTest?`: the comparisons with null, and how they are written.
* `NullTest.WrittenAt`, `Shown`: where they stand in a text.
* `Config.null_tests_of_statement`: where the comparisons with null of a statement stand.
-/

namespace QueryTree

open Fragment (tokens word spaced Holds)

/-! ## Comparisons with null -/

/-- How a comparison with null is written. -/
inductive NullForm where
  | isNull
  | isNotNull
  /-- An equality, which never holds. -/
  | equalsNull
deriving DecidableEq, Repr

/-- The words after the left side. -/
def NullForm.words : NullForm → List String
  | .isNull => ["IS", "NULL"]
  | .isNotNull => ["IS", "NOT", "NULL"]
  | .equalsNull => ["=", "NULL"]

/-- What is written after the left side: its words, each after a space. -/
def NullForm.lexemes (form : NullForm) : List Lexeme :=
  form.words.flatMap fun w => [.space, .word w]

/-- A comparison with null: what is compared, and how that is written. -/
structure NullTest where
  left : Fragment
  form : NullForm
deriving DecidableEq, Repr

/-- The comparison with null that a segment is, if it is one: by `eq` or `notEq`, of a column with
what it is compared with, or in a pair of a join. -/
def Segment.nullTest? : Segment → Option NullTest
  | .entry subject _ scope (.compare .eq operand) =>
    if operand.isNull then
      some ⟨leftOperand (subject.fragment? scope) Comparator.eq.operator, .isNull⟩
    else none
  | .entry subject _ scope (.compare .notEq operand) =>
    if operand.isNull then
      some ⟨leftOperand (subject.fragment? scope) Comparator.notEq.operator, .isNotNull⟩
    else none
  | .entry _ _ scope (.column key operand) =>
    if operand.isNull then some ⟨Token.column scope key, .isNull⟩ else none
  | .pair outer _ column operand =>
    if operand.isNull then some ⟨Token.column outer column, .equalsNull⟩ else none
  | _ => none

/-- The comparison stands in the text: at the position there are the words of its form, fixed in
the text and bound to nothing, and before them the text of the left side. -/
def NullTest.WrittenAt (dialect : Dialect) (marks : List Mark) (test : NullTest)
    (position : Nat) : Prop :=
  ∃ before left after, marks = before ++ left ++ fixed test.form.lexemes ++ after
    ∧ position = (before ++ left).length
    ∧ ∃ n mode stored mode', Traces dialect test.left n mode left stored mode'

/-- The comparisons stand in the text, one after the other. -/
def Shown (dialect : Dialect) (tests : List NullTest) (marks : List Mark) : Prop :=
  ∃ positions : List Nat, positions.Pairwise (· < ·)
    ∧ List.Forall₂ (NullTest.WrittenAt dialect marks) tests positions

variable {dialect : Dialect}

namespace NullTest

variable {test : NullTest} {marks : List Mark} {position : Nat}

theorem length_lexemes_pos (form : NullForm) : 0 < form.lexemes.length := by
  cases form <;> decide

theorem WrittenAt.lt_length (h : test.WrittenAt dialect marks position) :
    position < marks.length := by
  obtain ⟨before, left, after, rfl, rfl, -⟩ := h
  have hpos := length_lexemes_pos test.form
  simp only [List.length_append, fixed, List.length_map]
  omega

theorem WrittenAt.before (h : test.WrittenAt dialect marks position) (rest : List Mark) :
    test.WrittenAt dialect (marks ++ rest) position := by
  obtain ⟨before, left, after, rfl, hposition, htraces⟩ := h
  exact ⟨before, left, after ++ rest, by simp, hposition, htraces⟩

theorem WrittenAt.after (h : test.WrittenAt dialect marks position) (earlier : List Mark) :
    test.WrittenAt dialect (earlier ++ marks) (earlier.length + position) := by
  obtain ⟨before, left, after, rfl, rfl, htraces⟩ := h
  exact ⟨earlier ++ before, left, after, by simp, by simp, htraces⟩

end NullTest

theorem lt_length_of_written {tests : List NullTest} {marks : List Mark} {positions : List Nat}
    (h : List.Forall₂ (NullTest.WrittenAt dialect marks) tests positions) :
    ∀ position ∈ positions, position < marks.length := by
  induction h with
  | nil => simp
  | cons htest _ ih => exact List.forall_mem_cons.2 ⟨htest.lt_length, ih⟩

theorem gathers_shown : Gathers (Shown dialect) where
  nil _ := ⟨[], .nil, .nil⟩
  append {tests tests' marks marks'} h h' := by
    obtain ⟨positions, hsorted, hwritten⟩ := h
    obtain ⟨positions', hsorted', hwritten'⟩ := h'
    refine ⟨positions ++ positions'.map (marks.length + ·), ?_, ?_⟩
    · have hmoved : (positions'.map (marks.length + ·)).Pairwise (· < ·) :=
        hsorted'.map _ fun _ _ h => Nat.add_lt_add_left h _
      refine List.pairwise_append.2 ⟨hsorted, hmoved, ?_⟩
      -- what stands in the first text stands before all of the second
      intro position hposition later hlater
      obtain ⟨position', -, rfl⟩ := List.mem_map.1 hlater
      exact Nat.lt_add_right _ (lt_length_of_written hwritten position hposition)
    · refine List.rel_append (hwritten.imp fun _ _ h => h.before marks') ?_
      exact List.forall₂_map_right_iff.2 (hwritten'.imp fun _ _ h => h.after marks)

/-! ## What is written for them -/

/-- Words after a fragment are written as they are. -/
theorem Traces.words_inv {left : Fragment} {ws : List String} {n : Nat}
    {mode mode' : Option Cipher.Mode} {marks : List Mark} {stored : List Call}
    (h : Traces dialect (spaced (left :: ws.map word)) n mode marks stored mode') :
    ∃ ms, Traces dialect left n mode ms stored mode'
      ∧ marks = ms ++ fixed (ws.flatMap fun w => [.space, .word w]) := by
  induction ws generalizing left n mode marks stored with
  | nil => exact ⟨marks, h, by simp [fixed]⟩
  | cons w ws ih =>
      cases h with
      | append hfirst hrest =>
          obtain ⟨ms, hword, rfl⟩ := ih hrest
          cases hword
          cases hfirst with
          | append hleft hspace =>
              cases hspace with
              | append hspace hempty =>
                  cases hspace
                  cases hempty
                  exact ⟨_, by simpa using hleft, by simp [fixed]⟩

/-- A comparison with null stands after what its left side writes. -/
theorem yields_words {left : Fragment} {form : NullForm} {tests : List NullTest}
    (h : left.Yields dialect (Shown dialect tests)) :
    (spaced (left :: form.words.map word)).Yields dialect
      (Shown dialect (tests ++ [⟨left, form⟩])) := by
  intro n mode mode' marks stored htraces
  obtain ⟨ms, hleft, rfl⟩ := htraces.words_inv
  obtain ⟨positions, hsorted, hwritten⟩ := h hleft
  refine ⟨positions ++ [ms.length], ?_, ?_⟩
  · refine List.pairwise_append.2 ⟨hsorted, List.pairwise_singleton _ _, ?_⟩
    simpa using lt_length_of_written hwritten
  · refine List.rel_append (hwritten.imp fun _ _ h => h.before _) (.cons ?_ .nil)
    exact ⟨[], ms, [], by simp [NullForm.lexemes], by simp, n, mode, stored, mode', hleft⟩

theorem isNull_cases {operand : Expr} (h : operand.isNull = true) :
    operand = .null ∨ operand = .text "null" ∨ operand = .text "NULL" := by
  cases operand with
  | null => exact .inl rfl
  | text token =>
      obtain h | h := Bool.or_eq_true_iff.1 h
      · exact .inr (.inl (congrArg _ (eq_of_beq h)))
      · exact .inr (.inr (congrArg _ (eq_of_beq h)))
  | _ => cases h

/-- A segment that is a comparison with null writes its left side, which holds its children, and the
words of the comparison. -/
theorem Segment.body_of_nullTest {s : Segment} {test : NullTest} (h : s.nullTest? = some test) :
    s.body = spaced (test.left :: test.form.words.map word)
      ∧ test.left.Holds (fragments s.children) := by
  unfold nullTest? at h
  split at h
  · next subject junction scope operand =>
      obtain ⟨hnull, ⟨⟩⟩ := Option.ite_none_right_eq_some.1 h
      obtain rfl | rfl | rfl := isNull_cases hnull <;> exact ⟨rfl, holds_left scope subject _⟩
  · next subject junction scope operand =>
      obtain ⟨hnull, ⟨⟩⟩ := Option.ite_none_right_eq_some.1 h
      obtain rfl | rfl | rfl := isNull_cases hnull <;> exact ⟨rfl, holds_left scope subject _⟩
  · next subject junction scope key operand =>
      obtain ⟨hnull, ⟨⟩⟩ := Option.ite_none_right_eq_some.1 h
      obtain rfl | rfl | rfl := isNull_cases hnull <;> exact ⟨rfl, .none _⟩
  · next outer inner column operand =>
      obtain ⟨hnull, ⟨⟩⟩ := Option.ite_none_right_eq_some.1 h
      obtain rfl | rfl | rfl := isNull_cases hnull <;> exact ⟨rfl, .none _⟩
  · cases h

namespace Config

/-- **How comparisons with null are written.** The comparisons with null of a compiled statement, at
any depth, stand in its text one after the other, each after the text of its left side: as `IS NULL`
or `IS NOT NULL` in conditions, as `= NULL` in the pairs of a join. The words are fixed, no value is
bound for the operand. -/
theorem null_tests_of_statement {config : Config} {kind : StatementKind} {json : Json}
    {c : Compiled} (h : config.statement kind json = .ok c) :
    ∃ root f marks stored atoms positions, config.segment kind json = .ok root
      ∧ Traced config kind json c f marks stored atoms ∧ positions.Pairwise (· < ·)
      ∧ List.Forall₂ (NullTest.WrittenAt config.dialect marks)
        (root.all.filterMap Segment.nullTest?) positions := by
  obtain ⟨f, marks, stored, htraced, -, -⟩ := exists_traced h
  obtain ⟨root, hroot, rfl⟩ := exists_segment htraced.fragment_eq
  obtain ⟨mode, htraces⟩ := htraced.traces
  have hown : ∀ s test, Segment.nullTest? s = some test → ∀ tests,
      (∀ f : Fragment, f.Holds (Segment.fragments s.children) →
        f.Yields config.dialect (Shown config.dialect tests)) →
      s.body.Yields config.dialect (Shown config.dialect (tests ++ [test])) := by
    intro s test htest tests hchildren
    obtain ⟨hbody, hleft⟩ := Segment.body_of_nullTest htest
    rw [hbody]
    exact yields_words (hchildren _ hleft)
  obtain ⟨positions, hsorted, hwritten⟩ := root.yields_all gathers_shown hown htraces
  exact ⟨root, _, marks, stored, _, positions, hroot, htraced, hsorted, hwritten⟩

/-- Orders joined with users on an owner that is null; they are not closed, and they have a note. -/
def openOrders : Json :=
  .obj [("table", .str "orders"), ("alias", .str "o"),
    ("join", .arr [.obj [("table", .str "users"), ("using", .obj [("owner", .null)])]]),
    ("where", .obj [("closed", .str "NULL"),
      ("str", .obj [("value", .str "note"), ("compare", .obj [("notEq", .null)])])])]

theorem null_tests_of_statement_openOrders :
    ∃ c marks positions, ({ dialect := .sqlite } : Config).statement .select openOrders = .ok c
      ∧ c.sql = render .sqlite (marks.map Mark.lexeme) ∧ positions.Pairwise (· < ·)
      ∧ List.Forall₂ (NullTest.WrittenAt .sqlite marks)
        [⟨.path "o.owner", .equalsNull⟩, ⟨.path "o.closed", .isNull⟩, ⟨.path "o.note", .isNotNull⟩]
        positions := by
  obtain ⟨c, hc⟩ : ∃ c, ({ dialect := .sqlite } : Config).statement .select openOrders = .ok c :=
    ⟨_, rfl⟩
  obtain ⟨root, f, marks, stored, atoms, positions, hroot, htraced, hsorted, hwritten⟩ :=
    null_tests_of_statement hc
  cases hroot
  refine ⟨c, marks, positions, hc, htraced.sql_eq, hsorted, ?_⟩
  rw [Segment.all_eq_upTo 8 rfl] at hwritten
  exact hwritten

end Config

end QueryTree
