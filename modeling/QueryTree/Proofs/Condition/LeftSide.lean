import Mathlib.Algebra.Ring.Nat
import QueryTree.Proofs.Binding.Trace
import QueryTree.Proofs.Binding.Written
import QueryTree.Proofs.Nesting.Tree

/-!
# Left sides

The comparisons of a condition under a column, or of a wrapper, are about the column or the
wrapper. Each of them writes it once more, and binds its values once more; entries that compare
something else do not.

* `Copies`, `WritesCopies`: what stands several times in a trace, each time with its own calls.
* `Repeats`: fragments in every trace of which another one stands so many times.
* `comparisonsOf`: the number of comparisons that are about what is around them.
* `Entry.repeats`: each comparison writes its left side.
* `left_side_of_text`: the texts of columns and wrappers with comparisons.
-/

namespace QueryTree

open Fragment (spaced)

/-! ## Copies -/

/-- Bound at some place, the fragment writes these lexemes, and these calls store its values. -/
def Fragment.TracedAs (dialect : Dialect) (f : Fragment) (marks : List Mark)
    (stored : List Call) : Prop :=
  ∃ n mode mode', Traces dialect f n mode marks stored mode'

/-- `n` stretches of a trace are copies, one after the other in the text and in the list of
calls. -/
inductive Copies (copy : List Mark → List Call → Prop) : Nat → List Mark → List Call → Prop
  | none (marks : List Mark) (stored : List Call) : Copies copy 0 marks stored
  | next (before : List Mark) (earlier : List Call) {ms marks : List Mark} {cs stored : List Call}
      {n : Nat} : copy ms cs → Copies copy n marks stored →
      Copies copy (n + 1) (before ++ ms ++ marks) (earlier ++ cs ++ stored)

/-- Bound from `b` to `b'`, the fragment has the given text, in which `n` copies stand. A trace ties
each of them to the values that were bound for it. -/
def WritesCopies (dialect : Dialect) (f : Fragment) (n : Nat)
    (copy : List Mark → List Call → Prop) (b : Bindings) (text : String) (b' : Bindings) : Prop :=
  ∃ marks stored, Traces dialect f b.index b.mode marks stored b'.mode
    ∧ text = render dialect (marks.map Mark.lexeme)
    ∧ b'.values = b.values ++ stored.map Call.value
    ∧ Copies copy n marks stored

namespace Copies

variable {copy : List Mark → List Call → Prop} {n m : Nat} {ms ns : List Mark} {cs ds : List Call}

theorem after (before : List Mark) (earlier : List Call) (h : Copies copy n ms cs) :
    Copies copy n (before ++ ms) (earlier ++ cs) := by
  cases h with
  | none => exact .none _ _
  | next before' earlier' hcopy hrest =>
      have hnext := Copies.next (before ++ before') (earlier ++ earlier') hcopy hrest
      simpa using hnext

/-- Copies in two parts of a trace follow one another. -/
theorem append (h : Copies copy n ms cs) (h' : Copies copy m ns ds) :
    Copies copy (n + m) (ms ++ ns) (cs ++ ds) := by
  induction h with
  | none ms cs => simpa using h'.after ms cs
  | next before earlier hcopy _ ih =>
      have hnext := Copies.next before earlier hcopy ih
      rw [Nat.add_right_comm]
      simpa using hnext

theorem imp {copy' : List Mark → List Call → Prop} (himp : ∀ ms cs, copy ms cs → copy' ms cs)
    (h : Copies copy n ms cs) : Copies copy' n ms cs := by
  induction h with
  | none ms cs => exact .none ms cs
  | next before earlier hcopy _ ih => exact .next before earlier (himp _ _ hcopy) ih

theorem exists_copy (h : Copies copy (n + 1) ms cs) :
    ∃ us own, copy us own ∧ us ⊆ ms ∧ own ⊆ cs := by
  cases h with
  | next before earlier hcopy _ => exact ⟨_, _, hcopy, by simp, by simp⟩

end Copies

theorem WritesCopies.imp {dialect : Dialect} {f : Fragment} {n : Nat}
    {copy copy' : List Mark → List Call → Prop} {b b' : Bindings} {text : String}
    (himp : ∀ ms cs, copy ms cs → copy' ms cs) (h : WritesCopies dialect f n copy b text b') :
    WritesCopies dialect f n copy' b text b' := by
  obtain ⟨marks, stored, htrace, htext, hvalues, hcopies⟩ := h
  exact ⟨marks, stored, htrace, htext, hvalues, hcopies.imp himp⟩

/-! ## Fragments that repeat their left side -/

/-- Whatever trace the fragment has, the left side stands in it `n` times. -/
def Repeats (dialect : Dialect) (left f : Fragment) (n : Nat) : Prop :=
  ∀ ms cs, f.TracedAs dialect ms cs → Copies (left.TracedAs dialect) n ms cs

variable {dialect : Dialect} {left : Fragment}

namespace Repeats

variable {f g : Fragment} {n m : Nat}

theorem zero (f : Fragment) : Repeats dialect left f 0 :=
  fun ms cs _ => .none ms cs

theorem self (left : Fragment) : Repeats dialect left left 1 := by
  intro ms cs h
  have hcopy := Copies.next [] [] h (.none [] [])
  simpa using hcopy

/-- What is never written repeats anything. -/
theorem of_halts (h : f.halts = true) (n : Nat) : Repeats dialect left f n := by
  rintro ms cs ⟨k, mode, mode', htrace⟩
  rw [Fragment.halts_eq_false_of_run (htrace.run [])] at h
  cases h

theorem append (hf : Repeats dialect left f n) (hg : Repeats dialect left g m) :
    Repeats dialect left (f ++ g) (n + m) := by
  rintro _ _ ⟨k, mode, mode', htrace⟩
  cases htrace with
  | append hms hns => exact (hf _ _ ⟨_, _, _, hms⟩).append (hg _ _ ⟨_, _, _, hns⟩)

theorem enclosed (delimiters : Delimiters) (hf : Repeats dialect left f n) :
    Repeats dialect left (.enclosed delimiters f) n := by
  rintro _ _ ⟨k, mode, mode', htrace⟩
  cases htrace with
  | enclosed hms =>
      have hopened := (hf _ _ ⟨_, _, _, hms⟩).after (fixed delimiters.left) []
      have hclosed := hopened.append (.none (fixed delimiters.right) [])
      simpa using hclosed

/-- What is bound last is written first. -/
theorem crossed (left right : Fragment) : Repeats dialect left (.crossed left right) 1 := by
  rintro _ _ ⟨k, mode, mode', htrace⟩
  cases htrace with
  | @crossed _ _ _ _ _ _ ms ns cs ds hns hms =>
      have hleft : left.TracedAs dialect ms ds := ⟨_, _, _, hms⟩
      have hcopy := Copies.next [] cs hleft (.none ns [])
      simpa using hcopy

theorem join (separator : List Lexeme) {fs : List Fragment} {ns : List Nat}
    (h : List.Forall₂ (Repeats dialect left) fs ns) :
    Repeats dialect left (Fragment.join separator fs) ns.sum := by
  induction h with
  | nil => exact zero _
  | @cons f n fs ns hf hrest ih =>
      cases hrest with
      | nil => exact hf
      | cons hg hrest => exact (hf.append (zero (Fragment.tokens separator))).append ih

theorem spaced (f : Fragment) (rest : List Fragment) :
    Repeats dialect left (spaced (left :: f :: rest)) 1 :=
  ((self left).append (zero _)).append (zero _)

theorem nest {junction : Junction} {fs : List Fragment} {ns : List Nat}
    (h : List.Forall₂ (Repeats dialect left) fs ns) :
    Repeats dialect left (junction.nest fs) ns.sum := by
  match fs, h with
  | [], .nil => exact zero _
  | [f], .cons hf .nil => exact hf
  | f :: g :: rest, h => exact (join _ h).enclosed .parens

theorem group {junction : Junction} {fs : List Fragment} {ns : List Nat}
    (h : List.Forall₂ (Repeats dialect left) fs ns) :
    Repeats dialect left (junction.group fs) ns.sum := by
  unfold Junction.group
  split
  · exact .of_halts rfl _
  · exact .nest h

/-- A text that is written has a trace, in which the copies are found. -/
theorem writesCopies (h : Repeats dialect left f n) {b b' : Bindings} {text : String}
    (hsql : f.sql dialect b = (.ok text, b')) :
    WritesCopies dialect f n (left.TracedAs dialect) b text b' := by
  obtain ⟨ts, hrun, rfl⟩ := Fragment.sql_ok.1 hsql
  obtain ⟨marks, stored, mode, htrace, rfl, rfl⟩ := Traces.of_run hrun
  exact ⟨marks, stored, htrace, rfl, rfl, h _ _ ⟨_, _, _, htrace⟩⟩

end Repeats

/-! ## Conditions -/

mutual

/-- How many comparisons of an entry are about what is around it. Tests for rows are about a query,
columns about themselves, and a wrapper that is compared about its own value. -/
def Entry.comparisons : Entry → Nat
  | .wrapper w => if w.compare.isSome then 0 else 1
  | .all conditions => comparisonsOfAll conditions
  | .any conditions => comparisonsOfAll conditions
  | .between .. => 1
  | .compare comparator _ => if comparator.testsRows then 0 else 1
  | .column .. => 0

/-- The comparisons of entries. -/
def comparisonsOf : List Entry → Nat
  | [] => 0
  | entry :: rest => entry.comparisons + comparisonsOf rest

/-- The comparisons of conditions. -/
def comparisonsOfAll : List (List Entry) → Nat
  | [] => 0
  | entries :: rest => comparisonsOf entries + comparisonsOfAll rest

end

theorem repeats_inList (field : String) (comparator : Comparator) (items : List Fragment) :
    Repeats dialect left (inList field comparator left items) 1 := by
  unfold inList
  split
  · exact .of_halts rfl _
  · exact .spaced _ _

variable {scope : Scope}

/-- A comparator that does not test for rows writes its left side once. -/
theorem repeats_compareEntry (junction : Junction) {comparator : Comparator}
    (hc : comparator.testsRows = false) (operand : Expr) :
    Repeats dialect left ((Entry.compare comparator operand).fragment (some left) junction scope)
      1 := by
  rw [Entry.fragment_compare_eq]
  have hchooses := comparator.chooses_predicate operand
  generalize comparator.predicate operand = predicate at hchooses ⊢
  cases hchooses with
  | rows _ _ _ h | noQuery _ h => simp [h] at hc
  | items | single => exact repeats_inList _ _ _
  | isNull | isNotNull | nested | plain => exact .spaced _ _

mutual

/-- **Each comparison writes its left side.** -/
theorem Entry.repeats (junction : Junction) : ∀ entry : Entry,
    Repeats dialect left (entry.fragment (some left) junction scope) entry.comparisons
  | .wrapper ⟨_, none, _⟩ => .crossed _ _
  | .wrapper ⟨_, some _, _⟩ => .zero _
  | .all conditions => by
      obtain ⟨ns, hns, hsum⟩ := exists_repeats_conditions junction conditions
      rw [Entry.comparisons, ← hsum]
      exact .nest hns
  | .any conditions => by
      obtain ⟨ns, hns, hsum⟩ := exists_repeats_conditions junction conditions
      rw [Entry.comparisons, ← hsum]
      exact .nest hns
  | .between _ _ => .spaced _ _
  | .compare comparator operand => by
      rw [Entry.comparisons]
      split
      · exact .zero _
      · next hc => exact repeats_compareEntry junction (by simpa using hc) operand
  | .column _ _ => .zero _

theorem exists_repeats_entries (junction : Junction) : ∀ entries : List Entry, ∃ ns,
    List.Forall₂ (Repeats dialect left) (entryFragments (some left) junction scope entries) ns
      ∧ ns.sum = comparisonsOf entries
  | [] => ⟨[], .nil, rfl⟩
  | entry :: rest => by
      obtain ⟨ns, hns, hsum⟩ := exists_repeats_entries junction rest
      exact ⟨entry.comparisons :: ns, .cons (entry.repeats junction) hns,
        by rw [List.sum_cons, hsum, comparisonsOf]⟩

theorem exists_repeats_conditions (junction : Junction) : ∀ conditions : List (List Entry), ∃ ns,
    List.Forall₂ (Repeats dialect left) (groupFragments (some left) junction scope conditions) ns
      ∧ ns.sum = comparisonsOfAll conditions
  | [] => ⟨[], .nil, rfl⟩
  | entries :: rest => by
      obtain ⟨ns, hns, hsum⟩ := exists_repeats_entries junction entries
      obtain ⟨ms, hms, hsum'⟩ := exists_repeats_conditions junction rest
      exact ⟨ns.sum :: ms, .cons (.group hns) hms,
        by rw [List.sum_cons, hsum, hsum', comparisonsOfAll]⟩

end

/-- **A condition writes its left side once for each of its comparisons.** -/
theorem repeats_group (junction : Junction) (entries : List Entry) :
    Repeats dialect left (junction.group (entryFragments (some left) junction scope entries))
      (comparisonsOf entries) := by
  obtain ⟨ns, hns, hsum⟩ := exists_repeats_entries junction entries
  rw [← hsum]
  exact .group hns

/-- **Left sides are not dropped.** The text of a column with a condition holds the column once for
each comparison that the condition applies to it, directly or in its lists of conditions. So does
the text of a wrapper that is compared: it holds what the wrapper is without the comparisons. Each
copy has values of its own, which stand in the list of all values. -/
theorem left_side_of_text (scope : Scope) (entries : Condition) {b b' : Bindings} {text : String} :
    (∀ (key : String) (parent : Option Fragment) (junction : Junction),
      let f := (Entry.column key (.condition entries)).fragment parent junction scope
      f.sql scope.dialect b = (.ok text, b') →
        WritesCopies scope.dialect f (comparisonsOf entries)
          ((Token.column scope key).TracedAs scope.dialect) b text b')
    ∧ ∀ (core : Core) (alias? : Option String),
      let f := Wrapper.fragment scope ⟨core, some entries, alias?⟩
      f.sql scope.dialect b = (.ok text, b') →
        WritesCopies scope.dialect f (comparisonsOf entries)
          ((core.fragment scope).TracedAs scope.dialect) b text b' :=
  ⟨fun _ _ junction => (repeats_group junction entries).writesCopies,
    fun _ _ => (repeats_group .and entries).writesCopies⟩

/-- All orders. -/
def orders : Query where
  table := "orders"
  alias? := none
  select := []
  joins := []
  filter := none
  junction := .and
  groupBy := []
  having := none
  orderBy := []
  limit := none
  offset := none
  encryption := none

/-- There are orders. -/
def hasOrders : Entry :=
  .compare .hasRows (.wrapper ⟨.refer orders, none, none⟩)

/-- More than 18, and either less than 65 or there are orders. -/
def grownUp : Condition :=
  [.compare .gt (.number (.int 18)), .any [[.compare .lt (.number (.int 65))], [hasOrders]]]

/-- Two of three tests are about the column or the wrapper. -/
theorem left_side_of_text_twice :
    comparisonsOf grownUp = 2
    ∧ (∃ b,
      ((Entry.column "age" (.condition grownUp)).fragment none .or { dialect := .mysql }).sql
          .mysql .empty = (.ok "(?? > ? OR (?? < ? OR EXISTS (SELECT * FROM ??)))", b)
        ∧ b.values = [.identifier "age", .int 18, .identifier "age", .int 65, .identifier "orders"]
        ∧ WritesCopies .mysql
          ((Entry.column "age" (.condition grownUp)).fragment none .or { dialect := .mysql }) 2
          ((Token.column { dialect := .mysql } "age").TracedAs .mysql) .empty
          "(?? > ? OR (?? < ? OR EXISTS (SELECT * FROM ??)))" b)
    ∧ ∃ (core : Core) (text : String) (b : Bindings),
      core = .number (.text "age") {} [.power (.number (.int 2))]
        ∧ (Wrapper.fragment { dialect := .sqlite } ⟨core, some grownUp, none⟩).sql .sqlite .empty
          = (.ok text, b)
        ∧ text = "(POWER(\"age\", ?) > ? AND "
          ++ "(POWER(\"age\", ?) < ? OR EXISTS (SELECT * FROM \"orders\")))"
        ∧ b.values = [.int 2, .int 18, .int 2, .int 65]
        ∧ WritesCopies .sqlite
          (Wrapper.fragment { dialect := .sqlite } ⟨core, some grownUp, none⟩) 2
          ((core.fragment { dialect := .sqlite }).TracedAs .sqlite) .empty text b := by
  refine ⟨rfl, ⟨_, rfl, rfl, ?_⟩, _, _, _, rfl, rfl, rfl, rfl, ?_⟩
  · exact (left_side_of_text { dialect := .mysql } grownUp).1 "age" none .or rfl
  · exact (left_side_of_text { dialect := .sqlite } grownUp).2 _ none rfl

/-- Where names are bound, a copy of a name is one of the values. -/
theorem WritesCopies.identifier_mem {f : Fragment} {n : Nat} {path : String} {b b' : Bindings}
    {text : String} (hd : dialect.bindsNames = true)
    (h : WritesCopies dialect f (n + 1) ((Fragment.path path).TracedAs dialect) b text b') :
    .identifier path ∈ b'.values := by
  obtain ⟨marks, stored, -, -, hvalues, hcopies⟩ := h
  obtain ⟨us, own, ⟨k, mode, mode', htrace⟩, -, hown⟩ := hcopies.exists_copy
  cases htrace with
  | boundPath _ _ _ _ =>
      rw [hvalues]
      exact List.mem_append_right _
        (List.mem_map.2 ⟨_, hown List.mem_cons_self, rfl⟩)
  | path _ _ _ hnot => simp [hd] at hnot

/-- Compiled with the given text, a column with nothing but this entry as its condition does not
hold the column, and a wrapper that is compared by it does not hold its core. -/
def Dropped (entry : Entry) (text : String) : Prop :=
  ∃ b, ((Entry.column "age" (.condition [entry])).fragment none .and { dialect := .mysql }).sql
      .mysql .empty = (.ok text, b)
    ∧ ¬ WritesCopies .mysql
      ((Entry.column "age" (.condition [entry])).fragment none .and { dialect := .mysql }) 1
      ((Token.column { dialect := .mysql } "age").TracedAs .mysql) .empty text b
    ∧ (Wrapper.fragment { dialect := .mysql }
        ⟨.number (.text "age") {} [], some [entry], none⟩).sql .mysql .empty = (.ok text, b)
    ∧ ¬ WritesCopies .mysql
      (Wrapper.fragment { dialect := .mysql } ⟨.number (.text "age") {} [], some [entry], none⟩) 1
      ((Core.fragment { dialect := .mysql } (.number (.text "age") {} [])).TracedAs .mysql)
      .empty text b

/-- Another column, compared by a wrapper of its own. -/
def comparedAside : Entry :=
  .wrapper ⟨.number (.text "b") {} [], some [.compare .gt (.number (.int 1))], none⟩

/-- Not every column with a condition is written, nor every wrapper that is compared: tests for
rows, other columns and wrappers with a comparison of their own have no use for it. -/
theorem left_side_dropped :
    Dropped hasOrders "EXISTS (SELECT * FROM ??)"
      ∧ Dropped (.column "b" (.number (.int 1))) "?? = ?"
      ∧ Dropped (.all [[comparedAside]]) "?? > ?" := by
  have hcolumn : Token.column { dialect := .mysql } "age" = .path "age" := rfl
  have hcore : Core.fragment { dialect := .mysql } (.number (.text "age") {} []) = .path "age" :=
    rfl
  have hdropped : ∀ {f : Fragment} {b : Bindings} {text : String},
      .identifier "age" ∉ b.values →
      ¬ WritesCopies .mysql f 1 ((Fragment.path "age").TracedAs .mysql) .empty text b :=
    fun hvalues hcopies => hvalues (hcopies.identifier_mem rfl)
  simp only [Dropped, hcolumn, hcore]
  refine ⟨⟨_, rfl, hdropped ?_, rfl, hdropped ?_⟩, ⟨_, rfl, hdropped ?_, rfl, hdropped ?_⟩,
    ⟨_, rfl, hdropped ?_, rfl, hdropped ?_⟩⟩ <;> decide

end QueryTree
