import Mathlib.Data.List.Forall2
import QueryTree.Proofs.Binding.Content
import QueryTree.Proofs.Binding.Written
import QueryTree.Sql.Statement

/-!
# Texts given as data

A text that is given as the value of a column is bound as it is, whatever it looks like. Two
statements that differ in such texts only end in the same error, or have the same text and the
same values, but for the texts themselves.

* `fill`: the values of a pattern, with texts in its holes.
* `Fragment.Retexted`: fragments that amount to the same but for texts among their values.
* `Write.SameButTexts`, `Write.dataTexts`: statements that differ in their data texts only, and
  those texts in the order they are written in.
* `Write.texts_only_bound`: such statements compile alike.
-/

namespace QueryTree

open Fragment (word tokens join spaced commas parens call)
open Cipher (Settings Key)

/-! ## Patterns -/

/-- The values of a pattern, with the texts in its holes. -/
def fill : List (Option Value) → List String → List Value
  | [], _ => []
  | some v :: pattern, texts => v :: fill pattern texts
  | none :: pattern, t :: texts => .text t :: fill pattern texts
  | none :: pattern, [] => fill pattern []

/-- The number of holes of a pattern. -/
def holes (pattern : List (Option Value)) : Nat :=
  pattern.countP Option.isNone

theorem fill_append {pattern pattern' : List (Option Value)} {texts texts' : List String}
    (h : holes pattern = texts.length) :
    fill (pattern ++ pattern') (texts ++ texts') = fill pattern texts ++ fill pattern' texts' := by
  induction pattern generalizing texts with
  | nil =>
      obtain rfl := List.length_eq_zero_iff.1 h.symm
      rfl
  | cons part pattern ih =>
      cases part with
      | some v =>
          have hrest : holes pattern = texts.length := by simpa [holes] using h
          simp [fill, ih hrest]
      | none =>
          cases texts with
          | nil => simp [holes] at h
          | cons t texts =>
              have hrest : holes pattern = texts.length := by simpa [holes] using h
              simp [fill, ih hrest]

theorem fill_some (values : List Value) : fill (values.map some) [] = values := by
  induction values with
  | nil => rfl
  | cons v values ih => rw [List.map_cons, fill, ih]

/-- The texts fit the holes of the pattern, and the values are those of the pattern. -/
def Filled (pattern : List (Option Value)) (texts : List String) (values : List Value) : Prop :=
  holes pattern = texts.length ∧ values = fill pattern texts

theorem Filled.append {pattern pattern' : List (Option Value)} {texts texts' : List String}
    {values values' : List Value} (h : Filled pattern texts values)
    (h' : Filled pattern' texts' values') :
    Filled (pattern ++ pattern') (texts ++ texts') (values ++ values') := by
  refine ⟨?_, ?_⟩
  · have hsum : holes (pattern ++ pattern') = holes pattern + holes pattern' :=
      List.countP_append
    rw [hsum, h.1, h'.1, List.length_append]
  · rw [fill_append h.1, h.2, h'.2]

theorem Filled.fixed (values : List Value) : Filled (values.map some) [] values := by
  refine ⟨?_, (fill_some values).symm⟩
  simp [holes, List.countP_map, Function.comp_def]

/-! ## Fragments -/

namespace Fragment

/-- Fragments that stop at the same errors, write the same, and store the same but for texts, which
are these ones in turn. -/
structure Retexted (dialect : Dialect) (f f' : Fragment) (texts texts' : List String) : Prop where
  hurdles_eq : f.hurdles = f'.hurdles
  lexemes_eq (n : Nat) : f.lexemes dialect n = f'.lexemes dialect n
  length_eq : (f.stored dialect).length = (f'.stored dialect).length
  stored : (∀ e, .error e ∉ f.hurdles) → ∃ pattern,
    Filled pattern texts ((f.stored dialect).map Stored.value)
      ∧ Filled pattern texts' ((f'.stored dialect).map Stored.value)

variable {dialect : Dialect} {f f' g g' : Fragment} {texts texts' us us' : List String}

namespace Retexted

theorem refl (f : Fragment) : f.Retexted dialect f [] [] :=
  ⟨rfl, fun _ => rfl, rfl, fun _ => ⟨_, .fixed _, .fixed _⟩⟩

theorem text (s s' : String) : (text s).Retexted dialect (text s') [s] [s'] :=
  ⟨rfl, fun _ => rfl, rfl, fun _ => ⟨[none], ⟨rfl, rfl⟩, ⟨rfl, rfl⟩⟩⟩

/-- Which texts are meant does not matter where there is no way past an error. -/
theorem fail (e : CompileError) : (fail e).Retexted dialect (fail e) texts texts' :=
  ⟨rfl, fun _ => rfl, rfl, fun h => absurd (List.mem_singleton.2 rfl) (h e)⟩

theorem parens (h : f.Retexted dialect f' texts texts') :
    (parens f).Retexted dialect (parens f') texts texts' where
  hurdles_eq := h.hurdles_eq
  lexemes_eq n := congrArg (fun ts => Delimiters.parens.left ++ ts ++ Delimiters.parens.right)
    (h.lexemes_eq n)
  length_eq := h.length_eq
  stored := h.stored

theorem append (hf : f.Retexted dialect f' texts texts') (hg : g.Retexted dialect g' us us') :
    (f ++ g).Retexted dialect (f' ++ g') (texts ++ us) (texts' ++ us') where
  hurdles_eq := by rw [hurdles_append, hurdles_append, hf.hurdles_eq, hg.hurdles_eq]
  lexemes_eq n := by
    change f.lexemes dialect n ++ _ = f'.lexemes dialect n ++ _
    rw [hf.lexemes_eq, hg.lexemes_eq, hf.length_eq]
  length_eq := by simp [hf.length_eq, hg.length_eq]
  stored h := by
    obtain ⟨pattern, hp, hp'⟩ := hf.stored fun e he => h e (by simp [he])
    obtain ⟨pattern', hq, hq'⟩ := hg.stored fun e he => h e (by simp [he])
    refine ⟨pattern ++ pattern', ?_, ?_⟩
    · simpa using hp.append hq
    · simpa using hp'.append hq'

theorem before (f : Fragment) (h : g.Retexted dialect g' us us') :
    (f ++ g).Retexted dialect (f ++ g') us us' :=
  (refl f).append h

theorem after (h : f.Retexted dialect f' texts texts') (g : Fragment) :
    (f ++ g).Retexted dialect (f' ++ g) texts texts' := by
  simpa using h.append (refl g)

/-- Bound at the same place, both fragments meet the same error, or they have the same text and
values of one pattern. -/
theorem sql (h : f.Retexted dialect f' texts texts') (b : Bindings) :
    (∃ e, (f.sql dialect b).1 = .error e ∧ (f'.sql dialect b).1 = .error e)
      ∨ ∃ sql pattern index mode values values',
        f.sql dialect b = (.ok sql, ⟨index, b.values ++ values, mode⟩)
        ∧ f'.sql dialect b = (.ok sql, ⟨index, b.values ++ values', mode⟩)
        ∧ Filled pattern texts values ∧ Filled pattern texts' values' := by
  rcases run_or_stop dialect f b with ⟨mode, hpass, hrun⟩ | ⟨e, hstop, hrun⟩
  · rcases run_or_stop dialect f' b with ⟨mode', hpass', hrun'⟩ | ⟨e, hstop, -⟩
    · obtain ⟨pattern, hfilled, hfilled'⟩ := h.stored (Hurdle.not_mem_of_passAll hpass)
      obtain rfl : mode = mode' := by
        rw [h.hurdles_eq, hpass'] at hpass
        exact (Except.ok.inj hpass).symm
      refine .inr ⟨render dialect (f.lexemes dialect b.index), pattern,
        b.index + (f.stored dialect).length, mode, _, _, ?_, ?_, hfilled, hfilled'⟩
      · rw [Fragment.sql, hrun]
        rfl
      · rw [Fragment.sql, hrun', h.lexemes_eq, h.length_eq]
        rfl
    · rw [h.hurdles_eq, hstop] at hpass
      cases hpass
  · rcases run_or_stop dialect f' b with ⟨mode', hpass', -⟩ | ⟨e', hstop', hrun'⟩
    · rw [h.hurdles_eq, hpass'] at hstop
      cases hstop
    · obtain rfl : e = e' := by
        rw [h.hurdles_eq, hstop'] at hstop
        exact (Except.error.inj hstop).symm
      exact .inl ⟨e, sql_error_iff.2 hrun, sql_error_iff.2 hrun'⟩

end Retexted

/-- Fragments that amount to the same one by one, with their texts in a row. -/
inductive RetextedAll (dialect : Dialect) :
    List Fragment → List Fragment → List String → List String → Prop
  | nil : RetextedAll dialect [] [] [] []
  | cons {f f' : Fragment} {fs fs' : List Fragment} {texts texts' us us' : List String}
      (h : f.Retexted dialect f' texts texts') (hrest : RetextedAll dialect fs fs' us us') :
      RetextedAll dialect (f :: fs) (f' :: fs') (texts ++ us) (texts' ++ us')

namespace RetextedAll

variable {fs fs' : List Fragment}

theorem refl (fs : List Fragment) : RetextedAll dialect fs fs [] [] := by
  induction fs with
  | nil => exact .nil
  | cons f fs ih => exact .cons (.refl f) ih

theorem first (h : f.Retexted dialect f' texts texts') (rest : List Fragment) :
    RetextedAll dialect (f :: rest) (f' :: rest) texts texts' := by
  simpa using cons h (refl rest)

theorem skip (f : Fragment) (h : RetextedAll dialect fs fs' texts texts') :
    RetextedAll dialect (f :: fs) (f :: fs') texts texts' :=
  .cons (.refl f) h

theorem join (separator : List Lexeme) (h : RetextedAll dialect fs fs' texts texts') :
    (join separator fs).Retexted dialect (join separator fs') texts texts' := by
  induction h with
  | nil => exact .refl _
  | cons h hrest ih =>
      cases hrest with
      | nil => simpa [Fragment.join] using h
      | cons hnext hrest => exact (h.after _).append ih

theorem call (function : String) (h : RetextedAll dialect fs fs' texts texts') :
    (call function fs).Retexted dialect (call function fs') texts texts' :=
  .before _ (.parens (h.join _))

end RetextedAll

end Fragment

open Fragment (Retexted RetextedAll)

/-! ## Cells -/

section Cells

variable {dialect : Dialect} {f f' : Fragment} {texts texts' : List String}

theorem retexted_apply (key : Key) (d : Dialect) (h : f.Retexted dialect f' texts texts') :
    (key.apply d .encrypt f).Retexted dialect (key.apply d .encrypt f') texts texts' := by
  cases d with
  | mysql => exact RetextedAll.call _ (.first h _)
  | postgresql =>
      have hcast : (f.cast ["TEXT"]).Retexted dialect (f'.cast ["TEXT"]) texts texts' :=
        .before _ (.parens (RetextedAll.join _ (.first h _)))
      exact RetextedAll.call _ (.first hcast _)
  | sqlite => exact h.after _

theorem retexted_cipher (scope : Scope) (settings : Settings)
    (h : f.Retexted dialect f' texts texts') :
    (scope.cipher .encrypt settings f).Retexted dialect (scope.cipher .encrypt settings f')
      texts texts' := by
  unfold Scope.cipher
  split
  · exact retexted_apply _ _ h
  · exact h.after _

end Cells

/-- The text that a cell is given as. -/
def Expr.dataTexts : Expr → List String
  | .text s => [s]
  | _ => []

/-- Values of a column that are the same or both texts. -/
inductive SameButText : String × Expr → String × Expr → Prop
  | same (column : String) (e : Expr) : SameButText (column, e) (column, e)
  | text (column s s' : String) : SameButText (column, .text s) (column, .text s')

theorem SameButText.column_eq {x x' : String × Expr} (h : SameButText x x') : x'.1 = x.1 := by
  cases h <;> rfl

namespace Write

/-- Statements that differ in the contents of texts given directly as data only. -/
structure SameButTexts (write write' : Write) : Prop where
  table : write'.table = write.table
  alias? : write'.alias? = write.alias?
  rows : List.Forall₂ (List.Forall₂ SameButText) write.rows write'.rows
  filter : write'.filter = write.filter
  junction : write'.junction = write.junction
  upsert : List.Forall₂ SameButText write.upsert write'.upsert
  indexes : write'.indexes = write.indexes
  encrypt : write'.encrypt = write.encrypt
  encryption : write'.encryption = write.encryption

/-- The texts of a row, in its own order. -/
def rowTexts (row : Row) : List String :=
  row.flatMap fun (_, e) => e.dataTexts

/-- The texts of a row, in the order of the columns of the first row. -/
def tupleTexts (first row : Row) : List String :=
  first.flatMap fun (column, _) => ((row.lookup column).map Expr.dataTexts).getD []

/-- The texts given directly as data, in the order they are written in. -/
def dataTexts (write : Write) : List String :=
  if write.filter.isSome then write.rows.flatMap rowTexts
  else write.rows.flatMap (tupleTexts (write.rows.headD [])) ++ rowTexts write.upsert

variable {write write' : Write} {scope : Scope} {dialect : Dialect} {first first' row row' : Row}

theorem retexted_cell (hencrypt : write'.encrypt = write.encrypt) {column : String} {e e' : Expr}
    (h : SameButText (column, e) (column, e')) :
    (write.cell scope column e).Retexted dialect (write'.cell scope column e')
      e.dataTexts e'.dataTexts := by
  have hplain : (plainCell scope column e).Retexted dialect (plainCell scope column e')
      e.dataTexts e'.dataTexts := by
    cases h with
    | text _ s s' => exact .text s s'
    | same =>
        cases e with
        | text s => exact .text s s
        | null | bool | number | list | wrapper | condition => exact .refl _
  unfold cell
  rw [hencrypt]
  cases write.encrypt.lookup column with
  | some settings => exact retexted_cipher scope settings hplain
  | none => exact hplain

theorem retexted_equals {f f' : Fragment} {texts texts' : List String} (left : Fragment)
    (h : f.Retexted dialect f' texts texts') :
    (equals left f).Retexted dialect (equals left f') texts texts' :=
  RetextedAll.join _ (.skip _ (.skip _ (.first h [])))

theorem retexted_assignments (hencrypt : write'.encrypt = write.encrypt)
    (h : List.Forall₂ SameButText row row') :
    (write.assignments scope row).Retexted dialect (write'.assignments scope row')
      (rowTexts row) (rowTexts row') := by
  refine RetextedAll.join _ ?_
  induction h with
  | nil => exact .nil
  | cons hcell _ ih =>
      cases hcell with
      | same column e =>
          exact .cons (retexted_equals _ (retexted_cell hencrypt (.same column e))) ih
      | text column s s' =>
          exact .cons (retexted_equals _ (retexted_cell hencrypt (.text column s s'))) ih

/-- A column has values in both rows or in none. -/
theorem lookup_sameButText (h : List.Forall₂ SameButText row row') (column : String) :
    (row.lookup column = none ∧ row'.lookup column = none)
      ∨ ∃ e e', row.lookup column = some e ∧ row'.lookup column = some e'
        ∧ SameButText (column, e) (column, e') := by
  induction h with
  | nil => exact .inl ⟨rfl, rfl⟩
  | @cons x x' rest rest' hcell _ ih =>
      obtain ⟨key, e⟩ := x
      obtain ⟨key', e'⟩ := x'
      obtain rfl : key' = key := hcell.column_eq
      by_cases hcolumn : column = key'
      · subst hcolumn
        exact .inr ⟨e, e', List.lookup_cons_self, List.lookup_cons_self, hcell⟩
      · rw [List.lookup_cons, List.lookup_cons, beq_false_of_ne hcolumn]
        exact ih

theorem retexted_items (hencrypt : write'.encrypt = write.encrypt)
    (hfirst : List.Forall₂ SameButText first first') (hrow : List.Forall₂ SameButText row row')
    (index : Nat) :
    RetextedAll dialect
      (first.map fun (column, _) =>
        match row.lookup column with
        | some e => write.cell scope column e
        | none => unevenRow index)
      (first'.map fun (column, _) =>
        match row'.lookup column with
        | some e => write'.cell scope column e
        | none => unevenRow index)
      (tupleTexts first row) (tupleTexts first' row') := by
  induction hfirst with
  | nil => exact .nil
  | @cons x x' _ _ hcell _ ih =>
      refine .cons ?_ ih
      dsimp only
      rw [hcell.column_eq]
      obtain ⟨hnone, hnone'⟩ | ⟨e, e', hsome, hsome', hsame⟩ := lookup_sameButText hrow x.1
      · rw [hnone, hnone']
        exact .fail _
      · rw [hsome, hsome']
        exact retexted_cell hencrypt hsame

theorem retexted_tuple (hencrypt : write'.encrypt = write.encrypt)
    (hfirst : List.Forall₂ SameButText first first') (hrow : List.Forall₂ SameButText row row')
    (index : Nat) :
    (write.tuple scope first index row).Retexted dialect (write'.tuple scope first' index row')
      (tupleTexts first row) (tupleTexts first' row') := by
  unfold tuple
  rw [← hrow.length_eq, ← hfirst.length_eq]
  split
  · exact .parens (RetextedAll.join _ (retexted_items hencrypt hfirst hrow index))
  · exact .fail _

theorem retexted_tuples (dialect : Dialect) (scope : Scope)
    (hencrypt : write'.encrypt = write.encrypt)
    (hfirst : List.Forall₂ SameButText first first') {rows rows' : List Row}
    (hrows : List.Forall₂ (List.Forall₂ SameButText) rows rows') (offset : Nat) :
    RetextedAll dialect (rows.mapIdx fun index => write.tuple scope first (index + offset))
      (rows'.mapIdx fun index => write'.tuple scope first' (index + offset))
      (rows.flatMap (tupleTexts first)) (rows'.flatMap (tupleTexts first')) := by
  induction hrows generalizing offset with
  | nil => exact .nil
  | cons hrow _ ih =>
      rw [List.mapIdx_cons, List.mapIdx_cons]
      have hrest := ih (offset + 1)
      simp only [Nat.add_comm offset 1, ← Nat.add_assoc] at hrest
      exact .cons (retexted_tuple hencrypt hfirst hrow _) hrest

/-! ## Statements -/

theorem isEmpty_eq (h : List.Forall₂ SameButText row row') : row'.isEmpty = row.isEmpty := by
  cases h <;> rfl

theorem retexted_clause {f f' : Fragment} {texts texts' : List String} (ws : List String)
    (h : f.Retexted dialect f' texts texts') :
    (clause ws f).Retexted dialect (clause ws f') texts texts' :=
  .before _ (RetextedAll.join _ (.skip _ (.first h [])))

theorem retexted_upsert (h : write.SameButTexts write') (scope : Scope) :
    (write.upsertFragment scope).Retexted dialect (write'.upsertFragment scope)
      (rowTexts write.upsert) (rowTexts write'.upsert) := by
  have hset : (write.assignments scope write.upsert).Retexted dialect
      (write'.assignments scope write'.upsert) (rowTexts write.upsert) (rowTexts write'.upsert) :=
    retexted_assignments h.encrypt h.upsert
  have hempty := isEmpty_eq h.upsert
  unfold upsertFragment
  rw [hempty, h.indexes]
  split
  · next hnil =>
      rw [List.isEmpty_iff.1 hnil, List.isEmpty_iff.1 (hempty.trans hnil)]
      exact .refl _
  · split
    · exact retexted_clause _ hset
    all_goals
      split
      · exact .fail _
      · exact retexted_clause _
          (RetextedAll.join _ (.skip _ (.skip _ (.skip _ (.skip _ (.first hset []))))))

theorem paths_eq (h : List.Forall₂ SameButText row row') :
    (row'.map fun (column, _) => Fragment.path column)
      = row.map fun (column, _) => Fragment.path column := by
  induction h with
  | nil => rfl
  | cons hcell _ ih =>
      rw [List.map_cons, List.map_cons, ih]
      cases hcell <;> rfl

theorem retexted_insert (h : write.SameButTexts write') (outer : Scope) :
    (write.insertFragment outer).Retexted dialect (write'.insertFragment outer)
      (write.rows.flatMap (tupleTexts (write.rows.headD [])) ++ rowTexts write.upsert)
      (write'.rows.flatMap (tupleTexts (write'.rows.headD [])) ++ rowTexts write'.upsert) := by
  unfold insertFragment
  rw [h.table, h.encryption]
  have hrows := h.rows
  generalize write.rows = rows at hrows ⊢
  generalize write'.rows = rows' at hrows ⊢
  cases hrows with
  | nil => exact .fail _
  | @cons first first' rest rest' hfirst hrest =>
      have htuples := retexted_tuples dialect (outer.target write.table none write.encryption)
        h.encrypt hfirst (.cons hfirst hrest) 0
      dsimp only
      rw [paths_eq hfirst]
      refine Fragment.Retexted.append ?_ (retexted_upsert h _)
      exact RetextedAll.join _ (.skip _ (.skip _ (.skip _ (.skip _ (.skip _
        (.first (htuples.join _) []))))))

theorem retexted_update (h : write.SameButTexts write') (outer : Scope) :
    (write.updateFragment outer).Retexted dialect (write'.updateFragment outer)
      (write.rows.flatMap rowTexts) (write'.rows.flatMap rowTexts) := by
  unfold updateFragment
  rw [h.table, h.alias?, h.encryption, h.junction, h.filter, isEmpty_eq h.upsert]
  have hrows := h.rows
  generalize write.rows = rows at hrows ⊢
  generalize write'.rows = rows' at hrows ⊢
  cases hrows with
  | nil => exact .fail _
  | cons hrow hrest =>
      cases hrest with
      | cons _ _ => exact .fail _
      | nil =>
          dsimp only
          split
          · rw [List.flatMap_singleton, List.flatMap_singleton]
            refine .after ?_ _
            exact RetextedAll.join _ (.skip _ (.skip _ (.skip _
              (.first (retexted_assignments h.encrypt hrow) []))))
          · exact .fail _

theorem retexted_fragment (h : write.SameButTexts write') (outer : Scope) :
    (write.fragment outer).Retexted dialect (write'.fragment outer) write.dataTexts
      write'.dataTexts := by
  unfold fragment dataTexts
  rw [h.filter]
  split
  · exact retexted_update h outer
  · exact retexted_insert h outer

end Write

/-- **Texts given as data are only ever bound.** Two statements that differ in them only end in the
same error, or have the same text and values of one pattern, whose holes hold the texts of each in
the order they are written in. -/
theorem Write.texts_only_bound (write write' : Write) (outer : Scope) (b : Bindings)
    (h : write.SameButTexts write') :
    (∃ e, ((write.fragment outer).sql outer.dialect b).1 = .error e
        ∧ ((write'.fragment outer).sql outer.dialect b).1 = .error e)
      ∨ ∃ sql pattern index mode values values',
        (write.fragment outer).sql outer.dialect b = (.ok sql, ⟨index, b.values ++ values, mode⟩)
        ∧ (write'.fragment outer).sql outer.dialect b
          = (.ok sql, ⟨index, b.values ++ values', mode⟩)
        ∧ Filled pattern write.dataTexts values ∧ Filled pattern write'.dataTexts values' :=
  (retexted_fragment h outer).sql b

/-- Two rows and an upsert, with an encrypted column; the second row is given the other way
round. -/
def Write.notes (s t u : String) : Write where
  table := "notes"
  alias? := none
  rows := [[("id", .number (.int 1)), ("body", .text s)], [("body", .text t), ("id", .text "2")]]
  filter := none
  junction := .and
  upsert := [("body", .text u)]
  indexes := ["id"]
  encrypt := [("body", { secret := some "key", vector := some "0123456789abcdef" })]
  encryption := none

/-- A constant, a null token and a column of the table against a literal, a date and a quote. -/
theorem Write.texts_only_bound_notes :
    (notes "now" "null" "notes.id").SameButTexts (notes "#x" "2020-01-01" "'")
      ∧ ∃ sql pattern values values' index mode,
        ((notes "now" "null" "notes.id").fragment (.outermost .postgresql none)).sql .postgresql {}
          = (.ok sql, ⟨index, values, mode⟩)
        ∧ ((notes "#x" "2020-01-01" "'").fragment (.outermost .postgresql none)).sql .postgresql {}
          = (.ok sql, ⟨index, values', mode⟩)
        ∧ Filled pattern ["now", "2", "null", "notes.id"] values
        ∧ Filled pattern ["#x", "2", "2020-01-01", "'"] values' := by
  have hsame : (notes "now" "null" "notes.id").SameButTexts (notes "#x" "2020-01-01" "'") := by
    refine ⟨rfl, rfl, ?_, rfl, rfl, ?_, rfl, rfl, rfl⟩
    · exact .cons (.cons (.same _ _) (.cons (.text _ _ _) .nil))
        (.cons (.cons (.text _ _ _) (.cons (.same _ _) .nil)) .nil)
    · exact .cons (.text _ _ _) .nil
  refine ⟨hsame, ?_⟩
  rcases texts_only_bound _ _ (.outermost .postgresql none) {} hsame with
    ⟨e, herror, -⟩ | ⟨sql, pattern, index, mode, values, values', hsql, hsql', hfilled, hfilled'⟩
  · cases herror
  · exact ⟨sql, pattern, values, values', index, mode, hsql, hsql', hfilled, hfilled'⟩

end QueryTree
